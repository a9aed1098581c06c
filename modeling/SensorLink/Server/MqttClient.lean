import Mathlib.Data.List.Basic
import Mathlib.Data.Nat.Notation
import SensorLink.Lib.Reach

/-!
# The MQTT client of the server

`client.rs` of the MQTT crate: the task that subscribes and publishes, and the task of the event loop, which polls
the connection. They run side by side. Between them is a watch channel, on which the event loop signals that it is
connected, and the requests of the client. What `poll` returns is up to the network.
-/

namespace SensorLink.Server

open SensorLink.Lib

namespace MqttClient

/-- What `poll` returns: an event of the connection, or an error -/
inductive Polled (P : Type)
  | connAck
  | publish (p : P)
  | other
  | error
deriving DecidableEq

/-- `ParsedMqttIn` -/
inductive ParsedMqttIn (D C : Type)
  | data (msg : D)
  | control (msg : C)
  | smsResponse (id : String) (success : Bool)

inductive ServerStatus
  | ok
  | offline
deriving DecidableEq

/-- A request of the client, or a new connection, in the order in which they come about -/
inductive Entry (M : Type)
  | connAck
  | subscribe (topic : String)
  | status (status : ServerStatus)
  | publish (m : M)
  | disconnect
deriving DecidableEq

/-- `MQTT_TOPICS` -/
def mqttTopics : List String := ["f/#", "sms/resp"]

/-- The rest of the server: the codec, and the topics that it adds -/
structure Env (P D C O M : Type) where
  additionalTopics : List String
  /-- `get_mqtt_message`, which fails where a topic or a payload is not parsed -/
  getMqttMessage : P → Option (ParsedMqttIn D C)
  encodeControlOut : O → Option M

variable {P D C O M : Type}

namespace Env

def topics (env : Env P D C O M) : List String := mqttTopics ++ env.additionalTopics

end Env

/-! ### The event loop -/

structure EventLoop (P D C : Type) where
  errorDetected : Bool
  shutdownRequested : Bool
  exited : Bool
  /-- The handler awaits the end of a message. -/
  processing : Option P
  polled : List (Polled P)
  /-- Sent to `connection_status_tx` -/
  statuses : List Bool
  /-- `on_connection_error` was called for these of the events. -/
  reported : List ℕ
  /-- Sent to the processing task, and whether it took them -/
  data : List (D × Bool)
  /-- Sent to the device task -/
  control : List (C × Bool)
  /-- The events marked as sent -/
  marked : List String

namespace EventLoop

def new : EventLoop P D C := ⟨false, false, false, none, [], [], [], [], [], []⟩

variable (l : EventLoop P D C)

/-- The end of the loop -/
def exit : EventLoop P D C := { l with statuses := l.statuses ++ [false], exited := true }

def handleError : EventLoop P D C :=
  if l.shutdownRequested then l.exit
  else if l.errorDetected then l
  else
    { l with
      reported := l.reported ++ [l.polled.length - 1]
      statuses := l.statuses ++ [false]
      errorDetected := true }

def poll (e : Polled P) : EventLoop P D C :=
  let l := { l with polled := l.polled ++ [e] }
  match e with
  | .connAck => { l with errorDetected := false, statuses := l.statuses ++ [true] }
  | .publish p => { l with errorDetected := false, processing := some p }
  | .error => l.handleError
  | .other => { l with errorDetected := false }

/-- The end of `process_mqtt_topic`; `taken` tells whether the receiver of the message is still there. -/
def process (env : Env P D C O M) (taken : Bool) (p : P) : EventLoop P D C :=
  let l := { l with processing := none }
  match env.getMqttMessage p with
  | none => l
  | some (.data msg) => { l with data := l.data ++ [(msg, taken)] }
  | some (.control msg) => { l with control := l.control ++ [(msg, taken)] }
  | some (.smsResponse id success) => if success then { l with marked := l.marked ++ [id] } else l

def shutdown : EventLoop P D C :=
  let l := { l with shutdownRequested := true }
  if l.errorDetected then l.exit else l

/-- It waits in its `select!`. -/
def Selects : Prop := l.exited = false ∧ l.processing.isNone = true

instance : Decidable l.Selects := inferInstanceAs (Decidable (_ ∧ _))

end EventLoop

/-! ### The client -/

/-- Where `mqtt_task` is -/
inductive Point (M : Type)
  /-- `mqtt_subscribe`: what is left of the topics, and whether it failed for one. -/
  | subscribe (again : Bool) (rest : List String) (failed : Bool)
  | statusOk
  | select
  | publish (m : M)
  /-- It disconnects after a failure, at the start or in the loop. -/
  | failed (again : Bool)
  | statusOffline
  | disconnect
  /-- It gives the event loop some time. -/
  | join
  | done

structure Client (P D C O M : Type) where
  point : Point M
  /-- The version of the channel of connections that `connect_rx` has seen -/
  seen : ℕ
  version : ℕ
  entries : List (Entry M)
  /-- Received from `msg_out` -/
  received : List O
  loop : EventLoop P D C

inductive Op (P O : Type)
  /-- A call of the client returns. -/
  | call (ok : Bool)
  /-- `select!` of the task: a new connection, a message to send, the shutdown -/
  | changed
  | receive (o : O)
  | stop
  /-- `shutdown_with_timeout` returns. -/
  | joined
  | poll (e : Polled P)
  | processed (taken : Bool)
  | shutdownLoop

namespace Client

variable (env : Env P D C O M)

def new : Client P D C O M := ⟨.subscribe false env.topics false, 0, 0, [], [], .new⟩

/-- A request is put into the channel to the event loop. -/
def request (s : Client P D C O M) (ok : Bool) (e : Entry M) : Client P D C O M :=
  if ok then { s with entries := s.entries ++ [e] } else s

/-- `mqtt_subscribe` has tried all topics. -/
def subscribed (s : Client P D C O M) (again failed : Bool) : Client P D C O M :=
  if failed then { s with point := .failed again }
  else if again then { s with point := .select }
  else { s with point := .statusOk }

def call (s : Client P D C O M) (ok : Bool) : Client P D C O M :=
  match s.point with
  | .subscribe again [] failed => s.subscribed again failed
  | .subscribe again (topic :: rest) failed =>
    { s.request ok (.subscribe topic) with point := .subscribe again rest (failed || !ok) }
  | .statusOk => { s.request ok (.status .ok) with point := if ok then .select else .failed false }
  | .publish m => { s.request ok (.publish m) with point := .select }
  | .failed again => { s.request ok .disconnect with point := if again then .statusOffline else .done }
  | .statusOffline => { s.request ok (.status .offline) with point := .disconnect }
  | .disconnect => { s.request ok .disconnect with point := .join }
  | .select | .join | .done => s

/-- A message to send, or one that cannot be encoded -/
def receive (s : Client P D C O M) (o : O) : Client P D C O M :=
  let s := { s with received := s.received ++ [o] }
  match env.encodeControlOut o with
  | some m => { s with point := .publish m }
  | none => s

/-- The receiver of the signal is dropped with the task. -/
def connected (s : Client P D C O M) : Client P D C O M :=
  { s with
    entries := s.entries ++ [.connAck]
    version := match s.point with
      | .done => s.version
      | _ => s.version + 1 }

def exec (s : Client P D C O M) : Op P O → Client P D C O M
  | .call ok => s.call ok
  | .changed => { s with seen := s.version, point := .subscribe true env.topics false }
  | .receive o => s.receive env o
  | .stop => { s with point := .statusOffline }
  | .joined => { s with point := .done }
  | .poll .connAck => { s with loop := s.loop.poll .connAck }.connected
  | .poll e => { s with loop := s.loop.poll e }
  | .processed taken =>
    match s.loop.processing with
    | some p => { s with loop := s.loop.process env taken p }
    | none => s
  | .shutdownLoop => { s with loop := s.loop.shutdown }

def Selects (s : Client P D C O M) : Prop :=
  match s.point with
  | .select => True
  | _ => False

/-- The handle of the event loop is dropped. -/
def Closes (s : Client P D C O M) : Prop :=
  match s.point with
  | .join | .done => True
  | _ => False

/-- When an operation can be next -/
def Guard (s : Client P D C O M) : Op P O → Prop
  | .call _ => True
  | .changed => s.Selects ∧ s.seen ≠ s.version
  | .receive _ | .stop => s.Selects
  | .joined => match s.point with
    | .join => True
    | _ => False
  | .poll _ => s.loop.Selects
  | .processed _ => s.loop.exited = false
  | .shutdownLoop => s.Closes ∧ s.loop.Selects ∧ s.loop.shutdownRequested = false

instance (s : Client P D C O M) : Decidable s.Selects := by
  unfold Selects
  split <;> infer_instance

instance (s : Client P D C O M) : Decidable s.Closes := by
  unfold Closes
  split <;> infer_instance

instance (s : Client P D C O M) (op : Op P O) : Decidable (s.Guard op) := by
  cases op <;> simp only [Guard] <;> try infer_instance
  split <;> infer_instance

/-- A run of the two tasks from the start -/
def Run (s : Client P D C O M) : Prop := Reach (exec env) Guard (new env) s

end Client

/-! ### The hooks and the messages -/

namespace Polled

def asPublish : Polled P → Option P
  | .publish p => some p
  | _ => none

/-- Whether the connection is up or down with it -/
def link : Polled P → Option Bool
  | .connAck => some true
  | .error => some false
  | .publish _ | .other => none

def isConnAck : Polled P → Bool
  | .connAck => true
  | _ => false

end Polled

/-- The first error of a streak -/
def FirstError (polled : List (Polled P)) (i : ℕ) : Prop :=
  polled[i]? = some .error ∧ ∀ j, j + 1 = i → polled[j]? ≠ some .error

/-- What the last new connection or error was -/
def up (polled : List (Polled P)) : Option Bool := (polled.filterMap Polled.link).getLast?

section Lists

variable {es : List (Polled P)} {e : Polled P} {i : ℕ}

lemma firstError_append : FirstError (es ++ [e]) i ↔
    FirstError es i ∨ i = es.length ∧ e = .error ∧ es.getLast? ≠ some .error := by
  unfold FirstError
  rcases Nat.lt_trichotomy i es.length with hlt | rfl | hgt
  · rw [List.getElem?_append_left hlt]
    have hprev : (∀ j, j + 1 = i → (es ++ [e])[j]? ≠ some .error) ↔ ∀ j, j + 1 = i → es[j]? ≠ some .error := by
      refine forall_congr' fun j => imp_congr_right fun hj => ?_
      rw [List.getElem?_append_left (by omega)]
    rw [hprev]
    exact ⟨.inl, fun h => h.resolve_right fun h => by omega⟩
  · have hlast : (es ++ [e])[es.length]? = some e := by simp
    have hnone : es[es.length]? = none := by simp
    rw [hlast, hnone, List.getLast?_eq_getElem?]
    constructor
    · rintro ⟨he, hprev⟩
      refine .inr ⟨rfl, by simpa using he, ?_⟩
      cases hes : es.length with
      | zero => simp [List.length_eq_zero_iff.mp hes]
      | succ n =>
        have := hprev n hes.symm
        rwa [List.getElem?_append_left (by omega)] at this
    · rintro (⟨h, -⟩ | ⟨-, rfl, hprev⟩)
      · cases h
      · refine ⟨rfl, fun j hj => ?_⟩
        rw [List.getElem?_append_left (by omega)]
        simpa [← hj] using hprev
  · have hnone : (es ++ [e])[i]? = none := by
      rw [List.getElem?_eq_none_iff, List.length_append, List.length_singleton]
      omega
    have hnone' : es[i]? = none := List.getElem?_eq_none_iff.mpr (by omega)
    rw [hnone, hnone']
    constructor
    · rintro ⟨h, -⟩
      cases h
    · rintro (⟨h, -⟩ | ⟨rfl, -⟩)
      · cases h
      · omega

lemma up_append (up' : Bool) (h : e.link = some up') : up (es ++ [e]) = some up' := by
  simp [up, h]

lemma up_append_none (h : e.link = none) : up (es ++ [e]) = up es := by
  simp [up, h]

lemma up_of_getLast (h : es.getLast? = some .error) : up es = some false := by
  obtain ⟨front, rfl⟩ := List.getLast?_eq_some_iff.mp h
  exact up_append false rfl

end Lists

namespace EventLoop

variable {env : Env P D C O M} {l : EventLoop P D C}

/-- The hooks after what was polled -/
structure Hooks (l : EventLoop P D C) : Prop where
  detected : l.exited = false → (l.errorDetected = true ↔ l.polled.getLast? = some .error)
  status : l.statuses.getLast? = some true ↔ l.exited = false ∧ up l.polled = some true
  ascending : l.reported.Pairwise (· < ·)
  bound : ∀ i ∈ l.reported, i < l.polled.length
  first : ∀ i ∈ l.reported, FirstError l.polled i
  reported : ∀ i, FirstError l.polled i → i ∈ l.reported ∨ l.exited = true ∧ i + 1 = l.polled.length
  downs : l.statuses.count false = l.reported.length + l.exited.toNat
  ups : l.statuses.count true = l.polled.countP Polled.isConnAck

lemma hooks_new : (new : EventLoop P D C).Hooks := by
  refine ⟨by simp [new], by simp [new, up], .nil, by simp [new], by simp [new], ?_, rfl, rfl⟩
  rintro i ⟨h, -⟩
  simp [new] at h

/-- The loop goes on after an event that is no error. -/
lemma Hooks.poll_ok (hl : l.Hooks) (hexited : l.exited = false) {e : Polled P} (he : e ≠ .error)
    {l' : EventLoop P D C} (hpolled : l'.polled = l.polled ++ [e]) (hdetected : l'.errorDetected = false)
    (hexited' : l'.exited = false) (hreported : l'.reported = l.reported)
    (hstatuses : l'.statuses = l.statuses ++ if e.isConnAck then [true] else []) : l'.Hooks := by
  have hfirst {i : ℕ} : FirstError l'.polled i ↔ FirstError l.polled i := by
    rw [hpolled, firstError_append]
    exact ⟨fun h => h.resolve_right fun h => he h.2.1, .inl⟩
  refine ⟨fun _ => ?_, ?_, hreported ▸ hl.ascending, ?_, ?_, ?_, ?_, ?_⟩
  · rw [hdetected, hpolled]
    simp [he]
  · rw [hpolled, hstatuses, hexited']
    cases e with
    | connAck =>
      have hup : up (l.polled ++ [Polled.connAck]) = some true := up_append true rfl
      simp [Polled.isConnAck, hup]
    | publish p | other =>
      rw [up_append_none rfl]
      simpa [Polled.isConnAck, hexited] using hl.status
    | error => exact absurd rfl he
  · rw [hreported, hpolled]
    intro i hi
    have := hl.bound i hi
    simp only [List.length_append, List.length_singleton]
    omega
  · rw [hreported]
    exact fun i hi => hfirst.mpr (hl.first i hi)
  · rw [hreported]
    intro i hi
    rcases hl.reported i (hfirst.mp hi) with h | ⟨h, -⟩
    · exact .inl h
    · simp [hexited] at h
  · rw [hstatuses, hreported, hexited', List.count_append, hl.downs, hexited]
    cases e.isConnAck <;> rfl
  · rw [hstatuses, hpolled, List.count_append, List.countP_append, hl.ups, List.countP_singleton]
    cases e.isConnAck <;> rfl

/-- The errors that are known stay so with another event. -/
lemma Hooks.first_append (hl : l.Hooks) (e : Polled P) : ∀ i ∈ l.reported, FirstError (l.polled ++ [e]) i :=
  fun i hi => firstError_append.mpr (.inl (hl.first i hi))

lemma Hooks.bound_append (hl : l.Hooks) (e : Polled P) : ∀ i ∈ l.reported, i < (l.polled ++ [e]).length := by
  intro i hi
  have := hl.bound i hi
  simp only [List.length_append, List.length_singleton]
  omega

lemma Hooks.poll_error (hl : l.Hooks) (hexited : l.exited = false) : (l.poll .error).Hooks := by
  have hup : up (l.polled ++ [Polled.error]) = some false := up_append false rfl
  have hdowns : l.statuses.count false = l.reported.length := by simpa [hexited] using hl.downs
  have hups : l.statuses.count true = (l.polled ++ [Polled.error]).countP Polled.isConnAck := by
    simpa [Polled.isConnAck] using hl.ups
  simp only [poll, handleError]
  split_ifs with hshutdown hdetected
  -- the error that ends the loop
  · refine ⟨by simp [exit], by simp [exit], hl.ascending, hl.bound_append _, hl.first_append _, ?_, ?_, ?_⟩
    · intro i hi
      rcases firstError_append.mp hi with h | ⟨rfl, -⟩
      · rcases hl.reported i h with h | ⟨h, -⟩
        · exact .inl h
        · simp [hexited] at h
      · exact .inr ⟨rfl, by simp [exit]⟩
    · simp [exit, hdowns]
    · simpa [exit] using hups
  -- another error of the streak
  · have hlast := (hl.detected hexited).mp hdetected
    have hdown : l.statuses.getLast? ≠ some true := by
      intro h
      rw [hl.status, up_of_getLast hlast] at h
      simp at h
    refine ⟨fun _ => by simpa using hdetected, ?_, hl.ascending, hl.bound_append _, hl.first_append _, ?_,
      hl.downs, hups⟩
    · simp [hup, hdown]
    · intro i hi
      rcases firstError_append.mp hi with h | ⟨-, -, h⟩
      · rcases hl.reported i h with h | ⟨h, -⟩
        · exact .inl h
        · simp [hexited] at h
      · exact absurd hlast h
  · have hlast : l.polled.getLast? ≠ some .error := fun h => hdetected ((hl.detected hexited).mpr h)
    have hlen : (l.polled ++ [Polled.error]).length - 1 = l.polled.length := by simp
    refine ⟨by simp, by simp [hup], ?_, ?_, ?_, ?_, ?_, ?_⟩
    · simp only [hlen]
      refine List.pairwise_append.mpr ⟨hl.ascending, List.pairwise_singleton _ _, fun i hi j hj => ?_⟩
      rw [List.mem_singleton.mp hj]
      exact hl.bound i hi
    · intro i hi
      rcases List.mem_append.mp hi with hi | hi
      · exact hl.bound_append _ i hi
      · rw [List.mem_singleton.mp hi]
        simp
    · intro i hi
      rcases List.mem_append.mp hi with hi | hi
      · exact hl.first_append _ i hi
      · rw [List.mem_singleton.mp hi, hlen]
        exact firstError_append.mpr (.inr ⟨rfl, rfl, hlast⟩)
    · intro i hi
      simp only [hlen, List.mem_append, List.mem_singleton]
      rcases firstError_append.mp hi with h | ⟨rfl, -⟩
      · rcases hl.reported i h with h | ⟨h, -⟩
        · exact .inl (.inl h)
        · simp [hexited] at h
      · exact .inl (.inr rfl)
    · simp only [List.count_append, hdowns, List.length_append, hexited]
      rfl
    · simpa using hups

lemma Hooks.poll (hl : l.Hooks) (hexited : l.exited = false) (e : Polled P) : (l.poll e).Hooks := by
  cases e with
  | error => exact hl.poll_error hexited
  | connAck => exact hl.poll_ok hexited (by simp) rfl rfl hexited rfl rfl
  | publish p => exact hl.poll_ok hexited (by simp) rfl rfl hexited rfl (by simp [EventLoop.poll, Polled.isConnAck])
  | other => exact hl.poll_ok hexited (by simp) rfl rfl hexited rfl (by simp [EventLoop.poll, Polled.isConnAck])

lemma Hooks.process (hl : l.Hooks) (taken : Bool) (p : P) : (l.process env taken p).Hooks := by
  unfold EventLoop.process
  cases env.getMqttMessage p with
  | none => exact ⟨hl.1, hl.2, hl.3, hl.4, hl.5, hl.6, hl.7, hl.8⟩
  | some parsed =>
    cases parsed with
    | data msg | control msg => exact ⟨hl.1, hl.2, hl.3, hl.4, hl.5, hl.6, hl.7, hl.8⟩
    | smsResponse id success =>
      simp only
      split_ifs <;> exact ⟨hl.1, hl.2, hl.3, hl.4, hl.5, hl.6, hl.7, hl.8⟩

lemma Hooks.shutdown (hl : l.Hooks) (hexited : l.exited = false) : l.shutdown.Hooks := by
  have hdowns : l.statuses.count false = l.reported.length := by simpa [hexited] using hl.downs
  simp only [EventLoop.shutdown]
  split_ifs
  · refine ⟨by simp [exit], by simp [exit], hl.ascending, hl.bound, hl.first, fun i hi => ?_, ?_, ?_⟩
    · rcases hl.reported i hi with h | ⟨h, -⟩
      · exact .inl h
      · simp [hexited] at h
    · simp [exit, hdowns]
    · simpa [exit] using hl.ups
  · exact ⟨hl.1, hl.2, hl.3, hl.4, hl.5, hl.6, hl.7, hl.8⟩

end EventLoop

namespace Env

variable (env : Env P D C O M)

/-- What the handler makes of a publish -/
def dataOf (p : P) : Option D :=
  match env.getMqttMessage p with
  | some (.data msg) => some msg
  | _ => none

def controlOf (p : P) : Option C :=
  match env.getMqttMessage p with
  | some (.control msg) => some msg
  | _ => none

/-- The event whose SMS was sent -/
def sentSms (p : P) : Option String :=
  match env.getMqttMessage p with
  | some (.smsResponse id true) => some id
  | _ => none

end Env

namespace EventLoop

variable {env : Env P D C O M} {l : EventLoop P D C}

/-- The messages that were handled, in order -/
def Forwards (env : Env P D C O M) (l : EventLoop P D C) : Prop :=
  ∃ handled, l.polled.filterMap Polled.asPublish = handled ++ l.processing.toList ∧
    l.data.map Prod.fst = handled.filterMap env.dataOf ∧ l.control.map Prod.fst = handled.filterMap env.controlOf ∧
    l.marked = handled.filterMap env.sentSms

/-- Nothing comes in. -/
lemma Forwards.same (hl : l.Forwards env) {l' : EventLoop P D C}
    (hpolled : l'.polled.filterMap Polled.asPublish = l.polled.filterMap Polled.asPublish)
    (hprocessing : l'.processing = l.processing) (hdata : l'.data = l.data) (hcontrol : l'.control = l.control)
    (hmarked : l'.marked = l.marked) : l'.Forwards env := by
  obtain ⟨handled, h, hd, hc, hm⟩ := hl
  exact ⟨handled, by rw [hpolled, hprocessing, h], hdata ▸ hd, hcontrol ▸ hc, hmarked ▸ hm⟩

lemma Forwards.poll (hl : l.Forwards env) (hprocessing : l.processing = none) (e : Polled P) :
    (l.poll e).Forwards env := by
  cases e with
  | connAck | other => exact hl.same (by simp [EventLoop.poll, Polled.asPublish]) rfl rfl rfl rfl
  | error =>
    simp only [EventLoop.poll, handleError]
    split_ifs <;> exact hl.same (by simp [exit, Polled.asPublish]) rfl rfl rfl rfl
  | publish p =>
    obtain ⟨handled, h, hmessages⟩ := hl
    refine ⟨handled, ?_, hmessages⟩
    rw [hprocessing] at h
    simp [EventLoop.poll, Polled.asPublish, h]

lemma Forwards.process (hl : l.Forwards env) (taken : Bool) {p : P} (hp : l.processing = some p) :
    (l.process env taken p).Forwards env := by
  obtain ⟨handled, h, hdata, hcontrol, hmarked⟩ := hl
  rw [hp] at h
  refine ⟨handled ++ [p], ?_⟩
  unfold EventLoop.process
  cases hparsed : env.getMqttMessage p with
  | none => simp [h, hdata, hcontrol, hmarked, Env.dataOf, Env.controlOf, Env.sentSms, hparsed]
  | some parsed =>
    cases parsed with
    | data msg | control msg => simp [h, hdata, hcontrol, hmarked, Env.dataOf, Env.controlOf, Env.sentSms, hparsed]
    | smsResponse id success =>
      cases success <;> simp [h, hdata, hcontrol, hmarked, Env.dataOf, Env.controlOf, Env.sentSms, hparsed]

lemma Forwards.shutdown (hl : l.Forwards env) : l.shutdown.Forwards env := by
  simp only [EventLoop.shutdown]
  split_ifs <;> exact hl.same rfl rfl rfl rfl rfl

end EventLoop

namespace Client

variable {env : Env P D C O M} {s : Client P D C O M}

lemma call_loop (ok : Bool) : (s.call ok).loop = s.loop := by
  unfold call request subscribed
  repeat' split
  all_goals rfl

/-- What the event loop keeps holds in every run. -/
lemma Run.loop {Q : EventLoop P D C → Prop} (h : s.Run env) (hnew : Q .new)
    (hpoll : ∀ l e, l.Selects → Q l → Q (l.poll e))
    (hprocess : ∀ l taken p, l.exited = false → l.processing = some p → Q l → Q (l.process env taken p))
    (hshutdown : ∀ l, l.Selects → Q l → Q l.shutdown) : Q s.loop := by
  refine h.invariant (P := fun s => Q s.loop) hnew fun s op hs hg => ?_
  cases op with
  | call ok => exact (call_loop ok).symm ▸ hs
  | changed | stop | joined => exact hs
  | receive o =>
    simp only [exec, receive]
    cases env.encodeControlOut o <;> exact hs
  | poll e =>
    have hpolled := hpoll s.loop e hg hs
    cases e <;> exact hpolled
  | processed taken =>
    simp only [exec]
    cases hp : s.loop.processing with
    | none => exact hs
    | some p => exact hprocess _ taken p hg hp hs
  | shutdownLoop => exact hshutdown _ hg.2.1 hs

end Client

/-- **The hooks tell the state of the connection.** In every run the last status sent is `true` exactly while the
loop runs and the last new connection or error was a new connection. `on_connection_error` is called for the first
error of each streak, in order, and for no other; only for an error that ends the loop it is not. A status `false`
is sent once for each of these calls, and once at the end of the loop; a status `true` for each new connection. -/
theorem hooks_follow {env : Env P D C O M} {s : Client P D C O M} (h : s.Run env) :
    (s.loop.statuses.getLast? = some true ↔ s.loop.exited = false ∧ up s.loop.polled = some true) ∧
    s.loop.reported.Pairwise (· < ·) ∧ (∀ i ∈ s.loop.reported, FirstError s.loop.polled i) ∧
    (∀ i, FirstError s.loop.polled i → i ∈ s.loop.reported ∨ s.loop.exited = true ∧ i + 1 = s.loop.polled.length) ∧
    s.loop.statuses.count false = s.loop.reported.length + s.loop.exited.toNat ∧
    s.loop.statuses.count true = s.loop.polled.countP Polled.isConnAck := by
  have hl : s.loop.Hooks := h.loop EventLoop.hooks_new (fun l e hg hl => hl.poll hg.1 e)
    (fun l taken p _ _ hl => hl.process taken p) fun l hg hl => hl.shutdown hg.1
  exact ⟨hl.status, hl.ascending, hl.first, hl.reported, hl.downs, hl.ups⟩

def sampleEnv : Env ℕ ℕ ℕ ℕ ℕ := ⟨[], fun p => some (.data p), some⟩

/-- The client connects, loses the connection and connects again, and handles two messages. -/
def sampleOps : List (Op ℕ ℕ) :=
  [.call true, .call true, .call true, .call true, .poll .error, .poll .connAck, .changed, .call true, .call true,
    .call true, .receive 7, .call true, .poll (.publish 5), .processed true, .poll .error, .poll .error,
    .poll .connAck, .poll (.publish 6), .processed true, .changed, .call true, .call true, .call true]

def sample : Client ℕ ℕ ℕ ℕ ℕ := sampleOps.foldl (Client.exec sampleEnv) (.new sampleEnv)

lemma sample_run : sample.Run sampleEnv := Reach.run sampleOps .start (by decide)

theorem hooks_follow_sample : sample.loop.reported = [0, 3] ∧ sample.loop.statuses = [false, true, false, true] ∧
    up sample.loop.polled = some true :=
  ⟨rfl, rfl, ((hooks_follow sample_run).1.mp rfl).2⟩

/-- **No message is lost.** In every run the messages that were polled are handled one after the other, and in the
order in which they came each is handed to the processing task or to the device task, or marks its event as sent,
as the codec has it; only the last may still be on its way. -/
theorem messages_forwarded {env : Env P D C O M} {s : Client P D C O M} (h : s.Run env) :
    ∃ handled, s.loop.polled.filterMap Polled.asPublish = handled ++ s.loop.processing.toList ∧
      s.loop.data.map Prod.fst = handled.filterMap env.dataOf ∧
      s.loop.control.map Prod.fst = handled.filterMap env.controlOf ∧
      s.loop.marked = handled.filterMap env.sentSms := by
  refine h.loop (Q := EventLoop.Forwards env) ⟨[], rfl, rfl, rfl, rfl⟩ (fun l e hg hl => hl.poll ?_ e)
    (fun l taken p _ hp hl => hl.process taken hp) fun l _ hl => hl.shutdown
  simpa using hg.2

theorem messages_forwarded_sample : ∃ handled, [5, 6] = handled ++ ([] : List ℕ) ∧
    [5, 6] = handled.filterMap sampleEnv.dataOf :=
  have ⟨handled, hpolled, hdata, _⟩ := messages_forwarded sample_run
  ⟨handled, hpolled, hdata⟩

/-! ### The requests -/

namespace Entry

/-- A message, or the status of the server -/
def isTraffic : Entry M → Bool
  | .status _ | .publish _ => true
  | .connAck | .subscribe _ | .disconnect => false

end Entry

/-- What came after the last new connection -/
def recent (es : List (Entry M)) : List (Entry M) :=
  es.foldl (fun recent e => match e with
    | .connAck => []
    | e => recent ++ [e]) []

section Entries

variable {es : List (Entry M)} {e : Entry M}

lemma recent_append (he : e ≠ .connAck) : recent (es ++ [e]) = recent es ++ [e] := by
  cases e with
  | connAck => exact absurd rfl he
  | _ => simp [recent]

lemma mem_recent_append (he : e ≠ .connAck) {e' : Entry M} (h : e' ∈ recent es) : e' ∈ recent (es ++ [e]) := by
  rw [recent_append he]
  exact List.mem_append_left _ h

end Entries

namespace Client

variable {env : Env P D C O M} {s : Client P D C O M}

/-- The topics that are subscribed to since the last new connection, for all that the task knows of it -/
def Subscribes (env : Env P D C O M) (es : List (Entry M)) : Point M → Prop
  | .subscribe _ rest false => ∀ topic ∈ env.topics, topic ∈ rest ∨ .subscribe topic ∈ recent es
  | .statusOk | .select | .publish _ => ∀ topic ∈ env.topics, .subscribe topic ∈ recent es
  | .subscribe _ _ true | .failed _ | .statusOffline | .disconnect | .join | .done => True

/-- What was published so far: `sent` are the messages. -/
def Publishes (es : List (Entry M)) (sent : List M) : Point M → Prop
  | .subscribe false _ _ | .statusOk | .failed false => es.filter Entry.isTraffic = []
  | .subscribe true _ _ | .select | .publish _ | .failed true | .statusOffline =>
    es.filter Entry.isTraffic = .status .ok :: sent.map .publish
  | .disconnect | .join | .done => es.filter Entry.isTraffic = [] ∨
      es.filter Entry.isTraffic = .status .ok :: sent.map .publish ∨
      es.filter Entry.isTraffic = .status .ok :: sent.map .publish ++ [.status .offline]

/-- The message that the task is about to publish -/
def publishing : Point M → List M
  | .publish m => [m]
  | _ => []

/-- The state of the requests, for the point where the task is -/
structure Requests (env : Env P D C O M) (s : Client P D C O M) : Prop where
  seen : s.seen ≤ s.version
  subscribed : s.seen = s.version → Subscribes env s.entries s.point
  published : ∃ sent, (sent ++ publishing s.point).Sublist (s.received.filterMap env.encodeControlOut) ∧
    Publishes s.entries sent s.point

lemma requests_new : (new env).Requests env := by
  refine ⟨Nat.le_refl _, fun _ topic htopic => .inl htopic, [], ?_, ?_⟩
  · exact List.nil_sublist _
  · rfl

/-- A topic is subscribed to, or the request fails. -/
lemma Requests.call_topic (hs : s.Requests env) {again failed : Bool} {topic : String} {rest : List String}
    (hp : s.point = .subscribe again (topic :: rest) failed) (ok : Bool) : (s.call ok).Requests env := by
  obtain ⟨hseen, hsubscribed, sent, hsent, hpublished⟩ := hs
  rw [hp] at hsubscribed hsent hpublished
  simp only [call, hp]
  refine ⟨by cases ok <;> exact hseen, ?_, sent, ?_, ?_⟩
  · cases ok with
    | false => simp [request, Subscribes]
    | true =>
      cases failed with
      | true => simp [Subscribes]
      | false =>
        intro hcurrent topic' htopic'
        rcases hsubscribed hcurrent topic' htopic' with h | h
        · rcases List.mem_cons.mp h with rfl | h
          · right
            simp [request, recent_append]
          · exact .inl h
        · exact .inr (mem_recent_append (by simp) h)
  · cases ok <;> exact hsent
  · cases ok <;> cases again <;> simpa [request, Publishes, Entry.isTraffic] using hpublished

lemma Requests.call_subscribed (hs : s.Requests env) {again failed : Bool} (hp : s.point = .subscribe again [] failed)
    (ok : Bool) : (s.call ok).Requests env := by
  obtain ⟨hseen, hsubscribed, sent, hsent, hpublished⟩ := hs
  rw [hp] at hsubscribed hsent hpublished
  simp only [call, hp]
  cases failed with
  | true => exact ⟨hseen, fun _ => trivial, sent, hsent, by cases again <;> exact hpublished⟩
  | false =>
    have hall : s.seen = s.version → ∀ topic ∈ env.topics, .subscribe topic ∈ recent s.entries :=
      fun h topic htopic => (hsubscribed h topic htopic).resolve_left (by simp)
    cases again with
    | true => exact ⟨hseen, hall, sent, hsent, hpublished⟩
    | false => exact ⟨hseen, hall, sent, hsent, hpublished⟩

lemma Requests.call (hs : s.Requests env) (ok : Bool) : (s.call ok).Requests env := by
  cases hp : s.point with
  | subscribe again rest failed =>
    cases rest with
    | nil => exact hs.call_subscribed hp ok
    | cons topic rest => exact hs.call_topic hp ok
  | statusOk =>
    obtain ⟨hseen, hsubscribed, sent, hsent, hpublished⟩ := hs
    rw [hp] at hsubscribed hsent hpublished
    simp only [Client.call, hp]
    cases ok with
    | false => exact ⟨hseen, fun _ => trivial, sent, hsent, hpublished⟩
    | true =>
      refine ⟨hseen, fun h topic htopic => ?_, [], List.nil_sublist _, ?_⟩
      · exact mem_recent_append (by simp) (hsubscribed h topic htopic)
      · have hnone : s.entries.filter Entry.isTraffic = [] := hpublished
        simp [Publishes, request, hnone, Entry.isTraffic]
  | publish m =>
    obtain ⟨hseen, hsubscribed, sent, hsent, hpublished⟩ := hs
    rw [hp] at hsubscribed hsent hpublished
    have htraffic : s.entries.filter Entry.isTraffic = .status .ok :: sent.map .publish := hpublished
    simp only [Client.call, hp]
    cases ok with
    | false =>
      have hsent' : (sent ++ []).Sublist (sent ++ [m]) := List.Sublist.append (.refl _) (List.nil_sublist _)
      exact ⟨hseen, hsubscribed, sent, hsent'.trans hsent, hpublished⟩
    | true =>
      refine ⟨hseen, fun h topic htopic => ?_, sent ++ [m], by simpa [publishing, request] using hsent, ?_⟩
      · exact mem_recent_append (by simp) (hsubscribed h topic htopic)
      · simp [Publishes, request, htraffic, Entry.isTraffic]
  | failed again =>
    obtain ⟨hseen, hsubscribed, sent, hsent, hpublished⟩ := hs
    rw [hp] at hsubscribed hsent hpublished
    simp only [Client.call, hp]
    cases again with
    | true =>
      have htraffic : s.entries.filter Entry.isTraffic = .status .ok :: sent.map .publish := hpublished
      refine ⟨by cases ok <;> exact hseen, fun _ => trivial, sent, by cases ok <;> exact hsent, ?_⟩
      cases ok <;> simp [Publishes, request, htraffic, Entry.isTraffic]
    | false =>
      have hnone : s.entries.filter Entry.isTraffic = [] := hpublished
      refine ⟨by cases ok <;> exact hseen, fun _ => trivial, sent, by cases ok <;> exact hsent, .inl ?_⟩
      cases ok <;> simp [request, hnone, Entry.isTraffic]
  | statusOffline =>
    obtain ⟨hseen, hsubscribed, sent, hsent, hpublished⟩ := hs
    rw [hp] at hsubscribed hsent hpublished
    have htraffic : s.entries.filter Entry.isTraffic = .status .ok :: sent.map .publish := hpublished
    simp only [Client.call, hp]
    refine ⟨by cases ok <;> exact hseen, fun _ => trivial, sent, by cases ok <;> exact hsent, .inr ?_⟩
    cases ok <;> simp [request, htraffic, Entry.isTraffic]
  | disconnect =>
    obtain ⟨hseen, hsubscribed, sent, hsent, hpublished⟩ := hs
    rw [hp] at hsubscribed hsent hpublished
    simp only [Client.call, hp]
    refine ⟨by cases ok <;> exact hseen, fun _ => trivial, sent, by cases ok <;> exact hsent, ?_⟩
    cases ok <;> simpa [Publishes, request, Entry.isTraffic] using hpublished
  | select | join | done => simpa only [Client.call, hp] using hs

/-- Only the event loop changes. -/
lemma Requests.loop (hs : s.Requests env) (l : EventLoop P D C) :
    ({ s with loop := l } : Client P D C O M).Requests env :=
  ⟨hs.seen, hs.subscribed, hs.published⟩

lemma Requests.connected (hs : s.Requests env) : s.connected.Requests env := by
  obtain ⟨hseen, -, sent, hsent, hpublished⟩ := hs
  have htraffic : (s.entries ++ [Entry.connAck]).filter Entry.isTraffic = s.entries.filter Entry.isTraffic := by
    simp [Entry.isTraffic]
  have hpublishes : Publishes (s.entries ++ [Entry.connAck]) sent s.point := by
    unfold Publishes
    rw [htraffic]
    exact hpublished
  cases hp : s.point with
  | done =>
    rw [hp] at hsent hpublishes
    simp only [Client.connected, hp]
    exact ⟨hseen, fun _ => trivial, sent, hsent, hpublishes⟩
  | _ =>
    simp only [Client.connected, hp]
    rw [hp] at hsent hpublishes
    exact ⟨Nat.le_succ_of_le hseen, fun h => absurd h (by simp only; omega), sent, hsent, hpublishes⟩

lemma Requests.receive (hs : s.Requests env) (hg : s.Selects) (o : O) : (s.receive env o).Requests env := by
  obtain ⟨hseen, hsubscribed, sent, hsent, hpublished⟩ := hs
  cases hp : s.point with
  | select =>
    rw [hp] at hsubscribed hsent hpublished
    have hsent : sent.Sublist (s.received.filterMap env.encodeControlOut) := by simpa [publishing] using hsent
    simp only [Client.receive]
    cases hm : env.encodeControlOut o with
    | none =>
      refine ⟨hseen, ?_, sent, ?_, ?_⟩
      · simpa only [hp] using hsubscribed
      · simpa [hp, publishing, hm] using hsent
      · simpa only [hp] using hpublished
    | some m =>
      refine ⟨hseen, hsubscribed, sent, ?_, hpublished⟩
      simpa [publishing, hm] using hsent
  | _ => simp [Selects, hp] at hg

lemma Requests.exec (hs : s.Requests env) {op : Op P O} (hg : s.Guard op) : (s.exec env op).Requests env := by
  cases op with
  | call ok => exact hs.call ok
  | changed =>
    obtain ⟨hselects, -⟩ := hg
    obtain ⟨hseen, -, sent, hsent, hpublished⟩ := hs
    cases hp : s.point with
    | select =>
      rw [hp] at hsent hpublished
      exact ⟨Nat.le_refl _, fun _ topic htopic => .inl htopic, sent, hsent, hpublished⟩
    | _ => simp [Selects, hp] at hselects
  | receive o => exact hs.receive hg o
  | stop =>
    obtain ⟨hseen, -, sent, hsent, hpublished⟩ := hs
    cases hp : s.point with
    | select =>
      rw [hp] at hsent hpublished
      exact ⟨hseen, fun _ => trivial, sent, hsent, hpublished⟩
    | _ => simp [Guard, Selects, hp] at hg
  | joined =>
    obtain ⟨hseen, -, sent, hsent, hpublished⟩ := hs
    cases hp : s.point with
    | join =>
      rw [hp] at hsent hpublished
      exact ⟨hseen, fun _ => trivial, sent, hsent, hpublished⟩
    | _ => simp [Guard, hp] at hg
  | poll e =>
    cases e with
    | connAck => exact (hs.loop _).connected
    | _ => exact hs.loop _
  | processed taken =>
    simp only [Client.exec]
    cases s.loop.processing with
    | none => exact hs
    | some p => exact hs.loop _
  | shutdownLoop => exact hs.loop _

end Client

/-- **A reconnect restores the subscriptions, and not the status.** In every run a task that waits in its `select!`
with no new connection to see has subscribed to all its topics since the last new connection. What it has published
is the status `Ok` once, at the start, then messages in the order in which it received them, and at last the status
`Offline`: also after a new connection it does not publish the status again. -/
theorem reconnect_restores {env : Env P D C O M} {s : Client P D C O M} (h : s.Run env) :
    (s.point = .select → s.seen = s.version → ∀ topic ∈ env.topics, .subscribe topic ∈ recent s.entries) ∧
    ∃ sent : List M, sent.Sublist (s.received.filterMap env.encodeControlOut) ∧
      (s.entries.filter Entry.isTraffic = [] ∨
        s.entries.filter Entry.isTraffic = .status .ok :: sent.map .publish ∨
        s.entries.filter Entry.isTraffic = .status .ok :: sent.map .publish ++ [.status .offline]) := by
  have hs : s.Requests env := h.invariant Client.requests_new fun _ _ hs hg => hs.exec hg
  obtain ⟨-, hsubscribed, sent, hsent, hpublished⟩ := hs
  refine ⟨fun hp hcurrent => ?_, sent, (List.sublist_append_left _ _).trans hsent, ?_⟩
  · rw [hp] at hsubscribed
    exact hsubscribed hcurrent
  · cases hp : s.point with
    | subscribe again rest failed =>
      rw [hp] at hpublished
      cases again with
      | false => exact .inl hpublished
      | true => exact .inr (.inl hpublished)
    | failed again =>
      rw [hp] at hpublished
      cases again with
      | false => exact .inl hpublished
      | true => exact .inr (.inl hpublished)
    | statusOk =>
      rw [hp] at hpublished
      exact .inl hpublished
    | select | publish m | statusOffline =>
      rw [hp] at hpublished
      exact .inr (.inl hpublished)
    | disconnect | join | done =>
      rw [hp] at hpublished
      exact hpublished

theorem reconnect_restores_sample : sample.entries.filter Entry.isTraffic = [.status .ok, .publish 7] ∧
    ∀ topic ∈ sampleEnv.topics, .subscribe topic ∈ recent sample.entries :=
  ⟨rfl, (reconnect_restores sample_run).1 rfl rfl⟩

end MqttClient

end SensorLink.Server
