import Mathlib.Data.List.Perm.Basic
import Mathlib.Data.List.Sort
import SensorLink.Lib.Reach
import SensorLink.Modem.Commands

/-!
# Unsolicited result codes

The driver of `quectel.rs` reads the URCs of the modem in order. A call that waits for one puts the others
aside; they are handled later, before what comes after them. A request gets the next message id, and ends
with the result that is reported for its id. The URCs arrive at any time, and a wait may end at any time.
-/

namespace SensorLink.Modem

open SensorLink.Lib

namespace Urcs

/-! ### The URCs -/

inductive UrcVariant
  | modemReady
  | modemOff
  | mqttOpen
  | mqttClose
  | mqttConnect
  | mqttDisconnect
  | mqttSubscribe
  | mqttUnsubscribe
  | mqttReceive
  | mqttPublish
  | mqttStatus
  | qiurc
  | creg
  | ereg
  | httpGet
  | httpReadFile
deriving DecidableEq

/-- `Urc`, with what the functions of this module read of it -/
inductive Urc
  | modemReady
  | modemOff
  | mqttOpen
  | mqttClose
  | mqttConnect
  | mqttDisconnect
  | mqttSubscribe (msgId result : ℕ)
  | mqttUnsubscribe (msgId result : ℕ)
  | mqttReceive (recvId : ℕ)
  | mqttPublish (msgId result : ℕ)
  | mqttStatus (errCode : ℕ)
  | qiurc
  | creg
  | ereg
  | httpGet
  | httpReadFile
deriving DecidableEq

def Urc.variant : Urc → UrcVariant
  | .modemReady => .modemReady
  | .modemOff => .modemOff
  | .mqttOpen => .mqttOpen
  | .mqttClose => .mqttClose
  | .mqttConnect => .mqttConnect
  | .mqttDisconnect => .mqttDisconnect
  | .mqttSubscribe _ _ => .mqttSubscribe
  | .mqttUnsubscribe _ _ => .mqttUnsubscribe
  | .mqttReceive _ => .mqttReceive
  | .mqttPublish _ _ => .mqttPublish
  | .mqttStatus _ => .mqttStatus
  | .qiurc => .qiurc
  | .creg => .creg
  | .ereg => .ereg
  | .httpGet => .httpGet
  | .httpReadFile => .httpReadFile

/-- `MQTTPacketResult` -/
inductive PacketResult
  | success
  | retransmission
  | failed
  | unknown
deriving DecidableEq

/-- `parse` of a result, by `TryFromPrimitive` and the default -/
def PacketResult.parse : ℕ → PacketResult
  | 0 => .success
  | 1 => .retransmission
  | 2 => .failed
  | _ => .unknown

/-- `parse_packet_result` of the trait `MqttAck` -/
def parsePacketResult (msgId result expectedMsgId : ℕ) : Except PacketResult PacketResult :=
  if expectedMsgId = msgId then .ok (.parse result) else .error (.parse result)

/-- The calls that wait for an acknowledgement -/
inductive Request
  | subscribe
  | unsubscribe
  | publish
deriving DecidableEq

def Request.variant : Request → UrcVariant
  | .subscribe => .mqttSubscribe
  | .unsubscribe => .mqttUnsubscribe
  | .publish => .mqttPublish

/-- The `default_error` -/
def Request.error : Request → Error
  | .subscribe => .mqtt "Subscribe"
  | .unsubscribe => .mqtt "Unsubscribe"
  | .publish => .mqtt "Publish"

/-- The request, message id and result of a URC that acknowledges one -/
def Urc.ack : Urc → Option (Request × ℕ × ℕ)
  | .mqttSubscribe msgId result => some (.subscribe, msgId, result)
  | .mqttUnsubscribe msgId result => some (.unsubscribe, msgId, result)
  | .mqttPublish msgId result => some (.publish, msgId, result)
  | _ => none

/-! ### The driver -/

/-- `URC_QUEUE_LEN` -/
def urcQueueLen : ℕ := 6

/-- `MAX_MESSAGE_LEN` -/
def maxMessageLen : ℕ := 1500

/-- A URC, the number of those before it, and, if it reports on a request, the number of that -/
structure Arrival where
  no : ℕ
  urc : Urc
  request : Option ℕ
deriving DecidableEq

/-- What the task that owns the driver does: nothing, send the command of a request, wait for its
acknowledgement, or wait for another URC. -/
inductive Task
  | idle
  | sending (no : ℕ) (request : Request) (msgId : ℕ)
  | awaitAcked (no : ℕ) (request : Request) (msgId : ℕ)
  | awaitUrc (variant : UrcVariant)
deriving DecidableEq

/-- A request that has ended -/
structure Outcome where
  no : ℕ
  request : Request
  result : Except Error Unit

/-- The driver and the channel of its backend. Remembered are the requests, their outcomes, and where the URCs
that arrived went: handled, in order; taken by a wait; dropped, each with the number of those that were put
aside then; or thrown away when the modem was turned off. -/
structure Driver where
  channel : List Arrival
  unexpectedUrcQueue : List Arrival
  urc : Option Arrival
  nextTxMsgId : ℕ
  errorOccurred : Bool
  task : Task
  arrived : ℕ
  requests : List Request
  outcomes : List Outcome
  handled : List Arrival
  taken : List Arrival
  dropped : List (Arrival × ℕ)
  flushed : List Arrival

namespace Driver

/-- `Quectel::new` -/
def new : Driver := ⟨[], [], none, 0, false, .idle, 0, [], [], [], [], [], []⟩

variable (d : Driver)

/-- `tx_msg_id` -/
def txMsgId : ℕ := if d.nextTxMsgId = 65535 then 1 else d.nextTxMsgId + 1

/-- `unexpected_urc`; a queue of the type `spsc::Queue` holds one element less than its length. -/
def unexpectedUrc (a : Arrival) : Driver :=
  if d.unexpectedUrcQueue.length < urcQueueLen - 1 then
    { d with unexpectedUrcQueue := d.unexpectedUrcQueue ++ [a] }
  else { d with dropped := d.dropped ++ [(a, d.unexpectedUrcQueue.length)] }

/-- The request ends. -/
def finish (no : ℕ) (request : Request) (result : Except Error Unit) : Driver :=
  { d with task := .idle, outcomes := d.outcomes ++ [⟨no, request, result⟩] }

/-- `subscribe`, `unsubscribe` or `publish` begins, the latter with a message of a length. -/
def begin (request : Request) (messageLen : ℕ) : Driver :=
  let no := d.requests.length
  let d' := { d with nextTxMsgId := d.txMsgId, requests := d.requests ++ [request] }
  if request = .publish ∧ maxMessageLen < messageLen then d'.finish no request (.error .serialize)
  else { d' with task := .sending no request d.txMsgId }

/-- The command was sent, with the data of a message behind it, or that failed. -/
def sent (ok : Bool) : Driver :=
  match d.task with
  | .sending no request msgId =>
    if ok then { d with task := .awaitAcked no request msgId }
    else d.finish no request (.error .client)
  | _ => d

/-- The loop of `await_acked_with_timeout`, for a URC of the variant that is expected -/
def acked (no : ℕ) (request : Request) (msgId : ℕ) (urc : Urc) : Driver :=
  match urc.ack with
  | some (_, id, result) =>
    match parsePacketResult id result msgId with
    | .ok .success => d.finish no request (.ok ())
    -- definitely failed
    | .ok _ => d.finish no request (.error request.error)
    -- a retransmission, or another message id
    | .error _ => d
  | none => d.finish no request (.error .client)

/-- The wait of the task is polled: `inner_await_urc` with the next URC. -/
def poll : Driver :=
  match d.channel with
  | [] => d
  | a :: channel =>
    let d' := { d with channel := channel }
    match d.task with
    | .awaitUrc variant =>
      if a.urc.variant = variant then { d' with task := .idle, taken := d.taken ++ [a] }
      else d'.unexpectedUrc a
    | .awaitAcked no request msgId =>
      if a.urc.variant = request.variant then
        { d' with taken := d.taken ++ [a] }.acked no request msgId a.urc
      else d'.unexpectedUrc a
    | _ => d

/-- The timeout of the wait -/
def timeout : Driver :=
  match d.task with
  | .awaitUrc _ => { d with task := .idle }
  | .awaitAcked no request _ => d.finish no request (.error .timeOut)
  | _ => d

/-- `await_response`, up to the wait for the channel, which is polled -/
def awaitResponse : Driver :=
  if d.errorOccurred then { d with errorOccurred := false }
  else
    match d.urc, d.unexpectedUrcQueue, d.channel with
    | some _, _, _ => d
    | none, a :: queue, _ => { d with unexpectedUrcQueue := queue, urc := some a }
    | none, [], a :: channel => { d with channel := channel, urc := some a }
    | none, [], [] => d

/-- `handle_urc`, up to the result that the URC has -/
def handleUrc : Driver :=
  match d.urc with
  | some a => { d with urc := none, handled := d.handled ++ [a] }
  | none => d

/-- The end of `deinitialize` -/
def flush : Driver :=
  { d with channel := [], unexpectedUrcQueue := [], flushed := d.flushed ++ d.unexpectedUrcQueue ++ d.channel }

end Driver

inductive Op
  | arrive (urc : Urc) (request : Option ℕ)
  | uartError
  | begin (request : Request) (messageLen : ℕ)
  | sent (ok : Bool)
  | awaitUrc (variant : UrcVariant)
  | poll
  | timeout
  | cancel
  | awaitResponse
  | handleUrc
  | flush

/-- The variants that `await_urc` is called with -/
def awaited : List UrcVariant :=
  [.modemReady, .modemOff, .mqttOpen, .mqttClose, .mqttConnect, .mqttDisconnect, .httpGet, .httpReadFile]

/-- The message id of a request -/
def msgIdOf (no : ℕ) : ℕ := no % 65535 + 1

/-- An acknowledgement that the modem makes up has the message id 0; another one reports on the request whose
id it has. -/
def Genuine (requests : List Request) (urc : Urc) (no : Option ℕ) : Prop :=
  match urc.ack with
  | none => no = none
  | some (request, msgId, _) =>
    match no with
    | none => msgId = 0
    | some no => requests[no]? = some request ∧ msgId = msgIdOf no

namespace Driver

/-- The task makes one call after the other; the call that connects may be dropped. -/
def exec (d : Driver) : Op → Driver
  | .arrive urc request =>
    { d with channel := d.channel ++ [⟨d.arrived, urc, request⟩], arrived := d.arrived + 1 }
  | .uartError => { d with errorOccurred := true }
  | .begin request messageLen => if d.task = .idle then d.begin request messageLen else d
  | .sent ok => d.sent ok
  | .awaitUrc variant => if d.task = .idle then { d with task := .awaitUrc variant } else d
  | .poll => d.poll
  | .timeout => d.timeout
  | .cancel => { d with task := .idle }
  | .awaitResponse => if d.task = .idle then d.awaitResponse else d
  | .handleUrc => if d.task = .idle then d.handleUrc else d
  | .flush => if d.task = .idle then d.flush else d

/-- When an acknowledgement is read, fewer than 65535 requests began after the one that it reports on. -/
def Fresh (d : Driver) : Prop :=
  ∀ a ∈ d.channel.head?, ∀ no ∈ a.request, d.requests.length ≤ no + 65535

def Guard (d : Driver) : Op → Prop
  | .arrive urc request => Genuine d.requests urc request
  | .poll => d.Fresh
  | .awaitUrc variant => variant ∈ awaited
  | _ => True

instance (requests : List Request) (urc : Urc) (no : Option ℕ) : Decidable (Genuine requests urc no) := by
  unfold Genuine
  split
  · infer_instance
  · split <;> infer_instance

instance (d : Driver) : Decidable d.Fresh := by
  unfold Fresh
  infer_instance

instance (d : Driver) : DecidablePred d.Guard := fun op => by
  cases op <;> unfold Guard <;> infer_instance

def Run (d : Driver) : Prop := Reach exec Guard new d

end Driver

/-! ### Where the URCs go -/

namespace Driver

/-- What was handled and will be, in this order -/
def inFlight (d : Driver) : List Arrival :=
  d.handled ++ d.urc.toList ++ d.unexpectedUrcQueue ++ d.channel

/-- What is not handled -/
def removed (d : Driver) : List Arrival := d.taken ++ d.dropped.map Prod.fst ++ d.flushed

/-- The URCs are moved on: their order stays, and each is in one place. -/
structure Moves (d d' : Driver) : Prop where
  order : d'.inFlight.Sublist d.inFlight
  perm : (d'.inFlight ++ d'.removed).Perm (d.inFlight ++ d.removed)
  arrived : d'.arrived = d.arrived
  dropped : ∀ x ∈ d'.dropped, x ∈ d.dropped ∨ urcQueueLen - 1 ≤ x.2
  taken : ∀ a ∈ d'.taken, a ∈ d.taken ∨ d.task = .awaitUrc a.urc.variant ∨
    ∃ request : Request, a.urc.variant = request.variant
  task : ∀ variant, d'.task = .awaitUrc variant → d.task = .awaitUrc variant

variable {d d' : Driver} {a : Arrival} {channel : List Arrival}

lemma Moves.of_eq (hflight : d'.inFlight = d.inFlight) (harrived : d'.arrived = d.arrived)
    (htaken : d'.taken = d.taken) (hdropped : d'.dropped = d.dropped) (hflushed : d'.flushed = d.flushed)
    (htask : ∀ variant, d'.task = .awaitUrc variant → d.task = .awaitUrc variant) : Moves d d' where
  order := by rw [hflight]
  perm := by rw [hflight, removed, removed, htaken, hdropped, hflushed]
  arrived := harrived
  dropped := by rw [hdropped]; exact fun _ h => .inl h
  taken := by rw [htaken]; exact fun _ h => .inl h
  task := htask

lemma Moves.refl (d : Driver) : Moves d d := .of_eq rfl rfl rfl rfl rfl fun _ => id

/-- The first URC of the channel is put aside, or dropped. -/
lemma moves_unexpectedUrc (h : d.channel = a :: channel) :
    Moves d ({ d with channel := channel }.unexpectedUrc a) := by
  unfold unexpectedUrc
  split
  · exact .of_eq (by simp [inFlight, h]) rfl rfl rfl rfl fun _ => id
  · rename_i hfull
    refine ⟨?_, ?_, rfl, fun x hx => ?_, fun _ ha => .inl ha, fun _ => id⟩
    · simp only [inFlight, h]
      exact (List.sublist_cons_self a channel).append_left _
    · rw [List.perm_iff_count]
      intro b
      simp only [inFlight, removed, h, List.count_append, List.count_cons, List.map_append, List.map_cons,
        List.map_nil, List.count_nil]
      omega
    · rcases List.mem_append.mp hx with hx | hx
      · exact .inl hx
      · cases List.mem_singleton.mp hx
        exact .inr (not_lt.mp hfull)

/-- The first URC of the channel is taken by the wait for it. -/
lemma moves_taken (h : d.channel = a :: channel)
    (hvariant : d.task = .awaitUrc a.urc.variant ∨ ∃ request : Request, a.urc.variant = request.variant)
    (htaken : d'.taken = d.taken ++ [a]) (hchannel : d'.channel = channel) (hhandled : d'.handled = d.handled)
    (hurc : d'.urc = d.urc) (hqueue : d'.unexpectedUrcQueue = d.unexpectedUrcQueue)
    (harrived : d'.arrived = d.arrived) (hdropped : d'.dropped = d.dropped)
    (hflushed : d'.flushed = d.flushed)
    (htask : ∀ variant, d'.task = .awaitUrc variant → d.task = .awaitUrc variant) : Moves d d' where
  order := by
    simp only [inFlight, h, hchannel, hhandled, hurc, hqueue]
    exact (List.sublist_cons_self a channel).append_left _
  perm := by
    rw [List.perm_iff_count]
    intro b
    simp only [inFlight, removed, h, htaken, hchannel, hhandled, hurc, hqueue, hdropped, hflushed,
      List.count_append, List.count_cons, List.count_nil]
    omega
  arrived := harrived
  dropped := by rw [hdropped]; exact fun _ hx => .inl hx
  taken := by
    rw [htaken]
    intro b hb
    rcases List.mem_append.mp hb with hb | hb
    · exact .inl hb
    · cases List.mem_singleton.mp hb
      exact .inr hvariant
  task := htask

/-- An acknowledgement ends the request or leaves it as it is. -/
lemma acked_cases (d : Driver) (no : ℕ) (request : Request) (msgId : ℕ) (urc : Urc) :
    d.acked no request msgId urc = d ∨
      ∃ result, d.acked no request msgId urc = d.finish no request result := by
  unfold acked
  split
  · split
    · exact .inr ⟨_, rfl⟩
    · exact .inr ⟨_, rfl⟩
    · exact .inl rfl
  · exact .inr ⟨_, rfl⟩

lemma moves_poll (d : Driver) : Moves d d.poll := by
  unfold poll
  split
  · exact .refl d
  · rename_i a channel h
    dsimp only
    split
    · rename_i variant htask
      split
      · rename_i hvariant
        exact moves_taken h (.inl (hvariant ▸ htask)) rfl rfl rfl rfl rfl rfl rfl rfl nofun
      · exact moves_unexpectedUrc h
    · rename_i no request msgId htask
      split
      · rename_i hvariant
        rcases acked_cases { d with channel := channel, taken := d.taken ++ [a] } no request msgId a.urc with
          hacked | ⟨result, hacked⟩
        · rw [hacked]
          exact moves_taken h (.inr ⟨request, hvariant⟩) rfl rfl rfl rfl rfl rfl rfl rfl fun _ => id
        · rw [hacked]
          exact moves_taken h (.inr ⟨request, hvariant⟩) rfl rfl rfl rfl rfl rfl rfl rfl nofun
      · exact moves_unexpectedUrc h
    · exact .refl d

lemma moves_awaitResponse (d : Driver) : Moves d d.awaitResponse := by
  unfold awaitResponse
  split
  · exact .of_eq rfl rfl rfl rfl rfl fun _ => id
  · split
    · exact .refl d
    · rename_i hurc hqueue
      exact .of_eq (by simp [inFlight, hurc, hqueue]) rfl rfl rfl rfl fun _ => id
    · rename_i hurc hqueue hchannel
      exact .of_eq (by simp [inFlight, hurc, hqueue, hchannel]) rfl rfl rfl rfl fun _ => id
    · exact .refl d

lemma moves_handleUrc (d : Driver) : Moves d d.handleUrc := by
  unfold handleUrc
  split
  · rename_i hurc
    exact .of_eq (by simp [inFlight, hurc]) rfl rfl rfl rfl fun _ => id
  · exact .refl d

lemma moves_flush (d : Driver) : Moves d d.flush where
  order := by
    simp only [inFlight, flush, List.append_nil, List.append_assoc]
    exact (List.sublist_append_left _ _).append_left _
  perm := by
    rw [List.perm_iff_count]
    intro b
    simp only [inFlight, removed, flush, List.count_append, List.count_nil]
    omega
  arrived := rfl
  dropped _ hx := .inl hx
  taken _ ha := .inl ha
  task _ := id

/-- Only an arrival adds a URC, and only a call of `await_urc` begins a wait for one. -/
lemma moves_exec (d : Driver) (op : Op) : Moves d (d.exec op) ∨ (∃ urc request, op = .arrive urc request) ∨
    ∃ variant, op = .awaitUrc variant := by
  cases op with
  | arrive urc request => exact .inr (.inl ⟨urc, request, rfl⟩)
  | awaitUrc variant => exact .inr (.inr ⟨variant, rfl⟩)
  | uartError => exact .inl (.of_eq rfl rfl rfl rfl rfl fun _ => id)
  | begin request messageLen =>
    left
    simp only [exec, begin]
    split
    · split <;> exact .of_eq rfl rfl rfl rfl rfl nofun
    · exact .refl d
  | sent ok =>
    left
    simp only [exec, sent]
    split
    · split <;> exact .of_eq rfl rfl rfl rfl rfl nofun
    · exact .refl d
  | poll => exact .inl (moves_poll d)
  | timeout =>
    left
    simp only [exec, timeout]
    split
    · exact .of_eq rfl rfl rfl rfl rfl nofun
    · exact .of_eq rfl rfl rfl rfl rfl nofun
    · exact .refl d
  | cancel => exact .inl (.of_eq rfl rfl rfl rfl rfl nofun)
  | awaitResponse =>
    left
    simp only [exec]
    split
    · exact moves_awaitResponse d
    · exact .refl d
  | handleUrc =>
    left
    simp only [exec]
    split
    · exact moves_handleUrc d
    · exact .refl d
  | flush =>
    left
    simp only [exec]
    split
    · exact moves_flush d
    · exact .refl d

structure Routed (d : Driver) : Prop where
  order : d.inFlight.Pairwise fun a b => a.no < b.no
  perm : ((d.inFlight ++ d.removed).map Arrival.no).Perm (List.range d.arrived)
  dropped : ∀ x ∈ d.dropped, urcQueueLen - 1 ≤ x.2
  task : ∀ variant, d.task = .awaitUrc variant → variant ∈ awaited
  taken : ∀ a ∈ d.taken, a.urc.variant ∈ awaited ∨ ∃ request : Request, a.urc.variant = request.variant

lemma Routed.arrive (hd : Routed d) (urc : Urc) (request : Option ℕ) :
    Routed (d.exec (.arrive urc request)) where
  order := by
    have hflight : (d.exec (.arrive urc request)).inFlight = d.inFlight ++ [⟨d.arrived, urc, request⟩] := by
      simp [exec, inFlight]
    rw [hflight, List.pairwise_append]
    refine ⟨hd.order, List.pairwise_singleton _ _, ?_⟩
    rintro b hb c hc
    cases List.mem_singleton.mp hc
    have hmem := List.mem_map_of_mem (f := Arrival.no) (List.mem_append_left d.removed hb)
    exact List.mem_range.mp (hd.perm.mem_iff.mp hmem)
  perm := by
    have hperm : ((d.exec (.arrive urc request)).inFlight ++ (d.exec (.arrive urc request)).removed).Perm
        (d.inFlight ++ d.removed ++ [⟨d.arrived, urc, request⟩]) := by
      rw [List.perm_iff_count]
      intro b
      simp only [exec, inFlight, removed, List.count_append, List.count_cons, List.count_nil]
      omega
    have harrived : (d.exec (.arrive urc request)).arrived = d.arrived + 1 := rfl
    rw [harrived, List.range_succ]
    refine (hperm.map Arrival.no).trans ?_
    rw [List.map_append]
    exact hd.perm.append_right [d.arrived]
  dropped := hd.dropped
  task := hd.task
  taken := hd.taken

lemma Routed.moves (hd : Routed d) (h : Moves d d') : Routed d' where
  order := hd.order.sublist h.order
  perm := by
    rw [h.arrived]
    exact (h.perm.map Arrival.no).trans hd.perm
  dropped x hx := (h.dropped x hx).elim (hd.dropped x) id
  task variant hv := hd.task variant (h.task variant hv)
  taken a ha := by
    rcases h.taken a ha with hold | hwait | hack
    · exact hd.taken a hold
    · exact .inl (hd.task _ hwait)
    · exact .inr hack

lemma Routed.exec (hd : Routed d) (op : Op) (hg : d.Guard op) : Routed (d.exec op) := by
  rcases moves_exec d op with h | ⟨urc, request, rfl⟩ | ⟨variant, rfl⟩
  · exact hd.moves h
  · exact hd.arrive urc request
  · simp only [Driver.exec]
    split
    · refine ⟨hd.order, hd.perm, hd.dropped, ?_, hd.taken⟩
      rintro v ⟨⟩
      exact hg
    · exact hd

lemma routed_new : Routed new := by
  constructor <;> simp [new, inFlight, removed]

lemma Run.routed (h : d.Run) : Routed d := h.invariant routed_new fun _ op hd hg => hd.exec op hg

end Driver

/-- **No URC is lost or overtaken.** In every reachable state, each URC that arrived is in one place: handled,
waiting to be handled, taken by a wait, dropped, or thrown away with the power of the modem. What was handled
and what waits is in the order of arrival. A URC is dropped only when five were put aside, and no wait takes
the notification of a message or of the state of the connection. -/
theorem urcs_routed {d : Driver} (h : d.Run) :
    ((d.inFlight ++ d.removed).map Arrival.no).Perm (List.range d.arrived) ∧
    (d.inFlight.Pairwise fun a b => a.no < b.no) ∧
    (∀ x ∈ d.dropped, 5 ≤ x.2) ∧
    ∀ a ∈ d.taken, a.urc.variant ≠ .mqttReceive ∧ a.urc.variant ≠ .mqttStatus := by
  have hd := h.routed
  refine ⟨hd.perm, hd.order, hd.dropped, fun a ha => ?_⟩
  rcases hd.taken a ha with hawaited | ⟨request, hrequest⟩
  · constructor <;> rintro heq <;> rw [heq] at hawaited <;> revert hawaited <;> decide
  · rw [hrequest]
    cases request <;> decide

/-! ### Acknowledgements -/

lemma msgIdOf_pos (no : ℕ) : 0 < msgIdOf no := Nat.succ_pos _

/-- Message ids repeat only after 65535 requests. -/
lemma msgIdOf_inj {k no : ℕ} (hle : k ≤ no) (hlt : no < k + 65535) (h : msgIdOf k = msgIdOf no) : k = no := by
  unfold msgIdOf at h
  omega

lemma Genuine.append {requests : List Request} {urc : Urc} {no : Option ℕ} (h : Genuine requests urc no)
    (request : Request) : Genuine (requests ++ [request]) urc no := by
  unfold Genuine at *
  split
  · simpa [*] using h
  · rename_i hack
    simp only [hack] at h
    cases no with
    | none => exact h
    | some no => exact ⟨List.getElem?_append_left (List.getElem?_eq_some_iff.mp h.1).1 ▸ h.1, h.2⟩

lemma ack_of_variant {urc : Urc} {request : Request} (h : urc.variant = request.variant) :
    ∃ msgId result, urc.ack = some (request, msgId, result) := by
  cases urc <;> cases request <;> simp [Urc.variant, Request.variant, Urc.ack] at h ⊢

lemma parse_eq_success (result : ℕ) : PacketResult.parse result = .success ↔ result = 0 := by
  match result with
  | 0 | 1 | 2 => decide
  | n + 3 => simp [PacketResult.parse]

/-- The request that the task is at -/
def Task.request? : Task → Option (ℕ × Request × ℕ)
  | .sending no request msgId => some (no, request, msgId)
  | .awaitAcked no request msgId => some (no, request, msgId)
  | _ => none

/-- What has to have been read for the result of a request: an acknowledgement of this request, with the
result 0 for a success and another one for a failure. -/
def Explained (taken : List Arrival) (o : Outcome) : Prop :=
  match o.result with
  | .ok () => ∃ a ∈ taken, a.request = some o.no ∧ a.urc.ack = some (o.request, msgIdOf o.no, 0)
  | .error (.mqtt _) => ∃ a ∈ taken, a.request = some o.no ∧
      ∃ result, result ≠ 0 ∧ a.urc.ack = some (o.request, msgIdOf o.no, result)
  | .error _ => True

lemma Explained.mono {taken : List Arrival} {o : Outcome} (h : Explained taken o) (a : Arrival) :
    Explained (taken ++ [a]) o := by
  unfold Explained at *
  split
  · rename_i hresult
    simp only [hresult] at h
    obtain ⟨b, hb, hbo⟩ := h
    exact ⟨b, List.mem_append_left _ hb, hbo⟩
  · rename_i hresult
    simp only [hresult] at h
    obtain ⟨b, hb, hbo⟩ := h
    exact ⟨b, List.mem_append_left _ hb, hbo⟩
  · trivial

namespace Driver

structure AckInv (d : Driver) : Prop where
  txMsgId : d.txMsgId = msgIdOf d.requests.length
  task : ∀ no request msgId, d.task.request? = some (no, request, msgId) →
    no + 1 = d.requests.length ∧ d.requests[no]? = some request ∧ msgId = msgIdOf no
  channel : ∀ a ∈ d.channel, Genuine d.requests a.urc a.request
  outcomes : ∀ o ∈ d.outcomes, d.requests[o.no]? = some o.request ∧ Explained d.taken o
  order : d.outcomes.Pairwise fun o p => o.no < p.no
  ended : ∀ o ∈ d.outcomes, ∀ no request msgId, d.task.request? = some (no, request, msgId) → o.no < no

variable {d d' : Driver} {a : Arrival}

/-- The request of the task ends with a result that is explained. -/
lemma AckInv.finish (hd : AckInv d) {no : ℕ} {request : Request} {msgId : ℕ}
    (htask : d.task.request? = some (no, request, msgId)) {result : Except Error Unit}
    (hresult : Explained d.taken ⟨no, request, result⟩) : AckInv (d.finish no request result) where
  txMsgId := hd.txMsgId
  task _ _ _ h := by cases h
  channel := hd.channel
  outcomes o ho := by
    rcases List.mem_append.mp ho with ho | ho
    · exact hd.outcomes o ho
    · cases List.mem_singleton.mp ho
      exact ⟨(hd.task no request msgId htask).2.1, hresult⟩
  order := by
    simp only [Driver.finish, List.pairwise_append]
    refine ⟨hd.order, List.pairwise_singleton _ _, fun o ho p hp => ?_⟩
    cases List.mem_singleton.mp hp
    exact hd.ended o ho no request msgId htask
  ended _ _ _ _ _ h := by cases h

/-- A step in which no request begins or ends -/
lemma AckInv.shift (hd : AckInv d) (htx : d'.nextTxMsgId = d.nextTxMsgId) (hrequests : d'.requests = d.requests)
    (htask : ∀ x, d'.task.request? = some x → d.task.request? = some x)
    (hchannel : ∀ a ∈ d'.channel, a ∈ d.channel) (houtcomes : d'.outcomes = d.outcomes)
    (htaken : d'.taken = d.taken ∨ ∃ a, d'.taken = d.taken ++ [a]) : AckInv d' where
  txMsgId := by rw [Driver.txMsgId, htx, hrequests]; exact hd.txMsgId
  task no request msgId h := by rw [hrequests]; exact hd.task no request msgId (htask _ h)
  channel a ha := by rw [hrequests]; exact hd.channel a (hchannel a ha)
  outcomes o ho := by
    rw [houtcomes] at ho
    rw [hrequests]
    refine ⟨(hd.outcomes o ho).1, ?_⟩
    rcases htaken with htaken | ⟨a, htaken⟩
    · rw [htaken]
      exact (hd.outcomes o ho).2
    · rw [htaken]
      exact (hd.outcomes o ho).2.mono a
  order := by rw [houtcomes]; exact hd.order
  ended o ho no request msgId h := by
    rw [houtcomes] at ho
    exact hd.ended o ho no request msgId (htask _ h)

lemma AckInv.arrive (hd : AckInv d) {urc : Urc} {request : Option ℕ}
    (hgenuine : Genuine d.requests urc request) : AckInv (d.exec (.arrive urc request)) := by
  refine ⟨hd.txMsgId, hd.task, fun a ha => ?_, hd.outcomes, hd.order, hd.ended⟩
  rcases List.mem_append.mp ha with ha | ha
  · exact hd.channel a ha
  · cases List.mem_singleton.mp ha
    exact hgenuine

/-- The next message id -/
lemma txMsgId_of_msgId {d : Driver} {no : ℕ} (h : d.nextTxMsgId = msgIdOf no) : d.txMsgId = msgIdOf (no + 1) := by
  unfold Driver.txMsgId
  rw [h]
  unfold msgIdOf
  split <;> omega

lemma AckInv.begin (hd : AckInv d) (request : Request) (messageLen : ℕ) :
    AckInv (d.begin request messageLen) := by
  have hstarted : AckInv { d with
      nextTxMsgId := d.txMsgId
      requests := d.requests ++ [request]
      task := .sending d.requests.length request d.txMsgId } := by
    refine ⟨?_, ?_, fun a ha => (hd.channel a ha).append request, fun o ho => ?_, hd.order, fun o ho => ?_⟩
    · rw [txMsgId_of_msgId hd.txMsgId]
      simp
    · intro no request' msgId h
      cases h
      exact ⟨by simp, by simp, hd.txMsgId⟩
    · obtain ⟨hno, hexplained⟩ := hd.outcomes o ho
      exact ⟨List.getElem?_append_left (List.getElem?_eq_some_iff.mp hno).1 ▸ hno, hexplained⟩
    · intro no request' msgId h
      cases h
      exact (List.getElem?_eq_some_iff.mp (hd.outcomes o ho).1).1
  unfold Driver.begin
  dsimp only
  split
  · have hfinish : AckInv (Driver.finish _ d.requests.length request (.error .serialize)) :=
      hstarted.finish rfl trivial
    exact hfinish
  · exact hstarted

/-- The loop over the acknowledgements: only one that reports on the request decides. -/
lemma AckInv.acked (hd : AckInv d) {no : ℕ} {request : Request} {msgId : ℕ}
    (htask : d.task = .awaitAcked no request msgId) (ha : a ∈ d.taken)
    (hvariant : a.urc.variant = request.variant) (hgenuine : Genuine d.requests a.urc a.request)
    (hfresh : ∀ k ∈ a.request, d.requests.length ≤ k + 65535) :
    AckInv (d.acked no request msgId a.urc) := by
  obtain ⟨hno, -, rfl⟩ := hd.task no request msgId (by rw [htask]; rfl)
  obtain ⟨id, result, hack⟩ := ack_of_variant hvariant
  simp only [Driver.acked, hack]
  -- the id of the request is reported: by its own acknowledgement
  have hown : msgIdOf no = id → a.request = some no ∧ a.urc.ack = some (request, msgIdOf no, result) := by
    intro hid
    subst hid
    refine ⟨?_, hack⟩
    unfold Genuine at hgenuine
    simp only [hack] at hgenuine
    cases hrequest : a.request with
    | none =>
      rw [hrequest] at hgenuine
      exact absurd hgenuine (msgIdOf_pos no).ne'
    | some k =>
      rw [hrequest] at hgenuine
      have hlt := (List.getElem?_eq_some_iff.mp hgenuine.1).1
      have hk := hfresh k hrequest
      rw [msgIdOf_inj (by omega) (by omega) hgenuine.2.symm]
  unfold parsePacketResult
  by_cases hid : msgIdOf no = id
  · obtain ⟨hrequest, hack'⟩ := hown hid
    rw [if_pos hid]
    have hzero := parse_eq_success result
    cases hparse : PacketResult.parse result with
    | success =>
      rw [hzero.mp hparse] at hack'
      exact hd.finish (by rw [htask]; rfl) ⟨a, ha, hrequest, hack'⟩
    | retransmission | failed | unknown =>
      have hne : result ≠ 0 := fun h => by
        rw [hzero.mpr h] at hparse
        cases hparse
      have hexplained : Explained d.taken ⟨no, request, .error request.error⟩ := by
        cases request <;> exact ⟨a, ha, hrequest, result, hne, hack'⟩
      exact hd.finish (by rw [htask]; rfl) hexplained
  · rw [if_neg hid]
    exact hd

lemma AckInv.unexpectedUrc (hd : AckInv d) {channel : List Arrival} (h : d.channel = a :: channel) :
    AckInv ({ d with channel := channel }.unexpectedUrc a) := by
  have hchannel : ∀ b ∈ channel, b ∈ d.channel := fun b hb => h ▸ List.mem_cons_of_mem a hb
  unfold Driver.unexpectedUrc
  split
  · exact hd.shift rfl rfl (fun _ => id) hchannel rfl (.inl rfl)
  · exact hd.shift rfl rfl (fun _ => id) hchannel rfl (.inl rfl)

lemma AckInv.poll (hd : AckInv d) (hfresh : d.Fresh) : AckInv d.poll := by
  unfold Driver.poll
  split
  · exact hd
  · rename_i a channel h
    have hchannel : ∀ b ∈ channel, b ∈ d.channel := fun b hb => h ▸ List.mem_cons_of_mem a hb
    have hmem : a ∈ d.channel := h ▸ List.mem_cons_self
    dsimp only
    split
    · split
      · exact hd.shift rfl rfl nofun hchannel rfl (.inr ⟨a, rfl⟩)
      · exact hd.unexpectedUrc h
    · rename_i no request msgId htask
      split
      · rename_i hvariant
        have hread : AckInv { d with channel := channel, taken := d.taken ++ [a] } :=
          hd.shift rfl rfl (fun _ => id) hchannel rfl (.inr ⟨a, rfl⟩)
        exact hread.acked htask (List.mem_append_right _ (List.mem_singleton_self a)) hvariant
          (hd.channel a hmem) (hfresh a (by rw [h]; rfl))
      · exact hd.unexpectedUrc h
    · exact hd

lemma AckInv.awaitResponse (hd : AckInv d) : AckInv d.awaitResponse := by
  unfold Driver.awaitResponse
  split
  · exact hd.shift rfl rfl (fun _ => id) (fun _ => id) rfl (.inl rfl)
  · split
    · exact hd
    · exact hd.shift rfl rfl (fun _ => id) (fun _ => id) rfl (.inl rfl)
    · rename_i hchannel
      exact hd.shift rfl rfl (fun _ => id) (fun b hb => hchannel ▸ List.mem_cons_of_mem _ hb) rfl (.inl rfl)
    · exact hd

lemma AckInv.exec (hd : AckInv d) (op : Op) (hg : d.Guard op) : AckInv (d.exec op) := by
  cases op with
  | arrive urc request => exact hd.arrive hg
  | uartError => exact hd.shift rfl rfl (fun _ => id) (fun _ => id) rfl (.inl rfl)
  | begin request messageLen =>
    simp only [Driver.exec]
    split
    · exact hd.begin request messageLen
    · exact hd
  | sent ok =>
    simp only [Driver.exec, sent]
    split
    · rename_i no request msgId htask
      split
      · exact hd.shift rfl rfl (fun x hx => by rw [htask]; exact hx) (fun _ => id) rfl (.inl rfl)
      · exact hd.finish (by rw [htask]; rfl) trivial
    · exact hd
  | awaitUrc variant =>
    simp only [Driver.exec]
    split
    · exact hd.shift rfl rfl nofun (fun _ => id) rfl (.inl rfl)
    · exact hd
  | poll => exact hd.poll hg
  | timeout =>
    simp only [Driver.exec, timeout]
    split
    · exact hd.shift rfl rfl nofun (fun _ => id) rfl (.inl rfl)
    · rename_i htask
      exact hd.finish (by rw [htask]; rfl) trivial
    · exact hd
  | cancel => exact hd.shift rfl rfl nofun (fun _ => id) rfl (.inl rfl)
  | awaitResponse =>
    simp only [Driver.exec]
    split
    · exact hd.awaitResponse
    · exact hd
  | handleUrc =>
    simp only [Driver.exec, Driver.handleUrc]
    split
    · split
      · exact hd.shift rfl rfl (fun _ => id) (fun _ => id) rfl (.inl rfl)
      · exact hd
    · exact hd
  | flush =>
    simp only [Driver.exec]
    split
    · exact hd.shift rfl rfl (fun _ => id) nofun rfl (.inl rfl)
    · exact hd

lemma ackInv_new : AckInv new := by
  refine ⟨rfl, nofun, nofun, nofun, .nil, nofun⟩

lemma Run.acked (h : d.Run) : AckInv d := h.invariant ackInv_new fun _ op hd hg => hd.exec op hg

end Driver

/-- **A request ends with its own acknowledgement.** In every reachable state, a request has ended at most
once; and one that ended with a success, or was reported as failed, has had an acknowledgement read that the
modem sent for this very request, with this result: not one for an earlier request that had timed out, and
not the notice of a retransmission. -/
theorem acked_by_own {d : Driver} (h : d.Run) :
    (d.outcomes.Pairwise fun o p => o.no < p.no) ∧
    ∀ o ∈ d.outcomes, d.requests[o.no]? = some o.request ∧ Explained d.taken o :=
  ⟨h.acked.order, h.acked.outcomes⟩

/-- The first message is not acknowledged in time. Its acknowledgement comes when the second one is sent, behind
the notification of a message, and before the notice of a retransmission and its own acknowledgement. -/
def sampleRun : List Op :=
  [.begin .publish 10, .sent true, .timeout, .arrive (.mqttReceive 0) none, .arrive (.mqttPublish 1 0) (some 0),
    .begin .publish 10, .sent true, .poll, .poll, .arrive (.mqttPublish 0 1) none, .poll,
    .arrive (.mqttPublish 2 0) (some 1), .poll, .awaitResponse, .handleUrc]

def sample : Driver := sampleRun.foldl Driver.exec .new

lemma sample_run : sample.Run := Reach.run sampleRun .start (by decide)

theorem urcs_routed_sample : sample.inFlight.map Arrival.urc = [.mqttReceive 0] ∧
    ((sample.inFlight ++ sample.removed).map Arrival.no).Perm (List.range 4) :=
  ⟨by decide, (urcs_routed sample_run).1⟩

theorem acked_by_own_sample : Explained sample.taken ⟨1, .publish, .ok ()⟩ :=
  ((acked_by_own sample_run).2 ⟨1, .publish, .ok ()⟩ (List.mem_iff_getElem?.mpr ⟨1, rfl⟩)).2

end Urcs

end SensorLink.Modem
