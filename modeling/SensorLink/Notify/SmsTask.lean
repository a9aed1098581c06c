import Mathlib.Data.List.Perm.Basic
import SensorLink.Notify.AlarmLoss
import SensorLink.Lib.Reach

/-!
# Alarm messages on their way

The alarm task hands its SMS over to the task of `sms.rs`, which gives each to a gateway of its own, through the
MQTT client, or posts it to a provider. The gateway answers through the MQTT client, which marks the event as sent.
All parties run side by side, on one event store. Times are in milliseconds.
-/

namespace SensorLink.Notify

open SensorLink.Lib

namespace EventStore

variable {C D : Type}

def setCode (id : String) (code : ℕ) (type : EventType) (e : Event C D) : Event C D :=
  if e.id = id then { e with code := code, type := type } else e

@[simp] lemma setCode_id (id : String) (code : ℕ) (type : EventType) (e : Event C D) :
    (setCode id code type e).id = e.id := by
  unfold setCode
  split <;> rfl

@[simp] lemma setCode_sent (id : String) (code : ℕ) (type : EventType) (e : Event C D) :
    (setCode id code type e).sent = e.sent := by
  unfold setCode
  split <;> rfl

/-- `event_update_code` -/
def eventUpdateCode (db : EventStore C D) (id : String) (code : ℕ) (type : EventType) : EventStore C D where
  events := db.events.map (setCode id code type)
  nodup := by simpa [Function.comp_def] using db.nodup

/-- A new event, where its id is new -/
def insert (db : EventStore C D) (e : Event C D) : EventStore C D :=
  if h : e.id ∈ db.events.map Event.id then db
  else ⟨db.events ++ [e], by
    rw [List.map_append]
    exact List.Nodup.append db.nodup (List.nodup_singleton _) (by simpa using h)⟩

end EventStore

namespace SmsTask

structure SMS where
  phoneNumbers : List String
  message : String
  groupName : Option String
  originator : String
  eventId : String
  /-- When the server created it -/
  createdAt : ℤ
  useJitterGateway : Bool
deriving DecidableEq

structure SMSRequest where
  id : String
  phoneNumbers : List String
  message : String
deriving DecidableEq

def SMS.toRequest (sms : SMS) : SMSRequest := ⟨sms.eventId, sms.phoneNumbers, sms.message⟩

/-- What is posted to the provider -/
structure SMSPayload where
  encoding : String
  body : String
  route : String
  originator : String
  recipients : List String
  reference : Option String
deriving DecidableEq

def SMS.toPayload (sms : SMS) : SMSPayload :=
  ⟨"auto", sms.message, "business", sms.originator, sms.phoneNumbers, sms.groupName⟩

/-- What comes of a post: a response of success, another response, or none -/
inductive PostResult
  | success
  | rejected
  | error

/-- Where `send_task` waits: for a message, for the provider, or for the store -/
inductive Point
  | receive
  | post (sms : SMS)
  | mark (sms : SMS) (status : SendStatus) (update : Bool)
  | update (sms : SMS)
deriving DecidableEq

def Point.posting : Point → List SMS
  | .post sms => [sms]
  | _ => []

structure World (C D : Type) where
  db : EventStore C D
  /-- `alarms_processed_untill` -/
  untill : ℤ
  hasConfig : Bool
  /-- The events that are left of a poll of the alarm task -/
  alarms : List (Event C D)
  mailed : List String
  /-- All that was handed over to the task -/
  handed : List SMS
  queue : List SMS
  point : Point
  /-- For these a mail about the fallback was tried. -/
  fallbacks : List SMS
  /-- Handed over to the MQTT client, and when -/
  requests : List (ℤ × SMS)
  /-- The channel to the MQTT client -/
  outgoing : List SMSRequest
  taken : List SMSRequest
  published : List SMSRequest
  /-- What the gateway has answered: the id, and whether it was a success -/
  answers : List (String × Bool)
  posted : List SMSPayload
  accepted : List SMS
  rejected : List SMS
  unanswered : List SMS
  /-- There is no provider. -/
  refused : List SMS
  /-- The task panicked. -/
  lost : List SMS

variable {C D Email : Type}

inductive Op (C D Email : Type)
  | insert (e : Event C D)
  /-- The alarm task queries the store, or comes to the next event of its poll. -/
  | query (env : Env C D Email SMS) (now : ℤ)
  | alarm (env : Env C D Email SMS)
  /-- The task receives a message; `room` tells whether the channel to the MQTT client takes it. -/
  | receive (now : ℤ) (room : Bool)
  | posted (result : PostResult)
  /-- A call of the store returns, and whether it got there. -/
  | stored (ok : Bool)
  | panic
  /-- The MQTT client takes a request, and may fail to publish it. -/
  | publish (ok : Bool)
  | answer (id : String) (success : Bool)
  /-- The MQTT client handles an answer; `ok` tells whether its call gets to the store. -/
  | response (i : ℕ) (ok : Bool)

namespace World

def new (db : EventStore C D) (untill : ℤ) (hasConfig : Bool) : World C D where
  db := db
  untill := untill
  hasConfig := hasConfig
  alarms := []
  mailed := []
  handed := []
  queue := []
  point := .receive
  fallbacks := []
  requests := []
  outgoing := []
  taken := []
  published := []
  answers := []
  posted := []
  accepted := []
  rejected := []
  unanswered := []
  refused := []
  lost := []

variable (w : World C D)

/-- An event of a poll; after an error the rest of the poll is left. -/
def alarm (env : Env C D Email SMS) (event : Event C D) (rest : List (Event C D)) : World C D :=
  let r := processEvent env ⟨w.db, [], []⟩ event
  { w with
    db := r.2.db
    alarms := if r.1.isOk then rest else []
    mailed := w.mailed ++ r.2.mails.map Prod.fst
    handed := w.handed ++ r.2.smss.map Prod.snd
    queue := w.queue ++ r.2.smss.map Prod.snd }

/-- The provider, if there is one -/
def provider (sms : SMS) : World C D :=
  if w.hasConfig then { w with posted := w.posted ++ [sms.toPayload], point := .post sms }
  else { w with refused := w.refused ++ [sms], point := .mark sms .failed false }

/-- A message is younger than 15 seconds. -/
def Fresh (now : ℤ) (sms : SMS) : Prop := now - sms.createdAt < 15 * 1000

instance (now : ℤ) (sms : SMS) : Decidable (Fresh now sms) := inferInstanceAs (Decidable (_ < _))

/-- An iteration of the loop until it waits -/
def handle (now : ℤ) (room : Bool) (sms : SMS) : World C D :=
  if sms.useJitterGateway then
    if Fresh now sms ∧ room = true then
      { w with requests := w.requests ++ [(now, sms)], outgoing := w.outgoing ++ [sms.toRequest] }
    else { w with fallbacks := w.fallbacks ++ [sms] }.provider sms
  else w.provider sms

def mark (id : String) (status : SendStatus) (ok : Bool) : World C D :=
  if ok then { w with db := (w.db.eventMarkSent id status).2 } else w

def exec (w : World C D) : Op C D Email → World C D
  | .insert e => { w with db := w.db.insert e }
  | .query env now =>
    match polled env w.untill now w.db with
    | .ok events => { w with alarms := events }
    | .error _ => w
  | .alarm env =>
    match w.alarms with
    | event :: rest => w.alarm env event rest
    | [] => w
  | .receive now room =>
    match w.queue with
    | sms :: rest => { w with queue := rest }.handle now room sms
    | [] => w
  | .posted result =>
    match w.point with
    | .post sms =>
      match result with
      | .success => { w with accepted := w.accepted ++ [sms], point := .mark sms .sent false }
      | .rejected => { w with rejected := w.rejected ++ [sms], point := .mark sms .failed true }
      | .error => { w with unanswered := w.unanswered ++ [sms], point := .update sms }
    | _ => w
  | .stored ok =>
    match w.point with
    | .mark sms status update =>
      { w.mark sms.eventId status ok with point := if update then .update sms else .receive }
    | .update sms =>
      { w with
        db := if ok then w.db.eventUpdateCode sms.eventId EventCodes.errorSendingSMS .warning else w.db
        point := .receive }
    | _ => w
  | .panic => { w with lost := w.lost ++ w.point.posting, point := .receive }
  | .publish ok =>
    match w.outgoing with
    | request :: rest =>
      { w with
        outgoing := rest
        taken := w.taken ++ [request]
        published := if ok then w.published ++ [request] else w.published }
    | [] => w
  | .answer id success => { w with answers := w.answers ++ [(id, success)] }
  | .response i ok =>
    match w.answers[i]? with
    | some (id, true) => w.mark id .sent ok
    | _ => w

/-- An SMS that the builder made of an event carries its id. -/
def Guard (w : World C D) : Op C D Email → Prop
  | .insert e => e.sent = .notSent
  | .query _ _ => w.alarms.isEmpty = true
  | .alarm env => ∀ event ∈ w.alarms.head?,
      ∀ p ∈ (processEvent env ⟨w.db, [], []⟩ event).2.smss, p.2.eventId = p.1
  | .receive _ _ => w.point = .receive
  | .posted _ | .stored _ | .panic | .publish _ | .response _ _ => True
  | .answer id _ => ∃ request ∈ w.published, request.id = id

instance (w : World C D) (op : Op C D Email) : Decidable (w.Guard op) := by
  cases op <;> simp only [Guard] <;> infer_instance

/-- A run of the server from a store on -/
def Run (Email : Type) (db : EventStore C D) (untill : ℤ) (hasConfig : Bool) (w : World C D) : Prop :=
  Reach exec (Guard : World C D → Op C D Email → Prop) (new db untill hasConfig) w

end World

/-! ### Why an event is marked -/

namespace World

variable {w : World C D} {db₀ : EventStore C D} {id : String} {status : SendStatus}

/-- The gateway answered a request for the event with success, or the provider took its message. -/
def Confirmed (w : World C D) (id : String) : Prop :=
  ((id, true) ∈ w.answers ∧ ∃ q ∈ w.requests, q.2.eventId = id) ∨ ∃ sms ∈ w.accepted, sms.eventId = id

/-- The provider did not take a message for the event, or there is none. -/
def Denied (w : World C D) (id : String) : Prop :=
  (∃ sms ∈ w.rejected, sms.eventId = id) ∨ ∃ sms ∈ w.refused, sms.eventId = id

/-- The event had the status from the start. -/
def Initially (db₀ : EventStore C D) (id : String) (status : SendStatus) : Prop :=
  ∃ e ∈ db₀.events, e.id = id ∧ e.sent = status

/-- There is a reason for the status. -/
def Justified (db₀ : EventStore C D) (w : World C D) (id : String) : SendStatus → Prop
  | .notSent | .sending => True
  | .sent => Initially db₀ id .sent ∨ id ∈ w.mailed ∨ w.Confirmed id
  | .failed => Initially db₀ id .failed ∨ w.Denied id

/-- What the reasons are made of grows. -/
def Grows (w w' : World C D) : Prop :=
  w.mailed ⊆ w'.mailed ∧ w.answers ⊆ w'.answers ∧ w.requests ⊆ w'.requests ∧ w.accepted ⊆ w'.accepted ∧
    w.rejected ⊆ w'.rejected ∧ w.refused ⊆ w'.refused

lemma grows_refl (w : World C D) : Grows w w :=
  ⟨fun _ => id, fun _ => id, fun _ => id, fun _ => id, fun _ => id, fun _ => id⟩

lemma Justified.mono {w' : World C D} (h : Justified db₀ w id status) (hw : Grows w w') :
    Justified db₀ w' id status := by
  obtain ⟨hmailed, hanswers, hrequests, haccepted, hrejected, hrefused⟩ := hw
  cases status with
  | notSent | sending => trivial
  | sent =>
    rcases h with h | h | ⟨ha, q, hq, hid⟩ | ⟨sms, hs, hid⟩
    · exact .inl h
    · exact .inr (.inl (hmailed h))
    · exact .inr (.inr (.inl ⟨hanswers ha, q, hrequests hq, hid⟩))
    · exact .inr (.inr (.inr ⟨sms, haccepted hs, hid⟩))
  | failed =>
    rcases h with h | ⟨sms, hs, hid⟩ | ⟨sms, hs, hid⟩
    · exact .inl h
    · exact .inr (.inl ⟨sms, hrejected hs, hid⟩)
    · exact .inr (.inr ⟨sms, hrefused hs, hid⟩)

/-- There is a reason for what the task is about to mark. -/
def Due (db₀ : EventStore C D) (w : World C D) : Prop :=
  ∀ sms status update, w.point = .mark sms status update → Justified db₀ w sms.eventId status

structure Marked (db₀ : EventStore C D) (w : World C D) : Prop where
  events : ∀ e ∈ w.db.events, Justified db₀ w e.id e.sent
  due : Due db₀ w
  outgoing : ∀ request ∈ w.outgoing, ∃ q ∈ w.requests, q.2.eventId = request.id
  published : ∀ request ∈ w.published, ∃ q ∈ w.requests, q.2.eventId = request.id
  answers : ∀ a ∈ w.answers, ∃ q ∈ w.requests, q.2.eventId = a.1

lemma marked_new (untill : ℤ) (hasConfig : Bool) : Marked db₀ (new db₀ untill hasConfig : World C D) where
  events e he := by
    cases hsent : e.sent with
    | notSent | sending => trivial
    | sent => exact .inl ⟨e, he, rfl, hsent⟩
    | failed => exact .inl ⟨e, he, rfl, hsent⟩
  due := by simp [Due, new]
  outgoing := by simp [new]
  published := by simp [new]
  answers := by simp [new]

/-- The store changes only in statuses that there are reasons for. -/
lemma justified_marked {db : EventStore C D} (hdb : ∀ e ∈ db.events, Justified db₀ w e.id e.sent)
    (hid : Justified db₀ w id status) : ∀ e ∈ (db.marked id status).events, Justified db₀ w e.id e.sent := by
  intro e he
  by_cases heq : e.id = id
  · rw [sent_of_mem_marked he heq, heq]
    exact hid
  · exact hdb e ((mem_marked heq).mp he)

lemma justified_code {db : EventStore C D} (hdb : ∀ e ∈ db.events, Justified db₀ w e.id e.sent) (code : ℕ)
    (type : EventType) : ∀ e ∈ (db.eventUpdateCode id code type).events, Justified db₀ w e.id e.sent := by
  intro e he
  obtain ⟨y, hy, rfl⟩ := List.mem_map.mp he
  rw [EventStore.setCode_id, EventStore.setCode_sent]
  exact hdb y hy

/-- What the alarm task does with an event in the store -/
lemma processEvent_db (env : Env C D Email SMS) (s : AlarmState C D Email SMS) (event : Event C D) :
    (processEvent env s event).2.db = s.db ∨
    (processEvent env s event).2.db = s.db.marked event.id .sending ∨
    (processEvent env s event).2.db = s.db.marked event.id .sent ∧
      event.id ∈ (processEvent env s event).2.mails.map Prod.fst := by
  cases hcontact : event.contactDetails with
  | none => simp [processEvent, hcontact]
  | some contact =>
    cases htype : event.type with
    | email =>
      simp only [processEvent, hcontact, htype]
      cases hbuild : env.buildEmail event contact with
      | error _ => exact .inl rfl
      | ok mail =>
        cases mail with
        | none => exact .inl rfl
        | some mail =>
          cases hmail : env.mailFails event.id with
          | true => exact .inl rfl
          | false =>
            have hstate : (markSent env { s with mails := s.mails ++ [(event.id, mail)] } event.id .sent).2 = _ :=
              markSent_state event.id .sent
            rcases hm : markSent env { s with mails := s.mails ++ [(event.id, mail)] } event.id .sent with ⟨ok, s'⟩
            rw [hm] at hstate
            simp only [Bool.false_eq_true, if_false, hm]
            have hs' : s' = _ := hstate
            cases ok <;> simp only [hs'] <;> split <;> simp
    | sms =>
      simp only [processEvent, hcontact, htype, markSent_state]
      cases hbuild : env.buildSms event contact with
      | error _ => simp only; split <;> simp
      | ok sms =>
        cases sms with
        | none => simp only; split <;> simp
        | some sms =>
          cases env.smsFails event.id <;> simp only [Bool.false_eq_true, if_false, if_true] <;> split <;> simp
    | _ => simp [processEvent, hcontact, htype]

lemma Due.mono {w' : World C D} (h : Due db₀ w) (hgrows : Grows w w') (hpoint : w'.point = w.point) :
    Due db₀ w' :=
  fun sms status update hp => (h sms status update (hpoint ▸ hp)).mono hgrows

/-- The store is changed for a reason, and the channels only hold requests of the task. -/
lemma Marked.change (hw : Marked db₀ w) {w' : World C D} (hgrows : Grows w w')
    (hdb : ∀ e ∈ w'.db.events, Justified db₀ w' e.id e.sent) (hdue : Due db₀ w')
    (houtgoing : ∀ request ∈ w'.outgoing, request ∈ w.outgoing ∨ ∃ q ∈ w'.requests, q.2.eventId = request.id)
    (hpublished : ∀ request ∈ w'.published, request ∈ w.published ∨ request ∈ w.outgoing)
    (hanswers : ∀ a ∈ w'.answers, a ∈ w.answers ∨ ∃ request ∈ w.published, request.id = a.1) : Marked db₀ w' := by
  have hrequests : w.requests ⊆ w'.requests := hgrows.2.2.1
  have hfrom {id : String} : (∃ q ∈ w.requests, q.2.eventId = id) → ∃ q ∈ w'.requests, q.2.eventId = id :=
    fun ⟨q, hq, hid⟩ => ⟨q, hrequests hq, hid⟩
  refine ⟨hdb, hdue, fun request h => ?_, fun request h => ?_, fun a h => ?_⟩
  · exact (houtgoing request h).elim (fun h => hfrom (hw.outgoing request h)) id
  · exact hfrom ((hpublished request h).elim (hw.published request) (hw.outgoing request))
  · rcases hanswers a h with h | ⟨request, hr, hid⟩
    · exact hfrom (hw.answers a h)
    · exact hfrom (hid ▸ hw.published request hr)

/-- Nothing happens to the store and the channels. -/
lemma Marked.same (hw : Marked db₀ w) {w' : World C D} (hgrows : Grows w w') (hdb : w'.db = w.db)
    (hdue : Due db₀ w') (houtgoing : w'.outgoing = w.outgoing) (hpublished : w'.published = w.published)
    (hanswers : w'.answers = w.answers) : Marked db₀ w' :=
  hw.change hgrows (fun e he => (hw.events e (hdb ▸ he)).mono hgrows) hdue (fun _ h => .inl (houtgoing ▸ h))
    (fun _ h => .inl (hpublished ▸ h)) fun _ h => .inl (hanswers ▸ h)

/-- Only the store changes, and the task goes on. -/
lemma Marked.store (hw : Marked db₀ w) (db : EventStore C D) (point : Point)
    (hdb : ∀ e ∈ db.events, Justified db₀ w e.id e.sent) (hdue : Due db₀ { w with point := point }) :
    Marked db₀ { w with db := db, point := point } :=
  hw.change (grows_refl w) hdb hdue (fun _ => .inl) (fun _ => .inl) fun _ => .inl

lemma Marked.insert (hw : Marked db₀ w) {e : Event C D} (hsent : e.sent = .notSent) :
    Marked db₀ { w with db := w.db.insert e } := by
  refine hw.store _ w.point (fun e' he' => ?_) hw.due
  unfold EventStore.insert at he'
  split_ifs at he'
  · exact hw.events e' he'
  · rcases List.mem_append.mp he' with h | h
    · exact hw.events e' h
    · rw [List.mem_singleton.mp h, hsent]
      trivial

lemma Marked.alarm (hw : Marked db₀ w) (env : Env C D Email SMS) (event : Event C D) (rest : List (Event C D)) :
    Marked db₀ (w.alarm env event rest) := by
  have hgrows : Grows w (w.alarm env event rest) :=
    ⟨List.subset_append_left _ _, fun _ => id, fun _ => id, fun _ => id, fun _ => id, fun _ => id⟩
  have hbefore : ∀ e ∈ w.db.events, Justified db₀ (w.alarm env event rest) e.id e.sent :=
    fun e he => (hw.events e he).mono hgrows
  refine hw.change hgrows (fun e he => ?_) (hw.due.mono hgrows rfl) (fun _ => .inl) (fun _ => .inl) fun _ => .inl
  rcases processEvent_db env ⟨w.db, [], []⟩ event with h | h | ⟨h, hmail⟩ <;> simp only [World.alarm, h] at he
  · exact hbefore e he
  · have hsending : Justified db₀ (w.alarm env event rest) event.id .sending := trivial
    exact justified_marked hbefore hsending e he
  · have hsent : Justified db₀ (w.alarm env event rest) event.id .sent :=
      .inr (.inl (List.mem_append_right _ hmail))
    exact justified_marked hbefore hsent e he

lemma Marked.provider (hw : Marked db₀ w) (sms : SMS) : Marked db₀ (w.provider sms) := by
  unfold World.provider
  split_ifs
  · exact hw.same (grows_refl w) rfl (by simp [Due]) rfl rfl rfl
  · have hgrows : Grows w { w with refused := w.refused ++ [sms] } :=
      ⟨fun _ => id, fun _ => id, fun _ => id, fun _ => id, fun _ => id, List.subset_append_left _ _⟩
    refine hw.same hgrows rfl ?_ rfl rfl rfl
    intro sms' status update hp
    obtain ⟨rfl, rfl, -⟩ : sms = sms' ∧ SendStatus.failed = status ∧ false = update := by simpa using hp
    exact .inr (.inr ⟨sms, List.mem_append_right _ (List.mem_singleton_self _), rfl⟩)

lemma Marked.handle (hw : Marked db₀ w) (now : ℤ) (room : Bool) (sms : SMS) : Marked db₀ (w.handle now room sms) := by
  unfold World.handle
  split_ifs
  · have hgrows : Grows w { w with requests := w.requests ++ [(now, sms)] } :=
      ⟨fun _ => id, fun _ => id, List.subset_append_left _ _, fun _ => id, fun _ => id, fun _ => id⟩
    refine hw.change hgrows (fun e he => (hw.events e he).mono hgrows) (hw.due.mono hgrows rfl) (fun request h => ?_)
      (fun _ => .inl) fun _ => .inl
    rcases List.mem_append.mp h with h | h
    · exact .inl h
    · rw [List.mem_singleton.mp h]
      exact .inr ⟨(now, sms), List.mem_append_right _ (List.mem_singleton_self _), rfl⟩
  · have hfallback : Marked db₀ { w with fallbacks := w.fallbacks ++ [sms] } :=
      hw.same (grows_refl w) rfl hw.due rfl rfl rfl
    exact hfallback.provider sms
  · exact hw.provider sms

lemma Marked.posted (hw : Marked db₀ w) {sms : SMS} (hp : w.point = .post sms) (result : PostResult) :
    Marked db₀ (w.exec (.posted result : Op C D Email)) := by
  simp only [exec, hp]
  cases result with
  | success =>
    have hgrows : Grows w { w with accepted := w.accepted ++ [sms] } :=
      ⟨fun _ => id, fun _ => id, fun _ => id, List.subset_append_left _ _, fun _ => id, fun _ => id⟩
    refine hw.same hgrows rfl ?_ rfl rfl rfl
    intro sms' status update hp
    obtain ⟨rfl, rfl, -⟩ : sms = sms' ∧ SendStatus.sent = status ∧ false = update := by simpa using hp
    exact .inr (.inr (.inr ⟨sms, List.mem_append_right _ (List.mem_singleton_self _), rfl⟩))
  | rejected =>
    have hgrows : Grows w { w with rejected := w.rejected ++ [sms] } :=
      ⟨fun _ => id, fun _ => id, fun _ => id, fun _ => id, List.subset_append_left _ _, fun _ => id⟩
    refine hw.same hgrows rfl ?_ rfl rfl rfl
    intro sms' status update hp
    obtain ⟨rfl, rfl, -⟩ : sms = sms' ∧ SendStatus.failed = status ∧ true = update := by simpa using hp
    exact .inr (.inl ⟨sms, List.mem_append_right _ (List.mem_singleton_self _), rfl⟩)
  | error => exact hw.same (grows_refl w) rfl (by simp [Due]) rfl rfl rfl

lemma Marked.stored (hw : Marked db₀ w) (ok : Bool) : Marked db₀ (w.exec (.stored ok : Op C D Email)) := by
  simp only [exec]
  cases hp : w.point with
  | receive | post sms => exact hw
  | mark sms status update =>
    have hdue : Due db₀ { w with point := if update then .update sms else .receive } := by
      cases update <;> simp [Due]
    cases ok with
    | false => exact hw.store w.db _ hw.events hdue
    | true => exact hw.store _ _ (justified_marked hw.events (hw.due sms status update hp)) hdue
  | update sms =>
    have hdue : Due db₀ { w with point := .receive } := by simp [Due]
    cases ok with
    | false => exact hw.store w.db _ hw.events hdue
    | true => exact hw.store _ _ (justified_code hw.events _ _) hdue

lemma Marked.response (hw : Marked db₀ w) (i : ℕ) (ok : Bool) :
    Marked db₀ (w.exec (.response i ok : Op C D Email)) := by
  simp only [exec]
  split
  · rename_i id ha
    cases ok with
    | false => exact hw
    | true =>
      have hmem : (id, true) ∈ w.answers := List.mem_of_getElem? ha
      have hsent : Justified db₀ w id .sent := .inr (.inr (.inl ⟨hmem, hw.answers _ hmem⟩))
      exact hw.store _ w.point (justified_marked hw.events hsent) hw.due
  · exact hw

lemma Marked.exec (hw : Marked db₀ w) {op : Op C D Email} (hg : w.Guard op) : Marked db₀ (w.exec op) := by
  cases op with
  | insert e => exact hw.insert hg
  | query env now =>
    simp only [World.exec]
    cases polled env w.untill now w.db with
    | error _ => exact hw
    | ok events => exact hw.same (grows_refl w) rfl hw.due rfl rfl rfl
  | alarm env =>
    simp only [World.exec]
    cases w.alarms with
    | nil => exact hw
    | cons event rest => exact hw.alarm env event rest
  | receive now room =>
    simp only [World.exec]
    cases w.queue with
    | nil => exact hw
    | cons sms rest =>
      have hqueue : Marked db₀ { w with queue := rest } := hw.same (grows_refl w) rfl hw.due rfl rfl rfl
      exact hqueue.handle now room sms
  | posted result =>
    cases hp : w.point with
    | post sms => exact hw.posted hp result
    | receive | mark sms status update | update sms => simpa only [World.exec, hp] using hw
  | stored ok => exact hw.stored ok
  | panic => exact hw.same (grows_refl w) rfl (by simp [World.exec, Due]) rfl rfl rfl
  | publish ok =>
    simp only [World.exec]
    cases hout : w.outgoing with
    | nil => exact hw
    | cons request rest =>
      refine hw.change (grows_refl w) hw.events hw.due (fun r h => ?_) (fun r h => ?_) fun _ => .inl
      · exact .inl (hout ▸ List.mem_cons_of_mem _ h)
      · cases ok with
        | false => exact .inl h
        | true =>
          rcases List.mem_append.mp h with h | h
          · exact .inl h
          · rw [List.mem_singleton.mp h, hout]
            exact .inr List.mem_cons_self
  | answer eventId success =>
    have hgrows : Grows w { w with answers := w.answers ++ [(eventId, success)] } :=
      ⟨fun _ => id, List.subset_append_left _ _, fun _ => id, fun _ => id, fun _ => id, fun _ => id⟩
    refine hw.change hgrows (fun e he => (hw.events e he).mono hgrows) (hw.due.mono hgrows rfl) (fun _ => .inl)
      (fun _ => .inl) fun a h => ?_
    rcases List.mem_append.mp h with h | h
    · exact .inl h
    · rw [List.mem_singleton.mp h]
      exact .inr hg
  | response i ok => exact hw.response i ok

end World

/-- **An event is marked for a reason.** In every run, an event that is marked as sent was so from the start, or
its mail was handed over, or the gateway answered a request for it with success, or the provider took its message;
and one that is marked as failed was so from the start, or its message was not taken by the provider, or there is
none. -/
theorem marked_for_reason {db₀ : EventStore C D} {untill : ℤ} {hasConfig : Bool} {w : World C D}
    (h : World.Run Email db₀ untill hasConfig w) {e : Event C D} (he : e ∈ w.db.events) :
    (e.sent = .sent → World.Initially db₀ e.id .sent ∨ e.id ∈ w.mailed ∨ w.Confirmed e.id) ∧
    (e.sent = .failed → World.Initially db₀ e.id .failed ∨ w.Denied e.id) := by
  have hw : World.Marked db₀ w := h.invariant (World.marked_new untill hasConfig) fun _ _ hw hg => hw.exec hg
  have hjustified := hw.events e he
  constructor <;> intro hsent <;> rw [hsent] at hjustified <;> exact hjustified

/-! One message goes to the gateway, which confirms it, and one is too late for the gateway. -/

def sampleStore : EventStore Unit Unit where
  events := [⟨"a", .sms, EventCodes.alarmSMS, 1000000, .notSent, some (), none⟩,
    ⟨"b", .sms, EventCodes.alarmSMS, 1001000, .notSent, some (), none⟩]
  nodup := by decide

def sampleEnv : Env Unit Unit Unit SMS where
  buildEmail _ _ := .ok none
  buildSms e _ := .ok (some ⟨["+31612345678"], "alarm", none, "server", e.id, e.timestamp, true⟩)
  queryFails := false
  retryQueryFails := false
  markFails _ := false
  mailFails _ := false
  smsFails _ := false

def sampleRun : List (Op Unit Unit Unit) :=
  [.query sampleEnv 1005000, .alarm sampleEnv, .alarm sampleEnv, .receive 1006000 true, .publish true,
    .answer "a" true, .receive 1020000 true, .posted .success, .response 0 true, .stored true]

def sample : World Unit Unit := sampleRun.foldl World.exec (.new sampleStore 900000 true)

lemma sample_run : World.Run Unit sampleStore 900000 true sample := Reach.run sampleRun .start (by decide)

def sampleEvent : Event Unit Unit := ⟨"b", .sms, EventCodes.alarmSMS, 1001000, .sent, some (), none⟩

theorem marked_for_reason_sample : sampleEvent ∈ sample.db.events ∧
    (World.Initially sampleStore "b" .sent ∨ "b" ∈ sample.mailed ∨ sample.Confirmed "b") :=
  have he : sampleEvent ∈ sample.db.events := by decide
  ⟨he, (marked_for_reason sample_run he).1 rfl⟩

/-! ### Where a message goes -/

namespace World

variable {w : World C D}

/-- Messages that are or were given to the provider -/
def toProvider (w : World C D) : List SMS :=
  w.point.posting ++ w.accepted ++ w.rejected ++ w.unanswered ++ w.lost

/-- Each message is in one place; one may be in the hands of the task, which has just received it. -/
structure Ledger (w : World C D) (held : List SMS) : Prop where
  places : ∀ sms, w.handed.count sms = w.queue.count sms + (w.requests.map Prod.snd).count sms +
    w.toProvider.count sms + w.refused.count sms + held.count sms
  posted : ∀ payload, w.posted.count payload = (w.toProvider.map SMS.toPayload).count payload
  outgoing : w.requests.map (SMS.toRequest ∘ Prod.snd) = w.taken ++ w.outgoing
  published : w.published.Sublist w.taken
  fresh : ∀ q ∈ w.requests, q.2.useJitterGateway = true ∧ Fresh q.1 q.2
  fallback : ∀ sms ∈ w.toProvider ++ w.refused, sms.useJitterGateway = true → sms ∈ w.fallbacks

lemma ledger_new (db : EventStore C D) (untill : ℤ) (hasConfig : Bool) : (new db untill hasConfig).Ledger [] := by
  refine ⟨?_, ?_, rfl, .slnil, ?_, ?_⟩ <;> simp [new, toProvider, Point.posting]

/-- The messages stay where they are, or one goes from the task to a list of the provider's. -/
lemma Ledger.same (hw : w.Ledger []) {w' : World C D} (hhanded : w'.handed = w.handed) (hqueue : w'.queue = w.queue)
    (hrequests : w'.requests = w.requests) (hprovider : ∀ sms, w'.toProvider.count sms = w.toProvider.count sms)
    (hrefused : w'.refused = w.refused) (hposted : w'.posted = w.posted) (htaken : w'.taken = w.taken)
    (houtgoing : w'.outgoing = w.outgoing) (hpublished : w'.published = w.published)
    (hfallbacks : w'.fallbacks = w.fallbacks) : w'.Ledger [] := by
  have hperm : w'.toProvider.Perm w.toProvider := List.perm_iff_count.mpr hprovider
  refine ⟨fun sms => ?_, fun payload => ?_, ?_, ?_, ?_, fun sms h hgateway => ?_⟩
  · rw [hhanded, hqueue, hrequests, hprovider, hrefused, hw.places]
  · rw [hposted, (hperm.map _).count_eq, hw.posted]
  · rw [hrequests, htaken, houtgoing, hw.outgoing]
  · rw [hpublished, htaken]
    exact hw.published
  · rw [hrequests]
    exact hw.fresh
  · rw [hfallbacks]
    refine hw.fallback sms ?_ hgateway
    rw [hrefused, List.mem_append, hperm.mem_iff] at h
    exact List.mem_append.mpr h

lemma Ledger.alarm (hw : w.Ledger []) (env : Env C D Email SMS) (event : Event C D) (rest : List (Event C D)) :
    (w.alarm env event rest).Ledger [] := by
  refine ⟨fun sms => ?_, hw.posted, hw.outgoing, hw.published, hw.fresh, hw.fallback⟩
  have hplaces := hw.places sms
  simp only [World.alarm, List.count_append, toProvider] at hplaces ⊢
  omega

lemma Ledger.provider {sms : SMS} (hw : w.Ledger [sms]) (hpoint : w.point.posting = [])
    (hfallback : sms.useJitterGateway = true → sms ∈ w.fallbacks) : (w.provider sms).Ledger [] := by
  have hposted := hw.posted
  have hplaces := hw.places
  have hall := hw.fallback
  simp only [toProvider, hpoint, List.nil_append] at hposted hplaces hall
  unfold World.provider
  split_ifs
  · refine ⟨fun sms' => ?_, fun payload => ?_, hw.outgoing, hw.published, hw.fresh, fun sms' h hgateway => ?_⟩
    · have := hplaces sms'
      simp only [toProvider, Point.posting, List.count_append, List.count_nil] at this ⊢
      omega
    · have := hposted payload
      simp only [toProvider, Point.posting, List.map_append, List.count_append, List.map_cons, List.map_nil] at this ⊢
      omega
    · simp only [toProvider, Point.posting, List.cons_append, List.mem_cons] at h
      rcases h with rfl | h
      · exact hfallback hgateway
      · exact hall sms' h hgateway
  · refine ⟨fun sms' => ?_, fun payload => ?_, hw.outgoing, hw.published, hw.fresh, fun sms' h hgateway => ?_⟩
    · have := hplaces sms'
      simp only [toProvider, Point.posting, List.count_append, List.nil_append, List.count_nil] at this ⊢
      omega
    · simpa only [toProvider, Point.posting, List.nil_append] using hposted payload
    · rcases List.mem_append.mp h with h | h
      · exact hall sms' (List.mem_append_left _ h) hgateway
      · rcases List.mem_append.mp h with h | h
        · exact hall sms' (List.mem_append_right _ h) hgateway
        · obtain rfl := List.mem_singleton.mp h
          exact hfallback hgateway

lemma Ledger.handle {sms : SMS} (hw : w.Ledger [sms]) (hpoint : w.point.posting = []) (now : ℤ) (room : Bool) :
    (w.handle now room sms).Ledger [] := by
  unfold World.handle
  split_ifs with hgateway hfresh
  · refine ⟨fun sms' => ?_, hw.posted, ?_, hw.published, ?_, hw.fallback⟩
    · have := hw.places sms'
      simp only [List.map_append, List.count_append, List.map_cons, List.map_nil, toProvider,
        List.count_nil] at this ⊢
      omega
    · simp [hw.outgoing]
    · intro q hq
      rcases List.mem_append.mp hq with h | h
      · exact hw.fresh q h
      · rw [List.mem_singleton.mp h]
        exact ⟨hgateway, hfresh.1⟩
  · have hfallback : Ledger { w with fallbacks := w.fallbacks ++ [sms] } [sms] :=
      ⟨hw.places, hw.posted, hw.outgoing, hw.published, hw.fresh,
        fun sms' h hg => List.mem_append_left _ (hw.fallback sms' h hg)⟩
    exact hfallback.provider hpoint fun _ => List.mem_append_right _ (List.mem_singleton_self _)
  · exact hw.provider hpoint fun h => absurd h hgateway

lemma Ledger.exec (hw : w.Ledger []) {op : Op C D Email} (hg : w.Guard op) : (w.exec op).Ledger [] := by
  cases op with
  | insert e => exact hw.same rfl rfl rfl (fun _ => rfl) rfl rfl rfl rfl rfl rfl
  | query env now =>
    simp only [World.exec]
    cases polled env w.untill now w.db with
    | error _ => exact hw
    | ok events => exact hw.same rfl rfl rfl (fun _ => rfl) rfl rfl rfl rfl rfl rfl
  | alarm env =>
    simp only [World.exec]
    cases w.alarms with
    | nil => exact hw
    | cons event rest => exact hw.alarm env event rest
  | receive now room =>
    have hpoint : w.point.posting = [] := by
      rw [show w.point = .receive from hg]
      rfl
    simp only [World.exec]
    cases hqueue : w.queue with
    | nil => exact hw
    | cons sms rest =>
      have hheld : Ledger { w with queue := rest } [sms] := by
        refine ⟨fun sms' => ?_, hw.posted, hw.outgoing, hw.published, hw.fresh, hw.fallback⟩
        have := hw.places sms'
        rw [hqueue] at this
        simp only [List.count_cons, List.count_nil, toProvider] at this ⊢
        omega
      exact hheld.handle hpoint now room
  | posted result =>
    cases hp : w.point with
    | post sms =>
      simp only [World.exec, hp]
      cases result <;> refine hw.same rfl rfl rfl (fun sms' => ?_) rfl rfl rfl rfl rfl rfl <;>
        simp only [toProvider, hp, Point.posting, List.count_append, List.count_nil] <;> omega
    | receive | mark sms status update | update sms => simpa only [World.exec, hp] using hw
  | stored ok =>
    simp only [World.exec]
    cases hp : w.point with
    | receive | post sms => exact hw
    | mark sms status update =>
      refine hw.same ?_ ?_ ?_ (fun sms' => ?_) ?_ ?_ ?_ ?_ ?_ ?_ <;> cases ok <;> cases update <;>
        simp [toProvider, hp, Point.posting, World.mark]
    | update sms =>
      refine hw.same rfl rfl rfl (fun _ => ?_) rfl rfl rfl rfl rfl rfl
      simp [toProvider, hp, Point.posting]
  | panic =>
    refine hw.same rfl rfl rfl (fun sms' => ?_) rfl rfl rfl rfl rfl rfl
    simp only [World.exec, toProvider, Point.posting, List.count_append, List.count_nil]
    omega
  | publish ok =>
    simp only [World.exec]
    cases hout : w.outgoing with
    | nil => exact hw
    | cons request rest =>
      refine ⟨hw.places, hw.posted, ?_, ?_, hw.fresh, hw.fallback⟩
      · rw [hw.outgoing, hout]
        simp
      · cases ok with
        | false => exact hw.published.trans (List.sublist_append_left _ _)
        | true => exact hw.published.append (.refl _)
  | answer id success => exact hw.same rfl rfl rfl (fun _ => rfl) rfl rfl rfl rfl rfl rfl
  | response i ok =>
    simp only [World.exec]
    split
    · cases ok with
      | false => exact hw
      | true => exact hw.same rfl rfl rfl (fun _ => rfl) rfl rfl rfl rfl rfl rfl
    · exact hw

end World

/-- **A message goes one way.** In every run each message that was handed over is in one place: in the queue, with
the MQTT client, with the provider, or refused as there is no provider; panics of the task lose none but those that
are posted already. The MQTT client gets the requests in order, each younger than 15 seconds and for a message that
is to use the gateway; the provider gets the payload of each of its messages once; and a message that was to use the
gateway goes to the provider only after a mail about it was tried. -/
theorem message_one_way {db₀ : EventStore C D} {untill : ℤ} {hasConfig : Bool} {w : World C D}
    (h : World.Run Email db₀ untill hasConfig w) :
    w.handed.Perm (w.queue ++ w.requests.map Prod.snd ++ w.toProvider ++ w.refused) ∧
    w.posted.Perm (w.toProvider.map SMS.toPayload) ∧
    w.requests.map (SMS.toRequest ∘ Prod.snd) = w.taken ++ w.outgoing ∧ w.published.Sublist w.taken ∧
    (∀ q ∈ w.requests, q.2.useJitterGateway = true ∧ World.Fresh q.1 q.2) ∧
    ∀ sms ∈ w.toProvider ++ w.refused, sms.useJitterGateway = true → sms ∈ w.fallbacks := by
  have hw : w.Ledger [] :=
    h.invariant (P := fun w => w.Ledger []) (World.ledger_new _ _ _) fun _ _ hw hg => hw.exec hg
  refine ⟨List.perm_iff_count.mpr fun sms => ?_, List.perm_iff_count.mpr hw.posted, hw.outgoing, hw.published,
    hw.fresh, hw.fallback⟩
  simpa [Nat.add_assoc] using hw.places sms

theorem message_one_way_sample : sample.handed.length = 2 ∧ sample.requests.length = 1 ∧
    sample.posted.Perm (sample.toProvider.map SMS.toPayload) :=
  ⟨by decide, by decide, (message_one_way sample_run).2.1⟩

end SmsTask

end SensorLink.Notify
