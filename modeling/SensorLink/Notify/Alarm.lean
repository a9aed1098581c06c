import Mathlib.Data.List.Sort
import Mathlib.Data.List.Nodup
import Mathlib.Tactic.Common

/-!
# The alarm task

`processAlarms` is one poll: it queries the events to send and those to retry, and hands their messages
to the mail and SMS senders. Timestamps are milliseconds, as the event store keeps them. What the message
builder, the store and the two channels do in a poll is given by an `Env`.
-/

namespace SensorLink.Notify

def smsRetryAfterSec : ℤ := 120
def smsRetryWindowSec : ℤ := 300

inductive EventType
  | info
  | warning
  | error
  | sms
  | email
  | alarm
  | debug
  | diagnostic
deriving DecidableEq, Repr

inductive SendStatus
  | notSent
  | sending
  | sent
  | failed
deriving DecidableEq, Repr

namespace EventCodes

def alarmSMS : ℕ := 201
def sms : ℕ := 202
def email : ℕ := 203
def errorSendingSMS : ℕ := 410

end EventCodes

structure Event (C D : Type) where
  id : String
  type : EventType
  code : ℕ
  timestamp : ℤ
  sent : SendStatus
  contactDetails : Option C
  eventDetails : Option D
deriving DecidableEq, Repr

/-- The fields of a query that the alarm task uses. It also asks for events with contact details, but
the store takes that as the field being there, and each event has it, if only with a null. -/
structure EventQuery where
  timeFrom : ℤ
  timeUntil : ℤ
  types : List EventType
  sent : SendStatus
  code : List ℕ
  limit : ℕ

variable {C D : Type}

def EventQuery.Matches (q : EventQuery) (e : Event C D) : Prop :=
  (q.timeFrom ≤ e.timestamp ∧ e.timestamp ≤ q.timeUntil) ∧ e.type ∈ q.types ∧ e.sent = q.sent ∧
    e.code ∈ q.code

instance (q : EventQuery) (e : Event C D) : Decidable (q.Matches e) := by
  unfold EventQuery.Matches
  infer_instance

/-- The events in the store; their ids are unique. -/
structure EventStore (C D : Type) where
  events : List (Event C D)
  nodup : (events.map Event.id).Nodup

namespace EventStore

/-- Sorted by ascending timestamp -/
def queryEvents (db : EventStore C D) (q : EventQuery) : List (Event C D) :=
  ((db.events.filter fun e => q.Matches e).insertionSort fun a b => a.timestamp ≤ b.timestamp).take q.limit

def setStatus (id : String) (status : SendStatus) (e : Event C D) : Event C D :=
  if e.id = id then { e with sent := status } else e

@[simp] lemma setStatus_id (id : String) (status : SendStatus) (e : Event C D) :
    (setStatus id status e).id = e.id := by
  unfold setStatus
  split <;> rfl

/-- The update itself -/
def marked (db : EventStore C D) (id : String) (status : SendStatus) : EventStore C D where
  events := db.events.map (setStatus id status)
  nodup := by simpa [Function.comp_def] using db.nodup

/-- Gives whether one event was modified; that is what the caller gets an error from. -/
def eventMarkSent (db : EventStore C D) (id : String) (status : SendStatus) : Bool × EventStore C D :=
  (db.events.any fun e => e.id = id ∧ e.sent ≠ status, db.marked id status)

end EventStore

/-- What the parties of the alarm task do in a poll: the message builder for each event, and whether a
call of the store or of a sender for an event fails. -/
structure Env (C D Email SMS : Type) where
  buildEmail : Event C D → C → Except Unit (Option Email)
  buildSms : Event C D → C → Except Unit (Option SMS)
  queryFails : Bool
  retryQueryFails : Bool
  markFails : String → Bool
  mailFails : String → Bool
  smsFails : String → Bool

inductive AlarmError
  | query
  | builder
  | mailSender
  | smsSender
  | markSent
deriving DecidableEq, Repr

/-- The store and what was handed to the senders, with the event that it is about. -/
structure AlarmState (C D Email SMS : Type) where
  db : EventStore C D
  mails : List (String × Email)
  smss : List (String × SMS)

variable {Email SMS : Type}

/-- A call of the store that marks an event -/
def markSent (env : Env C D Email SMS) (s : AlarmState C D Email SMS) (id : String) (status : SendStatus) :
    Bool × AlarmState C D Email SMS :=
  if env.markFails id then (false, s)
  else ((s.db.eventMarkSent id status).1, { s with db := (s.db.eventMarkSent id status).2 })

/-- The body of the loop over the events. -/
def processEvent (env : Env C D Email SMS) (s : AlarmState C D Email SMS) (event : Event C D) :
    Except AlarmError Unit × AlarmState C D Email SMS :=
  match event.contactDetails with
  | none => (.ok (), s)
  | some contact =>
    match event.type with
    | .email =>
      match env.buildEmail event contact with
      | .error _ => (.error .builder, s)
      | .ok none => (.ok (), s)
      | .ok (some email) =>
        if env.mailFails event.id then (.error .mailSender, s)
        else
          let s := { s with mails := s.mails ++ [(event.id, email)] }
          match markSent env s event.id .sent with
          | (true, s) => (.ok (), s)
          | (false, s) => (.error .markSent, s)
    | .sms =>
      -- A failure of the store is only logged.
      let s := (markSent env s event.id .sending).2
      match env.buildSms event contact with
      | .error _ => (.error .builder, s)
      | .ok none => (.ok (), s)
      | .ok (some sms) =>
        if env.smsFails event.id then (.error .smsSender, s)
        else (.ok (), { s with smss := s.smss ++ [(event.id, sms)] })
    | _ => (.ok (), s)

def processEvents (env : Env C D Email SMS) :
    List (Event C D) → AlarmState C D Email SMS → Except AlarmError Unit × AlarmState C D Email SMS
  | [], s => (.ok (), s)
  | event :: events, s =>
    match processEvent env s event with
    | (.ok (), s) => processEvents env events s
    | (.error e, s) => (.error e, s)

/-- The events that were never sent -/
def unsentQuery (alarmsProcessedUntill now : ℤ) : EventQuery where
  timeFrom := alarmsProcessedUntill
  timeUntil := now
  types := [.email, .sms]
  sent := .notSent
  code := [EventCodes.email, EventCodes.alarmSMS]
  limit := 1024

/-- The events with status `sending` that have timed out -/
def retryQuery (alarmsProcessedUntill : ℤ) : EventQuery where
  timeFrom := alarmsProcessedUntill - smsRetryWindowSec * 1000
  timeUntil := alarmsProcessedUntill - smsRetryAfterSec * 1000
  types := [.sms]
  sent := .sending
  code := [EventCodes.alarmSMS]
  limit := 1024

/-- The events of a poll at `now`; both queries are made first, so either of them failing ends it. -/
def polled (env : Env C D Email SMS) (alarmsProcessedUntill now : ℤ) (db : EventStore C D) :
    Except AlarmError (List (Event C D)) :=
  if env.queryFails then .error .query
  else if env.retryQueryFails then .error .query
  else .ok (db.queryEvents (unsentQuery alarmsProcessedUntill now) ++
    db.queryEvents (retryQuery alarmsProcessedUntill))

def processAlarms (env : Env C D Email SMS) (alarmsProcessedUntill now : ℤ)
    (s : AlarmState C D Email SMS) : Except AlarmError ℕ × AlarmState C D Email SMS :=
  match polled env alarmsProcessedUntill now s.db with
  | .error e => (.error e, s)
  | .ok events =>
    match processEvents env events s with
    | (.ok (), s) => (.ok events.length, s)
    | (.error e, s) => (.error e, s)

end SensorLink.Notify
