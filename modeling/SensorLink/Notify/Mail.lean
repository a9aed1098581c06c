import SensorLink.Notify.Throttle

/-!
# The mail task

`exec` runs one turn of the loop of `send_task`: the head of the queue is asked for its release time, the
first branch of the biased select that is ready is taken, and its e-mail is sent, queued or dropped. What
was received, sent, dropped and reported is remembered to state the properties. A report goes to a channel
that need not be there, and is lost where it is full or its receiver is gone.
-/

namespace SensorLink.Notify

/-- What the task reads of an e-mail -/
structure MailMessage where
  recipients : List String
  subject : String
  urgent : Bool
deriving DecidableEq, Repr

/-- Number of separate emails that sending this email costs. -/
def MailMessage.sendCount (mail : MailMessage) : ℕ := mail.recipients.length

/-- A non-urgent e-mail that waits for send capacity, and its number in the order of arrival. -/
structure QueuedEmail where
  mail : MailMessage
  queuedAt : ℕ
  arrival : ℕ
deriving DecidableEq, Repr

structure Batch where
  startedAt : ℕ
  lastSentAt : ℕ
  sent : ℕ
deriving DecidableEq, Repr

inductive DropReason
  | queueFull
  | shutdown
deriving DecidableEq, Repr

def DropReason.text : DropReason → String
  | queueFull => "queue_full"
  | shutdown => "shutdown"

inductive EmailSendStatus
  | sent
  | failed
deriving DecidableEq, Repr

structure EmailSendFeedback where
  recipient : String
  subject : String
  status : EmailSendStatus
  error : Option String
deriving DecidableEq, Repr

/-- Reports an e-mail that is dropped, as a failed send per recipient. -/
def reportDropped (mail : MailMessage) (reason : DropReason) : List EmailSendFeedback :=
  mail.recipients.map fun recipient =>
    ⟨recipient, mail.subject, .failed, some ("E-mail dropped before sending (" ++ reason.text ++ ")")⟩

/-- `send_email`: one report for each recipient, with the error if there was one -/
def sendEmail (mail : MailMessage) (errors : List (Option String)) : List EmailSendFeedback :=
  mail.recipients.mapIdx fun index recipient =>
    match errors[index]?.join with
    | none => ⟨recipient, mail.subject, .sent, none⟩
    | some error => ⟨recipient, mail.subject, .failed, some error⟩

/-! ### The channel of the reports -/

/-- The results of `try_send` -/
inductive TrySend
  | ok
  | full
  | closed
deriving DecidableEq, Repr

/-- A bounded channel: what waits in it, what its receiver has taken, and whether the receiver is gone -/
structure FeedbackChannel where
  capacity : ℕ
  waiting : List EmailSendFeedback
  taken : List EmailSendFeedback
  closed : Bool
deriving DecidableEq, Repr

/-- What the receiver does before a report: it takes some messages, and may go. -/
structure Receiving where
  count : ℕ
  closes : Bool
deriving DecidableEq, Repr

namespace FeedbackChannel

variable (channel : FeedbackChannel)

def receive (receiving : Receiving) : FeedbackChannel :=
  { channel with
    waiting := channel.waiting.drop receiving.count
    taken := channel.taken ++ channel.waiting.take receiving.count
    closed := channel.closed || receiving.closes }

def trySend (feedback : EmailSendFeedback) : TrySend × FeedbackChannel :=
  if channel.closed then (.closed, channel)
  else if channel.capacity ≤ channel.waiting.length then (.full, channel)
  else (.ok, { channel with waiting := channel.waiting ++ [feedback] })

end FeedbackChannel

/-- A report about the e-mail that arrived with a number, and what became of it if there is a channel -/
structure Report where
  arrival : ℕ
  feedback : EmailSendFeedback
  result : Option TrySend
deriving DecidableEq, Repr

/-- The sender of the feedback, the reports so far, and the increments of the counter `mail_dropped` -/
structure Reporting where
  feedbackTx : Option FeedbackChannel
  reports : List Report
  mailDropped : List DropReason
deriving DecidableEq, Repr

namespace Reporting

variable (r : Reporting)

/-- `report_send_result`; the result of `try_send` is not looked at. -/
def reportSendResult (receiving : Receiving) (arrival : ℕ) (feedback : EmailSendFeedback) : Reporting :=
  match r.feedbackTx with
  | none => { r with reports := r.reports ++ [⟨arrival, feedback, none⟩] }
  | some tx =>
    let (result, tx) := (tx.receive receiving).trySend feedback
    { r with feedbackTx := some tx, reports := r.reports ++ [⟨arrival, feedback, some result⟩] }

/-- The reports of one e-mail, with what the receiver does before each of them -/
def reportAll (arrival : ℕ) : List EmailSendFeedback → List Receiving → Reporting → Reporting
  | [], _, r => r
  | feedback :: feedbacks, receiving, r =>
    reportAll arrival feedbacks receiving.tail
      (r.reportSendResult (receiving.headD ⟨0, false⟩) arrival feedback)

/-- The report of a drop -/
def drop (receiving : List Receiving) (mail : MailMessage) (arrival : ℕ) (reason : DropReason) : Reporting :=
  reportAll arrival (reportDropped mail reason) receiving
    { r with mailDropped := r.mailDropped ++ [reason] }

end Reporting

/-! ### The task -/

/-- An e-mail that was handed to `send_email`, and when it was recorded. -/
structure SentMail where
  mail : MailMessage
  arrival : ℕ
  time : ℕ
deriving DecidableEq, Repr

/-- An e-mail that was dropped -/
structure DroppedMail where
  mail : MailMessage
  arrival : ℕ
  reason : DropReason
deriving DecidableEq, Repr

def shutdownDrainGrace : ℕ := 60 * 1000000000

def releaseStarvationLimit : ℕ := 1000000000

/-- The task, with what is remembered: the time, the number of e-mails that were received, those that were
sent, oldest first, and those that were dropped. -/
structure MailTask where
  limiter : RateLimiter
  queue : List QueuedEmail
  batch : Option Batch
  drainUntil : Option ℕ
  eligibleSince : Option ℕ
  exited : Bool
  clock : ℕ
  received : ℕ
  sent : List SentMail
  dropped : List DroppedMail
  reporting : Reporting
deriving DecidableEq, Repr

/-- One turn of the loop: the times at which it looks at the clock, what the channel has (nothing yet, its
end, or an e-mail), whether a shutdown was requested, the errors of the recipients when an e-mail is sent, and
what the receiver of the reports does. -/
structure Turn where
  topTime : ℕ
  eligibleTime : ℕ
  starvingTime : ℕ
  selectTime : ℕ
  now : ℕ
  sentTime : ℕ
  incoming : Option (Option MailMessage)
  shutdown : Bool
  errors : List (Option String)
  receiving : List Receiving
deriving DecidableEq, Repr

namespace MailTask

/-- The start, where the channel of the reports has the capacity `feedback` if there is one -/
def create (throttle : ThrottleConfig) (clock : ℕ) (feedback : Option ℕ) : MailTask :=
  ⟨.new throttle, [], none, none, none, false, clock, 0, [], [],
    ⟨feedback.map fun capacity => ⟨capacity, [], [], false⟩, [], []⟩⟩

variable (s : MailTask) (turn : Turn)

/-- A batch is done once the queue has stayed empty for a while. -/
def batchDoneAt : Option ℕ :=
  if s.queue.isEmpty then s.batch.map fun batch => batch.lastSentAt + s.limiter.config.batchIdleTime
  else none

/-- The head of the queue and when it may be sent; `some none` means right away. -/
def releaseAt : Option (Option ℕ) :=
  s.queue.head?.map fun queued => (s.limiter.nextAllowed turn.topTime queued.mail.sendCount).1

/-- The limiter is pruned when it is asked, and it is noted since when the head may be sent. -/
def atTop : MailTask :=
  { s with
    limiter := match s.queue.head? with
      | some queued => (s.limiter.nextAllowed turn.topTime queued.mail.sendCount).2
      | none => s.limiter
    eligibleSince := match s.releaseAt turn with
      | some none => some (s.eligibleSince.getD turn.eligibleTime)
      | _ => none }

/-- A queued e-mail that waited this long goes out before more e-mail is accepted. -/
def starving : Bool :=
  (s.atTop turn).eligibleSince.any fun since => releaseStarvationLimit ≤ turn.starvingTime - since

inductive Branch
  | recv (mail : Option MailMessage)
  | release
  | batchDone
  | drainOver
  | shutdown
deriving DecidableEq, Repr

/-- `wait_until` has come to its end. -/
def waited (deadline : Option ℕ) : Bool := deadline.all (· ≤ turn.selectTime)

/-- The first branch that is enabled and ready; without one the select does not end. -/
def select : Option Branch :=
  match s.drainUntil, s.starving turn, turn.incoming with
  | none, false, some mail => some (.recv mail)
  | _, _, _ =>
    if (s.releaseAt turn).any (waited turn) then some .release
    else if s.batchDoneAt.isSome && waited turn s.batchDoneAt then some .batchDone
    else if s.drainUntil.isSome && waited turn s.drainUntil then some .drainOver
    else if s.drainUntil.isNone && turn.shutdown then some .shutdown
    else none

/-- An e-mail is recorded and sent. -/
def send (mail : MailMessage) (arrival : ℕ) : MailTask :=
  { s with
    limiter := s.limiter.record turn.now mail.sendCount
    sent := s.sent ++ [⟨mail, arrival, turn.now⟩]
    reporting := s.reporting.reportAll arrival (sendEmail mail turn.errors) turn.receiving }

/-- The oldest e-mail is dropped. -/
def dropOldest (reason : DropReason) (receiving : List Receiving) : MailTask :=
  match s.queue with
  | [] => s
  | oldest :: rest =>
    { s with
      queue := rest
      dropped := s.dropped ++ [⟨oldest.mail, oldest.arrival, reason⟩]
      reporting := s.reporting.drop receiving oldest.mail oldest.arrival reason }

/-- Where the queue is full the oldest e-mail makes room. -/
def makeRoom : MailTask :=
  if s.limiter.config.maxQueued ≤ s.queue.length then s.dropOldest .queueFull turn.receiving else s

/-- A non-urgent e-mail is queued. -/
def enqueue (mail : MailMessage) (arrival : ℕ) : MailTask :=
  let s := { s with batch := s.batch.or (some ⟨turn.now, turn.now, 0⟩) }
  { s.makeRoom turn with queue := (s.makeRoom turn).queue ++ [⟨mail, turn.now, arrival⟩] }

/-- Incoming e-mail, or the end of the channel. -/
def recv : Option MailMessage → MailTask
  | none => { s with drainUntil := some (turn.now + shutdownDrainGrace) }
  | some mail =>
    let arrival := s.received
    let s := { s with received := s.received + 1 }
    if mail.urgent then s.send turn mail arrival else s.enqueue turn mail arrival

/-- The e-mail at the head of the queue is sent. -/
def release : MailTask :=
  match s.queue with
  | [] => s
  | queued :: rest =>
    let s := { s with queue := rest, eligibleSince := none }
    { s.send turn queued.mail queued.arrival with
      batch := s.batch.map fun batch => { batch with sent := batch.sent + 1, lastSentAt := turn.sentTime } }

/-- The loop over the e-mails that are left -/
def dropAll : List QueuedEmail → List Receiving → MailTask → MailTask
  | [], _, s => s
  | queued :: rest, receiving, s =>
    dropAll rest (receiving.drop queued.mail.sendCount) (s.dropOldest .shutdown receiving)

/-- The grace period is over: what is left is dropped. -/
def drainOver : MailTask := { dropAll s.queue turn.receiving s with exited := true, batch := none }

def handle : Branch → MailTask
  | .recv mail => s.recv turn mail
  | .release => s.release turn
  | .batchDone => { s with batch := none }
  | .drainOver => s.drainOver turn
  | .shutdown => { s with drainUntil := some (turn.now + shutdownDrainGrace) }

/-- One turn of the loop. -/
def exec (s : MailTask) (turn : Turn) : MailTask :=
  if s.exited then s
  else if s.drainUntil.isSome && s.queue.isEmpty then { s with exited := true, batch := none }
  else
    match s.select turn with
    | none => s
    | some branch => { (s.atTop turn).handle turn branch with clock := turn.sentTime }

/-- The clock does not go back. -/
def Guard (s : MailTask) (turn : Turn) : Prop :=
  s.clock ≤ turn.topTime ∧ turn.topTime ≤ turn.eligibleTime ∧ turn.eligibleTime ≤ turn.starvingTime ∧
    turn.starvingTime ≤ turn.selectTime ∧ turn.selectTime ≤ turn.now ∧ turn.now ≤ turn.sentTime

instance (s : MailTask) (turn : Turn) : Decidable (s.Guard turn) :=
  inferInstanceAs (Decidable (_ ∧ _))

end MailTask

end SensorLink.Notify
