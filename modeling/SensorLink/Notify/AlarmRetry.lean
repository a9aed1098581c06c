import SensorLink.Notify.AlarmLoss
import SensorLink.Lib.Reach

/-!
# Alarm SMS retries

A run of the alarm task is a sequence of polls between which others change the store. The window of the
events to retry lies before the start of the task and does not move, so that no event of the run is
retried in time, and the events of the window are retried at each poll.
-/

namespace SensorLink.Notify

open SensorLink.Lib

variable {C D Email SMS : Type}

/-- A poll: the store it found, and the SMS events that it handed over. -/
structure PollRecord (C D Email SMS : Type) where
  now : ℤ
  env : Env C D Email SMS
  db : EventStore C D
  ok : Bool
  handed : List String

structure AlarmTask (C D Email SMS : Type) where
  /-- The time when the task started -/
  start : ℤ
  clock : ℤ
  db : EventStore C D
  /-- Newest first -/
  log : List (PollRecord C D Email SMS)

inductive AlarmOp (C D Email SMS : Type)
  | poll (now : ℤ) (env : Env C D Email SMS)
  /-- Others insert events and mark them as sent or failed. -/
  | others (db : EventStore C D)

namespace AlarmTask

def initial (start : ℤ) (db : EventStore C D) : AlarmTask C D Email SMS := ⟨start, start, db, []⟩

/-- Fixed when the task starts. -/
def alarmsProcessedUntill (start : ℤ) : ℤ := start - smsRetryWindowSec * 1000

def exec (w : AlarmTask C D Email SMS) : AlarmOp C D Email SMS → AlarmTask C D Email SMS
  | .poll now env =>
    let r := processAlarms env (alarmsProcessedUntill w.start) now ⟨w.db, [], []⟩
    { w with
      clock := now
      db := r.2.db
      log := ⟨now, env, w.db, r.1.isOk, r.2.smss.map Prod.fst⟩ :: w.log }
  | .others db => { w with db := db }

/-- The clock does not go back. -/
def Guard (w : AlarmTask C D Email SMS) : AlarmOp C D Email SMS → Prop
  | .poll now _ => w.clock ≤ now
  | .others _ => True

instance (w : AlarmTask C D Email SMS) : ∀ op, Decidable (w.Guard op)
  | .poll now _ => inferInstanceAs (Decidable (w.clock ≤ now))
  | .others _ => isTrue trivial

/-! ### What is to hold of the retries -/

/-- The age at which an event is to be retried -/
def InRetryAge (now : ℤ) (e : Event C D) : Prop :=
  smsRetryAfterSec * 1000 ≤ now - e.timestamp ∧ now - e.timestamp ≤ smsRetryWindowSec * 1000

/-- The event is an alarm that is still being sent, at the age of a retry. -/
def Due (now : ℤ) (e : Event C D) : Prop :=
  e.type = .sms ∧ e.code = EventCodes.alarmSMS ∧ e.contactDetails.isSome = true ∧ e.sent = .sending ∧
    InRetryAge now e

instance (now : ℤ) (e : Event C D) : Decidable (InRetryAge now e) := inferInstanceAs (Decidable (_ ∧ _))
instance (now : ℤ) (e : Event C D) : Decidable (Due now e) := inferInstanceAs (Decidable (_ ∧ _))

/-- A poll finds the event being sent at the age of a retry, and hands it over again. -/
def RetriedBy (p : PollRecord C D Email SMS) (id : String) : Prop :=
  id ∈ p.handed ∧ ∃ e ∈ p.db.events, e.id = id ∧ e.sent = .sending ∧ InRetryAge p.now e

instance (p : PollRecord C D Email SMS) (id : String) : Decidable (RetriedBy p id) :=
  inferInstanceAs (Decidable (_ ∧ _))

/-- An event that a successful poll finds due is retried by a poll. -/
def RetriesInTime (w : AlarmTask C D Email SMS) : Prop :=
  ∀ p ∈ w.log, p.ok = true → ∀ e ∈ p.db.events, Due p.now e → ∃ p' ∈ w.log, RetriedBy p' e.id

/-- Two polls that hand over the same event are apart. -/
def Spaced (w : AlarmTask C D Email SMS) : Prop :=
  w.log.Pairwise fun later earlier =>
    ∀ id ∈ later.handed, id ∈ earlier.handed → earlier.now + smsRetryAfterSec * 1000 ≤ later.now

instance (w : AlarmTask C D Email SMS) : Decidable w.RetriesInTime := by
  unfold RetriesInTime
  infer_instance

instance (w : AlarmTask C D Email SMS) : Decidable w.Spaced := by
  unfold Spaced
  infer_instance

/-! ### The condition -/

/-- No successful poll finds an event due. -/
def NoneDue (w : AlarmTask C D Email SMS) : Prop :=
  ∀ p ∈ w.log, p.ok = true → ∀ e ∈ p.db.events, ¬Due p.now e

/-- One of the queries matches the event, and there is a message for it that the sender takes. -/
def Ready (start : ℤ) (p : PollRecord C D Email SMS) (e : Event C D) : Prop :=
  e.type = .sms ∧ ((unsentQuery (alarmsProcessedUntill start) p.now).Matches e ∨
    (retryQuery (alarmsProcessedUntill start)).Matches e) ∧ p.env.Delivers e

/-- No two polls less than the retry time apart find the same event ready. -/
def NoneReadyTwice (w : AlarmTask C D Email SMS) : Prop :=
  w.log.Pairwise fun later earlier => later.now < earlier.now + smsRetryAfterSec * 1000 →
    ∀ e ∈ later.db.events, ∀ e' ∈ earlier.db.events, e.id = e'.id →
      ¬(Ready w.start later e ∧ Ready w.start earlier e')

/-- What a step does so that no event is handed over twice: a poll marks the SMS events it has to send and
finds none of the window of the retries that would be taken, and the others do not make an event unsent
again. -/
def HandsOnce (w : AlarmTask C D Email SMS) : AlarmOp C D Email SMS → Prop
  | .poll now env => ∀ e ∈ w.db.events, e.type = .sms → env.Delivers e →
      ((unsentQuery (alarmsProcessedUntill w.start) now).Matches e → env.markFails e.id = false) ∧
        ¬(retryQuery (alarmsProcessedUntill w.start)).Matches e
  | .others db => ∀ e ∈ db.events, e.sent = .notSent → ∀ p ∈ w.log, e.id ∉ p.handed

instance (w : AlarmTask C D Email SMS) : Decidable w.NoneDue := by
  unfold NoneDue
  infer_instance

instance (start : ℤ) (p : PollRecord C D Email SMS) (e : Event C D) : Decidable (Ready start p e) := by
  unfold Ready
  infer_instance

instance (w : AlarmTask C D Email SMS) : Decidable w.NoneReadyTwice := by
  unfold NoneReadyTwice
  infer_instance

instance (w : AlarmTask C D Email SMS) : ∀ op, Decidable (w.HandsOnce op)
  | .poll now env => inferInstanceAs (Decidable (∀ e ∈ w.db.events, e.type = .sms → env.Delivers e →
      ((unsentQuery (alarmsProcessedUntill w.start) now).Matches e → env.markFails e.id = false) ∧
        ¬(retryQuery (alarmsProcessedUntill w.start)).Matches e))
  | .others db => inferInstanceAs (Decidable (∀ e ∈ db.events, e.sent = .notSent → ∀ p ∈ w.log, e.id ∉ p.handed))

end AlarmTask

/-! ### The polls of a run -/

section Polls

variable {env : Env C D Email SMS} {s : AlarmState C D Email SMS} {event : Event C D}
  {events : List (Event C D)} {id : String}

lemma markSent_smss (id : String) (status : SendStatus) :
    (markSent env s id status).2.smss = s.smss := by
  rw [markSent_state]
  split <;> rfl

lemma mem_smss_processEvent (h : id ∈ (processEvent env s event).2.smss.map Prod.fst) :
    id ∈ s.smss.map Prod.fst ∨ event.id = id ∧ event.type = .sms := by
  unfold processEvent at h
  cases hcontact : event.contactDetails with
  | none =>
    rw [hcontact] at h
    exact .inl h
  | some contact =>
    cases htype : event.type with
    | email =>
      left
      simp only [hcontact, htype] at h
      split at h
      next => exact h
      next => exact h
      next mail _ =>
        split at h
        next => exact h
        next =>
          have hsmss : (markSent env { s with mails := s.mails ++ [(event.id, mail)] }
            event.id .sent).2.smss = s.smss := markSent_smss event.id .sent
          split at h
          next heq =>
            rw [heq] at hsmss
            rwa [hsmss] at h
          next heq =>
            rw [heq] at hsmss
            rwa [hsmss] at h
    | sms =>
      simp only [hcontact, htype] at h
      split at h
      next => exact .inl (by rwa [markSent_smss] at h)
      next => exact .inl (by rwa [markSent_smss] at h)
      next =>
        split at h
        next => exact .inl (by rwa [markSent_smss] at h)
        next =>
          rw [markSent_smss, List.map_append, List.mem_append] at h
          rcases h with h | h
          · exact .inl h
          · exact .inr ⟨by simpa [eq_comm] using h, rfl⟩
    | info | warning | error | alarm | debug | diagnostic =>
      simp only [hcontact, htype] at h
      exact .inl h

lemma mem_smss_processEvents (h : id ∈ (processEvents env events s).2.smss.map Prod.fst) :
    id ∈ s.smss.map Prod.fst ∨ ∃ e ∈ events, e.id = id ∧ e.type = .sms := by
  induction events generalizing s with
  | nil => exact .inl h
  | cons event events ih =>
    have hone : id ∈ (processEvent env s event).2.smss.map Prod.fst →
        id ∈ s.smss.map Prod.fst ∨ ∃ e ∈ event :: events, e.id = id ∧ e.type = .sms := by
      intro h
      rcases mem_smss_processEvent h with h | h
      · exact .inl h
      · exact .inr ⟨event, List.mem_cons_self .., h⟩
    rw [processEvents_cons] at h
    split at h
    · rcases ih h with h | ⟨e, he, hid⟩
      · exact hone h
      · exact .inr ⟨e, List.mem_cons_of_mem _ he, hid⟩
    · exact hone h

variable {start now : ℤ} {db : EventStore C D}

/-- An SMS event that a poll hands over was ready. -/
lemma ready_of_handed
    (h : id ∈ (afterPoll env (AlarmTask.alarmsProcessedUntill start) now db).smss.map Prod.fst) :
    ∃ e ∈ db.events, e.id = id ∧ e.type = .sms ∧
      ((unsentQuery (AlarmTask.alarmsProcessedUntill start) now).Matches e ∨
        (retryQuery (AlarmTask.alarmsProcessedUntill start)).Matches e) ∧ env.Delivers e := by
  by_cases hok : QueriesOk env
  · have hspec : LoopSpec env _ _ (afterPoll env (AlarmTask.alarmsProcessedUntill start) now db) :=
      polled_spec hok
    rcases (hspec.handed id).mp (.inr h) with hnone | ⟨e, he, rfl, -, hdel⟩
    · simp [AlarmState.Handed] at hnone
    · rw [afterPoll_eq hok] at h
      rcases mem_smss_processEvents h with hnone | ⟨x, hx, hid, htype⟩
      · simp at hnone
      · have hmem : ∀ y ∈ unsent (AlarmTask.alarmsProcessedUntill start) now db ++
            retried (AlarmTask.alarmsProcessedUntill start) db, y ∈ db.events ∧
            ((unsentQuery (AlarmTask.alarmsProcessedUntill start) now).Matches y ∨
              (retryQuery (AlarmTask.alarmsProcessedUntill start)).Matches y) := by
          intro y hy
          rcases List.mem_append.mp hy with hy | hy
          · exact ⟨(mem_queryEvents hy).1, .inl (mem_queryEvents hy).2⟩
          · exact ⟨(mem_queryEvents hy).1, .inr (mem_queryEvents hy).2⟩
        obtain rfl := eq_of_id (hmem x hx).1 (hmem e he).1 hid
        exact ⟨x, (hmem x hx).1, rfl, htype, (hmem x hx).2, hdel⟩
  · rw [afterPoll_failed hok] at h
    cases h

/-! ### What is not sent -/

/-- An event of the state that is not sent was in the store already, and no SMS was handed over for it. -/
def KeepsUnsent (db : EventStore C D) (s : AlarmState C D Email SMS) : Prop :=
  ∀ x ∈ s.db.events, x.sent = .notSent → x ∈ db.events ∧ x.id ∉ s.smss.map Prod.fst

lemma mem_of_unsent {status : SendStatus} {x : Event C D} (hstatus : status ≠ .notSent)
    (hx : x ∈ (db.marked id status).events) (hsent : x.sent = .notSent) : x ∈ db.events ∧ x.id ≠ id := by
  have hid : x.id ≠ id := fun heq => hstatus ((sent_of_mem_marked hx heq).symm.trans hsent)
  exact ⟨(mem_marked hid).mp hx, hid⟩

lemma KeepsUnsent.mark (h : KeepsUnsent db s) (env : Env C D Email SMS) (id : String) {status : SendStatus}
    (hstatus : status ≠ .notSent) : KeepsUnsent db (markSent env s id status).2 := by
  rw [markSent_state]
  split
  · exact h
  · intro x hx hsent
    exact h x (mem_of_unsent hstatus hx hsent).1 hsent

/-- An SMS event is marked, and handed over. -/
lemma KeepsUnsent.handOver (h : KeepsUnsent db s) (hmark : env.markFails event.id = false) (sms : SMS) :
    KeepsUnsent db { (markSent env s event.id .sending).2 with
      smss := (markSent env s event.id .sending).2.smss ++ [(event.id, sms)] } := by
  intro x hx hsent
  rw [markSent_state, hmark] at hx ⊢
  obtain ⟨hmem, hid⟩ := mem_of_unsent (by decide) hx hsent
  obtain ⟨hdb, hnot⟩ := h x hmem hsent
  refine ⟨hdb, ?_⟩
  simpa [hid] using hnot

lemma KeepsUnsent.one (h : KeepsUnsent db s)
    (hmark : event.type = .sms → env.Delivers event → env.markFails event.id = false) :
    KeepsUnsent db (processEvent env s event).2 := by
  cases hcontact : event.contactDetails with
  | none =>
    simp only [processEvent, hcontact]
    exact h
  | some contact =>
    cases htype : event.type with
    | email =>
      simp only [processEvent, hcontact, htype]
      split
      next => exact h
      next => exact h
      next mail _ =>
        split
        next => exact h
        next =>
          have hmails : KeepsUnsent db { s with mails := s.mails ++ [(event.id, mail)] } := h
          have hsent := hmails.mark env event.id (show SendStatus.sent ≠ .notSent by decide)
          split
          next heq => rwa [heq] at hsent
          next heq => rwa [heq] at hsent
    | sms =>
      have hsending := h.mark env event.id (show SendStatus.sending ≠ .notSent by decide)
      simp only [processEvent, hcontact, htype]
      split
      next => exact hsending
      next => exact hsending
      next sms hbuild =>
        split
        next => exact hsending
        next htaken =>
          refine h.handOver (hmark htype ?_) sms
          simp [Env.Delivers, Env.outcome, Env.accepts, hcontact, htype, hbuild, Outcome.of, htaken]
    | info | warning | error | alarm | debug | diagnostic =>
      simp only [processEvent, hcontact, htype]
      exact h

lemma KeepsUnsent.loop (h : KeepsUnsent db s)
    (hmark : ∀ e ∈ events, e.type = .sms → env.Delivers e → env.markFails e.id = false) :
    KeepsUnsent db (processEvents env events s).2 := by
  induction events generalizing s with
  | nil => exact h
  | cons event events ih =>
    have hone := h.one (hmark event (List.mem_cons_self ..))
    rw [processEvents_cons]
    split
    · exact ih hone fun e he => hmark e (List.mem_cons_of_mem _ he)
    · exact hone

/-- A poll whose marks succeed hands over no event that it leaves unsent. -/
lemma keepsUnsent_afterPoll (hmark : ∀ e ∈ db.events, e.type = .sms → env.Delivers e →
    ((unsentQuery (AlarmTask.alarmsProcessedUntill start) now).Matches e → env.markFails e.id = false) ∧
      ¬(retryQuery (AlarmTask.alarmsProcessedUntill start)).Matches e) :
    KeepsUnsent db (afterPoll env (AlarmTask.alarmsProcessedUntill start) now db) := by
  have hnone : KeepsUnsent db (⟨db, [], []⟩ : AlarmState C D Email SMS) := fun x hx _ => ⟨hx, by simp⟩
  by_cases hok : QueriesOk env
  · rw [afterPoll_eq hok]
    refine hnone.loop fun e he htype hdel => ?_
    rcases List.mem_append.mp he with he | he
    · obtain ⟨hdb, hmatch⟩ := mem_queryEvents he
      exact (hmark e hdb htype hdel).1 hmatch
    · obtain ⟨hdb, hmatch⟩ := mem_queryEvents he
      exact absurd hmatch (hmark e hdb htype hdel).2
  · rw [afterPoll_failed hok]
    exact hnone

end Polls

namespace AlarmTask

variable {w : AlarmTask C D Email SMS} {start : ℤ} {db : EventStore C D}

/-- Each poll of the log was made after the start, and handed over ready events only. -/
structure Inv (start : ℤ) (w : AlarmTask C D Email SMS) : Prop where
  started : w.start = start
  clock : start ≤ w.clock
  polls : ∀ p ∈ w.log, start ≤ p.now ∧
    ∀ id ∈ p.handed, ∃ e ∈ p.db.events, e.id = id ∧ Ready start p e

lemma inv_exec (op : AlarmOp C D Email SMS) (h : w.Inv start) (hguard : w.Guard op) :
    (w.exec op).Inv start := by
  cases op with
  | others db => exact ⟨h.started, h.clock, h.polls⟩
  | poll now env =>
    have hnow : start ≤ now := le_trans h.clock hguard
    refine ⟨h.started, hnow, fun p hp => ?_⟩
    rcases List.mem_cons.mp hp with rfl | hp
    · refine ⟨hnow, fun id hid => ?_⟩
      rw [h.started] at hid
      obtain ⟨e, he, heid, htype, hmatch, hdel⟩ := ready_of_handed hid
      exact ⟨e, he, heid, htype, hmatch, hdel⟩
    · exact h.polls p hp

lemma inv_of_reach (h : Reach exec Guard (initial start db) w) : w.Inv start :=
  h.invariant ⟨rfl, le_rfl, by simp [initial]⟩ fun _ op hinv hguard => inv_exec op hinv hguard

/-- The window of the events to retry is over before the task starts. -/
lemma not_retriedBy (h : w.Inv start) {p : PollRecord C D Email SMS} (hp : p ∈ w.log) (id : String) :
    ¬RetriedBy p id := by
  rintro ⟨hid, e, he, heid, hsent, hage⟩
  obtain ⟨hnow, hready⟩ := h.polls p hp
  obtain ⟨x, hx, hxid, -, hmatch, -⟩ := hready id hid
  obtain rfl := eq_of_id hx he (hxid.trans heid.symm)
  rcases hmatch with hmatch | hmatch
  · have := hmatch.2.2.1
    rw [hsent] at this
    cases this
  · have hold : x.timestamp ≤ alarmsProcessedUntill start - smsRetryAfterSec * 1000 := hmatch.1.2
    have hnew := hage.2
    simp only [alarmsProcessedUntill, smsRetryWindowSec, smsRetryAfterSec] at hold hnew
    omega

lemma retriesInTime_iff (h : w.Inv start) : w.RetriesInTime ↔ w.NoneDue := by
  constructor
  · intro hretry p hp hok e he hdue
    obtain ⟨p', hp', hby⟩ := hretry p hp hok e he hdue
    exact not_retriedBy h hp' e.id hby
  · intro hnone p hp hok e he hdue
    exact absurd hdue (hnone p hp hok e he)

lemma spaced_of_noneReadyTwice (h : w.Inv start) (hnone : w.NoneReadyTwice) : w.Spaced := by
  unfold NoneReadyTwice at hnone
  rw [h.started] at hnone
  refine hnone.imp_of_mem fun {later earlier} hlater hearlier hnone id hid hid' => ?_
  by_contra hlt
  obtain ⟨e, he, heid, hready⟩ := (h.polls later hlater).2 id hid
  obtain ⟨e', he', heid', hready'⟩ := (h.polls earlier hearlier).2 id hid'
  exact hnone (not_le.mp hlt) e he e' he' (heid.trans heid'.symm) ⟨hready, hready'⟩

/-- No event is handed over by two polls, and none that was handed over is unsent. -/
structure Once (w : AlarmTask C D Email SMS) : Prop where
  unsent : ∀ x ∈ w.db.events, x.sent = .notSent → ∀ p ∈ w.log, x.id ∉ p.handed
  apart : w.log.Pairwise fun later earlier => ∀ id ∈ later.handed, id ∉ earlier.handed

lemma once_exec (op : AlarmOp C D Email SMS) (h : w.Once) (honce : w.HandsOnce op) : (w.exec op).Once := by
  cases op with
  | others db => exact ⟨honce, h.apart⟩
  | poll now env =>
    have hkeeps := keepsUnsent_afterPoll honce
    refine ⟨fun x hx hsent p hp => ?_, List.pairwise_cons.mpr ⟨fun p hp id hid => ?_, h.apart⟩⟩
    · obtain ⟨hdb, hnot⟩ := hkeeps x hx hsent
      rcases List.mem_cons.mp hp with rfl | hp
      · exact hnot
      · exact h.unsent x hdb hsent p hp
    · obtain ⟨e, he, rfl, htype, hmatch, hdel⟩ := ready_of_handed hid
      rcases hmatch with hmatch | hmatch
      · exact h.unsent e he hmatch.2.2.1 p hp
      · exact absurd hmatch (honce e he htype hdel).2

lemma spaced_of_handsOnce
    (h : Reach exec (fun w op => w.Guard op ∧ w.HandsOnce op) (initial start db) w) : w.Spaced := by
  have honce : w.Once := h.invariant ⟨by simp [initial], List.Pairwise.nil⟩ fun _ op hinv hguard =>
    once_exec op hinv hguard.2
  exact honce.apart.imp fun hapart id hid hid' => absurd hid' (hapart id hid)

/-- **When the retries work**: no event is retried in time, so that no event may come due. The polls that
hand over the same event are apart when no event is ready in two polls that are not, and in particular in
a run whose steps hand over no event twice. -/
theorem retries_of_reach (h : Reach exec Guard (initial start db) w) :
    (w.RetriesInTime ↔ w.NoneDue) ∧ (w.NoneReadyTwice → w.Spaced) ∧
      (Reach exec (fun w op => w.Guard op ∧ w.HandsOnce op) (initial start db) w → w.Spaced) :=
  ⟨retriesInTime_iff (inv_of_reach h), spaced_of_noneReadyTwice (inv_of_reach h), spaced_of_handsOnce⟩

/-! ### A run without alarms to retry, and one with two of them -/

/-- The builder makes a message for each event. -/
def goodEnv : Env Unit Unit Unit Unit where
  buildEmail _ _ := .ok (some ())
  buildSms _ _ := .ok (some ())
  queryFails := false
  retryQueryFails := false
  markFails _ := false
  mailFails _ := false
  smsFails _ := false

/-- An alarm that was being sent 500 seconds before the task starts -/
def oldAlarm : Event Unit Unit :=
  ⟨"old", .sms, EventCodes.alarmSMS, 500_000, .sending, some (), none⟩

/-- An alarm that comes when the task runs -/
def newAlarm : Event Unit Unit :=
  ⟨"new", .sms, EventCodes.alarmSMS, 1_001_000, .notSent, some (), none⟩

def oldStore : EventStore Unit Unit := ⟨[oldAlarm], List.nodup_singleton _⟩

def bothStore : EventStore Unit Unit := ⟨[oldAlarm, newAlarm], by decide⟩

/-- Two polls five seconds apart, and one when the new alarm is due. -/
def sampleRun : List (AlarmOp Unit Unit Unit Unit) :=
  [.poll 1_000_000 goodEnv, .others bothStore, .poll 1_005_000 goodEnv, .poll 1_130_000 goodEnv]

/-- The new alarm is handed over, and its delivery is known before it comes due. -/
def calmRun : List (AlarmOp Unit Unit Unit Unit) :=
  [.poll 1_000_000 goodEnv, .others ⟨[newAlarm], List.nodup_singleton _⟩, .poll 1_005_000 goodEnv,
    .poll 1_010_000 goodEnv, .others ⟨[{ newAlarm with sent := .sent }], List.nodup_singleton _⟩,
    .poll 1_130_000 goodEnv]

/-- An empty store at the start -/
def noAlarms : AlarmTask Unit Unit Unit Unit := initial 1_000_000 ⟨[], List.nodup_nil⟩

theorem retries_of_reach_sample :
    (calmRun.foldl exec noAlarms).RetriesInTime ∧ (calmRun.foldl exec noAlarms).NoneReadyTwice ∧
      (calmRun.foldl exec noAlarms).Spaced ∧
      (calmRun.foldl exec noAlarms).log.map PollRecord.handed = [[], [], ["new"], []] := by
  have hreach : Reach exec Guard noAlarms (calmRun.foldl exec noAlarms) :=
    Reach.run calmRun .start (by decide +kernel)
  have honce : Reach exec (fun w op => w.Guard op ∧ w.HandsOnce op) noAlarms (calmRun.foldl exec noAlarms) :=
    Reach.run calmRun .start (by decide +kernel)
  obtain ⟨hretry, -, hspaced⟩ := retries_of_reach hreach
  exact ⟨hretry.mpr (by decide +kernel), by decide +kernel, hspaced honce, by decide +kernel⟩

theorem retries_fail : ∃ w : AlarmTask Unit Unit Unit Unit,
    Reach exec Guard (initial 1_000_000 oldStore) w ∧ ¬w.RetriesInTime ∧ ¬w.Spaced :=
  ⟨sampleRun.foldl exec (initial 1_000_000 oldStore), Reach.run sampleRun .start (by decide),
    by decide +kernel, by decide +kernel⟩

end AlarmTask

end SensorLink.Notify
