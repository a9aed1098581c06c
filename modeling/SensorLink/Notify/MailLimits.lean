import SensorLink.Notify.Mail
import SensorLink.Lib.Reach

/-!
# No e-mail is lost, and the limits are kept

The limiter has the sends of the last day, of all that were recorded, so that what it answers at the top
of a turn holds for everything that was sent. Between the top of a turn and its end nothing else is sent.
-/

namespace SensorLink.Notify

open SensorLink.Lib Throttle

/-- The recipients that were recorded, oldest first -/
def recorded (sent : List SentMail) : List ℕ :=
  sent.flatMap fun m => List.replicate m.mail.sendCount m.time

/-- Each non-urgent e-mail fits in every window together with what was recorded before it, unless the
window is empty. -/
def WithinLimits (config : ThrottleConfig) (sent : List SentMail) : Prop :=
  ∀ before m after, sent = before ++ m :: after → m.mail.urgent = false → ∀ w ∈ config.windows,
    inWindow (recorded before) m.time w.1 + m.mail.sendCount ≤ w.2 ∨
      inWindow (recorded before) m.time w.1 = 0

lemma recorded_append (a b : List SentMail) : recorded (a ++ b) = recorded a ++ recorded b :=
  List.flatMap_append

lemma recorded_singleton (m : SentMail) : recorded [m] = List.replicate m.mail.sendCount m.time := by
  simp [recorded]

lemma WithinLimits.append {config : ThrottleConfig} {sent : List SentMail} {m : SentMail}
    (h : WithinLimits config sent) (hm : m.mail.urgent = false → ∀ w ∈ config.windows,
      inWindow (recorded sent) m.time w.1 + m.mail.sendCount ≤ w.2 ∨
        inWindow (recorded sent) m.time w.1 = 0) : WithinLimits config (sent ++ [m]) := by
  intro before x after heq
  rcases List.eq_nil_or_concat after with rfl | ⟨after', y, rfl⟩
  · obtain ⟨rfl, hx⟩ := List.append_inj' heq rfl
    cases hx
    exact hm
  · rw [List.concat_eq_append, ← List.cons_append, ← List.append_assoc] at heq
    exact h before x after' (List.append_inj' heq rfl).1

/-! ### The limiter -/

section Limiter

/-- What was recorded is sorted and not after `t`, and the limiter has all of it that is not too old. -/
structure LimiterInv (config : ThrottleConfig) (limiter : RateLimiter) (sent : List SentMail) (t : ℕ) : Prop
    where
  config : limiter.config = config
  sorted : (recorded sent).Pairwise (· ≤ ·)
  past : ∀ x ∈ recorded sent, x ≤ t
  pruned : ∃ old, recorded sent = old ++ limiter.sends ∧ ∀ x ∈ old, x + day ≤ t

variable {config : ThrottleConfig} {limiter : RateLimiter} {sent : List SentMail} {t now : ℕ}

/-- In the terms of the limiter alone -/
lemma limiterInv_iff : LimiterInv config limiter sent t ↔ Tracks config limiter (recorded sent) t :=
  ⟨fun h => ⟨h.config, h.sorted, h.past, h.pruned⟩, fun h => ⟨h.config, h.sorted, h.past, h.pruned⟩⟩

lemma limiterInv_new (config : ThrottleConfig) (t : ℕ) : LimiterInv config (.new config) [] t :=
  limiterInv_iff.mpr (.new config t)

lemma LimiterInv.prune (h : LimiterInv config limiter sent t) (hle : t ≤ now) :
    LimiterInv config (limiter.prune now) sent now :=
  limiterInv_iff.mpr ((limiterInv_iff.mp h).prune hle)

lemma LimiterInv.mono (h : LimiterInv config limiter sent t) (hle : t ≤ now) :
    LimiterInv config limiter sent now :=
  limiterInv_iff.mpr ((limiterInv_iff.mp h).mono hle)

/-- An e-mail is recorded. -/
lemma LimiterInv.record (h : LimiterInv config limiter sent t) (hle : t ≤ now) (mail : MailMessage)
    (arrival : ℕ) :
    LimiterInv config (limiter.record now mail.sendCount) (sent ++ [⟨mail, arrival, now⟩]) now := by
  have hrecorded : recorded (sent ++ [⟨mail, arrival, now⟩]) =
      recorded sent ++ List.replicate mail.sendCount now := by
    rw [recorded_append, recorded_singleton]
  rw [limiterInv_iff, hrecorded]
  exact (limiterInv_iff.mp h).record hle mail.sendCount

/-- The limiter counts what was recorded. -/
lemma LimiterInv.inWindow_eq (h : LimiterInv config limiter sent t) (hle : t ≤ now) {w : ℕ × ℕ}
    (hw : w ∈ config.windows) : inWindow (recorded sent) now w.1 = inWindow limiter.sends now w.1 :=
  (limiterInv_iff.mp h).inWindow_eq hle (le_day_of_mem_windows hw)

/-- What the limiter has answered holds when the time has come. -/
lemma LimiterInv.fits {count top : ℕ} (h : LimiterInv config limiter sent t) (htop : t ≤ top)
    (hnow : top ≤ now) (hrelease : ∀ d, (limiter.nextAllowed top count).1 = some d → d ≤ now) :
    ∀ w ∈ config.windows, inWindow (recorded sent) now w.1 + count ≤ w.2 ∨
      inWindow (recorded sent) now w.1 = 0 := by
  intro w hw
  have hsends := (limiterInv_iff.mp h).sorted_sends
  rw [(h.prune htop).inWindow_eq hnow hw]
  exact RateLimiter.nextAllowed_spec hsends hnow hrelease w (h.config ▸ hw)

end Limiter

/-! ### The reports -/

namespace Reporting

/-- The reports about the e-mail that arrived as number `i` -/
def reportsOf (r : Reporting) (i : ℕ) : List EmailSendFeedback :=
  (r.reports.filter fun report => report.arrival = i).map Report.feedback

/-- What the channel took of the reports -/
def acceptedOf (reports : List Report) : List EmailSendFeedback :=
  (reports.filter fun report => report.result = some .ok).map Report.feedback

/-- The channel has what it accepted, in order, and no more than its capacity waits in it. A report was
handed to it if and only if there is one; it is lost only if it came behind as many accepted ones as the channel
holds, or if the receiver is gone. -/
structure Delivered (feedback : Option ℕ) (r : Reporting) : Prop where
  capacity : r.feedbackTx.map FeedbackChannel.capacity = feedback
  accepted : ∀ tx, r.feedbackTx = some tx →
    tx.taken ++ tx.waiting = acceptedOf r.reports ∧ tx.waiting.length ≤ tx.capacity
  handed : ∀ report ∈ r.reports, report.result.isSome = feedback.isSome
  full : ∀ tx, r.feedbackTx = some tx → ∀ k report, r.reports[k]? = some report → report.result = some .full →
    tx.capacity ≤ (acceptedOf (r.reports.take k)).length
  gone : ∀ tx, r.feedbackTx = some tx → ∀ report ∈ r.reports, report.result = some .closed → tx.closed = true

variable {feedback : Option ℕ} {r : Reporting}

/-- A report without a channel -/
lemma Delivered.unsent (h : r.Delivered feedback) (htx : r.feedbackTx = none) (arrival : ℕ)
    (f : EmailSendFeedback) : Delivered feedback { r with reports := r.reports ++ [⟨arrival, f, none⟩] } := by
  have hnone : ∀ tx, r.feedbackTx ≠ some tx := fun tx hsome => by
    rw [htx] at hsome
    cases hsome
  refine ⟨h.capacity, fun tx hsome => absurd hsome (hnone tx), fun report hreport => ?_,
    fun tx hsome => absurd hsome (hnone tx), fun tx hsome => absurd hsome (hnone tx)⟩
  rcases List.mem_append.mp hreport with hreport | hreport
  · exact h.handed report hreport
  · rw [List.mem_singleton.mp hreport, ← h.capacity, htx]
    rfl

/-- A report with its result -/
lemma Delivered.sent (h : r.Delivered feedback) {tx tx' : FeedbackChannel} (htx : r.feedbackTx = some tx)
    (hcapacity : tx'.capacity = tx.capacity) (arrival : ℕ) (f : EmailSendFeedback) {result : TrySend}
    (haccepted : tx'.taken ++ tx'.waiting = acceptedOf (r.reports ++ [⟨arrival, f, some result⟩]))
    (hroom : tx'.waiting.length ≤ tx.capacity)
    (hfull : result = .full → tx.capacity ≤ (acceptedOf r.reports).length)
    (hclosed : tx.closed = true ∨ result = .closed → tx'.closed = true) :
    Delivered feedback
      { r with feedbackTx := some tx', reports := r.reports ++ [⟨arrival, f, some result⟩] } := by
  have hfeedback : some tx.capacity = feedback := by
    rw [← h.capacity, htx]
    rfl
  refine ⟨?_, ?_, fun report hreport => ?_, ?_, ?_⟩
  · rw [← hfeedback, ← hcapacity]
    rfl
  · rintro _ ⟨⟩
    exact ⟨haccepted, hcapacity ▸ hroom⟩
  · rcases List.mem_append.mp hreport with hreport | hreport
    · exact h.handed report hreport
    · rw [List.mem_singleton.mp hreport, ← hfeedback]
      rfl
  · rintro _ ⟨⟩ k report hk hresult
    rw [hcapacity]
    rcases lt_or_ge k r.reports.length with hlt | hge
    · rw [List.getElem?_append_left hlt] at hk
      rw [List.take_append_of_le_length hlt.le]
      exact h.full tx htx k report hk hresult
    · -- the new report is the last one
      rw [List.getElem?_append_right hge, List.getElem?_singleton] at hk
      split_ifs at hk with hzero
      cases hk
      rw [List.take_left' (by omega)]
      exact hfull (Option.some.inj hresult)
  · rintro _ ⟨⟩ report hreport hresult
    rcases List.mem_append.mp hreport with hreport | hreport
    · exact hclosed (.inl (h.gone tx htx report hreport hresult))
    · rw [List.mem_singleton.mp hreport] at hresult
      exact hclosed (.inr (Option.some.inj hresult))

lemma Delivered.reportSendResult (h : r.Delivered feedback) (receiving : Receiving) (arrival : ℕ)
    (f : EmailSendFeedback) : (r.reportSendResult receiving arrival f).Delivered feedback := by
  unfold Reporting.reportSendResult
  split
  next htx => exact h.unsent htx arrival f
  next tx htx =>
    obtain ⟨hchannel, hlength⟩ := h.accepted tx htx
    have hreceived : (tx.receive receiving).taken ++ (tx.receive receiving).waiting = acceptedOf r.reports := by
      rw [← hchannel]
      unfold FeedbackChannel.receive
      rw [List.append_assoc, List.take_append_drop]
    have hfewer : (tx.receive receiving).waiting.length ≤ tx.capacity := by
      unfold FeedbackChannel.receive
      rw [List.length_drop]
      omega
    have hgone : tx.closed = true → (tx.receive receiving).closed = true := fun h => by
      rw [FeedbackChannel.receive, h, Bool.true_or]
    unfold FeedbackChannel.trySend
    dsimp only
    split_ifs with hclosed hfull
    · refine h.sent htx ?_ arrival f ?_ hfewer ?_ fun _ => hclosed
      · rfl
      · simp [acceptedOf, hreceived]
      · rintro ⟨⟩
    · refine h.sent htx ?_ arrival f ?_ hfewer (fun _ => ?_) ?_
      · rfl
      · simp [acceptedOf, hreceived]
      · rw [← hreceived, List.length_append]
        exact le_trans hfull (Nat.le_add_left _ _)
      · rintro (hgone' | ⟨⟨⟩⟩)
        exact hgone hgone'
    · refine h.sent htx ?_ arrival f ?_ ?_ ?_ ?_
      · rfl
      · rw [← List.append_assoc, hreceived]
        simp [acceptedOf]
      · rw [List.length_append]
        exact not_le.mp hfull
      · rintro ⟨⟩
      · rintro (hgone' | ⟨⟨⟩⟩)
        exact hgone hgone'

lemma reportsOf_reportSendResult (r : Reporting) (receiving : Receiving) (arrival : ℕ)
    (f : EmailSendFeedback) (i : ℕ) :
    (r.reportSendResult receiving arrival f).reportsOf i =
      r.reportsOf i ++ if arrival = i then [f] else [] := by
  unfold Reporting.reportSendResult reportsOf
  split <;> by_cases h : arrival = i <;> simp [h]

lemma mailDropped_reportSendResult (r : Reporting) (receiving : Receiving) (arrival : ℕ)
    (f : EmailSendFeedback) : (r.reportSendResult receiving arrival f).mailDropped = r.mailDropped := by
  unfold Reporting.reportSendResult
  split <;> rfl

/-- All reports of an e-mail -/
lemma reportAll_spec (arrival : ℕ) (fs : List EmailSendFeedback) (receiving : List Receiving)
    (h : r.Delivered feedback) :
    (r.reportAll arrival fs receiving).Delivered feedback ∧
      (r.reportAll arrival fs receiving).mailDropped = r.mailDropped ∧
      ∀ i, (r.reportAll arrival fs receiving).reportsOf i =
        r.reportsOf i ++ if arrival = i then fs else [] := by
  induction fs generalizing r receiving with
  | nil => exact ⟨h, rfl, fun i => by simp [Reporting.reportAll]⟩
  | cons f fs ih =>
    obtain ⟨hdelivered, hcount, hreports⟩ :=
      ih receiving.tail (h.reportSendResult (receiving.headD ⟨0, false⟩) arrival f)
    refine ⟨hdelivered, hcount.trans (mailDropped_reportSendResult _ _ _ _), fun i => ?_⟩
    rw [Reporting.reportAll, hreports, reportsOf_reportSendResult]
    split <;> simp

end Reporting

/-- Each e-mail that was dropped is reported to each recipient with the reason and counted, and each one that was
sent is reported to each recipient once. -/
structure Reported (feedback : Option ℕ) (sent : List SentMail) (dropped : List DroppedMail) (r : Reporting) :
    Prop where
  ofDropped : ∀ d ∈ dropped, r.reportsOf d.arrival = reportDropped d.mail d.reason
  ofSent : ∀ m ∈ sent, ∃ errors, r.reportsOf m.arrival = sendEmail m.mail errors
  ofOther : ∀ i, (∀ m ∈ sent, m.arrival ≠ i) → (∀ d ∈ dropped, d.arrival ≠ i) → r.reportsOf i = []
  counted : r.mailDropped = dropped.map DroppedMail.reason
  delivered : r.Delivered feedback

section Reported

variable {feedback : Option ℕ} {sent : List SentMail} {dropped : List DroppedMail} {r : Reporting} {arrival : ℕ}

lemma Reported.drop (h : Reported feedback sent dropped r) (hsent : ∀ m ∈ sent, m.arrival ≠ arrival)
    (hdropped : ∀ d ∈ dropped, d.arrival ≠ arrival) (receiving : List Receiving) (mail : MailMessage)
    (reason : DropReason) :
    Reported feedback sent (dropped ++ [⟨mail, arrival, reason⟩]) (r.drop receiving mail arrival reason) := by
  obtain ⟨hdelivered, hcounted, hreports⟩ := Reporting.reportAll_spec arrival (reportDropped mail reason)
    receiving (r := { r with mailDropped := r.mailDropped ++ [reason] })
    ⟨h.delivered.capacity, h.delivered.accepted, h.delivered.handed, h.delivered.full, h.delivered.gone⟩
  have hother : ∀ i, arrival ≠ i → (r.drop receiving mail arrival reason).reportsOf i = r.reportsOf i := by
    intro i hi
    rw [Reporting.drop, hreports, if_neg hi, List.append_nil]
    rfl
  refine ⟨fun d hd => ?_, fun m hm => ?_, fun i hs hd => ?_, ?_, hdelivered⟩
  · rcases List.mem_append.mp hd with hd | hd
    · rw [hother _ (hdropped d hd).symm]
      exact h.ofDropped d hd
    · rw [List.mem_singleton.mp hd, Reporting.drop, hreports, if_pos rfl]
      exact congrArg (· ++ _) (h.ofOther arrival hsent hdropped)
  · rw [hother _ (hsent m hm).symm]
    exact h.ofSent m hm
  · rw [hother i (hd _ (List.mem_append_right _ List.mem_cons_self))]
    exact h.ofOther i hs fun d hd' => hd d (List.mem_append_left _ hd')
  · rw [Reporting.drop, hcounted, List.map_append, h.counted]
    rfl

lemma Reported.send (h : Reported feedback sent dropped r) (hsent : ∀ m ∈ sent, m.arrival ≠ arrival)
    (hdropped : ∀ d ∈ dropped, d.arrival ≠ arrival) (receiving : List Receiving) (mail : MailMessage)
    (errors : List (Option String)) (time : ℕ) :
    Reported feedback (sent ++ [⟨mail, arrival, time⟩]) dropped
      (r.reportAll arrival (sendEmail mail errors) receiving) := by
  obtain ⟨hdelivered, hcounted, hreports⟩ := Reporting.reportAll_spec arrival (sendEmail mail errors) receiving
    h.delivered
  have hother : ∀ i, arrival ≠ i →
      (r.reportAll arrival (sendEmail mail errors) receiving).reportsOf i = r.reportsOf i := by
    intro i hi
    rw [hreports, if_neg hi, List.append_nil]
  refine ⟨fun d hd => ?_, fun m hm => ?_, fun i hs hd => ?_, hcounted.trans h.counted, hdelivered⟩
  · rw [hother _ (hdropped d hd).symm]
    exact h.ofDropped d hd
  · rcases List.mem_append.mp hm with hm | hm
    · rw [hother _ (hsent m hm).symm]
      exact h.ofSent m hm
    · refine ⟨errors, ?_⟩
      rw [List.mem_singleton.mp hm, hreports, if_pos rfl, h.ofOther arrival hsent hdropped]
      rfl
  · rw [hother i (hs _ (List.mem_append_right _ List.mem_cons_self))]
    exact h.ofOther i (fun m hm => hs m (List.mem_append_left _ hm)) hd

end Reported

/-! ### The queue -/

/-- How often the e-mail that arrived as number `i` is sent, queued or dropped -/
def MailTask.outcomes (s : MailTask) (i : ℕ) : ℕ :=
  (s.sent.map SentMail.arrival).count i + (s.queue.map QueuedEmail.arrival).count i +
    (s.dropped.map DroppedMail.arrival).count i

/-- The non-urgent e-mails that were sent, and those that wait. -/
def MailTask.line (s : MailTask) : List ℕ :=
  (s.sent.filter fun m => !m.mail.urgent).map SentMail.arrival ++ s.queue.map QueuedEmail.arrival

structure QueueInv (config : ThrottleConfig) (feedback : Option ℕ) (s : MailTask) : Prop where
  accounted : ∀ i, s.outcomes i = if i < s.received then 1 else 0
  reported : Reported feedback s.sent s.dropped s.reporting
  ordered : s.line.Pairwise (· < ·)
  waiting : ∀ queued ∈ s.queue, queued.mail.urgent = false
  room : s.queue.length ≤ max 1 config.maxQueued
  exit : s.exited = true → s.queue = []

section Queue

variable {config : ThrottleConfig} {feedback : Option ℕ} {s : MailTask}

/-- What is not about the e-mails themselves may change. -/
lemma QueueInv.elsewhere (h : QueueInv config feedback s) {limiter : RateLimiter} {batch : Option Batch}
    {drainUntil eligibleSince : Option ℕ} {clock : ℕ} :
    QueueInv config feedback { s with
      limiter := limiter
      batch := batch
      drainUntil := drainUntil
      eligibleSince := eligibleSince
      clock := clock } :=
  ⟨h.accounted, h.reported, h.ordered, h.waiting, h.room, h.exit⟩

/-- Everything in line has arrived. -/
lemma QueueInv.lt_received (h : QueueInv config feedback s) {i : ℕ} (hi : i ∈ s.line) : i < s.received := by
  have hcount := h.accounted i
  have hpos : 0 < s.outcomes i := by
    unfold MailTask.outcomes
    rcases List.mem_append.mp hi with hi | hi
    · have : i ∈ s.sent.map SentMail.arrival := by
        obtain ⟨m, hm, rfl⟩ := List.mem_map.mp hi
        exact List.mem_map_of_mem (List.mem_filter.mp hm).1
      have := List.count_pos_iff.mpr this
      omega
    · have := List.count_pos_iff.mpr hi
      omega
  by_contra hge
  rw [if_neg hge] at hcount
  omega

/-- What is only in the queue, or nowhere yet, was neither sent nor dropped. -/
lemma not_ended {i : ℕ} (h : s.outcomes i ≤ (s.queue.map QueuedEmail.arrival).count i) :
    (∀ m ∈ s.sent, m.arrival ≠ i) ∧ ∀ d ∈ s.dropped, d.arrival ≠ i := by
  unfold MailTask.outcomes at h
  constructor
  · rintro m hm rfl
    have := List.count_pos_iff.mpr (List.mem_map_of_mem (f := SentMail.arrival) hm)
    omega
  · rintro d hd rfl
    have := List.count_pos_iff.mpr (List.mem_map_of_mem (f := DroppedMail.arrival) hd)
    omega

lemma QueueInv.not_ended_queued (h : QueueInv config feedback s) {queued : QueuedEmail} (hq : queued ∈ s.queue) :
    (∀ m ∈ s.sent, m.arrival ≠ queued.arrival) ∧ ∀ d ∈ s.dropped, d.arrival ≠ queued.arrival := by
  apply not_ended
  have hcount := List.count_pos_iff.mpr (List.mem_map_of_mem (f := QueuedEmail.arrival) hq)
  rw [h.accounted]
  split <;> omega

lemma QueueInv.not_ended_received (h : QueueInv config feedback s) :
    (∀ m ∈ s.sent, m.arrival ≠ s.received) ∧ ∀ d ∈ s.dropped, d.arrival ≠ s.received := by
  apply not_ended
  rw [h.accounted, if_neg (lt_irrefl _)]
  exact Nat.zero_le _

variable {turn : Turn} {mail : MailMessage}

/-- One more e-mail has arrived. -/
lemma arrived_succ (i n : ℕ) :
    (if i < n + 1 then 1 else 0) = (if i < n then 1 else 0) + if n = i then 1 else 0 := by
  rcases Nat.lt_trichotomy i n with hlt | rfl | hlt
  · rw [if_pos (by omega), if_pos hlt, if_neg (by omega)]
  · rw [if_pos (by omega), if_neg (by omega), if_pos rfl]
  · rw [if_neg (by omega), if_neg (by omega), if_neg (by omega)]

/-- An urgent e-mail is sent as soon as it arrives. -/
lemma QueueInv.urgent (h : QueueInv config feedback s) (hurgent : mail.urgent = true) :
    QueueInv config feedback (MailTask.send { s with received := s.received + 1 } turn mail s.received) where
  accounted := by
    intro i
    show _ = if i < s.received + 1 then 1 else 0
    rw [arrived_succ, ← h.accounted i]
    simp only [MailTask.outcomes, MailTask.send, List.map_append, List.map_cons, List.map_nil,
      List.count_append, List.count_singleton, beq_iff_eq]
    omega
  ordered := by
    have hline : MailTask.line (MailTask.send { s with received := s.received + 1 } turn mail s.received) =
        s.line := by
      simp [MailTask.line, MailTask.send, hurgent]
    rw [hline]
    exact h.ordered
  reported := h.reported.send h.not_ended_received.1 h.not_ended_received.2 _ _ _ _
  waiting := h.waiting
  room := h.room
  exit := h.exit

/-- The oldest e-mail is dropped. -/
lemma QueueInv.dropOldest (h : QueueInv config feedback s) (reason : DropReason) (receiving : List Receiving) :
    QueueInv config feedback (s.dropOldest reason receiving) := by
  unfold MailTask.dropOldest
  split
  · exact h
  next oldest rest hqueue =>
    have hmem : oldest ∈ s.queue := by
      rw [hqueue]
      exact List.mem_cons_self
    obtain ⟨hsent, hdropped⟩ := h.not_ended_queued hmem
    refine ⟨fun i => ?_, h.reported.drop hsent hdropped _ _ _, ?_, fun q hq => h.waiting q ?_, ?_,
      fun hexit => ?_⟩
    · rw [← h.accounted i]
      simp only [MailTask.outcomes, hqueue, List.map_append, List.map_cons, List.map_nil,
        List.count_append, List.count_cons, List.count_nil]
      omega
    · refine h.ordered.sublist ?_
      simp only [MailTask.line, hqueue, List.map_cons]
      exact (List.Sublist.refl _).append (List.sublist_cons_self _ _)
    · rw [hqueue]
      exact List.mem_cons_of_mem _ hq
    · have hroom := h.room
      rw [hqueue, List.length_cons] at hroom
      exact (Nat.le_succ _).trans hroom
    · have hempty := h.exit hexit
      rw [hqueue] at hempty
      cases hempty

lemma dropOldest_queue (s : MailTask) (reason : DropReason) (receiving : List Receiving) :
    (s.dropOldest reason receiving).queue = s.queue.tail := by
  unfold MailTask.dropOldest
  split
  next hqueue => rw [hqueue, List.tail_nil]
  next hqueue => rw [hqueue, List.tail_cons]

/-- A drop changes nothing that is not about it. -/
lemma dropOldest_frame (s : MailTask) (reason : DropReason) (receiving : List Receiving) :
    (s.dropOldest reason receiving).limiter = s.limiter ∧ (s.dropOldest reason receiving).sent = s.sent ∧
      (s.dropOldest reason receiving).received = s.received ∧
      (s.dropOldest reason receiving).exited = s.exited := by
  unfold MailTask.dropOldest
  split <;> exact ⟨rfl, rfl, rfl, rfl⟩

lemma dropOldest_with (s : MailTask) (received : ℕ) (batch : Option Batch) (reason : DropReason)
    (receiving : List Receiving) :
    MailTask.dropOldest { s with received := received, batch := batch } reason receiving =
      { s.dropOldest reason receiving with received := received, batch := batch } := by
  unfold MailTask.dropOldest
  dsimp only
  split <;> rfl

/-- The oldest e-mail makes room. -/
lemma QueueInv.makeRoom (h : QueueInv config feedback s) : QueueInv config feedback (s.makeRoom turn) := by
  unfold MailTask.makeRoom
  split
  · exact h.dropOldest _ _
  · exact h

/-- There is room for one more. -/
lemma length_makeRoom (turn : Turn) (s : MailTask) :
    (s.makeRoom turn).queue.length < max 1 s.limiter.config.maxQueued ∨
      (s.makeRoom turn).queue.length + 1 ≤ s.queue.length := by
  unfold MailTask.makeRoom
  split
  · rw [dropOldest_queue, List.length_tail]
    omega
  next hroom =>
    left
    omega

lemma makeRoom_frame (turn : Turn) (s : MailTask) :
    (s.makeRoom turn).limiter = s.limiter ∧ (s.makeRoom turn).sent = s.sent ∧
      (s.makeRoom turn).received = s.received ∧ (s.makeRoom turn).exited = s.exited := by
  unfold MailTask.makeRoom
  split
  · exact dropOldest_frame _ _ _
  · exact ⟨rfl, rfl, rfl, rfl⟩

/-- Room is made for an e-mail that is counted already. -/
lemma makeRoom_with (s : MailTask) (received : ℕ) (batch : Option Batch) :
    MailTask.makeRoom { s with received := received, batch := batch } turn =
      { s.makeRoom turn with received := received, batch := batch } := by
  unfold MailTask.makeRoom
  dsimp only
  split
  · exact dropOldest_with _ _ _ _ _
  · rfl

/-- A non-urgent e-mail is put at the end of the queue. -/
lemma QueueInv.push (h : QueueInv config feedback s) (hroom : s.queue.length < max 1 config.maxQueued)
    (hexited : s.exited = false) (hurgent : mail.urgent = false) (batch : Option Batch) (now : ℕ) :
    QueueInv config feedback { s with
      received := s.received + 1
      batch := batch
      queue := s.queue ++ [⟨mail, now, s.received⟩] } where
  accounted := by
    intro i
    rw [arrived_succ, ← h.accounted i]
    simp only [MailTask.outcomes, List.map_append, List.map_cons, List.map_nil,
      List.count_append, List.count_singleton, beq_iff_eq]
    omega
  ordered := by
    have hline : MailTask.line { s with
        received := s.received + 1
        batch := batch
        queue := s.queue ++ [⟨mail, now, s.received⟩] } = s.line ++ [s.received] := by
      simp [MailTask.line]
    rw [hline, List.pairwise_append]
    refine ⟨h.ordered, List.pairwise_singleton _ _, fun i hi j hj => ?_⟩
    rw [List.mem_singleton.mp hj]
    exact h.lt_received hi
  reported := h.reported
  waiting := by
    intro queued hq
    rcases List.mem_append.mp hq with hq | hq
    · exact h.waiting queued hq
    · rw [List.mem_singleton.mp hq]
      exact hurgent
  room := by
    rw [List.length_append]
    exact hroom
  exit hexit := by
    rw [hexited] at hexit
    cases hexit

/-- A non-urgent e-mail is queued. -/
lemma QueueInv.enqueue (h : QueueInv config feedback s) (hconfig : s.limiter.config = config)
    (hexited : s.exited = false) (hurgent : mail.urgent = false) :
    QueueInv config feedback (MailTask.enqueue { s with received := s.received + 1 } turn mail s.received) := by
  unfold MailTask.enqueue
  dsimp only
  rw [makeRoom_with]
  obtain ⟨-, -, hreceived, hsame⟩ := makeRoom_frame turn s
  have hroom : (s.makeRoom turn).queue.length < max 1 config.maxQueued := by
    rcases length_makeRoom turn s with hlt | hlt
    · rwa [hconfig] at hlt
    · exact lt_of_lt_of_le hlt h.room
  have hpush := h.makeRoom.push hroom (hsame.trans hexited) hurgent
    (s.batch.or (some ⟨turn.now, turn.now, 0⟩)) turn.now
  rwa [hreceived] at hpush

/-- The head of the queue is sent. -/
lemma QueueInv.release (h : QueueInv config feedback s) : QueueInv config feedback (s.release turn) := by
  unfold MailTask.release
  split
  · exact h
  next queued rest hqueue =>
    have hmem : queued ∈ s.queue := by
      rw [hqueue]
      exact List.mem_cons_self
    have hurgent : queued.mail.urgent = false := h.waiting queued hmem
    obtain ⟨hsent, hdropped⟩ := h.not_ended_queued hmem
    refine ⟨fun i => ?_, h.reported.send hsent hdropped _ _ _ _, ?_, fun q hq => h.waiting q ?_, ?_,
      fun hexit => ?_⟩
    · show _ = if i < s.received then 1 else 0
      rw [← h.accounted i]
      simp only [MailTask.outcomes, MailTask.send, hqueue, List.map_append, List.map_cons, List.map_nil,
        List.count_append, List.count_cons, List.count_nil]
      omega
    · have hordered := h.ordered
      simp only [MailTask.line, hqueue, List.map_cons] at hordered
      simpa [MailTask.line, MailTask.send, hurgent] using hordered
    · rw [hqueue]
      exact List.mem_cons_of_mem _ hq
    · have hroom := h.room
      rw [hqueue, List.length_cons] at hroom
      exact (Nat.le_succ _).trans hroom
    · have hempty := h.exit hexit
      rw [hqueue] at hempty
      cases hempty

/-- One after another, what is left is dropped. -/
lemma QueueInv.dropAll (h : QueueInv config feedback s) {queue : List QueuedEmail} (hqueue : s.queue = queue)
    (receiving : List Receiving) :
    QueueInv config feedback (MailTask.dropAll queue receiving s) ∧
      (MailTask.dropAll queue receiving s).queue = [] := by
  induction queue generalizing s receiving with
  | nil => exact ⟨h, hqueue⟩
  | cons queued rest ih =>
    refine ih (h.dropOldest .shutdown receiving) ?_ _
    rw [dropOldest_queue, hqueue, List.tail_cons]

lemma dropAll_frame (s : MailTask) (queue : List QueuedEmail) (receiving : List Receiving) :
    (MailTask.dropAll queue receiving s).limiter = s.limiter ∧
      (MailTask.dropAll queue receiving s).sent = s.sent := by
  induction queue generalizing s receiving with
  | nil => exact ⟨rfl, rfl⟩
  | cons queued rest ih =>
    obtain ⟨hlimiter, hsent⟩ :=
      ih (s.dropOldest .shutdown receiving) (receiving.drop queued.mail.sendCount)
    obtain ⟨hlimiter', hsent', -⟩ := dropOldest_frame s .shutdown receiving
    exact ⟨hlimiter.trans hlimiter', hsent.trans hsent'⟩

/-- What is left is dropped. -/
lemma QueueInv.drainOver (h : QueueInv config feedback s) : QueueInv config feedback (s.drainOver turn) := by
  obtain ⟨hdropped, hempty⟩ := h.dropAll rfl turn.receiving
  exact ⟨hdropped.accounted, hdropped.reported, hdropped.ordered, hdropped.waiting, hdropped.room,
    fun _ => hempty⟩

end Queue

/-! ### The task -/

namespace MailTask

structure Inv (config : ThrottleConfig) (feedback : Option ℕ) (s : MailTask) : Prop where
  limiter : LimiterInv config s.limiter s.sent s.clock
  limits : WithinLimits config s.sent
  queue : QueueInv config feedback s

variable {config : ThrottleConfig} {feedback : Option ℕ} {s : MailTask} {turn : Turn}

lemma reported_create (feedback : Option ℕ) : Reported feedback [] []
    ⟨feedback.map fun capacity => ⟨capacity, [], [], false⟩, [], []⟩ where
  ofDropped := by simp
  ofSent := by simp
  ofOther _ _ _ := rfl
  counted := rfl
  delivered := by
    refine ⟨by cases feedback <;> rfl, fun tx htx => ?_, by simp, by simp, by simp⟩
    obtain ⟨capacity, -, rfl⟩ := Option.map_eq_some_iff.mp htx
    exact ⟨rfl, Nat.zero_le _⟩

lemma inv_create (config : ThrottleConfig) (clock : ℕ) (feedback : Option ℕ) :
    (create config clock feedback).Inv config feedback where
  limiter := limiterInv_new config clock
  limits := by
    intro before m after heq
    cases before <;> cases heq
  queue := ⟨by simp [outcomes, create], reported_create feedback, .nil, by simp [create], by simp [create],
    by simp [create]⟩

/-- The limiter was asked at the top of the turn. -/
lemma Inv.limiter_atTop (h : s.Inv config feedback) (hguard : s.Guard turn) :
    LimiterInv config (s.atTop turn).limiter s.sent turn.now := by
  obtain ⟨htop, heligible, hstarving, hselect, hnow, -⟩ := hguard
  have hle : turn.topTime ≤ turn.now := by omega
  unfold atTop
  cases s.queue with
  | nil => exact h.limiter.mono (htop.trans hle)
  | cons queued rest => exact (h.limiter.prune htop).mono hle

/-- Asking the limiter changes nothing else. -/
lemma Inv.queue_atTop (h : s.Inv config feedback) : QueueInv config feedback (s.atTop turn) := h.queue.elsewhere

/-- The branch that sends the head of the queue is taken when its time has come. -/
lemma release_of_select (hselect : s.select turn = some .release) :
    ∃ queued rest, s.queue = queued :: rest ∧
      ∀ d, (s.limiter.nextAllowed turn.topTime queued.mail.sendCount).1 = some d → d ≤ turn.selectTime := by
  unfold select at hselect
  split at hselect
  · cases hselect
  · split at hselect
    next hwaited =>
      unfold releaseAt at hwaited
      cases hqueue : s.queue with
      | nil => simp [hqueue] at hwaited
      | cons queued rest =>
        refine ⟨queued, rest, rfl, fun d hd => ?_⟩
        simpa [hqueue, waited, hd] using hwaited
    next =>
      repeat (split at hselect; · cases hselect)
      cases hselect

/-- A turn ends. -/
lemma inv_later {t : MailTask} {now sentTime : ℕ} (hlimiter : LimiterInv config t.limiter t.sent now)
    (hle : now ≤ sentTime) (hlimits : WithinLimits config t.sent) (hqueue : QueueInv config feedback t) :
    MailTask.Inv config feedback { t with clock := sentTime } :=
  ⟨hlimiter.mono hle, hlimits, hqueue.elsewhere⟩

lemma enqueue_limiter (s : MailTask) (mail : MailMessage) (arrival : ℕ) :
    (s.enqueue turn mail arrival).limiter = s.limiter ∧ (s.enqueue turn mail arrival).sent = s.sent := by
  obtain ⟨hlimiter, hsent, -⟩ := makeRoom_frame turn
    { s with batch := s.batch.or (some ⟨turn.now, turn.now, 0⟩) }
  exact ⟨hlimiter, hsent⟩

lemma release_cons {queued : QueuedEmail} {rest : List QueuedEmail} (hqueue : s.queue = queued :: rest) :
    (s.release turn).limiter = s.limiter.record turn.now queued.mail.sendCount ∧
      (s.release turn).sent = s.sent ++ [⟨queued.mail, queued.arrival, turn.now⟩] := by
  unfold release
  rw [hqueue]
  exact ⟨rfl, rfl⟩

lemma inv_exec (turn : Turn) (h : s.Inv config feedback) (hguard : s.Guard turn) :
    (s.exec turn).Inv config feedback := by
  have hlimiter := h.limiter_atTop hguard
  have hqueue : QueueInv config feedback (s.atTop turn) := h.queue_atTop
  obtain ⟨htop, heligible, hstarving, hselect, hnow, hsent⟩ := hguard
  unfold exec
  split
  · exact h
  next hexited =>
    have hexited : s.exited = false := by simpa using hexited
    split
    next hdrained =>
      simp only [Bool.and_eq_true, List.isEmpty_iff] at hdrained
      obtain ⟨haccounted, hreported, hordered, hwaiting, hroom, -⟩ := h.queue
      exact ⟨h.limiter, h.limits, haccounted, hreported, hordered, hwaiting, hroom, fun _ => hdrained.2⟩
    next =>
      split
      · exact h
      next branch hbranch =>
        cases branch with
        | recv incoming =>
          cases incoming with
          | none =>
            exact inv_later hlimiter hsent h.limits hqueue.elsewhere
          | some mail =>
            unfold handle recv
            dsimp only
            split
            next hurgent =>
              refine inv_later (hlimiter.record le_rfl mail s.received) hsent ?_ (hqueue.urgent hurgent)
              refine h.limits.append fun hnot => ?_
              rw [hurgent] at hnot
              cases hnot
            next hurgent =>
              obtain ⟨hsame, hsame'⟩ := enqueue_limiter
                { s.atTop turn with received := (s.atTop turn).received + 1 } mail (s.atTop turn).received
              refine inv_later ?_ hsent ?_ (hqueue.enqueue hlimiter.config hexited (by simpa using hurgent))
              · rw [hsame, hsame']
                exact hlimiter
              · rw [hsame']
                exact h.limits
        | release =>
          obtain ⟨queued, rest, hcons, hrelease⟩ := release_of_select hbranch
          have hfits := h.limiter.fits htop (by omega) fun d hd => (hrelease d hd).trans hnow
          have hstep : (s.atTop turn).queue = queued :: rest := hcons
          unfold handle
          refine inv_later ?_ hsent ?_ hqueue.release
          · rw [(release_cons hstep).1, (release_cons hstep).2]
            exact hlimiter.record le_rfl queued.mail queued.arrival
          · rw [(release_cons hstep).2]
            exact h.limits.append fun _ => hfits
        | batchDone =>
          exact inv_later hlimiter hsent h.limits hqueue.elsewhere
        | drainOver =>
          obtain ⟨hsame, hsame'⟩ := dropAll_frame (s.atTop turn) (s.atTop turn).queue turn.receiving
          refine inv_later ?_ hsent ?_ hqueue.drainOver
          · exact (congrArg₂ (LimiterInv config · · turn.now) hsame hsame').mpr hlimiter
          · exact (congrArg (WithinLimits config) hsame').mpr h.limits
        | shutdown =>
          exact inv_later hlimiter hsent h.limits hqueue.elsewhere

/-- **The mail task.** Every e-mail that was received is sent, queued or dropped, exactly once; one that was dropped
is reported as failed to each of its recipients, with the reason, and counted, and the channel of the reports, if
there is one, has got in order those that it had room for (`Reporting.Delivered`); non-urgent e-mails are sent in
the order of their arrival and within the limits; the queue is bounded, and empty at the exit. -/
theorem mails_of_reach {config : ThrottleConfig} {clock : ℕ} {feedback : Option ℕ} {s : MailTask}
    (h : Reach exec Guard (create config clock feedback) s) :
    (∀ i, s.outcomes i = if i < s.received then 1 else 0) ∧
    (∀ d ∈ s.dropped, s.reporting.reportsOf d.arrival = d.mail.recipients.map fun recipient =>
      ⟨recipient, d.mail.subject, .failed, some ("E-mail dropped before sending (" ++ d.reason.text ++ ")")⟩) ∧
    s.reporting.mailDropped = s.dropped.map DroppedMail.reason ∧
    (∀ m ∈ s.sent, ∃ errors, s.reporting.reportsOf m.arrival = sendEmail m.mail errors) ∧
    s.reporting.Delivered feedback ∧
    ((s.sent.filter fun m => !m.mail.urgent).map SentMail.arrival).Pairwise (· < ·) ∧
    WithinLimits config s.sent ∧
    s.queue.length ≤ max 1 config.maxQueued ∧
    (s.exited = true → s.queue = []) := by
  have hinv : s.Inv config feedback := by
    apply h.invariant
    · exact inv_create config clock feedback
    · intro s turn hs hguard
      exact inv_exec turn hs hguard
  have hreported := hinv.queue.reported
  refine ⟨hinv.queue.accounted, hreported.ofDropped, hreported.counted, hreported.ofSent, hreported.delivered, ?_,
    hinv.limits, hinv.queue.room, hinv.queue.exit⟩
  exact hinv.queue.ordered.sublist (List.sublist_append_left _ _)

/-- A turn that takes no time, with a mail server that takes everything and a receiver that takes nothing -/
def sampleTurn (time : ℕ) (incoming : Option (Option MailMessage)) : Turn :=
  ⟨time, time, time, time, time, time, incoming, false, [], []⟩

def sampleMail (subject : String) (urgent : Bool) : MailMessage := ⟨["a@b.c", "d@e.f"], subject, urgent⟩

/-- Two recipients a minute, and two e-mails in the queue: of four non-urgent ones the second is dropped when the
fourth arrives, an urgent one overtakes the third, and the channel ends; the grace period is over before the fourth
one may be sent. The channel of the reports takes five. -/
def sampleTurns : List Turn :=
  [sampleTurn 0 (some (some (sampleMail "first" false))), sampleTurn 1 none,
    sampleTurn 2 (some (some (sampleMail "second" false))), sampleTurn 3 (some (some (sampleMail "third" false))),
    sampleTurn 4 (some (some (sampleMail "fourth" false))), sampleTurn 5 (some (some (sampleMail "urgent" true))),
    sampleTurn 6 (some none), sampleTurn 60000000005 none, sampleTurn 60000000006 none]

def sampleTask : MailTask := sampleTurns.foldl exec (create ⟨2, 10, 10, 2⟩ 0 (some 5))

theorem mails_of_reach_sample :
    (sampleTask.sent.map SentMail.arrival, sampleTask.dropped.map fun d => (d.arrival, d.reason)) =
        ([0, 4, 2], [(1, .queueFull), (3, .shutdown)]) ∧
      sampleTask.reporting.reports.map Report.result =
        List.replicate 5 (some .ok) ++ List.replicate 5 (some .full) ∧
      (∀ d ∈ sampleTask.dropped, sampleTask.reporting.reportsOf d.arrival = d.mail.recipients.map fun recipient =>
        ⟨recipient, d.mail.subject, .failed, some ("E-mail dropped before sending (" ++ d.reason.text ++ ")")⟩) ∧
      WithinLimits ⟨2, 10, 10, 2⟩ sampleTask.sent := by
  obtain ⟨-, hdropped, -, -, -, -, hlimits, -⟩ := @mails_of_reach _ _ (some 5) sampleTask
    (Reach.run sampleTurns .start (by decide +kernel))
  exact ⟨by decide +kernel, by decide +kernel, hdropped, hlimits⟩

end MailTask

end SensorLink.Notify
