import Mathlib.Data.Nat.Find
import SensorLink.Network.Connection

/-!
# Confirmation of uploads, and draining

`iteration_cases` says all that an iteration can do with an upload. From it: the messages taken from
the queue are, in their order, the confirmed ones and the pending one. After a disconnect hint the loop
returns, unless the pending upload fails to serialize again and again: nothing else is tried then.
-/

namespace SensorLink.Network

open SensorLink.Lib

variable {U E : Type}

/-! ### One iteration -/

/-- What is logged of an upload that was sent with this result -/
def uploadEvents (upload : Confirmable U) (result : SendResult E) : List (Event U E) :=
  .sent upload result :: match result with
    | .ok _ => [.confirmed upload]
    | .error _ => []

/-- What is pending after the upload was sent with this result -/
def afterUpload (upload : Confirmable U) : SendResult E → Option (Confirmable U)
  | .ok _ => none
  | .error _ => some upload

/-- Why the loop is left after the upload was sent with this result -/
def exitAfter : SendResult E → Option DisconnectReason
  | .ok _ | .error .serialize | .error .serializeTopic => none
  | .error .invalidSim | .error (.client _) | .error .timeOut | .error (.mqtt _) => some .error

/-- The event is not about an upload. -/
def Event.Quiet : Event U E → Prop
  | .taken _ | .sent _ _ | .confirmed _ => False
  | .statusSent _ | .firmwareUpdateFailed => True

namespace Conn

/-- An action or an event of the client leaves the uploads alone. -/
lemma finish_quiet (c : Conn U) (a : Answers U E) {op : Op U} (h : op.isUpload = false) :
    (c.finish a op).1.pendingUpload = c.pendingUpload ∧ (c.finish a op).1.taken = c.taken ∧
      ∀ e ∈ (c.finish a op).2.1, e.Quiet := by
  have hsettle : ∀ (c : Conn U) (result : SendResult E),
      (c.settle false result).1 = c ∧ (c.settle false result).2.1 = [] := by
    intro c result
    rcases result with (_ | _ | _ | _ | _ | _) | _ <;> exact ⟨rfl, rfl⟩
  have hcases : ∀ (c' : Conn U) (events : List (Event U E))
      (result : Except DisconnectReason (SendResult E)), c.perform a op = (c', events, result) →
      c'.pendingUpload = c.pendingUpload ∧ c'.taken = c.taken ∧ ∀ e ∈ events, e.Quiet := by
    intro c' events result hperform
    unfold perform at hperform
    split at hperform
    all_goals try split at hperform
    all_goals try (cases hperform; simp [Event.Quiet])
    cases h
  unfold finish
  rcases hp : c.perform a op with ⟨c', events, reason | result⟩
  · exact hcases _ _ _ hp
  · obtain ⟨hpending, htaken, hquiet⟩ := hcases _ _ _ hp
    obtain ⟨hconn, hevents⟩ := hsettle c' result
    simp only [h, hconn, hevents, List.append_nil]
    exact ⟨hpending, htaken, hquiet⟩

lemma finish_upload {c : Conn U} {upload : Confirmable U} (a : Answers U E)
    (h : c.pendingUpload = some upload) :
    c.finish a (.upload upload) = ({ c with pendingUpload := afterUpload upload a.sendUpload },
      uploadEvents upload a.sendUpload, exitAfter a.sendUpload) := by
  have hsame : c = { c with pendingUpload := some upload } := by
    cases c
    simp_all
  simp only [finish, perform, Op.isUpload]
  rcases a.sendUpload with error | _
  · rcases error with _ | _ | _ | _ | _ | _ <;> exact congrArg (·, _) hsame
  · simp only [settle, h, if_true]
    rfl

lemma iteration_pending {c : Conn U} {upload : Confirmable U} {a : Answers U E}
    (h : c.pendingUpload = some upload) (haction : a.tryNextAction = none) :
    c.iteration a = ({ c with pendingUpload := afterUpload upload a.sendUpload },
      uploadEvents upload a.sendUpload, exitAfter a.sendUpload) := by
  simp only [iteration, nextOp, h, haction, finish_upload a h, List.nil_append]

/-- **All that an iteration can do with an upload**: nothing; or send the pending one, if there is no
action; or take a message while none is pending, and send it. -/
theorem iteration_cases (c : Conn U) (a : Answers U E) :
    ((c.iteration a).1.pendingUpload = c.pendingUpload ∧ (c.iteration a).1.taken = c.taken ∧
      ∀ e ∈ (c.iteration a).2.1, e.Quiet) ∨
    (∃ upload, c.pendingUpload = some upload ∧ a.tryNextAction = none ∧
      (c.iteration a).1 = { c with pendingUpload := afterUpload upload a.sendUpload } ∧
      (c.iteration a).2.1 = uploadEvents upload a.sendUpload) ∨
    ∃ msg, c.pendingUpload = none ∧
      (c.iteration a).1 = { c with
        pendingUpload := afterUpload ⟨c.taken, msg⟩ a.sendUpload, taken := c.taken + 1 } ∧
      (c.iteration a).2.1 =
        .taken ⟨c.taken, msg⟩ :: uploadEvents ⟨c.taken, msg⟩ a.sendUpload := by
  unfold iteration nextOp
  cases hpending : c.pendingUpload with
  | some upload =>
    cases haction : a.tryNextAction with
    | some action =>
      left
      simpa [hpending] using c.finish_quiet a (show (Op.action action).isUpload = false from rfl)
    | none =>
      right; left
      have hupload := finish_upload a hpending
      exact ⟨upload, rfl, rfl, congrArg (·.1) hupload, congrArg (·.2.1) hupload⟩
  | none =>
    have hquiet : ∀ op : Op U, op.isUpload = false → (c.finish a op).1.pendingUpload = none ∧
        (c.finish a op).1.taken = c.taken ∧ ∀ e ∈ (c.finish a op).2.1, e.Quiet := by
      intro op hop
      rw [← hpending]
      exact c.finish_quiet a hop
    have htake : ∀ msg, ((c.insert msg).finish a (.upload ⟨c.taken, msg⟩)).1 =
        { c with pendingUpload := afterUpload ⟨c.taken, msg⟩ a.sendUpload, taken := c.taken + 1 } ∧
        ((c.insert msg).finish a (.upload ⟨c.taken, msg⟩)).2.1 =
          uploadEvents ⟨c.taken, msg⟩ a.sendUpload := by
      intro msg
      have hupload := finish_upload (c := c.insert msg) a rfl
      exact ⟨congrArg (·.1) hupload, congrArg (·.2.1) hupload⟩
    cases hdrain : c.disconnectPending with
    | true =>
      cases haction : a.tryNextAction with
      | some action => exact .inl (hquiet (.action action) rfl)
      | none =>
        cases hrecv : a.tryRecvDrainOnly with
        | some msg =>
          right; right
          simp only [hdrain] at htake
          exact ⟨msg, rfl, (htake msg).1, congrArg (_ :: ·) (htake msg).2⟩
        | none => exact .inl ⟨hpending, rfl, by simp⟩
    | false =>
      cases hselected : a.selected with
      | response recv =>
        cases recv with
        | some _ => exact .inl (hquiet .read rfl)
        | none => exact .inl (hquiet .stop rfl)
      | action action => exact .inl (hquiet (.action action) rfl)
      | message msg =>
        cases msg with
        | some msg =>
          right; right
          simp only [hdrain] at htake
          exact ⟨msg, rfl, (htake msg).1, congrArg (_ :: ·) (htake msg).2⟩
        | none => exact .inl (hquiet .none rfl)

end Conn

/-! ### Runs -/

/-- The messages taken from the queue, in their order -/
def takenOf (log : List (Event U E)) : List (Confirmable U) :=
  log.filterMap fun
    | .taken upload => some upload
    | _ => none

/-- The confirmed uploads, in their order -/
def confirmedOf (log : List (Event U E)) : List (Confirmable U) :=
  log.filterMap fun
    | .confirmed upload => some upload
    | _ => none

/-- Each confirmation follows on a successful send of the same upload. -/
def SentBefore (log : List (Event U E)) : Prop :=
  ∀ (i : ℕ) (upload : Confirmable U), log[i]? = some (.confirmed upload) →
    ∃ j < i, log[j]? = some (.sent upload (.ok ()))

@[simp]
lemma takenOf_append (log events : List (Event U E)) :
    takenOf (log ++ events) = takenOf log ++ takenOf events := List.filterMap_append

@[simp]
lemma confirmedOf_append (log events : List (Event U E)) :
    confirmedOf (log ++ events) = confirmedOf log ++ confirmedOf events := List.filterMap_append

lemma takenOf_quiet {events : List (Event U E)} (h : ∀ e ∈ events, e.Quiet) :
    takenOf events = [] := by
  refine List.filterMap_eq_nil_iff.mpr fun e he => ?_
  cases e with
  | taken => exact (h _ he).elim
  | _ => rfl

lemma confirmedOf_quiet {events : List (Event U E)} (h : ∀ e ∈ events, e.Quiet) :
    confirmedOf events = [] := by
  refine List.filterMap_eq_nil_iff.mpr fun e he => ?_
  cases e with
  | confirmed => exact (h _ he).elim
  | _ => rfl

lemma takenOf_uploadEvents (upload : Confirmable U) (result : SendResult E) :
    takenOf (uploadEvents upload result) = [] := by
  cases result <;> rfl

lemma confirmedOf_uploadEvents (upload : Confirmable U) (result : SendResult E) :
    confirmedOf (uploadEvents upload result) ++ (afterUpload upload result).toList = [upload] := by
  cases result <;> rfl

lemma SentBefore.append {log events : List (Event U E)} (hlog : SentBefore log)
    (hevents : SentBefore events) : SentBefore (log ++ events) := by
  intro i upload hi
  by_cases hlt : i < log.length
  · rw [List.getElem?_append_left hlt] at hi
    obtain ⟨j, hj, hsent⟩ := hlog i upload hi
    exact ⟨j, hj, by rw [List.getElem?_append_left (by omega), hsent]⟩
  · rw [List.getElem?_append_right (by omega)] at hi
    obtain ⟨j, hj, hsent⟩ := hevents _ upload hi
    refine ⟨log.length + j, by omega, ?_⟩
    rw [List.getElem?_append_right (by omega), Nat.add_sub_cancel_left, hsent]

lemma sentBefore_quiet {events : List (Event U E)} (h : ∀ e ∈ events, e.Quiet) :
    SentBefore events := by
  intro i upload hi
  exact (h _ (List.mem_of_getElem? hi)).elim

lemma sentBefore_uploadEvents (upload : Confirmable U) (result : SendResult E) :
    SentBefore (uploadEvents upload result) := by
  intro i upload' hi
  cases result with
  | error error =>
    cases i with
    | zero => simp [uploadEvents] at hi
    | succ i => simp [uploadEvents] at hi
  | ok done =>
    match i with
    | 0 => simp [uploadEvents] at hi
    | 1 =>
      obtain rfl : upload = upload' := by simpa [uploadEvents] using hi
      exact ⟨0, Nat.one_pos, rfl⟩
    | i + 2 => simp [uploadEvents] at hi

namespace Task

/-- The messages taken so far are the confirmed ones and the pending one, and no two have the same
ticket. -/
structure LogInv (s : Task U E) : Prop where
  fifo : takenOf s.log = confirmedOf s.log ++ s.conn.pendingUpload.toList
  tickets : (takenOf s.log).map Confirmable.ticket = List.range s.conn.taken
  sentBefore : SentBefore s.log

lemma LogInv.iterate {s : Task U E} (h : s.LogInv) (a : Answers U E) :
    (⟨(s.conn.iteration a).1, s.log ++ (s.conn.iteration a).2.1,
      (s.conn.iteration a).2.2⟩ : Task U E).LogInv := by
  obtain ⟨hfifo, htickets, hsent⟩ := h
  obtain ⟨hpending, htaken, hquiet⟩ | ⟨upload, hpending, -, hconn, hevents⟩ |
    ⟨msg, hpending, hconn, hevents⟩ := s.conn.iteration_cases a
  · constructor
    · simp [takenOf_quiet hquiet, confirmedOf_quiet hquiet, hpending, hfifo]
    · simp [takenOf_quiet hquiet, htaken, htickets]
    · exact hsent.append (sentBefore_quiet hquiet)
  · rw [hpending] at hfifo
    constructor
    · simp [hconn, hevents, takenOf_uploadEvents, hfifo, confirmedOf_uploadEvents]
    · simp [hconn, hevents, takenOf_uploadEvents, htickets]
    · rw [hevents]
      exact hsent.append (sentBefore_uploadEvents _ _)
  · rw [hpending] at hfifo
    have htake : takenOf (s.conn.iteration a).2.1 = [⟨s.conn.taken, msg⟩] := by
      rw [hevents]
      exact congrArg (_ :: ·) (takenOf_uploadEvents _ _)
    have hconfirm : confirmedOf (s.conn.iteration a).2.1 =
        confirmedOf (uploadEvents ⟨s.conn.taken, msg⟩ a.sendUpload) := by
      rw [hevents]
      rfl
    constructor
    · simp [hconn, htake, hconfirm, hfifo, confirmedOf_uploadEvents]
    · simp [hconn, htake, htickets, List.range_succ]
    · rw [hevents]
      refine hsent.append ?_
      have hcons : SentBefore ([Event.taken ⟨s.conn.taken, msg⟩] ++
          uploadEvents ⟨s.conn.taken, msg⟩ a.sendUpload) :=
        SentBefore.append (by intro i upload hi; cases i <;> simp at hi)
          (sentBefore_uploadEvents _ _)
      exact hcons

lemma exec_iterate {s : Task U E} (h : s.exit = none) (a : Answers U E) :
    s.exec (.iterate a) = ⟨(s.conn.iteration a).1, s.log ++ (s.conn.iteration a).2.1,
      (s.conn.iteration a).2.2⟩ := by
  simp only [exec, h]

lemma LogInv.exec {s : Task U E} (h : s.LogInv) (act : Act U E) : (s.exec act).LogInv := by
  cases act with
  | iterate a =>
    cases hexit : s.exit with
    | none =>
      rw [exec_iterate hexit]
      exact h.iterate a
    | some reason =>
      simp only [Task.exec, hexit]
      exact h
  | reconnect =>
    simp only [Task.exec]
    split <;> exact ⟨h.fifo, h.tickets, h.sentBefore⟩

lemma Reachable.logInv {s : Task U E} (h : s.Reachable) : s.LogInv := by
  refine Reach.invariant h ?_ fun s act hs _ => hs.exec act
  exact ⟨rfl, rfl, nofun⟩

/-- What an iteration does with a pending upload: it stays pending and unconfirmed, unless there is no
action and its own send succeeds. -/
def Kept (s : Task U E) (upload : Confirmable U) (a : Answers U E) : Prop :=
  ((s.exec (.iterate a)).conn.pendingUpload = some upload ∧
    confirmedOf (s.exec (.iterate a)).log = confirmedOf s.log) ∨
  (a.tryNextAction = none ∧ a.sendUpload = .ok () ∧
    (s.exec (.iterate a)).conn.pendingUpload = none ∧
    (s.exec (.iterate a)).log = s.log ++ [.sent upload (.ok ()), .confirmed upload])

lemma kept {s : Task U E} (hexit : s.exit = none) {upload : Confirmable U}
    (hpending : s.conn.pendingUpload = some upload) (a : Answers U E) : s.Kept upload a := by
  unfold Kept
  rw [exec_iterate hexit]
  obtain ⟨hsame, -, hquiet⟩ | ⟨upload', hpending', haction, hconn, hevents⟩ |
    ⟨msg, hnone, -⟩ := s.conn.iteration_cases a
  · left
    exact ⟨hsame.trans hpending, by simp [confirmedOf_quiet hquiet]⟩
  · obtain rfl : upload = upload' := Option.some.inj (hpending.symm.trans hpending')
    cases hsend : a.sendUpload with
    | error error =>
      left
      rw [hsend] at hconn hevents
      constructor
      · simp only [hconn]
        rfl
      · simp only [hevents, confirmedOf_append]
        exact List.append_nil _
    | ok done =>
      right
      rw [hsend] at hconn hevents
      refine ⟨haction, rfl, ?_, ?_⟩
      · simp only [hconn]
        rfl
      · simp only [hevents]
        rfl
  · rw [hpending] at hnone
    cases hnone

/-- **Upload confirmation is safe** in every state that runs of the network task reach: an upload is
confirmed only after a send of it returned `Ok`, and at most once; what was taken from the queue and is
not confirmed is the pending upload; and an iteration drops or confirms a pending upload only when there
is no action and the upload itself was sent. -/
theorem uploads_safe {s : Task U E} (h : s.Reachable) :
    SentBefore s.log ∧ ((confirmedOf s.log).map Confirmable.ticket).Nodup ∧
      (∀ upload ∈ takenOf s.log, upload ∉ confirmedOf s.log →
        s.conn.pendingUpload = some upload) ∧
      ∀ upload, s.exit = none → s.conn.pendingUpload = some upload → ∀ a, s.Kept upload a := by
  obtain ⟨hfifo, htickets, hsent⟩ := h.logInv
  refine ⟨hsent, ?_, ?_, fun upload hexit hpending a => kept hexit hpending a⟩
  · have hnodup : ((takenOf s.log).map Confirmable.ticket).Nodup := by
      rw [htickets]
      exact List.nodup_range
    rw [hfifo, List.map_append] at hnodup
    exact (List.nodup_append.mp hnodup).1
  · intro upload htaken hconfirmed
    rw [hfifo, List.mem_append] at htaken
    exact Option.mem_toList.mp (htaken.resolve_left hconfirmed)

/-- A message comes in, and every call succeeds. -/
def calm (msg : ℕ) : Answers ℕ ℕ :=
  ⟨none, none, .message (some msg), .goesOn, .ok (), .ok (), .ok .started, .ok ()⟩

/-- Message `7` is sent twice: the first send fails. -/
def retryRun : List (Act ℕ ℕ) :=
  [.iterate { calm 7 with sendUpload := .error .serialize }, .iterate (calm 8)]

theorem uploads_safe_retry :
    confirmedOf (retryRun.foldl exec start).log = [⟨0, 7⟩] ∧
      SentBefore (retryRun.foldl exec start).log :=
  ⟨by decide, (uploads_safe (Reach.run retryRun .start (by simp [Reach.Guarded, retryRun]))).1⟩

end Task

/-! ### Draining -/

/-- The send failed to serialize, which does not end the connection. -/
def SerializeFailed : SendResult E → Prop
  | .error .serialize | .error .serializeTopic => True
  | _ => False

/-- The loop after `n` iterations, from the connection `c` on -/
def loopFrom (c : Conn U) (answers : ℕ → Answers U E) : ℕ → Task U E
  | 0 => ⟨c, [], none⟩
  | n + 1 => (loopFrom c answers n).exec (.iterate (answers n))

/-- The loop returns. -/
def Returns (c : Conn U) (answers : ℕ → Answers U E) : Prop :=
  ∃ n, (loopFrom c answers n).exit ≠ none

section Drain

variable {c : Conn U} {answers : ℕ → Answers U E}

lemma Conn.perform_draining (h : c.disconnectPending = true) (a : Answers U E) (op : Op U) :
    (c.perform a op).1.disconnectPending = true := by
  unfold Conn.perform
  split
  all_goals try split
  all_goals first
    | exact h
    | rfl

lemma Conn.settle_draining (isUpload : Bool) (result : SendResult E) :
    (c.settle isUpload result).1.disconnectPending = c.disconnectPending := by
  unfold Conn.settle
  split
  all_goals try rfl
  split
  · split <;> rfl
  · rfl

lemma Conn.finish_draining (h : c.disconnectPending = true) (a : Answers U E) (op : Op U) :
    (c.finish a op).1.disconnectPending = true := by
  have hperform := Conn.perform_draining h a op
  unfold Conn.finish
  rcases hop : c.perform a op with ⟨c', events, reason | result⟩
  · rw [hop] at hperform
    exact hperform
  · rw [hop] at hperform
    exact (Conn.settle_draining op.isUpload result).trans hperform

lemma Conn.iteration_draining (h : c.disconnectPending = true) (a : Answers U E) :
    (c.iteration a).1.disconnectPending = true := by
  unfold Conn.iteration Conn.nextOp
  cases c.pendingUpload with
  | some upload =>
    cases a.tryNextAction with
    | some action => exact Conn.finish_draining h a _
    | none => exact Conn.finish_draining h a _
  | none =>
    simp only [h, if_true]
    cases a.tryNextAction with
    | some action => exact Conn.finish_draining h a _
    | none =>
      cases a.tryRecvDrainOnly with
      | some msg =>
        have hinsert : (c.insert msg).disconnectPending = true := h
        exact Conn.finish_draining hinsert a _
      | none => exact h

lemma loopFrom_draining (h : c.disconnectPending = true) (n : ℕ) :
    (loopFrom c answers n).conn.disconnectPending = true := by
  induction n with
  | zero => exact h
  | succ n ih =>
    rw [loopFrom]
    cases hexit : (loopFrom c answers n).exit with
    | none =>
      rw [Task.exec_iterate hexit]
      exact Conn.iteration_draining ih _
    | some reason =>
      simp only [Task.exec, hexit]
      exact ih

/-- Nothing is left to do. -/
lemma Conn.iteration_idle (hdrain : c.disconnectPending = true) (hpending : c.pendingUpload = none)
    {a : Answers U E} (haction : a.tryNextAction = none) (hrecv : a.tryRecvDrainOnly = none) :
    (c.iteration a).2.2 = some .success := by
  simp only [Conn.iteration, Conn.nextOp, hpending, hdrain, haction, hrecv, if_true]

variable {N : ℕ}

/-- Once nothing more comes in, an upload stays pending as long as it fails to serialize. -/
lemma loopFrom_pending {upload : Confirmable U}
    (hidle : ∀ i ≥ N, (answers i).tryNextAction = none)
    (hpending : (loopFrom c answers N).conn.pendingUpload = some upload)
    (hrun : ∀ n, (loopFrom c answers n).exit = none) (m : ℕ)
    (hfail : ∀ i < m, SerializeFailed (answers (N + i)).sendUpload) :
    (loopFrom c answers (N + m)).conn.pendingUpload = some upload := by
  induction m with
  | zero => exact hpending
  | succ m ih =>
    have hm := ih fun i hi => hfail i (by omega)
    have hkeep : afterUpload upload (answers (N + m)).sendUpload = some upload := by
      have := hfail m (by omega)
      cases hsend : (answers (N + m)).sendUpload with
      | error error => rfl
      | ok done => simp [hsend, SerializeFailed] at this
    rw [← Nat.add_assoc, loopFrom, Task.exec_iterate (hrun _),
      Conn.iteration_pending hm (hidle _ (by omega))]
    exact hkeep

/-- The loop is left at the next chance when nothing more comes in and the upload does not fail to
serialize. -/
lemma returns_of_send (hdrain : c.disconnectPending = true)
    (hidle : ∀ i ≥ N, (answers i).tryNextAction = none ∧ (answers i).tryRecvDrainOnly = none)
    (hfair : ∀ n, ∃ i ≥ n, ¬ SerializeFailed (answers i).sendUpload) : Returns c answers := by
  classical
  by_contra hnever
  have hrun : ∀ n, (loopFrom c answers n).exit = none := by
    intro n
    by_contra hn
    exact hnever ⟨n, hn⟩
  have hempty : ∀ n ≥ N, (loopFrom c answers n).conn.pendingUpload ≠ none := by
    intro n hn hpending
    have hexit := hrun (n + 1)
    rw [loopFrom, Task.exec_iterate (hrun n),
      Conn.iteration_idle (loopFrom_draining hdrain n) hpending (hidle n hn).1 (hidle n hn).2]
      at hexit
    cases hexit
  obtain ⟨upload, hpending⟩ := Option.ne_none_iff_exists'.mp (hempty N le_rfl)
  -- the first send from `N` on that does not fail to serialize
  have hex : ∃ m, ¬ SerializeFailed (answers (N + m)).sendUpload := by
    obtain ⟨i, hi, hsend⟩ := hfair N
    exact ⟨i - N, by rwa [Nat.add_sub_cancel' hi]⟩
  obtain ⟨m, hsend, hmin⟩ : ∃ m, ¬ SerializeFailed (answers (N + m)).sendUpload ∧
      ∀ i < m, SerializeFailed (answers (N + i)).sendUpload :=
    ⟨Nat.find hex, Nat.find_spec hex, fun i hi => not_not.mp (Nat.find_min hex hi)⟩
  have hm := loopFrom_pending (fun i hi => (hidle i hi).1) hpending hrun m hmin
  have hafter := hempty (N + m + 1) (by omega)
  have hexit := hrun (N + m + 1)
  rw [loopFrom, Task.exec_iterate (hrun _), Conn.iteration_pending hm (hidle _ (by omega)).1]
    at hafter hexit
  cases hresult : (answers (N + m)).sendUpload with
  | ok done =>
    rw [hresult] at hafter
    exact hafter rfl
  | error error =>
    rw [hresult] at hexit hsend
    cases error <;> first
      | exact hsend trivial
      | cases hexit

/-- Actions first, and only then sends that all fail to serialize -/
def stuckAnswers (N : ℕ) (results : ℕ → SendResult E) (i : ℕ) : Answers U E :=
  ⟨if i < N then some (.setTimeout defaultTimeoutS) else none, none, .response none, .goesOn, .ok (),
    .ok (), .ok .started, results i⟩

/-- One upload is pending when the hint comes. -/
def stuckConn (msg : U) : Conn U := ⟨defaultTimeoutS, some ⟨0, msg⟩, true, 1⟩

lemma loopFrom_stuck {results : ℕ → SendResult E} (hfail : ∀ i ≥ N, SerializeFailed (results i))
    (msg : U) (n : ℕ) :
    (loopFrom (stuckConn msg) (stuckAnswers N results) n).exit = none ∧
      (loopFrom (stuckConn msg) (stuckAnswers N results) n).conn = stuckConn msg := by
  induction n with
  | zero => exact ⟨rfl, rfl⟩
  | succ n ih =>
    obtain ⟨hexit, hconn⟩ := ih
    rw [loopFrom, Task.exec_iterate hexit, hconn]
    by_cases hn : n < N
    · have haction : (stuckAnswers N results n : Answers U E).tryNextAction =
          some (.setTimeout defaultTimeoutS) := if_pos hn
      simp only [Conn.iteration, Conn.nextOp, stuckConn, haction, Conn.finish, Conn.perform,
        Op.isUpload, Conn.settle]
      exact ⟨rfl, rfl⟩
    · have haction : (stuckAnswers N results n : Answers U E).tryNextAction = none := if_neg hn
      have hpending : (stuckConn msg).pendingUpload = some ⟨0, msg⟩ := rfl
      rw [Conn.iteration_pending hpending haction]
      show exitAfter (results n) = none ∧
        { stuckConn msg with pendingUpload := afterUpload ⟨0, msg⟩ (results n) } = stuckConn msg
      have hresult := hfail n (by omega)
      cases hsend : results n with
      | ok done => simp [hsend, SerializeFailed] at hresult
      | error error =>
        rw [hsend] at hresult
        cases error <;> first
          | exact ⟨rfl, rfl⟩
          | cases hresult

/-- **Draining terminates iff the sends do not fail to serialize for ever**: for every sequence of send
results, from every connection that has received the hint, with finitely many further actions and
background messages. -/
theorem drain_returns_iff [Inhabited U] (results : ℕ → SendResult E) :
    (∀ (c : Conn U) (answers : ℕ → Answers U E), c.disconnectPending = true →
      (∀ i, (answers i).sendUpload = results i) →
      (∃ N, ∀ i ≥ N, (answers i).tryNextAction = none ∧ (answers i).tryRecvDrainOnly = none) →
      Returns c answers) ↔
    ∀ n, ∃ i ≥ n, ¬ SerializeFailed (results i) := by
  constructor
  · intro hreturns
    by_contra hfair
    push Not at hfair
    obtain ⟨N, hfail⟩ := hfair
    obtain ⟨n, hexit⟩ := hreturns (stuckConn default) (stuckAnswers N results) rfl (fun _ => rfl)
      ⟨N, fun i hi => ⟨if_neg (by omega), rfl⟩⟩
    exact hexit (loopFrom_stuck hfail default n).1
  · intro hfair c answers hdrain hresults hidle
    obtain ⟨N, hidle⟩ := hidle
    refine returns_of_send hdrain hidle fun n => ?_
    obtain ⟨i, hi, hsend⟩ := hfair n
    exact ⟨i, hi, by rwa [hresults]⟩

/-- The pending upload fails to serialize at every send: the loop never returns. -/
theorem drain_stuck :
    (stuckConn 7).disconnectPending = true ∧
      (∀ i, (stuckAnswers 0 (fun _ => .error .serialize) i : Answers ℕ ℕ).tryNextAction = none ∧
        (stuckAnswers 0 (fun _ => .error .serialize) i : Answers ℕ ℕ).tryRecvDrainOnly = none) ∧
      ¬ Returns (stuckConn 7) (stuckAnswers 0 (fun _ => .error .serialize) : ℕ → Answers ℕ ℕ) := by
  refine ⟨rfl, fun i => by simp [stuckAnswers], ?_⟩
  rintro ⟨n, hexit⟩
  have hfail : ∀ i ≥ 0, SerializeFailed ((fun _ => .error .serialize : ℕ → SendResult ℕ) i) :=
    fun _ _ => trivial
  exact hexit (loopFrom_stuck hfail 7 n).1

end Drain

end SensorLink.Network
