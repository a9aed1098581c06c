import SensorLink.Server.MatViewQueue
import SensorLink.Lib.Reach

/-!
# Materialized view scheduling loses no update

The scheduler's log tells, newest first, which messages came and which keys were handed out, marked done
and evicted. The properties are stated about the log, and the three timestamps and the flag of an entry
are tied to it by `KeyInv`, key by key: an operation only adds events of the keys it is about.
-/

namespace SensorLink.Server

open SensorLink.Lib

inductive QueueEvent (DC : Type)
  | received (msg : MatViewMsg DC) (t : ℤ)
  | started (msg : MatViewMsg DC) (t : ℤ)
  | done (msg : MatViewMsg DC)
  | evicted (msg : MatViewMsg DC)
deriving DecidableEq, Repr

variable {DC : Type}

namespace QueueEvent

/-- The key that an event is about -/
def key : QueueEvent DC → MatViewMsg DC
  | received msg _ => msg
  | started msg _ => msg
  | done msg => msg
  | evicted msg => msg

/-- The time of a start -/
def startTime : QueueEvent DC → Option ℤ
  | started _ t => some t
  | _ => none

/-- Whether a processing runs after the event -/
def running : QueueEvent DC → Option Bool
  | started _ _ => some true
  | done _ => some false
  | _ => none

/-- The start that the rate limit counts from; an eviction forgets it. -/
def countedStart : QueueEvent DC → Option (Option ℤ)
  | started _ t => some (some t)
  | evicted _ => some none
  | _ => none

end QueueEvent

/-- Each message of the key was followed by a start, when the stream had gone idle. -/
def UpToDate (msg : MatViewMsg DC) (log : List (QueueEvent DC)) : Prop :=
  ∀ t, .received msg t ∈ log → ∃ t', .started msg t' ∈ log ∧ t + thresholdReceiveIdleMs ≤ t'

lemma upToDate_other {msg : MatViewMsg DC} {log : List (QueueEvent DC)} {event : QueueEvent DC}
    (h : event.key ≠ msg) :
    UpToDate msg (event :: log) ↔ UpToDate msg log := by
  have hmem : ∀ e : QueueEvent DC, e.key = msg → (e ∈ event :: log ↔ e ∈ log) := by
    intro e he
    rw [List.mem_cons, or_iff_right]
    rintro rfl
    exact h he
  have hr := fun t => hmem (.received msg t) rfl
  have hs := fun t => hmem (.started msg t) rfl
  simp only [UpToDate, hr, hs]

section Log

variable [DecidableEq DC]

/-- What the newest event of a key tells that tells anything -/
def newest {α : Type} (msg : MatViewMsg DC) (tell : QueueEvent DC → Option α)
    (log : List (QueueEvent DC)) : Option α :=
  log.findSome? fun event => if event.key = msg then tell event else none

def lastStart (msg : MatViewMsg DC) (log : List (QueueEvent DC)) : Option ℤ :=
  newest msg QueueEvent.startTime log

/-- A processing of the key was started and is not marked done. -/
def InProgress (msg : MatViewMsg DC) (log : List (QueueEvent DC)) : Prop :=
  newest msg QueueEvent.running log = some true

/-- The last start of the key since it is in the map -/
def lastStartInMap (msg : MatViewMsg DC) (log : List (QueueEvent DC)) : Option ℤ :=
  (newest msg QueueEvent.countedStart log).join

/-- `t` is the time of the first message of the key since it was up to date. -/
inductive FirstSince (msg : MatViewMsg DC) : List (QueueEvent DC) → ℤ → Prop
  | first {log t} : UpToDate msg log → FirstSince msg (.received msg t :: log) t
  | later {log t event} : FirstSince msg log t →
    (∀ t', event = .received msg t' → ¬UpToDate msg log) → FirstSince msg (event :: log) t

variable {msg : MatViewMsg DC} {log : List (QueueEvent DC)} {event : QueueEvent DC}

@[simp] lemma newest_nil {α : Type} (tell : QueueEvent DC → Option α) : newest msg tell [] = none := rfl

lemma newest_cons {α : Type} (tell : QueueEvent DC → Option α) : newest msg tell (event :: log) =
    ((if event.key = msg then tell event else none).or (newest msg tell log)) := by
  unfold newest
  rw [List.findSome?_cons]
  split <;> simp_all

lemma newest_other {α : Type} (tell : QueueEvent DC → Option α) (h : event.key ≠ msg) :
    newest msg tell (event :: log) = newest msg tell log := by
  simp [newest_cons, h]

lemma mem_of_lastStart {t : ℤ} (h : lastStart msg log = some t) : .started msg t ∈ log := by
  unfold lastStart newest at h
  obtain ⟨event, hmem, htell⟩ := List.exists_of_findSome?_eq_some h
  split at htell
  next hkey =>
    cases event with
    | started k t' =>
      obtain rfl : k = msg := hkey
      cases htell
      exact hmem
    | received | done | evicted => cases htell
  next => cases htell

lemma lastStart_of_counted {t : ℤ} (h : lastStartInMap msg log = some t) :
    lastStart msg log = some t := by
  unfold lastStartInMap lastStart at *
  rw [Option.join_eq_some_iff] at h
  induction log with
  | nil => simp at h
  | cons event log ih =>
    rw [newest_cons] at h ⊢
    by_cases hkey : event.key = msg
    · rw [if_pos hkey] at h ⊢
      cases event with
      | started k t' => simpa [QueueEvent.countedStart, QueueEvent.startTime] using h
      | evicted k => simp [QueueEvent.countedStart] at h
      | received | done => exact ih (by simpa [QueueEvent.countedStart] using h)
    · rw [if_neg hkey] at h ⊢
      exact ih h

end Log

/-! ### The entry of a key and the log -/

section KeyInv

variable [DecidableEq DC]

/-- What the log says about the entry of a key -/
structure EntryInv (clock : ℤ) (log : List (QueueEvent DC)) (msg : MatViewMsg DC) (s : MatViewState) :
    Prop where
  start : 0 ≤ s.startOfDataset ∧ s.startOfDataset ≤ clock
  received : 0 ≤ s.lastReceivedMs ∧ s.lastReceivedMs ≤ clock
  inProgress_iff : s.inProgress = true ↔ InProgress msg log
  newest : ∀ t, .received msg t ∈ log → t ≤ s.lastReceivedMs
  processed : s.lastProcessedMs = (lastStartInMap msg log).getD 0
  first : ∃ t, FirstSince msg log t ∧ s.startOfDataset ≤ t

/-- What the log says about a key without an entry -/
structure AbsentInv (log : List (QueueEvent DC)) (msg : MatViewMsg DC) : Prop where
  upToDate : UpToDate msg log
  notInProgress : ¬InProgress msg log
  notCounted : lastStartInMap msg log = none

def KeyInv (clock : ℤ) (log : List (QueueEvent DC)) (msg : MatViewMsg DC) : Option MatViewState → Prop
  | some s => EntryInv clock log msg s
  | none => AbsentInv log msg

variable {clock tNow : ℤ} {log : List (QueueEvent DC)} {msg : MatViewMsg DC} {event : QueueEvent DC}
  {s : MatViewState}

lemma KeyInv.mono {o : Option MatViewState} (h : KeyInv clock log msg o) (hle : clock ≤ tNow) :
    KeyInv tNow log msg o := by
  cases o with
  | none => exact h
  | some s => exact { h with
      start := ⟨h.start.1, le_trans h.start.2 hle⟩
      received := ⟨h.received.1, le_trans h.received.2 hle⟩ }

/-- An event of another key changes nothing. -/
lemma KeyInv.other {o : Option MatViewState} (h : KeyInv clock log msg o) (hkey : event.key ≠ msg) :
    KeyInv clock (event :: log) msg o := by
  have hprogress : InProgress msg (event :: log) ↔ InProgress msg log := by
    unfold InProgress
    rw [newest_other _ hkey]
  have hcounted : lastStartInMap msg (event :: log) = lastStartInMap msg log := by
    unfold lastStartInMap
    rw [newest_other _ hkey]
  cases o with
  | none => exact ⟨(upToDate_other hkey).mpr h.upToDate, by rw [hprogress]; exact h.notInProgress,
      by rw [hcounted]; exact h.notCounted⟩
  | some s =>
    refine { start := h.start, received := h.received, inProgress_iff := ?_, newest := ?_,
             processed := ?_, first := ?_ }
    · rw [hprogress]
      exact h.inProgress_iff
    · intro t ht
      rcases List.mem_cons.mp ht with rfl | ht
      · exact absurd rfl hkey
      · exact h.newest t ht
    · rw [hcounted]
      exact h.processed
    · obtain ⟨t, hfirst, hle⟩ := h.first
      refine ⟨t, .later hfirst ?_, hle⟩
      rintro t' rfl
      exact absurd rfl hkey

/-- An entry that is up to date was processed after its last message. -/
lemma EntryInv.upToDate (h : EntryInv clock log msg s) (hup : s.UpToDate) : UpToDate msg log := by
  intro t ht
  have hpos : 0 < s.lastProcessedMs := by
    have h1 : s.lastReceivedMs + 3000 ≤ s.lastProcessedMs := hup
    have h2 := h.received.1
    omega
  cases hcounted : lastStartInMap msg log with
  | none => simp [h.processed, hcounted] at hpos
  | some t' =>
    have hprocessed : s.lastProcessedMs = t' := by simp [h.processed, hcounted]
    refine ⟨t', mem_of_lastStart (lastStart_of_counted hcounted), ?_⟩
    rw [← hprocessed]
    exact le_trans (Int.add_le_add_right (h.newest t ht) _) hup

lemma inProgress_received {t : ℤ} : InProgress msg (.received msg t :: log) ↔ InProgress msg log := by
  simp [InProgress, newest_cons, QueueEvent.key, QueueEvent.running]

lemma lastStartInMap_received {t : ℤ} :
    lastStartInMap msg (.received msg t :: log) = lastStartInMap msg log := by
  simp [lastStartInMap, newest_cons, QueueEvent.key, QueueEvent.countedStart]

/-- A message for a key that has an entry. -/
lemma EntryInv.message (h : EntryInv clock log msg s) (hle : clock ≤ tNow) :
    EntryInv tNow (.received msg tNow :: log) msg (MatViewQueue.received tNow s) := by
  have hnow : 0 ≤ tNow := le_trans h.received.1 (le_trans h.received.2 hle)
  have hnewest : ∀ t, QueueEvent.received msg t ∈ QueueEvent.received msg tNow :: log → t ≤ tNow := by
    intro t ht
    rcases List.mem_cons.mp ht with heq | ht
    · cases heq
      exact le_rfl
    · exact le_trans (h.newest t ht) (le_trans h.received.2 hle)
  have hfirst : ∃ t, FirstSince msg (.received msg tNow :: log) t ∧ s.startOfDataset ≤ t := by
    by_cases hup : UpToDate msg log
    · exact ⟨tNow, .first hup, le_trans h.start.2 hle⟩
    · obtain ⟨t, hfirst, hst⟩ := h.first
      exact ⟨t, .later hfirst fun _ _ => hup, hst⟩
  -- The window restarts only when the log says that the key is up to date.
  by_cases hreset : s.processAt = .error .alreadyUpToDate
  · have hup := h.upToDate (MatViewState.processAt_upToDate.mp hreset).2
    simp only [MatViewQueue.received, hreset]
    exact { start := ⟨hnow, le_rfl⟩
            received := ⟨hnow, le_rfl⟩
            inProgress_iff := by rw [inProgress_received]; exact h.inProgress_iff
            newest := hnewest
            processed := by rw [lastStartInMap_received]; exact h.processed
            first := ⟨tNow, .first hup, le_rfl⟩ }
  · have hkeep : MatViewQueue.received tNow s = { s with lastReceivedMs := tNow } := by
      unfold MatViewQueue.received
      split
      next heq => exact absurd heq hreset
      next => rfl
    rw [hkeep]
    exact { start := ⟨h.start.1, le_trans h.start.2 hle⟩
            received := ⟨hnow, le_rfl⟩
            inProgress_iff := by rw [inProgress_received]; exact h.inProgress_iff
            newest := hnewest
            processed := by rw [lastStartInMap_received]; exact h.processed
            first := hfirst }

/-- The first message for a key. -/
lemma AbsentInv.message (h : AbsentInv log msg) (hnow : 0 ≤ tNow)
    (hlog : ∀ t, .received msg t ∈ log → t ≤ tNow) :
    EntryInv tNow (.received msg tNow :: log) msg
      (MatViewQueue.received tNow (MatViewQueue.firstState tNow)) := by
  have hup : ¬(MatViewQueue.firstState tNow).UpToDate := by
    simp only [MatViewState.UpToDate, MatViewQueue.firstState, thresholdReceiveIdleMs]
    omega
  have hkeep : MatViewQueue.received tNow (MatViewQueue.firstState tNow) =
      MatViewQueue.firstState tNow := by
    unfold MatViewQueue.received
    split
    next heq => exact absurd (MatViewState.processAt_upToDate.mp heq).2 hup
    next => rfl
  rw [hkeep]
  refine { start := ⟨hnow, le_rfl⟩, received := ⟨hnow, le_rfl⟩, inProgress_iff := ?_, newest := ?_,
           processed := ?_, first := ⟨tNow, .first h.upToDate, le_rfl⟩ }
  · rw [inProgress_received]
    exact iff_of_false (by simp [MatViewQueue.firstState]) h.notInProgress
  · intro t ht
    rcases List.mem_cons.mp ht with heq | ht
    · cases heq
      exact le_rfl
    · exact hlog t ht
  · rw [lastStartInMap_received, h.notCounted]
    rfl

/-- The key is handed out. -/
lemma EntryInv.start_key (h : EntryInv clock log msg s) (hle : clock ≤ tNow) :
    EntryInv tNow (.started msg tNow :: log) msg (MatViewQueue.started tNow s) := by
  refine { start := ⟨h.start.1, le_trans h.start.2 hle⟩,
           received := ⟨h.received.1, le_trans h.received.2 hle⟩, inProgress_iff := ?_, newest := ?_,
           processed := ?_, first := ?_ }
  · simp [MatViewQueue.started, InProgress, newest_cons, QueueEvent.key, QueueEvent.running]
  · intro t ht
    exact h.newest t (by simpa using ht)
  · simp [MatViewQueue.started, lastStartInMap, newest_cons, QueueEvent.key, QueueEvent.countedStart]
  · obtain ⟨t, hfirst, hst⟩ := h.first
    exact ⟨t, .later hfirst (by simp), hst⟩

/-- The processing of the key is done. -/
lemma EntryInv.mark_done (h : EntryInv clock log msg s) :
    EntryInv clock (.done msg :: log) msg { s with inProgress := false } := by
  refine { start := h.start, received := h.received, inProgress_iff := ?_, newest := ?_,
           processed := ?_, first := ?_ }
  · simp [InProgress, newest_cons, QueueEvent.key, QueueEvent.running]
  · intro t ht
    exact h.newest t (by simpa using ht)
  · rw [h.processed]
    simp [lastStartInMap, newest_cons, QueueEvent.key, QueueEvent.countedStart]
  · obtain ⟨t, hfirst, hst⟩ := h.first
    exact ⟨t, .later hfirst (by simp), hst⟩

lemma AbsentInv.mark_done (h : AbsentInv log msg) : AbsentInv (.done msg :: log) msg := by
  refine ⟨?_, ?_, ?_⟩
  · simpa [UpToDate] using h.upToDate
  · simp [InProgress, newest_cons, QueueEvent.key, QueueEvent.running]
  · simpa [lastStartInMap, newest_cons, QueueEvent.key, QueueEvent.countedStart] using h.notCounted

/-- A stale entry is evicted. -/
lemma EntryInv.evict (h : EntryInv clock log msg s) (hstale : MatViewScan.Stale tNow ⟨msg, s⟩) :
    AbsentInv (.evicted msg :: log) msg := by
  refine ⟨?_, ?_, ?_⟩
  · simpa [UpToDate] using h.upToDate hstale.2.1
  · intro hprogress
    have := h.inProgress_iff.mpr
      (by simpa [InProgress, newest_cons, QueueEvent.key, QueueEvent.running] using hprogress)
    exact absurd this (by rw [hstale.1]; exact Bool.false_ne_true)
  · simp [lastStartInMap, newest_cons, QueueEvent.key, QueueEvent.countedStart]

/-- The stale entries are evicted one after the other. -/
lemma KeyInv.evictAll (tNow : ℤ) {o : Option MatViewState} (h : KeyInv clock log msg o)
    {gone : List (MatViewMsg DC)} (hnodup : gone.Nodup)
    (hstale : msg ∈ gone → ∃ s, o = some s ∧ MatViewScan.Stale tNow ⟨msg, s⟩) :
    KeyInv clock (gone.map .evicted ++ log) msg (if msg ∈ gone then none else o) := by
  induction gone with
  | nil => simpa using h
  | cons k gone ih =>
    obtain ⟨hk, hnodup⟩ := List.nodup_cons.mp hnodup
    have ih := ih hnodup fun hmem => hstale (List.mem_cons_of_mem _ hmem)
    rw [List.map_cons, List.cons_append]
    by_cases heq : msg = k
    · subst heq
      obtain ⟨s, rfl, hs⟩ := hstale (List.mem_cons_self ..)
      rw [if_neg hk] at ih
      rw [if_pos (List.mem_cons_self ..)]
      exact EntryInv.evict ih hs
    · have hmem : msg ∈ k :: gone ↔ msg ∈ gone := by simp [heq]
      simp only [hmem]
      exact ih.other (Ne.symm heq)

end KeyInv

/-! ### Runs -/

structure Scheduler (DC : Type) where
  queue : MatViewQueue DC
  clock : ℤ
  log : List (QueueEvent DC)

inductive QueueOp (DC : Type)
  | updateLastReceived (tNow : ℤ) (msg : MatViewMsg DC)
  | nextToProcess (order : List (MatViewEntry DC)) (tNow : ℤ)
  | markDone (msg : MatViewMsg DC)

namespace Scheduler

variable [DecidableEq DC]

def initial : Scheduler DC := ⟨.new, 0, []⟩

/-- The keys that a call of `nextToProcess` has removed from the map -/
def removed (q q' : MatViewQueue DC) : List (MatViewMsg DC) :=
  q.stateMap.keys.filter fun msg => (q'.entry msg).isNone

/-- The events of a call of `nextToProcess` -/
def calls (q : MatViewQueue DC) (tNow : ℤ) :
    Except NotReady (MatViewMsg DC) × MatViewQueue DC → List (QueueEvent DC)
  | (.ok msg, q') => .started msg tNow :: (removed q q').map .evicted
  | (.error _, q') => (removed q q').map .evicted

def exec (w : Scheduler DC) : QueueOp DC → Scheduler DC
  | .updateLastReceived tNow msg =>
    ⟨w.queue.updateLastReceived tNow msg, tNow, .received msg tNow :: w.log⟩
  | .nextToProcess order tNow =>
    ⟨(w.queue.nextToProcess order tNow).2, tNow,
      calls w.queue tNow (w.queue.nextToProcess order tNow) ++ w.log⟩
  | .markDone msg => { w with queue := w.queue.markDone msg, log := .done msg :: w.log }

/-- The clock does not go back, the map is iterated in some order, and only keys that were handed out
are marked done. -/
def Guard (w : Scheduler DC) : QueueOp DC → Prop
  | .updateLastReceived tNow _ => w.clock ≤ tNow
  | .nextToProcess order tNow => w.clock ≤ tNow ∧ order.Perm w.queue.stateMap.entries
  | .markDone msg => (lastStart msg w.log).isSome

instance (w : Scheduler DC) : ∀ op, Decidable (w.Guard op)
  | .updateLastReceived tNow _ => inferInstanceAs (Decidable (w.clock ≤ tNow))
  | .nextToProcess order tNow =>
    inferInstanceAs (Decidable (w.clock ≤ tNow ∧ order.Perm w.queue.stateMap.entries))
  | .markDone msg => inferInstanceAs (Decidable ((lastStart msg w.log).isSome = true))

/-- What holds in every state: a message is not forgotten before a processing covers it, and no
deadline is later than the latency allows. -/
structure NoneLost (w : Scheduler DC) : Prop where
  pending : ∀ msg t, .received msg t ∈ w.log →
    (∀ t', .started msg t' ∈ w.log → t' < t + thresholdReceiveIdleMs) →
    ∃ s, w.queue.entry msg = some s ∧ (InProgress msg w.log ∨ ∃ d, s.processAt = .ok d)
  latency : ∀ msg d, w.queue.Deadline msg d → ∃ t, FirstSince msg w.log t ∧
    d ≤ max ((lastStart msg w.log).getD t) t + thresholdReprocessMs

/-- What holds of each call of `nextToProcess`: whom it hands out, when it asks for another call, and when
nothing is to be done. While a deadline has come, a key is handed out. -/
structure CallSound (w : Scheduler DC) (order : List (MatViewEntry DC)) (tNow : ℤ) : Prop where
  handOut : ∀ msg, (w.queue.nextToProcess order tNow).1 = .ok msg → ¬InProgress msg w.log ∧
    (∀ t, lastStartInMap msg w.log = some t → t + thresholdReprocessMs ≤ tNow) ∧
    ∃ d, w.queue.Deadline msg d ∧ w.queue.Earliest d ∧ d ≤ tNow
  tryAgain : ∀ d, (w.queue.nextToProcess order tNow).1 = .error (.tryAgainAt d) →
    (∃ msg, w.queue.Deadline msg d) ∧ w.queue.Earliest d ∧ tNow < d
  queueEmpty : (w.queue.nextToProcess order tNow).1 = .error .queueEmpty → ∀ msg d, ¬w.queue.Deadline msg d
  due : ∀ msg d, w.queue.Deadline msg d → d ≤ tNow → ∃ msg', (w.queue.nextToProcess order tNow).1 = .ok msg'

/-- The log accounts for every entry. -/
structure Inv (w : Scheduler DC) : Prop where
  clock : 0 ≤ w.clock
  past : ∀ msg t, .received msg t ∈ w.log → t ≤ w.clock
  keys : ∀ msg, KeyInv w.clock w.log msg (w.queue.entry msg)

variable {w : Scheduler DC} {tNow : ℤ} {msg : MatViewMsg DC} {order : List (MatViewEntry DC)}

lemma inv_initial : (initial : Scheduler DC).Inv where
  clock := le_rfl
  past := by simp [initial]
  keys := by
    intro msg
    simp only [initial, MatViewQueue.entry_new]
    exact ⟨by simp [UpToDate], by simp [InProgress], by simp [lastStartInMap]⟩

lemma inv_updateLastReceived (h : w.Inv) (hle : w.clock ≤ tNow) :
    (w.exec (.updateLastReceived tNow msg)).Inv where
  clock := le_trans h.clock hle
  past := by
    intro k t ht
    rcases List.mem_cons.mp ht with heq | ht
    · cases heq
      exact le_rfl
    · exact le_trans (h.past k t ht) hle
  keys := by
    intro k
    simp only [exec, MatViewQueue.entry_updateLastReceived]
    split
    next heq =>
      subst heq
      have hkey := h.keys k
      cases hentry : w.queue.entry k with
      | none =>
        rw [hentry] at hkey
        exact hkey.message (le_trans h.clock hle) fun t ht => le_trans (h.past k t ht) hle
      | some s =>
        rw [hentry] at hkey
        exact hkey.message hle
    next hne => exact ((h.keys k).mono hle).other (Ne.symm hne)

lemma inv_markDone (h : w.Inv) : (w.exec (.markDone msg)).Inv where
  clock := h.clock
  past := fun k t ht => h.past k t (by simpa [exec] using ht)
  keys := by
    intro k
    simp only [exec, MatViewQueue.entry_markDone]
    split
    next heq =>
      subst heq
      have hkey := h.keys k
      cases hentry : w.queue.entry k with
      | none =>
        rw [hentry] at hkey
        exact hkey.mark_done
      | some s =>
        rw [hentry] at hkey
        exact hkey.mark_done
    next hne => exact (h.keys k).other (Ne.symm hne)

lemma removed_nodup (q q' : MatViewQueue DC) : (removed q q').Nodup :=
  q.stateMap.keys_nodup.filter _

lemma mem_removed {q q' : MatViewQueue DC} :
    msg ∈ removed q q' ↔ (q.entry msg).isSome = true ∧ q'.entry msg = none := by
  simp [removed, MatViewQueue.entry, AList.lookup_isSome, AList.mem_keys]

/-- The keys that are removed are the stale ones, when the others keep an entry. -/
lemma mem_removed_iff {q q' : MatViewQueue DC} {entries : MatViewMsg DC → Option MatViewState}
    (hsome : ∀ k, (q.entry k).isSome = true → (entries k).isSome = true)
    (hentry : ∀ k, (q.Evicted tNow k → q'.entry k = none) ∧
      (¬q.Evicted tNow k → q'.entry k = entries k)) :
    msg ∈ removed q q' ↔ q.Evicted tNow msg := by
  rw [mem_removed]
  constructor
  · rintro ⟨hq, hq'⟩
    by_contra hev
    have := hsome msg hq
    rw [← (hentry msg).2 hev, hq'] at this
    cases this
  · intro hev
    refine ⟨?_, (hentry msg).1 hev⟩
    obtain ⟨s, hs, -⟩ := hev
    simp [hs]

/-- What the keys look like after the evictions. -/
lemma keys_removed (h : w.Inv) {q' : MatViewQueue DC} (hremoved : msg ∈ removed w.queue q' ↔
    w.queue.Evicted tNow msg) :
    KeyInv w.clock ((removed w.queue q').map .evicted ++ w.log) msg
      (if msg ∈ removed w.queue q' then none else w.queue.entry msg) := by
  refine (h.keys msg).evictAll tNow (removed_nodup _ _) fun hmem => ?_
  obtain ⟨s, hs, hstale⟩ := hremoved.mp hmem
  exact ⟨s, hs, hstale⟩

lemma inv_nextToProcess (h : w.Inv) (hle : w.clock ≤ tNow)
    (horder : order.Perm w.queue.stateMap.entries) :
    (w.exec (.nextToProcess order tNow)).Inv := by
  have hpast : ∀ k t, .received k t ∈ (w.exec (.nextToProcess order tNow)).log → t ≤ tNow := by
    intro k t ht
    refine le_trans (h.past k t ?_) hle
    simp only [exec, List.mem_append] at ht
    refine ht.resolve_left fun hcalls => ?_
    unfold calls at hcalls
    split at hcalls <;> simp at hcalls
  refine ⟨le_trans h.clock hle, hpast, fun k => ?_⟩
  simp only [exec]
  rcases w.queue.nextToProcess_cases tNow horder with
    ⟨msg, s, d, hres, hs, -, -, -, hmsg, hentry⟩ | ⟨e, hres, -, -, hentry⟩
  · have hremoved : ∀ k, k ∈ removed w.queue (w.queue.nextToProcess order tNow).2 ↔
        w.queue.Evicted tNow k := fun k => mem_removed_iff (fun k hk => by split <;> simp_all) hentry
    have hkey := keys_removed h (hremoved k)
    have hcalls : calls w.queue tNow (w.queue.nextToProcess order tNow) = .started msg tNow ::
        (removed w.queue (w.queue.nextToProcess order tNow).2).map .evicted := by
      unfold calls
      split <;> simp_all
    rw [hcalls, List.cons_append]
    by_cases hev : w.queue.Evicted tNow k
    · rw [if_pos ((hremoved k).mpr hev)] at hkey
      rw [(hentry k).1 hev]
      refine (hkey.mono hle).other ?_
      rintro rfl
      exact hmsg hev
    · rw [if_neg (mt (hremoved k).mp hev)] at hkey
      rw [(hentry k).2 hev]
      split
      next heq =>
        subst heq
        rw [hs] at hkey
        exact EntryInv.start_key hkey hle
      next hne => exact (hkey.mono hle).other (Ne.symm hne)
  · have hremoved : ∀ k, k ∈ removed w.queue (w.queue.nextToProcess order tNow).2 ↔
        w.queue.Evicted tNow k := fun k => mem_removed_iff (fun k hk => hk) hentry
    have hkey := keys_removed h (hremoved k)
    have hcalls : calls w.queue tNow (w.queue.nextToProcess order tNow) =
        (removed w.queue (w.queue.nextToProcess order tNow).2).map .evicted := by
      unfold calls
      split <;> simp_all
    rw [hcalls]
    by_cases hev : w.queue.Evicted tNow k
    · rw [if_pos ((hremoved k).mpr hev)] at hkey
      rw [(hentry k).1 hev]
      exact hkey.mono hle
    · rw [if_neg (mt (hremoved k).mp hev)] at hkey
      rw [(hentry k).2 hev]
      exact hkey.mono hle

lemma inv_of_reach (h : Reach exec Guard initial w) : w.Inv := by
  refine h.invariant inv_initial fun w op hinv hguard => ?_
  cases op with
  | updateLastReceived tNow msg => exact inv_updateLastReceived hinv hguard
  | nextToProcess order tNow => exact inv_nextToProcess hinv hguard.1 hguard.2
  | markDone msg => exact inv_markDone hinv

/-- A key that is pending has an entry that is not up to date. -/
lemma Inv.noneLost (h : w.Inv) : w.NoneLost where
  pending := by
    intro msg t ht hlate
    have hkey := h.keys msg
    have hnot : ¬UpToDate msg w.log := by
      intro hup
      obtain ⟨t', ht', hle⟩ := hup t ht
      exact absurd (hlate t' ht') (not_lt.mpr hle)
    cases hentry : w.queue.entry msg with
    | none =>
      rw [hentry] at hkey
      exact absurd hkey.upToDate hnot
    | some s =>
      rw [hentry] at hkey
      refine ⟨s, rfl, ?_⟩
      cases hbusy : s.inProgress with
      | true => exact .inl (hkey.inProgress_iff.mp hbusy)
      | false => exact .inr (MatViewState.exists_processAt hbusy fun hup => hnot (hkey.upToDate hup))
  latency := by
    rintro msg d ⟨s, hs, hd⟩
    have hkey := h.keys msg
    rw [hs] at hkey
    obtain ⟨t, hfirst, hst⟩ := hkey.first
    refine ⟨t, hfirst, ?_⟩
    obtain ⟨-, -, rfl⟩ := MatViewState.processAt_eq_ok.mp hd
    have hprocessed : s.lastProcessedMs ≤ max ((lastStart msg w.log).getD t) t := by
      rw [hkey.processed]
      cases hcounted : lastStartInMap msg w.log with
      | none => exact le_trans (le_trans hkey.start.1 hst) (le_max_right _ _)
      | some t' =>
        rw [lastStart_of_counted hcounted]
        exact le_max_left _ _
    have hwindow : s.startOfDataset ≤ max ((lastStart msg w.log).getD t) t :=
      le_trans hst (le_max_right _ _)
    exact max_le (le_trans (min_le_right _ _) (Int.add_le_add_right hwindow _))
      (Int.add_le_add_right hprocessed _)

lemma Inv.callSound (h : w.Inv) (horder : order.Perm w.queue.stateMap.entries) :
    w.CallSound order tNow := by
  rcases w.queue.nextToProcess_cases tNow horder with
    ⟨msg, s, d, hres, hs, hd, hearliest, hdue, -, -⟩ | ⟨e, hres, htry, hempty, -⟩
  · have hok : ∀ e, (w.queue.nextToProcess order tNow).1 ≠ .error e := by simp [hres]
    refine ⟨fun msg' heq => ?_, fun d heq => absurd heq (hok _), fun heq => absurd heq (hok _),
      fun _ _ _ _ => ⟨msg, hres⟩⟩
    rw [hres] at heq
    cases heq
    have hkey := h.keys msg
    rw [hs] at hkey
    obtain ⟨hidle, -, hmax⟩ := MatViewState.processAt_eq_ok.mp hd
    refine ⟨?_, ?_, d, ⟨s, hs, hd⟩, hearliest, hdue⟩
    · intro hbusy
      rw [hkey.inProgress_iff.mpr hbusy] at hidle
      cases hidle
    · intro t ht
      have hprocessed : s.lastProcessedMs = t := by rw [hkey.processed, ht]; rfl
      rw [← hprocessed]
      exact le_trans (hmax ▸ le_max_right _ _) hdue
  · have herror : ∀ e', (w.queue.nextToProcess order tNow).1 = .error e' → e = e' := fun e' heq =>
      Except.error.inj (hres.symm.trans heq)
    refine ⟨fun msg' heq => (by rw [hres] at heq; cases heq), fun d heq => htry d (herror _ heq),
      fun heq => hempty (herror _ heq), fun msg d hdeadline hdue => ?_⟩
    cases e with
    | tryAgainAt d' =>
      obtain ⟨-, hearliest, hlater⟩ := htry d' rfl
      exact absurd (hearliest msg d hdeadline) (by omega)
    | queueEmpty => exact absurd hdeadline (hempty rfl msg d)

/-- **No update is lost**, in any run with a clock that does not go back. -/
theorem schedule_of_reach (h : Reach exec Guard initial w) : w.NoneLost ∧
    ∀ order tNow, w.Guard (.nextToProcess order tNow) → w.CallSound order tNow :=
  ⟨(inv_of_reach h).noneLost, fun _ _ hguard => (inv_of_reach h).callSound hguard.2⟩

/-- One dataset receives data, is processed, receives data while that runs, and is processed again. -/
def sampleRun : List (QueueOp Bool) :=
  [.updateLastReceived 100_000 ⟨true, "a"⟩,
    .nextToProcess [⟨⟨true, "a"⟩, 100_000, 0, false, 100_000⟩] 103_000,
    .updateLastReceived 105_000 ⟨true, "a"⟩, .markDone ⟨true, "a"⟩,
    .nextToProcess [⟨⟨true, "a"⟩, 100_000, 103_000, false, 105_000⟩] 163_000]

theorem schedule_of_reach_sample : (sampleRun.foldl exec initial).NoneLost ∧
    ∀ order tNow, (sampleRun.foldl exec initial).Guard (.nextToProcess order tNow) →
      (sampleRun.foldl exec initial).CallSound order tNow :=
  schedule_of_reach (Reach.run sampleRun .start (by decide))

end Scheduler

end SensorLink.Server
