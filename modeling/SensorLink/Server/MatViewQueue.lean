import Mathlib.Data.List.AList
import Mathlib.Data.List.Induction
import Mathlib.Tactic.Common
import Mathlib.Data.Int.Order.Basic

/-!
# The queue of materialized view updates

`MatViewQueue` keeps, for each dataset and channel, when it received data and when it was processed.
`nextToProcess` picks the entry with the earliest deadline and evicts the stale ones; the hash map is
iterated in an arbitrary order, so the order is an argument here. Times are milliseconds of the
server's clock, far below the range of `i64`.
-/

namespace SensorLink.Server

structure MatViewMsg (DC : Type) where
  dataChannel : DC
  dataSetId : String
deriving DecidableEq, Repr

/-- After this short time without more data, no more is expected to follow. -/
def thresholdReceiveIdleMs : ℤ := 3_000

/-- The longest latency, for a dataset that is always streaming. -/
def thresholdReprocessMs : ℤ := 60_000

/-- Entries that are up to date and older than this are evicted. -/
def thresholdStaleMs : ℤ := 8 * 3_600_000

structure MatViewState where
  /-- The first message since the last processing -/
  startOfDataset : ℤ
  lastProcessedMs : ℤ
  inProgress : Bool
  lastReceivedMs : ℤ
deriving DecidableEq, Repr

inductive MatViewNotReady
  | alreadyBusy
  | alreadyUpToDate
deriving DecidableEq, Repr

namespace MatViewState

/-- When the processing is to start. -/
def processAt (s : MatViewState) : Except MatViewNotReady ℤ :=
  if s.inProgress then .error .alreadyBusy
  else
    let tReceiveIdle := s.lastReceivedMs + thresholdReceiveIdleMs
    if tReceiveIdle ≤ s.lastProcessedMs then .error .alreadyUpToDate
    else
      let tReprocess := s.startOfDataset + thresholdReprocessMs
      let deadline := min tReceiveIdle tReprocess
      let minDeadline := s.lastProcessedMs + thresholdReprocessMs
      .ok (max deadline minDeadline)

/-- What was received is covered by the last processing, and the stream had gone idle before it. -/
def UpToDate (s : MatViewState) : Prop :=
  s.lastReceivedMs + thresholdReceiveIdleMs ≤ s.lastProcessedMs

instance (s : MatViewState) : Decidable s.UpToDate :=
  inferInstanceAs (Decidable (_ ≤ _))

variable {s : MatViewState}

lemma processAt_eq_ok {d : ℤ} : s.processAt = .ok d ↔ s.inProgress = false ∧ ¬s.UpToDate ∧
    d = max (min (s.lastReceivedMs + thresholdReceiveIdleMs) (s.startOfDataset + thresholdReprocessMs))
      (s.lastProcessedMs + thresholdReprocessMs) := by
  unfold processAt UpToDate
  cases s.inProgress with
  | true => simp
  | false => by_cases h : s.lastReceivedMs + thresholdReceiveIdleMs ≤ s.lastProcessedMs <;>
      simp [h, eq_comm]

lemma processAt_upToDate :
    s.processAt = .error .alreadyUpToDate ↔ s.inProgress = false ∧ s.UpToDate := by
  unfold processAt UpToDate
  cases s.inProgress with
  | true => simp
  | false => by_cases h : s.lastReceivedMs + thresholdReceiveIdleMs ≤ s.lastProcessedMs <;> simp [h]

/-- An entry without a deadline is in progress or up to date. -/
lemma exists_processAt (hbusy : s.inProgress = false) (h : ¬s.UpToDate) : ∃ d, s.processAt = .ok d :=
  ⟨_, processAt_eq_ok.mpr ⟨hbusy, h, rfl⟩⟩

end MatViewState

inductive NotReady
  | tryAgainAt (deadline : ℤ)
  | queueEmpty
deriving DecidableEq, Repr

section

variable (DC : Type)

/-- An entry of the map -/
abbrev MatViewEntry : Type := (_ : MatViewMsg DC) × MatViewState

structure MatViewQueue where
  stateMap : AList (fun _ : MatViewMsg DC => MatViewState)

/-- What the loop over the map has found: the entry with the earliest deadline, and those to evict. -/
structure MatViewScan where
  next : Option (ℤ × MatViewEntry DC)
  stale : List (MatViewMsg DC)

end

variable {DC : Type}

namespace MatViewScan

def empty : MatViewScan DC := ⟨none, []⟩

/-- The body of the loop. -/
def step (tNow : ℤ) (acc : MatViewScan DC) (candidate : MatViewEntry DC) : MatViewScan DC :=
  match candidate.2.processAt with
  | .ok deadline =>
    match acc.next.bind (fun best => best.2.2.processAt.toOption) with
    | some current =>
      if current ≤ deadline then acc else { acc with next := some (deadline, candidate) }
    | none => { acc with next := some (deadline, candidate) }
  | .error _ =>
    if !candidate.2.inProgress && tNow - candidate.2.lastReceivedMs > thresholdStaleMs then
      { acc with stale := acc.stale ++ [candidate.1] }
    else acc

def run (tNow : ℤ) (order : List (MatViewEntry DC)) : MatViewScan DC :=
  order.foldl (step tNow) empty

/-- The entry is up to date, and has been for long. -/
def Stale (tNow : ℤ) (entry : MatViewEntry DC) : Prop :=
  entry.2.inProgress = false ∧ entry.2.UpToDate ∧ tNow - entry.2.lastReceivedMs > thresholdStaleMs

/-- What the loop knows after the entries it has seen. -/
structure Found (tNow : ℤ) (seen : List (MatViewEntry DC)) (scan : MatViewScan DC) : Prop where
  none_iff : scan.next = none ↔ ∀ entry ∈ seen, ∀ d, entry.2.processAt ≠ .ok d
  mem : ∀ d entry, scan.next = some (d, entry) → entry ∈ seen ∧ entry.2.processAt = .ok d
  le : ∀ d entry, scan.next = some (d, entry) → ∀ other ∈ seen, ∀ d', other.2.processAt = .ok d' → d ≤ d'
  stale_iff : ∀ msg, msg ∈ scan.stale ↔ ∃ entry ∈ seen, entry.1 = msg ∧ Stale tNow entry

variable {tNow : ℤ} {seen : List (MatViewEntry DC)} {scan : MatViewScan DC} {candidate : MatViewEntry DC}

lemma found_empty : Found tNow [] (empty : MatViewScan DC) := by
  constructor <;> simp [empty]

/-- A candidate with a deadline is not evicted. -/
lemma Found.stale_append (h : Found tNow seen scan) {d : ℤ} (hd : candidate.2.processAt = .ok d)
    (msg : MatViewMsg DC) :
    msg ∈ scan.stale ↔ ∃ entry ∈ seen ++ [candidate], entry.1 = msg ∧ Stale tNow entry := by
  rw [h.stale_iff]
  constructor
  · rintro ⟨entry, hmem, hentry⟩
    exact ⟨entry, List.mem_append_left _ hmem, hentry⟩
  · rintro ⟨entry, hmem, heq, hstale⟩
    rcases List.mem_append.mp hmem with hmem | hmem
    · exact ⟨entry, hmem, heq, hstale⟩
    · obtain rfl := List.mem_singleton.mp hmem
      obtain ⟨_, hup, _⟩ := MatViewState.processAt_eq_ok.mp hd
      exact absurd hstale.2.1 hup

/-- A candidate with the earliest deadline so far replaces the best one. -/
lemma Found.replace (h : Found tNow seen scan) {d : ℤ} (hd : candidate.2.processAt = .ok d)
    (hbest : ∀ best entry, scan.next = some (best, entry) → d ≤ best) :
    Found tNow (seen ++ [candidate]) { scan with next := some (d, candidate) } := by
  have hle : ∀ other ∈ seen, ∀ d', other.2.processAt = .ok d' → d ≤ d' := by
    intro other hother d' hd'
    cases hnext : scan.next with
    | none => exact absurd hd' (h.none_iff.mp hnext other hother d')
    | some best =>
      obtain ⟨best, entry⟩ := best
      exact le_trans (hbest best entry hnext) (h.le best entry hnext other hother d' hd')
  refine ⟨?_, ?_, ?_, ?_⟩
  · simp only [reduceCtorEq, false_iff, not_forall]
    exact ⟨candidate, by simp, d, by simp [hd]⟩
  · intro d' entry heq
    obtain ⟨rfl, rfl⟩ : d = d' ∧ candidate = entry := by simpa using heq
    exact ⟨by simp, hd⟩
  · intro d' entry heq other hother d'' hd''
    obtain ⟨rfl, rfl⟩ : d = d' ∧ candidate = entry := by simpa using heq
    rcases List.mem_append.mp hother with hother | hother
    · exact hle other hother d'' hd''
    · obtain rfl := List.mem_singleton.mp hother
      rw [hd] at hd''
      cases hd''
      exact le_rfl
  · exact h.stale_append hd

/-- A candidate with a later deadline changes nothing. -/
lemma Found.keep (h : Found tNow seen scan) {d best : ℤ} {entry : MatViewEntry DC}
    (hd : candidate.2.processAt = .ok d) (hbest : scan.next = some (best, entry)) (hle : best ≤ d) :
    Found tNow (seen ++ [candidate]) scan := by
  refine ⟨?_, ?_, ?_, ?_⟩
  · rw [hbest]
    simp only [reduceCtorEq, false_iff, not_forall]
    exact ⟨candidate, by simp, d, by simp [hd]⟩
  · intro d' entry' heq
    obtain ⟨hmem, hok⟩ := h.mem d' entry' heq
    exact ⟨List.mem_append_left _ hmem, hok⟩
  · intro d' entry' heq other hother d'' hd''
    rcases List.mem_append.mp hother with hother | hother
    · exact h.le d' entry' heq other hother d'' hd''
    · obtain rfl := List.mem_singleton.mp hother
      rw [hd] at hd''
      cases hd''
      rw [hbest] at heq
      cases heq
      exact hle
  · exact h.stale_append hd

/-- A candidate without a deadline is evicted when it is stale. -/
lemma Found.skip (h : Found tNow seen scan) {e : MatViewNotReady}
    (hd : candidate.2.processAt = .error e) {stale : List (MatViewMsg DC)}
    (hstale : ∀ msg, msg ∈ stale ↔ msg ∈ scan.stale ∨ candidate.1 = msg ∧ Stale tNow candidate) :
    Found tNow (seen ++ [candidate]) { scan with stale := stale } := by
  refine ⟨?_, ?_, ?_, ?_⟩
  · rw [h.none_iff]
    simp only [List.forall_mem_append, List.forall_mem_singleton]
    refine ⟨fun hall => ⟨hall, fun d => by simp [hd]⟩, fun hall => hall.1⟩
  · intro d' entry' heq
    obtain ⟨hmem, hok⟩ := h.mem d' entry' heq
    exact ⟨List.mem_append_left _ hmem, hok⟩
  · intro d' entry' heq other hother d'' hd''
    rcases List.mem_append.mp hother with hother | hother
    · exact h.le d' entry' heq other hother d'' hd''
    · obtain rfl := List.mem_singleton.mp hother
      rw [hd] at hd''
      cases hd''
  · intro msg
    rw [hstale, h.stale_iff]
    simp only [List.mem_append, List.mem_singleton, or_and_right, exists_or, exists_eq_left]

lemma found_step (h : Found tNow seen scan) :
    Found tNow (seen ++ [candidate]) (step tNow scan candidate) := by
  unfold step
  cases hd : candidate.2.processAt with
  | error e =>
    by_cases hbusy : candidate.2.inProgress
    · simp only [hbusy, Bool.not_true, Bool.false_and, Bool.false_eq_true, if_false]
      exact h.skip hd (by simp [Stale, hbusy])
    · have hup : candidate.2.UpToDate := by
        by_contra hup
        obtain ⟨d, hok⟩ := MatViewState.exists_processAt (by simpa using hbusy) hup
        rw [hd] at hok
        cases hok
      simp only [hbusy, Bool.not_false, Bool.true_and, decide_eq_true_eq]
      by_cases hold : tNow - candidate.2.lastReceivedMs > thresholdStaleMs
      · simp only [hold, if_true]
        exact h.skip hd (by simp [Stale, hbusy, hup, hold, eq_comm])
      · simp only [hold, if_false]
        exact h.skip hd (by simp [Stale, hold])
  | ok deadline =>
    cases hnext : scan.next with
    | none => exact h.replace hd (by simp [hnext])
    | some best =>
      obtain ⟨current, entry⟩ := best
      have hok := (h.mem current entry hnext).2
      simp only [Option.bind_some, hok, Except.toOption]
      split
      next hle => exact h.keep hd hnext hle
      next hlt =>
        refine h.replace hd fun best entry' heq => ?_
        rw [hnext] at heq
        cases heq
        exact le_of_lt (not_le.mp hlt)

lemma found_run (tNow : ℤ) (order : List (MatViewEntry DC)) : Found tNow order (run tNow order) := by
  induction order using List.reverseRecOn with
  | nil => exact found_empty
  | append_singleton seen candidate ih =>
    simpa only [run, List.foldl_append, List.foldl_cons, List.foldl_nil] using found_step ih

end MatViewScan

namespace MatViewQueue

def new : MatViewQueue DC := ⟨∅⟩

variable [DecidableEq DC]

def markDone (q : MatViewQueue DC) (feedback : MatViewMsg DC) : MatViewQueue DC :=
  match q.stateMap.lookup feedback with
  | some state => ⟨q.stateMap.insert feedback { state with inProgress := false }⟩
  | none => q

/-- The entry of a message that is new to the queue -/
def firstState (tNow : ℤ) : MatViewState where
  startOfDataset := tNow
  lastProcessedMs := 0 -- stands for 'never'
  inProgress := false
  lastReceivedMs := tNow

/-- A message has come for an entry. -/
def received (tNow : ℤ) (s : MatViewState) : MatViewState :=
  let s := match s.processAt with
    | .error .alreadyUpToDate => { s with startOfDataset := tNow }
    | _ => s
  { s with lastReceivedMs := tNow }

def updateLastReceived (q : MatViewQueue DC) (tNow : ℤ) (msg : MatViewMsg DC) : MatViewQueue DC :=
  let s := (q.stateMap.lookup msg).getD (firstState tNow)
  ⟨q.stateMap.insert msg (received tNow s)⟩

/-- The entry is handed out. -/
def started (tNow : ℤ) (s : MatViewState) : MatViewState :=
  { s with inProgress := true, lastProcessedMs := tNow }

/-- `order` is the order in which the map is iterated. -/
def nextToProcess (q : MatViewQueue DC) (order : List (MatViewEntry DC)) (tNow : ℤ) :
    Except NotReady (MatViewMsg DC) × MatViewQueue DC :=
  let scan := MatViewScan.run tNow order
  let (result, stateMap) := match scan.next with
    | some (deadline, item) =>
      if deadline ≤ tNow then (.ok item.1, q.stateMap.insert item.1 (started tNow item.2))
      else (.error (.tryAgainAt deadline), q.stateMap)
    | none => (.error .queueEmpty, q.stateMap)
  (result, ⟨scan.stale.foldl (fun m obsolete => m.erase obsolete) stateMap⟩)

/-! ### What the operations do to the entries -/

/-- The entry of a key -/
def entry (q : MatViewQueue DC) (msg : MatViewMsg DC) : Option MatViewState := q.stateMap.lookup msg

/-- `d` is the deadline of a key. -/
def Deadline (q : MatViewQueue DC) (msg : MatViewMsg DC) (d : ℤ) : Prop :=
  ∃ s, q.entry msg = some s ∧ s.processAt = .ok d

/-- `d` is the earliest of all deadlines. -/
def Earliest (q : MatViewQueue DC) (d : ℤ) : Prop := ∀ msg d', q.Deadline msg d' → d ≤ d'

/-- The key is evicted at `tNow`. -/
def Evicted (q : MatViewQueue DC) (tNow : ℤ) (msg : MatViewMsg DC) : Prop :=
  ∃ s, q.entry msg = some s ∧ MatViewScan.Stale tNow ⟨msg, s⟩

variable {q : MatViewQueue DC} {tNow : ℤ} {msg : MatViewMsg DC} {order : List (MatViewEntry DC)}

@[simp] lemma entry_new : (new : MatViewQueue DC).entry msg = none := AList.lookup_empty msg

lemma entry_insert (s : MatViewState) (k : MatViewMsg DC) :
    (MatViewQueue.mk (q.stateMap.insert msg s)).entry k = if k = msg then some s else q.entry k := by
  unfold entry
  split
  next h => rw [h, AList.lookup_insert]
  next h => rw [AList.lookup_insert_ne h]

lemma entry_markDone (k : MatViewMsg DC) : (q.markDone msg).entry k =
    if k = msg then (q.entry msg).map ({ · with inProgress := false }) else q.entry k := by
  unfold markDone
  cases h : q.stateMap.lookup msg with
  | some s => simpa [entry, h] using entry_insert (q := q) { s with inProgress := false } k
  | none =>
    by_cases hk : k = msg
    · subst hk
      simp [entry, h]
    · simp [hk]

lemma entry_updateLastReceived (k : MatViewMsg DC) : (q.updateLastReceived tNow msg).entry k =
    if k = msg then some (received tNow ((q.entry msg).getD (firstState tNow))) else q.entry k :=
  entry_insert _ k

lemma lookup_foldl_erase (stale : List (MatViewMsg DC)) (k : MatViewMsg DC) :
    ∀ m : AList (fun _ : MatViewMsg DC => MatViewState),
      (stale.foldl (fun m obsolete => m.erase obsolete) m).lookup k =
        if k ∈ stale then none else m.lookup k := by
  induction stale with
  | nil => simp
  | cons obsolete stale ih =>
    intro m
    rw [List.foldl_cons, ih]
    by_cases hk : k = obsolete
    · subst hk
      simp [AList.lookup_erase]
    · simp [hk, AList.lookup_erase_ne hk]

/-- The loop sees each entry of the map once, in whatever order. -/
lemma mem_order (horder : order.Perm q.stateMap.entries) (s : MatViewState) :
    ⟨msg, s⟩ ∈ order ↔ q.entry msg = some s := by
  rw [horder.mem_iff, ← AList.mem_lookup_iff, Option.mem_def, entry]

lemma mem_stale (horder : order.Perm q.stateMap.entries) :
    msg ∈ (MatViewScan.run tNow order).stale ↔ q.Evicted tNow msg := by
  rw [(MatViewScan.found_run tNow order).stale_iff]
  constructor
  · rintro ⟨⟨_, s⟩, hmem, rfl, hstale⟩
    exact ⟨s, (mem_order horder s).mp hmem, hstale⟩
  · rintro ⟨s, hs, hstale⟩
    exact ⟨⟨msg, s⟩, (mem_order horder s).mpr hs, rfl, hstale⟩

/-- What `nextToProcess` can do: hand out a key of the earliest deadline, when that has come. The stale
keys are evicted in any case. -/
lemma nextToProcess_cases (tNow : ℤ) (horder : order.Perm q.stateMap.entries) :
    (∃ msg s d, (q.nextToProcess order tNow).1 = .ok msg ∧ q.entry msg = some s ∧ s.processAt = .ok d ∧
      q.Earliest d ∧ d ≤ tNow ∧ ¬q.Evicted tNow msg ∧
      ∀ k, (q.Evicted tNow k → (q.nextToProcess order tNow).2.entry k = none) ∧
        (¬q.Evicted tNow k → (q.nextToProcess order tNow).2.entry k =
          if k = msg then some (started tNow s) else q.entry k)) ∨
    (∃ e, (q.nextToProcess order tNow).1 = .error e ∧
      (∀ d, e = .tryAgainAt d → (∃ msg, q.Deadline msg d) ∧ q.Earliest d ∧ tNow < d) ∧
      (e = .queueEmpty → ∀ msg d, ¬q.Deadline msg d) ∧
      ∀ k, (q.Evicted tNow k → (q.nextToProcess order tNow).2.entry k = none) ∧
        (¬q.Evicted tNow k → (q.nextToProcess order tNow).2.entry k = q.entry k)) := by
  have hfound := MatViewScan.found_run tNow order
  cases hnext : (MatViewScan.run tNow order).next with
  | none =>
    refine .inr ⟨.queueEmpty, by simp [nextToProcess, hnext], by simp, ?_, ?_⟩
    · rintro - msg d ⟨s, hs, hd⟩
      exact hfound.none_iff.mp hnext ⟨msg, s⟩ ((mem_order horder s).mpr hs) d hd
    · intro k
      simp only [nextToProcess, hnext, entry, lookup_foldl_erase]
      exact ⟨fun h => if_pos ((mem_stale horder).mpr h),
        fun h => if_neg fun hk => h ((mem_stale horder).mp hk)⟩
  | some best =>
    obtain ⟨d, msg, s⟩ := best
    obtain ⟨hmem, hd⟩ := hfound.mem d ⟨msg, s⟩ hnext
    have hs : q.entry msg = some s := (mem_order horder s).mp hmem
    have hearliest : q.Earliest d := by
      rintro msg' d' ⟨s', hs', hd'⟩
      exact hfound.le d ⟨msg, s⟩ hnext ⟨msg', s'⟩ ((mem_order horder s').mpr hs') d' hd'
    by_cases hnow : d ≤ tNow
    · refine .inl ⟨msg, s, d, by simp [nextToProcess, hnext, hnow], hs, hd, hearliest, hnow, ?_, ?_⟩
      · rintro ⟨s', hs', hstale⟩
        obtain rfl : s = s' := by rw [hs] at hs'; exact Option.some.inj hs'
        exact (MatViewState.processAt_eq_ok.mp hd).2.1 hstale.2.1
      · intro k
        simp only [nextToProcess, hnext, hnow, if_true, entry, lookup_foldl_erase]
        refine ⟨fun h => if_pos ((mem_stale horder).mpr h), fun h => ?_⟩
        rw [if_neg fun hk => h ((mem_stale horder).mp hk)]
        exact entry_insert (started tNow s) k
    · refine .inr ⟨.tryAgainAt d, by simp [nextToProcess, hnext, hnow], ?_, by simp, ?_⟩
      · intro d' heq
        cases heq
        exact ⟨⟨msg, s, hs, hd⟩, hearliest, not_le.mp hnow⟩
      · intro k
        simp only [nextToProcess, hnext, hnow, if_false, entry, lookup_foldl_erase]
        exact ⟨fun h => if_pos ((mem_stale horder).mpr h),
          fun h => if_neg fun hk => h ((mem_stale horder).mp hk)⟩

end MatViewQueue

end SensorLink.Server
