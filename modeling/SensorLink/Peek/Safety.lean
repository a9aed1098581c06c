import SensorLink.Peek.Trace

/-!
# The peek protocol

Three results about every run of a queue whose sequence numbers do not wrap: `is_drained` is exact
(also with overwrites), the protocol of issuing, retrying and confirming is safe, and it makes
progress: the `2 * MAX_PEEKS` iterations of `find_reader` always suffice.
-/

set_option linter.unusedSectionVars false

namespace SensorLink.Peek

open SensorLink.Lib PeekQueue

variable {M : ℕ} [NeZero M]

/-! ### `is_drained` -/

/-- `is_drained` in a world that meets the invariant. -/
lemma isDrained_iff_of_inv {w : World M} (hM : M < 2 ^ 31) (hinv : Inv w) :
    w.queue.isDrained.1 = true ↔
      w.handles = [] ∧ ∀ n, w.lower ≤ n → n < w.queue.writeIndex → w.Confirmed n := by
  have hd := inv_drained hinv
  -- after the channel was processed, only live handles are pending
  have hpend : w.drained.pending = w.handles := by
    simp [World.pending, World.drained, Queue.updateReaderSlots]
  have hacc : Acc w.queue.updateReaderSlots.readers w.handles := hpend ▸ hd.acc
  have hwin : Win w.Confirmed w.lower w.queue.writeIndex w.queue.updateReaderSlots.readers := hd.win
  have hlo := hwin.lo_le
  have hmin := hwin.min_le
  have hnext := hwin.next_le
  have hunfold : w.queue.isDrained.1 = true ↔
      w.queue.updateReaderSlots.readers.readIndexNext = w.queue.writeIndex ∧
      ∀ i, w.queue.updateReaderSlots.readers.slotDrained
        (w.queue.updateReaderSlots.readers.readerSlots i) = true := by
    simp only [Queue.isDrained, PeekQueue.isDrained,
      show w.queue.updateReaderSlots.writeIndex = w.queue.writeIndex from rfl]
    by_cases he : w.queue.updateReaderSlots.readers.readIndexNext = w.queue.writeIndex <;> simp [he]
  rw [hunfold]
  constructor
  · rintro ⟨he, hall⟩
    refine ⟨List.eq_nil_iff_forall_not_mem.mpr fun n hn => ?_, fun n hn hlt => ?_⟩
    · have := hall (slotOf M n)
      rw [hacc.mem_iff.mp hn] at this
      cases this
    · rcases Nat.lt_or_ge n w.queue.updateReaderSlots.readers.readIndexMin with hlt' | hge
      · exact hwin.past n hn hlt'
      · have hs := hall (slotOf M n)
        rcases hwin.window n hge (by omega) with ⟨-, hc⟩ | hb | ha
        · exact hc
        · rw [hb] at hs
          cases hs
        · rw [ha] at hs
          simp [slotDrained, (isInBounds_iff hwin hM (by omega)).mpr hge] at hs
  · rintro ⟨hh, hall⟩
    have heq : w.queue.updateReaderSlots.readers.readIndexNext = w.queue.writeIndex := by
      by_contra hne
      have hc := hall w.queue.updateReaderSlots.readers.readIndexNext (by omega) (by omega)
      exact absurd ((hd.stays _ hc).symm.trans (hd.fresh _ le_rfl)) (by simp)
    refine ⟨heq, fun i => ?_⟩
    cases hs : w.queue.updateReaderSlots.readers.readerSlots i with
    | none => rfl
    | busy n =>
      have hn := hacc.mem_iff.mpr (hacc.slot_eq_of_busy hs ▸ hs)
      simp [hh] at hn
    | abort n =>
      have hlt := (hwin.own i n (by rw [hs]; rfl)).2
      have hnb : ¬ w.queue.updateReaderSlots.readers.readIndexMin ≤ n := by
        intro hge
        have hl := hd.stays n (hall n (by omega) (by omega))
        rw [hd.aborted i n hs] at hl
        cases hl
      simp [slotDrained, ← isInBounds_iff hwin hM hlt] at hnb ⊢
      exact hnb

/-- **`is_drained` is exact.** -/
theorem isDrained_iff (M : ℕ) [NeZero M] (hM : M < 2 ^ 31) (capacity granularity : ℕ)
    (hg : 0 < granularity) (hle : granularity ≤ capacity) (w : World M)
    (h : Reach World.exec NoWrap
      (World.start (Queue.withOverwriteSupport M capacity granularity)) w) :
    w.queue.isDrained.1 = true ↔
      w.handles = [] ∧ ∀ n, w.lower ≤ n → n < w.queue.writeIndex → w.Confirmed n :=
  isDrained_iff_of_inv hM (inv_of_reach hM hg hle h)

/-- Four items in a store of four, two of them peeked and dropped, and a fifth that overwrites the
block of these two: only the last three count. -/
theorem isDrained_iff_overwritten :
    let w := [Op.enqueue, .enqueue, .enqueue, .enqueue, .peekNext, .peekNext, .drop 0, .drop 0,
      .enqueue, .peekNext, .confirm 0, .peekNext, .confirm 0, .peekNext, .confirm 0].foldl
        World.exec (World.start (Queue.withOverwriteSupport 3 4 2))
    w.lower = 2 ∧ w.queue.isDrained.1 = true ∧ w.handles = [] ∧
      ∀ n, w.lower ≤ n → n < w.queue.writeIndex → w.Confirmed n := by
  refine ⟨by decide, by decide, ?_⟩
  exact (isDrained_iff 3 (by decide) 4 2 (by decide) (by decide) _
    (.run _ .start (by decide))).mp (by decide)

/-! ### Without overwrite -/

/-- The sequence numbers issued so far. -/
def issuedSet (trace : List Event) : Finset ℕ :=
  (trace.filterMap fun | .issued n => some n | _ => none).toFinset

lemma mem_issuedSet {t : List Event} {n : ℕ} : n ∈ issuedSet t ↔ .issued n ∈ t := by
  unfold issuedSet
  rw [List.mem_toFinset, List.mem_filterMap]
  constructor
  · rintro ⟨e, he, hn⟩
    cases e <;> simp at hn
    rwa [← hn]
  · intro h
    exact ⟨_, h, rfl⟩

/-- `n` may be issued after the events `t`: it is the next number, or its handle was dropped. -/
structure MayIssue (base : ℕ) (t : List Event) (n : ℕ) : Prop where
  first : .issued n ∉ t → n = base + (issuedSet t).card ∧ ∀ m ∈ issuedSet t, m < n
  again : .issued n ∈ t → lastEvent t n = some (.dropped n)
  never : .confirmed n ∉ t

/-- Every issue of the trace was allowed. -/
def Legal (base : ℕ) : List Event → Prop
  | [] => True
  | e :: t => (∀ n, e = .issued n → MayIssue base t n) ∧ Legal base t

lemma Legal.split {base : ℕ} : ∀ {later earlier : List Event} {n : ℕ},
    Legal base (later ++ .issued n :: earlier) → MayIssue base earlier n
  | [], _, n, h => h.1 n rfl
  | _ :: _, _, _, h => Legal.split h.2

/-- Nothing is held below the lower bound. -/
def Clean (q : PeekQueue M) : Prop := ∀ i n, (q.readerSlots i).seqNo? = some n → q.readIndexMin ≤ n

/-- The invariant of a queue without overwrite, in addition to `Inv`. -/
structure Fifo (w : World M) : Prop where
  cap : w.queue.capacity = 2 ^ 32 - 1
  low : w.lower = w.base
  clean : Clean w.queue.readers
  issued : ∀ n, .issued n ∈ w.trace ↔ w.base ≤ n ∧ n < w.queue.readers.readIndexNext
  legal : Legal w.base w.trace

section Clean

variable {conf : ℕ → Prop} {lo wr : ℕ}

lemma clean_passEmptySlot {q : PeekQueue M} (h : Win conf lo wr q) (hM : M < 2 ^ 31) (hc : Clean q)
    (hnone : q.readerSlots q.slotIndex = .none) : Clean q.passEmptySlot := by
  intro i n hi
  rw [passEmptySlot_readerSlots] at hi
  have hn := hc i n hi
  rw [passEmptySlot_eq h hM]
  dsimp only
  split
  next hs =>
    have hne : n ≠ q.readIndexMin := by
      rintro rfl
      rw [(h.own i _ hi).1, ← hs.1, hnone] at hi
      cases hi
    omega
  next => exact hn

lemma clean_setSlot {q : PeekQueue M} (hc : Clean q) {i : Fin M} {n : ℕ}
    (hn : q.readIndexMin ≤ n) : Clean (q.setSlot i (.busy n)) := by
  intro j m hj
  by_cases hji : j = i
  · subst hji
    simp only [setSlot, Function.update_self, ReadState.seqNo?, Option.some.injEq] at hj
    exact hj ▸ hn
  · simp only [setSlot, Function.update_of_ne hji] at hj
    exact hc j m hj

lemma clean_update {q : PeekQueue M} (hc : Clean q) (c : Confirm) : Clean (q.update c) := by
  unfold update
  dsimp only
  split
  next hb =>
    have hn := hc (slotOf M c.id) c.id (by rw [hb]; rfl)
    intro j m hj
    by_cases hji : j = slotOf M c.id
    · subst hji
      simp only [setSlot, Function.update_self] at hj
      split at hj
      · cases hj
      · simp only [ReadState.seqNo?, Option.some.injEq] at hj
        exact hj ▸ hn
    · simp only [setSlot, Function.update_of_ne hji] at hj
      exact hc j m hj
  next => exact hc

lemma clean_foldl_update (cs : List Confirm) : ∀ {q : PeekQueue M}, Clean q →
    Clean (cs.foldl update q) := by
  induction cs with
  | nil => intro q h; exact h
  | cons c cs ih => intro q h; exact ih (clean_update h c)

lemma clean_findLoop (hM : M < 2 ^ 31) (k : ℕ) : ∀ {q : PeekQueue M}, Win conf lo wr q → Clean q →
    Clean (findLoop wr k q).2 := by
  induction k with
  | zero => intro q _ hc; exact hc
  | succ k ih =>
    intro q h hc
    have hpass := fun hs => clean_passEmptySlot h hM hc hs
    rcases findStep_cases h hM with ⟨m, -, hf⟩ | ⟨hs, -, -, hf⟩ | ⟨hs, hlt, hslot, hf⟩ |
      ⟨n, ha, hmin, hf⟩ | ⟨hs, -, -, hf⟩ | ⟨n, ha, hmin, hf⟩
    · simpa only [findLoop, hf] using hc
    · simpa only [findLoop, hf] using hpass hs
    · have hle := (win_passEmptySlot h hM hs).min_le
      rw [(passed_passEmptySlot h hM).next] at hle
      simp only [findLoop, hf]
      exact clean_setSlot (i := q.slotIndex) (hpass hs) hle
    · have := clean_setSlot (q := q.incSlotIndex) (i := q.slotIndex) hc hmin
      simpa only [findLoop, hf] using this
    · simpa only [findLoop, hf] using ih (win_passEmptySlot h hM hs) (hpass hs)
    · exact absurd (hc q.slotIndex n (by rw [ha]; rfl)) (by omega)

end Clean

section Kept

variable {w : World M}

lemma fifo_drained (h : Inv w) (hf : Fifo w) : Fifo w.drained := by
  have hacc : Acc w.queue.readers (w.queue.confirmChannel.map Confirm.id ++ w.handles) :=
    h.acc.perm List.perm_append_comm
  obtain ⟨-, -, hnext, -⟩ := foldl_update_spec w.queue.confirmChannel w.handles hacc h.win
    fun c hc hs => h.confirmed_of_msg hc hs
  refine ⟨hf.cap, hf.low, clean_foldl_update _ hf.clean, fun n => ?_, hf.legal⟩
  rw [show w.drained.queue.readers.readIndexNext = w.queue.readers.readIndexNext from hnext]
  exact hf.issued n

lemma fifo_settle (hf : Fifo w) (k : ℕ) (success : Bool) : Fifo (w.settle k success) := by
  unfold World.settle
  cases hk : w.handles[k]? with
  | none => exact hf
  | some n =>
    dsimp only
    refine ⟨hf.cap, hf.low, hf.clean, fun m => ?_, fun m hm => ?_, hf.legal⟩
    · dsimp only [Queue.settle]
      rw [← hf.issued m]
      cases success <;> simp
    · cases success <;> simp at hm

/-- The next number to be issued is the number of issues so far. -/
lemma Fifo.card_issuedSet (hf : Fifo w) (hb : w.base ≤ w.queue.readers.readIndexNext) :
    w.queue.readers.readIndexNext = w.base + (issuedSet w.trace).card := by
  have : issuedSet w.trace = Finset.Ico w.base w.queue.readers.readIndexNext := by
    ext n
    rw [mem_issuedSet, hf.issued, Finset.mem_Ico]
  rw [this, Nat.card_Ico]
  omega

lemma fifo_peekNext (h : Inv w) (hf : Fifo w) (hM : M < 2 ^ 31) : Fifo (w.exec .peekNext) := by
  have hd := inv_drained h
  have hfd := fifo_drained h hf
  have hclean := clean_findLoop hM (2 * M) hd.win hfd.clean
  rcases w.exec_peekNext_cases with ⟨-, he⟩ | ⟨-, e, r, hr, he⟩ | ⟨-, n, r, hr, he⟩
  · rw [he]
    exact hf
  · obtain ⟨-, hpass⟩ := (findLoop_spec hM (2 * M) hd.win).1 e r hr
    have hcl : Clean r := by rw [show r = (findLoop w.queue.writeIndex (2 * M)
      w.queue.updateReaderSlots.readers).2 by rw [← findReader, hr]]; exact hclean
    rw [he]
    refine ⟨hf.cap, hf.low, hcl, fun n => ?_, hf.legal⟩
    rw [show r.readIndexNext = w.drained.queue.readers.readIndexNext from hpass.next]
    exact hfd.issued n
  · obtain ⟨-, hiss⟩ := (findLoop_spec hM (2 * M) hd.win).2 n r hr
    have hcl : Clean r := by rw [show r = (findLoop w.queue.writeIndex (2 * M)
      w.queue.updateReaderSlots.readers).2 by rw [← findReader, hr]]; exact hclean
    have hbase : w.base ≤ w.drained.queue.readers.readIndexMin := h.base_le.trans hd.win.lo_le
    have hmin := hiss.min_le
    have hwmin := hd.win.min_le
    have hlast : lastEvent w.trace n = none ∨ lastEvent w.trace n = some (.dropped n) := by
      rcases hiss.how with ⟨hn, -, -⟩ | ⟨ha, -, -⟩
      · exact .inl (hd.fresh n hn.ge)
      · exact .inr (hd.aborted _ n ha)
    rw [he]
    refine ⟨hf.cap, hf.low, hcl, fun m => ?_, fun m hm => ?_, hf.legal⟩
    · have hm : Event.issued m ∈ w.trace ↔ w.base ≤ m ∧ m < w.drained.queue.readers.readIndexNext :=
        hfd.issued m
      simp only [List.mem_cons, Event.issued.injEq, hm]
      rcases hiss.how with ⟨hn, -, hnext⟩ | ⟨-, hn, hnext⟩ <;> omega
    · cases hm
      refine ⟨fun hn => ?_, fun hn => ?_, fun hn => ?_⟩
      · rcases hiss.how with ⟨hn', -, -⟩ | ⟨-, hlt, -⟩
        · have hcard := hfd.card_issuedSet (hbase.trans hwmin)
          refine ⟨hn'.trans hcard, fun m hm => ?_⟩
          have := ((hfd.issued m).mp (mem_issuedSet.mp hm)).2
          exact lt_of_lt_of_eq this hn'.symm
        · exact absurd ((hfd.issued n).mpr ⟨hbase.trans hmin, hlt⟩) hn
      · rcases hlast with hnone | hdrop
        · exact absurd rfl (lastEvent_eq_none.mp hnone _ hn)
        · exact hdrop
      · have hl := h.stays n hn
        rcases hlast with hnone | hdrop
        · rw [hnone] at hl
          cases hl
        · rw [hdrop] at hl
          cases hl

lemma fifo_exec (h : Inv w) (hf : Fifo w) (hM : M < 2 ^ 31) (op : Op) (hw : NoWrap w op) :
    Fifo (w.exec op) := by
  cases op with
  | enqueue =>
    -- the count of a queue without wrap never exceeds `u32::MAX`: no overwrite
    rcases enqueue_cases w.queue hw with ⟨-, he⟩ | ⟨-, he⟩ | ⟨hc, -⟩
    · rw [show w.exec .enqueue = w by simp [World.exec, he]]
      exact hf
    · rw [show w.exec .enqueue = { w with queue := { w.queue with
        writeIndex := w.queue.writeIndex + 1 } } by simp [World.exec, he]]
      exact ⟨hf.cap, hf.low, hf.clean, hf.issued, hf.legal⟩
    · rw [hf.cap] at hc
      have := wrappingSub_lt (w.queue.writeIndex + 1) w.queue.readers.readIndexMin
      simp only [Queue.unconfirmedCount, minIndex] at hc
      omega
  | peekNext => exact fifo_peekNext h hf hM
  | confirm k => exact fifo_settle hf k true
  | drop k => exact fifo_settle hf k false
  | waitConfirmation =>
    simp only [World.exec, Queue.waitConfirmation]
    cases w.queue.confirmChannel with
    | nil => exact hf
    | cons c rest =>
      exact ⟨hf.cap, hf.low, clean_update hf.clean c, by simpa using hf.issued, hf.legal⟩
  | isDrained => exact fifo_drained h hf
  | reinit range =>
    refine ⟨hf.cap, rfl, ?_, ?_, trivial⟩
    · intro i n hi
      simp [World.exec, Queue.reinitWithExistingRange, PeekQueue.new, ReadState.seqNo?] at hi
    · intro n
      simp only [World.exec, Queue.reinitWithExistingRange, PeekQueue.new, List.not_mem_nil, false_iff]
      omega

/-- Both invariants hold in every reachable world of a queue without overwrite. -/
theorem fifo_of_reach (hM : M < 2 ^ 31) (h : Reach World.exec NoWrap (World.start (Queue.new M)) w) :
    Inv w ∧ Fifo w := by
  refine h.invariant (P := fun w => Inv w ∧ Fifo w) ⟨?_, ?_⟩ fun _ op hi hG =>
    ⟨inv_exec hi.1 hM op hG, fifo_exec hi.1 hi.2 hM op hG⟩
  · exact inv_start _ _ (by decide) (by decide)
  · refine ⟨rfl, rfl, ?_, ?_, trivial⟩
    · intro i n hi
      simp [World.start, Queue.new, Queue.withOverwriteSupport, PeekQueue.new, ReadState.seqNo?] at hi
    · intro n
      simp [World.start, Queue.new, Queue.withOverwriteSupport, PeekQueue.new]

end Kept

/-! ### Safety of the protocol -/

/-- What a queue without overwrite promises about its handles. An occurrence of `issued n` in the
trace splits it into what came later and what came earlier. -/
structure PeekSafety (w : World M) : Prop where
  /-- two live handles never carry the same sequence number -/
  distinct : w.handles.Nodup
  /-- first issues are in increasing order and without gaps -/
  first : ∀ later earlier n, w.trace = later ++ .issued n :: earlier → .issued n ∉ earlier →
    n = w.base + (issuedSet earlier).card ∧ ∀ m ∈ issuedSet earlier, m < n
  /-- a number is issued again only after its handle was dropped -/
  again : ∀ later earlier n, w.trace = later ++ .issued n :: earlier → .issued n ∈ earlier →
    lastEvent earlier n = some (.dropped n)
  /-- a confirmed number is never issued again -/
  never : ∀ later earlier n, w.trace = later ++ .issued n :: earlier → .confirmed n ∉ earlier
  /-- the lower bound never passes an item that is not confirmed -/
  lower : ∀ n, w.base ≤ n → n < w.queue.writeIndex → ¬ w.Confirmed n →
    w.queue.existingRange.1 ≤ n
  /-- at most `MAX_PEEKS` numbers are issued and not confirmed -/
  unconfirmed : ((issuedSet w.trace).filter fun n => ¬ w.Confirmed n).card ≤ M
  /-- at most `MAX_PEEKS` issued numbers are not yet passed by the lower bound -/
  unretired : ((issuedSet w.trace).filter fun n => w.queue.existingRange.1 ≤ n).card ≤ M

/-- **Safety of the peek protocol**: every interleaving of the operations. -/
theorem peekSafety_of_reach (M : ℕ) [NeZero M] (hM : M < 2 ^ 31) (w : World M)
    (h : Reach World.exec NoWrap (World.start (Queue.new M)) w) : PeekSafety w := by
  obtain ⟨hi, hf⟩ := fifo_of_reach hM h
  have hlower : ∀ n, w.base ≤ n → ¬ w.Confirmed n → w.queue.readers.readIndexMin ≤ n := by
    intro n hn hc
    by_contra hlt
    exact hc (hi.win.past n (by rw [hf.low]; exact hn) (by omega))
  have hwidth := hi.win.width
  have hunretired : ((issuedSet w.trace).filter fun n => w.queue.existingRange.1 ≤ n).card ≤ M := by
    calc _ ≤ (Finset.Ico w.queue.readers.readIndexMin w.queue.readers.readIndexNext).card := by
          refine Finset.card_le_card fun n hn => ?_
          obtain ⟨h1, h2⟩ := Finset.mem_filter.mp hn
          exact Finset.mem_Ico.mpr ⟨h2, ((hf.issued n).mp (mem_issuedSet.mp h1)).2⟩
      _ ≤ M := by
          rw [Nat.card_Ico]
          omega
  refine ⟨(List.nodup_append.mp hi.acc.nodup).1, ?_, ?_, ?_, fun n hn _ hc => hlower n hn hc, ?_,
    hunretired⟩
  · intro later earlier n ht hn
    exact (Legal.split (ht ▸ hf.legal)).first hn
  · intro later earlier n ht hn
    exact (Legal.split (ht ▸ hf.legal)).again hn
  · intro later earlier n ht
    exact (Legal.split (ht ▸ hf.legal)).never
  · refine (Finset.card_le_card fun n hn => ?_).trans hunretired
    obtain ⟨h1, h2⟩ := Finset.mem_filter.mp hn
    exact Finset.mem_filter.mpr
      ⟨h1, hlower n ((hf.issued n).mp (mem_issuedSet.mp h1)).1 h2⟩

/-- A run with a retry and a restart at another range. -/
theorem peekSafety_retry : PeekSafety
    ([Op.reinit (88, 91), .peekNext, .peekNext, .drop 0, .confirm 0, .peekNext, .enqueue,
      .peekNext].foldl World.exec (World.start (Queue.new 3))) :=
  peekSafety_of_reach 3 (by decide) _ (.run _ .start (by decide))

/-! ### Progress -/

/-- How many slots ahead of `s` the slot `t` is. -/
def ahead (s t : Fin M) : ℕ := if s.val ≤ t.val then t.val - s.val else t.val + M - s.val

lemma ahead_lt (s t : Fin M) : ahead s t < M := by
  unfold ahead
  have hs := s.isLt
  have ht := t.isLt
  split <;> omega

lemma ahead_inc {q : PeekQueue M} {t : Fin M} (h : q.slotIndex ≠ t) :
    ahead q.incSlotIndex.slotIndex t + 1 = ahead q.slotIndex t := by
  have hs := q.slotIndex.isLt
  have ht := t.isLt
  have hne : q.slotIndex.val ≠ t.val := fun he => h (Fin.ext he)
  have hinc : q.incSlotIndex.slotIndex.val =
      if q.slotIndex.val + 1 = M then 0 else q.slotIndex.val + 1 := by
    rw [incSlotIndex_val]
    split
    next he => rw [he, Nat.mod_self]
    next he => exact Nat.mod_eq_of_lt (by omega)
  unfold ahead
  rw [hinc]
  split <;> split <;> split <;> omega

lemma incSlotIndex_slotOf {q : PeekQueue M} {n : ℕ} (h : q.slotIndex = slotOf M n) :
    q.incSlotIndex.slotIndex = slotOf M (n + 1) := by
  apply Fin.ext
  rw [incSlotIndex_val, h]
  simp [slotOf]

/-- The iterations the search still needs at most: up to the slot of the next number if there is one,
and otherwise up to the slot of the lower bound and from there over the window. -/
def needed (q : PeekQueue M) (w : ℕ) : ℕ :=
  if q.readIndexNext < w then ahead q.slotIndex (slotOf M q.readIndexNext) + 1
  else if q.readIndexMin < q.readIndexNext then
    ahead q.slotIndex (slotOf M q.readIndexMin) + (q.readIndexNext - q.readIndexMin)
  else 1

section Progress

variable {conf : ℕ → Prop} {lo wr : ℕ}

lemma needed_le {q : PeekQueue M} (h : Win conf lo wr q) : needed q wr ≤ 2 * M := by
  have hpos := Nat.pos_of_neZero M
  have hwidth := h.width
  have h1 := ahead_lt q.slotIndex (slotOf M q.readIndexNext)
  have h2 := ahead_lt q.slotIndex (slotOf M q.readIndexMin)
  unfold needed
  split
  · omega
  · split <;> omega

/-- An iteration that passes an empty slot without a result uses up one of the needed ones. -/
lemma needed_passEmptySlot {q : PeekQueue M} (h : Win conf lo wr q) (hM : M < 2 ^ 31)
    (hempty : q.readIndexNext = wr → q.passEmptySlot.readIndexMin ≠ wr)
    (hslot : q.readIndexNext < wr → q.slotIndex ≠ slotOf M q.readIndexNext) :
    needed q.passEmptySlot wr + 1 ≤ needed q wr := by
  have h1 := h.min_le
  have h2 := h.next_le
  rw [passEmptySlot_eq h hM] at hempty ⊢
  dsimp only at hempty
  unfold needed
  by_cases hlt : q.readIndexNext < wr
  · rw [if_pos hlt, if_pos (by simpa [incSlotIndex] using hlt)]
    have := ahead_inc (hslot hlt)
    simp only [show q.incSlotIndex.readIndexNext = q.readIndexNext from rfl]
    omega
  · have hw : q.readIndexNext = wr := by omega
    rw [if_neg hlt, if_neg (by simpa [incSlotIndex] using hlt)]
    have hne := hempty hw
    by_cases hs : q.slotIndex = slotOf M q.readIndexMin ∧ q.readIndexMin < q.readIndexNext
    · rw [if_pos hs] at hne
      have ha : ahead q.slotIndex (slotOf M q.readIndexMin) = 0 := by simp [ahead, hs.1]
      have ha' : ahead q.incSlotIndex.slotIndex (slotOf M (q.readIndexMin + 1)) = 0 := by
        simp [ahead, incSlotIndex_slotOf hs.1]
      simp only [if_pos hs.2, show q.incSlotIndex.readIndexNext = q.readIndexNext from rfl, ha]
      rw [if_pos hs, ha', if_pos (by omega)]
      omega
    · rw [if_neg hs] at hne
      have hlt' : q.readIndexMin < q.readIndexNext := by omega
      have := ahead_inc (q := q) (t := slotOf M q.readIndexMin) fun he => hs ⟨he, hlt'⟩
      simp only [if_pos hlt', show q.incSlotIndex.readIndexNext = q.readIndexNext from rfl]
      rw [if_neg hs, if_pos hlt']
      omega

/-- Enough iterations give a result other than `Unknown`; `Busy` is the answer only at a busy slot,
and `Empty` only when the lower bound has reached the write index. -/
theorem findLoop_result (hM : M < 2 ^ 31) (k : ℕ) : ∀ {q : PeekQueue M}, Win conf lo wr q →
    Clean q → needed q wr ≤ k → ∀ e q', findLoop wr k q = (.error e, q') →
      (e = .busy ∧ ∃ i m, q.readerSlots i = .busy m) ∨ (e = .empty ∧ q'.readIndexMin = wr) := by
  induction k with
  | zero =>
    intro q _ _ hk
    exfalso
    unfold needed at hk
    split at hk
    · omega
    · split at hk <;> omega
  | succ k ih =>
    intro q h hc hk e q' he
    rcases findStep_cases h hM with ⟨m, hs, hf⟩ | ⟨hs, -, hmin, hf⟩ | ⟨hs, hlt, hslot, hf⟩ |
      ⟨n, ha, hmin, hf⟩ | ⟨hs, hempty, hslot, hf⟩ | ⟨n, ha, hmin, hf⟩
    · simp only [findLoop, hf] at he
      cases he
      exact .inl ⟨rfl, _, _, hs⟩
    · simp only [findLoop, hf] at he
      cases he
      exact .inr ⟨rfl, hmin⟩
    · simp only [findLoop, hf] at he
      cases he
    · simp only [findLoop, hf] at he
      cases he
    · simp only [findLoop, hf] at he
      have hn := needed_passEmptySlot h hM hempty hslot
      have := ih (win_passEmptySlot h hM hs) (clean_passEmptySlot h hM hc hs) (by omega) e q' he
      simpa using this
    · exact absurd (hc q.slotIndex n (by rw [ha]; rfl)) (by omega)

end Progress

/-- A peek that finds something unread issues a number, or a handle is alive, or the lower bound has
reached the write index. -/
lemma peekNext_result {w : World M} (h : Inv w) (hM : M < 2 ^ 31)
    (hclean : Clean w.queue.updateReaderSlots.readers) (hcount : w.queue.unconfirmedCount ≠ 0) :
    (w.queue.peekNext.1 = .error .busy ∧ w.handles ≠ []) ∨
    (w.queue.peekNext.1 = .error .empty ∧
      w.queue.peekNext.2.readers.readIndexMin = w.queue.writeIndex) ∨
    ∃ n, w.queue.peekNext.1 = .ok n := by
  have hd := inv_drained h
  have hwin : Win w.Confirmed w.lower w.queue.writeIndex w.queue.updateReaderSlots.readers := hd.win
  have hres := findLoop_result hM (2 * M) hwin hclean (needed_le hwin)
  rw [peekNext_eq hcount]
  rcases hr : w.queue.updateReaderSlots.readers.findReader w.queue.writeIndex with ⟨e | m, r⟩
  · rcases hres e r hr with ⟨rfl, i, m, hb⟩ | ⟨rfl, hmin⟩
    · -- a busy slot belongs to a live handle, once the channel was processed
      refine .inl ⟨rfl, fun hh => ?_⟩
      have hm := hd.acc.mem_iff.mpr (hd.acc.slot_eq_of_busy hb ▸ hb)
      simp [World.pending, World.drained, Queue.updateReaderSlots, hh] at hm
    · exact .inr (.inl ⟨rfl, hmin⟩)
  · exact .inr (.inr ⟨m, rfl⟩)

/-- **Progress**: with no handle alive and an item that is not confirmed, `peek_next` issues a number;
and it never gives up with `Unknown`. -/
theorem peekNext_progress (M : ℕ) [NeZero M] (hM : M < 2 ^ 31) (w : World M)
    (h : Reach World.exec NoWrap (World.start (Queue.new M)) w) :
    (w.handles = [] → (∃ n, w.base ≤ n ∧ n < w.queue.writeIndex ∧ ¬ w.Confirmed n) →
      ∃ n, w.queue.peekNext.1 = .ok n) ∧
    w.queue.peekNext.1 ≠ .error .unknown := by
  obtain ⟨hi, hf⟩ := fifo_of_reach hM h
  have hres := peekNext_result hi hM (fifo_drained hi hf).clean
  constructor
  · rintro hh ⟨n, hn, hlt, hnc⟩
    have hmin := hi.win.min_le
    have hnext := hi.win.next_le
    have hwlt := hi.win.w_lt
    have hle : w.queue.readers.readIndexMin ≤ n := by
      by_contra hgt
      exact hnc (hi.win.past n (by rw [hf.low]; exact hn) (by omega))
    have hcount : w.queue.unconfirmedCount ≠ 0 := by
      unfold Queue.unconfirmedCount minIndex
      rw [wrappingSub_eq (by omega) hwlt]
      omega
    rcases hres hcount with ⟨-, hne⟩ | ⟨hp, hmin'⟩ | hissued
    · exact absurd hh hne
    · have hi' := inv_peekNext hi hM
      rw [World.exec_peekNext_error hp] at hi'
      exact absurd (hi'.win.past n (by rw [hf.low]; exact hn) (by rw [hmin']; exact hlt)) hnc
    · exact hissued
  · by_cases hcount : w.queue.unconfirmedCount = 0
    · simp [Queue.peekNext, hcount]
    · rcases hres hcount with ⟨hp, -⟩ | ⟨hp, -⟩ | ⟨n, hp⟩ <;> simp [hp]

/-- The last of three items was dropped and is retried. -/
theorem peekNext_progress_retry :
    let w := [Op.enqueue, .enqueue, .enqueue, .peekNext, .peekNext, .peekNext, .confirm 0,
      .confirm 0, .drop 0].foldl World.exec (World.start (Queue.new 3))
    (∃ n, w.base ≤ n ∧ n < w.queue.writeIndex ∧ ¬ w.Confirmed n) ∧
      ∃ n, w.queue.peekNext.1 = .ok n := by
  refine ⟨⟨2, by decide⟩, ?_⟩
  exact (peekNext_progress 3 (by decide) _ (.run _ .start (by decide))).1 (by decide)
    ⟨2, by decide⟩

end SensorLink.Peek
