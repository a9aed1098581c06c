import SensorLink.Peek.Safety

/-!
# A dropped item comes again

The slot of an item whose handle was dropped keeps its number for a retry, and `find_reader` does not go
past it. So every peek that finds no handle alive issues the item or comes closer to its slot: the item
has to wait for fewer than `MAX_PEEKS` others.
-/

set_option linter.unusedSectionVars false

namespace SensorLink.Peek

open SensorLink.Lib PeekQueue

variable {M : ℕ} [NeZero M] {n : ℕ}

/-- The handle of `n` was dropped, and since then `n` was neither issued again nor overwritten. -/
structure Waits (w : World M) (n : ℕ) : Prop where
  dropped : lastEvent w.trace n = some (.dropped n)
  lower_le : w.lower ≤ n

/-- How many slots there are before the one of `n`. -/
def World.distance (w : World M) (n : ℕ) : ℕ := ahead w.queue.readers.slotIndex (slotOf M n)

lemma World.distance_lt (w : World M) (n : ℕ) : w.distance n < M := ahead_lt _ _

/-! ### The search -/

section Search

variable {conf : ℕ → Prop} {lo wr : ℕ}

/-- The slot keeps `n` for a retry, and `n` is in bounds. -/
structure Kept (q : PeekQueue M) (n : ℕ) : Prop where
  slot : q.readerSlots (slotOf M n) = .abort n
  min_le : q.readIndexMin ≤ n

/-- The iterations until the slot of `n`: the slots before it, each of which may have to be cleared
first. -/
def rounds (q : PeekQueue M) (n : ℕ) : ℕ :=
  2 * ahead q.slotIndex (slotOf M n) + if q.readerSlots q.slotIndex = .none then 0 else 1

lemma rounds_lt (q : PeekQueue M) (n : ℕ) : rounds q n < 2 * M := by
  have h := ahead_lt q.slotIndex (slotOf M n)
  unfold rounds
  split <;> omega

lemma Kept.next {q : PeekQueue M} (h : Kept q n) (hw : Win conf lo wr q) : n < q.readIndexNext :=
  (hw.own (slotOf M n) n (by rw [h.slot]; rfl)).2

/-- Passing an empty slot, which is not the one of `n`. -/
lemma Kept.pass {q : PeekQueue M} (h : Kept q n) (hw : Win conf lo wr q) (hM : M < 2 ^ 31)
    (hs : q.readerSlots q.slotIndex = .none) : Kept q.passEmptySlot n ∧
      ahead q.passEmptySlot.slotIndex (slotOf M n) + 1 = ahead q.slotIndex (slotOf M n) := by
  have hne : q.slotIndex ≠ slotOf M n := by
    intro he
    rw [he, h.slot] at hs
    cases hs
  have hmin := h.min_le
  rw [passEmptySlot_eq hw hM]
  refine ⟨⟨h.slot, ?_⟩, ahead_inc hne⟩
  dsimp only
  split
  next hc =>
    have : n ≠ q.readIndexMin := fun he => hne (he ▸ hc.1)
    omega
  next => exact hmin

/-- **The search issues `n`, or stops before its slot**: where it issues another item, the slot is
nearer; and with enough iterations it only stops without an item at a slot that is busy. -/
theorem findLoop_kept (hM : M < 2 ^ 31) (k : ℕ) : ∀ {q : PeekQueue M}, Win conf lo wr q → Kept q n →
    ∀ r q', findLoop wr k q = (r, q') → r = .ok n ∨ Kept q' n ∧
      ahead q'.slotIndex (slotOf M n) ≤ ahead q.slotIndex (slotOf M n) ∧
      (rounds q n < k → (∀ i m, q.readerSlots i ≠ .busy m) →
        ahead q'.slotIndex (slotOf M n) < ahead q.slotIndex (slotOf M n)) := by
  induction k with
  | zero =>
    intro q hw hk r q' he
    cases he
    exact .inr ⟨hk, le_rfl, fun hc => absurd hc (Nat.not_lt_zero _)⟩
  | succ k ih =>
    intro q hw hk r q' he
    have hn := hk.next hw
    have hmin := hk.min_le
    rcases findStep_cases hw hM with ⟨m, hs, hf⟩ | ⟨hs, hnext, hempty, hf⟩ | ⟨hs, hlt, hslot, hf⟩ |
      ⟨m, ha, hm, hf⟩ | ⟨hs, -, -, hf⟩ | ⟨m, ha, hm, hf⟩
    · simp only [findLoop, hf] at he
      cases he
      exact .inr ⟨hk, le_rfl, fun _ hfree => absurd hs (hfree _ m)⟩
    · -- the lower bound cannot be at the write index
      have hle := (hk.pass hw hM hs).1.min_le
      omega
    · simp only [findLoop, hf] at he
      cases he
      obtain ⟨hk', ha⟩ := hk.pass hw hM hs
      have hne : q.slotIndex ≠ slotOf M n := by
        intro hc
        rw [hc, hk.slot] at hs
        cases hs
      refine .inr ⟨⟨?_, hk'.min_le⟩, ?_, fun _ _ => ?_⟩
      · simp only [setSlot, Function.update_of_ne hne.symm]
        exact hk'.slot
      · exact (Nat.le_succ _).trans ha.le
      · exact Nat.lt_of_succ_le ha.le
    · simp only [findLoop, hf] at he
      cases he
      by_cases hmn : m = n
      · exact .inl (by rw [hmn])
      · have hne : q.slotIndex ≠ slotOf M n := by
          intro hc
          rw [hc, hk.slot] at ha
          exact hmn (ReadState.abort.inj ha).symm
        have hinc := ahead_inc hne
        refine .inr ⟨⟨?_, hmin⟩, ?_, fun _ _ => ?_⟩
        · simp only [setSlot, Function.update_of_ne hne.symm]
          exact hk.slot
        · exact (Nat.le_succ _).trans hinc.le
        · exact Nat.lt_of_succ_le hinc.le
    · simp only [findLoop, hf] at he
      obtain ⟨hk', ha⟩ := hk.pass hw hM hs
      rcases ih (win_passEmptySlot hw hM hs) hk' r q' he with hr | ⟨hk'', hle, -⟩
      · exact .inl hr
      · exact .inr ⟨hk'', by omega, fun _ _ => by omega⟩
    · -- an item that was overwritten is forgotten, and the search stays at its slot
      simp only [findLoop, hf] at he
      have hne : q.slotIndex ≠ slotOf M n := by
        intro hc
        rw [hc, hk.slot] at ha
        obtain rfl := ReadState.abort.inj ha
        omega
      have hk' : Kept (q.setSlot q.slotIndex .none) n := by
        refine ⟨?_, hmin⟩
        simp only [setSlot, Function.update_of_ne hne.symm]
        exact hk.slot
      rcases ih (win_clear hw ha hm) hk' r q' he with hr | ⟨hk'', hle, hlt⟩
      · exact .inl hr
      · refine .inr ⟨hk'', hle, fun hrounds hfree => hlt ?_ fun i m' => ?_⟩
        · unfold rounds at hrounds ⊢
          simp only [setSlot, Function.update_self, if_true, ha, reduceCtorEq, if_false] at hrounds ⊢
          omega
        · simp only [setSlot]
          by_cases hi : i = q.slotIndex
          · rw [hi, Function.update_self]
            exact fun hc => by cases hc
          · rw [Function.update_of_ne hi]
            exact hfree i m'

end Search

/-! ### The calls -/

section Calls

variable {w : World M}

/-- What waits was issued, and is in bounds. -/
lemma Waits.bounds (hn : Waits w n) (h : Inv w) :
    w.queue.readers.readIndexMin ≤ n ∧ n < w.queue.readers.readIndexNext := by
  constructor
  · by_contra hlt
    have := h.stays n (h.win.past n hn.lower_le (Nat.not_le.mp hlt))
    rw [hn.dropped] at this
    cases this
  · by_contra hge
    have := h.fresh n (Nat.not_lt.mp hge)
    rw [hn.dropped] at this
    cases this

/-- After the channel was processed, its slot keeps it. -/
lemma Waits.kept (hn : Waits w n) (h : Inv w) : Kept w.queue.updateReaderSlots.readers n := by
  have hd := inv_drained h
  obtain ⟨hmin, hnext⟩ := Waits.bounds (w := w.drained) ⟨hn.dropped, hn.lower_le⟩ hd
  rcases hd.win.window n hmin hnext with ⟨-, hc⟩ | hb | ha
  · have := h.stays n hc
    rw [hn.dropped] at this
    cases this
  · -- a busy slot belongs to a live handle, once the channel was processed
    have hm : n ∈ w.drained.pending := hd.acc.mem_iff.mpr hb
    simp only [World.pending, World.drained, Queue.updateReaderSlots, List.map_nil,
      List.append_nil] at hm
    have := h.live n hm
    rw [hn.dropped] at this
    cases this
  · exact ⟨ha, hmin⟩

lemma foldl_update_slotIndex (cs : List Confirm) : ∀ q : PeekQueue M,
    (cs.foldl update q).slotIndex = q.slotIndex := by
  induction cs with
  | nil => exact fun _ => rfl
  | cons c cs ih =>
    intro q
    rw [List.foldl_cons, ih]
    unfold update
    dsimp only
    split <;> rfl

/-- **A peek** issues `n`, or `n` goes on waiting; and its turn comes nearer if no handle is alive. -/
theorem Waits.peekNext (hn : Waits w n) (h : Inv w) (hM : M < 2 ^ 31) :
    w.queue.peekNext.1 = .ok n ∨ Waits (w.exec .peekNext) n ∧
      (w.exec .peekNext).distance n ≤ w.distance n ∧
      (w.handles = [] → (w.exec .peekNext).distance n < w.distance n) := by
  have hd := inv_drained h
  have hwin : Win w.Confirmed w.lower w.queue.writeIndex w.queue.updateReaderSlots.readers := hd.win
  have hkept := hn.kept h
  have hslot : w.queue.updateReaderSlots.readers.slotIndex = w.queue.readers.slotIndex :=
    foldl_update_slotIndex _ _
  have hfree : w.handles = [] → ∀ i m, w.queue.updateReaderSlots.readers.readerSlots i ≠ .busy m := by
    intro hh i m hb
    have hm : m ∈ w.drained.pending := hd.acc.mem_iff.mpr (hd.acc.slot_eq_of_busy hb ▸ hb)
    simp [World.pending, World.drained, Queue.updateReaderSlots, hh] at hm
  have hcount : w.queue.unconfirmedCount ≠ 0 := by
    obtain ⟨hmin, hnext⟩ := hn.bounds h
    have hle := h.win.next_le
    unfold Queue.unconfirmedCount minIndex
    rw [wrappingSub_eq (by omega) h.win.w_lt]
    omega
  have hfind := findLoop_kept hM (2 * M) hwin hkept
  rcases w.exec_peekNext_cases with ⟨hc, -⟩ | ⟨-, e, r, hf, he⟩ | ⟨-, m, r, hf, he⟩
  · exact absurd hc hcount
  · rcases hfind _ _ hf with hr | ⟨-, hle, hlt⟩
    · cases hr
    · right
      rw [he]
      refine ⟨⟨hn.dropped, hn.lower_le⟩, ?_, fun hh => ?_⟩
      · exact hle.trans_eq (congrArg (ahead · _) hslot)
      · exact (hlt (rounds_lt _ _) (hfree hh)).trans_eq (congrArg (ahead · _) hslot)
  · rcases hfind _ _ hf with hr | ⟨-, hle, hlt⟩
    · left
      rw [peekNext_eq hcount, hf]
      exact hr
    · by_cases hmn : m = n
      · left
        rw [peekNext_eq hcount, hf, hmn]
      · right
        rw [he]
        refine ⟨⟨?_, hn.lower_le⟩, ?_, fun hh => ?_⟩
        · rw [lastEvent_cons, if_neg (show ¬(Event.issued m).id = n from hmn)]
          exact hn.dropped
        · exact hle.trans_eq (congrArg (ahead · _) hslot)
        · exact (hlt (rounds_lt _ _) (hfree hh)).trans_eq (congrArg (ahead · _) hslot)

/-- What is issued is in bounds and was not confirmed. -/
lemma issued_bounds (h : Inv w) (hM : M < 2 ^ 31) (hn : w.queue.peekNext.1 = .ok n) :
    w.lower ≤ n ∧ w.queue.peekNext.2.readers.readIndexMin ≤ n ∧ ¬w.Confirmed n := by
  have hd := inv_drained h
  obtain ⟨r, hf⟩ := findReader_of_issued hn
  have hlower : w.lower ≤ n :=
    hd.win.lo_le.trans ((findLoop_spec hM (2 * M) hd.win).2 n r hf).2.min_le
  have h' := inv_peekNext h hM
  rw [World.exec_peekNext_ok hn] at h'
  -- its last event is that it was issued
  have hlast : ¬ .confirmed n ∈ (.issued n :: w.trace : List Event) := by
    intro hc
    have := h'.stays n hc
    rw [lastEvent_cons, if_pos (show (Event.issued n).id = n from rfl)] at this
    cases this
  refine ⟨hlower, ?_, fun hc => hlast (List.mem_cons_of_mem _ hc)⟩
  by_contra hlt
  exact hlast (h'.win.past n hlower (Nat.not_le.mp hlt))

/-- Another handle is confirmed or dropped. -/
lemma Waits.settle (hn : Waits w n) (h : Inv w) (k : ℕ) (success : Bool) :
    Waits (w.settle k success) n ∧ (w.settle k success).distance n = w.distance n := by
  unfold World.settle
  cases hk : w.handles[k]? with
  | none => exact ⟨hn, rfl⟩
  | some m =>
    have hlive := h.live m (List.mem_of_getElem? hk)
    have hne : m ≠ n := by
      rintro rfl
      rw [hn.dropped] at hlive
      cases hlive
    refine ⟨⟨?_, hn.lower_le⟩, rfl⟩
    dsimp only
    rw [lastEvent_cons, if_neg]
    · exact hn.dropped
    · cases success <;> exact hne

lemma Waits.waitConfirmation (hn : Waits w n) : Waits (w.exec .waitConfirmation) n ∧
    (w.exec .waitConfirmation).distance n = w.distance n := by
  simp only [World.exec, Queue.waitConfirmation, World.distance]
  refine ⟨⟨hn.dropped, hn.lower_le⟩, ?_⟩
  cases w.queue.confirmChannel with
  | nil => rfl
  | cons c rest => exact congrArg (ahead · _) (foldl_update_slotIndex [c] w.queue.readers)

lemma Waits.isDrained (hn : Waits w n) : Waits (w.exec .isDrained) n ∧
    (w.exec .isDrained).distance n = w.distance n :=
  ⟨⟨hn.dropped, hn.lower_le⟩, congrArg (ahead · _) (foldl_update_slotIndex _ _)⟩

/-- An item is counted, which may overwrite `n`. -/
lemma Waits.enqueue (hn : Waits w n) (hlower : (w.exec .enqueue).lower ≤ n) :
    Waits (w.exec .enqueue) n ∧ (w.exec .enqueue).distance n = w.distance n := by
  refine ⟨⟨hn.dropped, hlower⟩, congrArg (ahead · _) ?_⟩
  simp only [World.exec]
  unfold Queue.enqueue
  dsimp only
  split
  · rfl
  · split
    · unfold bumpMinIndex
      dsimp only
      split <;> rfl
    · rfl

end Calls

end SensorLink.Peek
