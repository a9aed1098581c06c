import Mathlib.Data.Nat.ModEq
import Mathlib.Order.Interval.Finset.Nat
import SensorLink.Peek.Accounting

/-!
# The window of issued sequence numbers

Without a wrap of the sequence numbers, the numbers from `read_index_min` up to `read_index_next` are
at most `MAX_PEEKS`, so each has a slot of its own: it is busy with the number, holds it for a retry,
or is empty because the number was confirmed. `Win` is that invariant. What a slot still holds from
below the lower bound (after an overwrite) is never retried: `isInBounds_iff`.

`M < 2 ^ 31` is the size of an array on the 32-bit target.
-/

set_option linter.unusedSectionVars false

namespace SensorLink.Peek

open SensorLink.Lib PeekQueue

variable {M : ℕ} [NeZero M]

/-- Two sequence numbers less than `M` apart share no slot. -/
lemma eq_of_slotOf_eq {a b : ℕ} (h : slotOf M a = slotOf M b) (hab : a ≤ b) (hlt : b < a + M) :
    a = b := by
  have hdvd := (Nat.modEq_iff_dvd' hab).mp (slotOf_eq_iff.mp h)
  have := Nat.eq_zero_of_dvd_of_lt hdvd (by omega)
  omega

/-- The invariant of the readers: `conf` are the confirmed sequence numbers, `lo` the lower bound that
overwrites have set, `w` the write index. -/
structure Win (conf : ℕ → Prop) (lo w : ℕ) (q : PeekQueue M) : Prop where
  lo_le : lo ≤ q.readIndexMin
  min_le : q.readIndexMin ≤ q.readIndexNext
  next_le : q.readIndexNext ≤ w
  w_lt : w < 2 ^ 32
  width : q.readIndexNext ≤ q.readIndexMin + M
  own : ∀ i n, (q.readerSlots i).seqNo? = some n → i = slotOf M n ∧ n < q.readIndexNext
  window : ∀ n, q.readIndexMin ≤ n → n < q.readIndexNext →
    (q.readerSlots (slotOf M n) = .none ∧ conf n) ∨ q.readerSlots (slotOf M n) = .busy n ∨
      q.readerSlots (slotOf M n) = .abort n
  past : ∀ n, lo ≤ n → n < q.readIndexMin → conf n

section Step

variable {conf : ℕ → Prop} {lo w : ℕ} {q : PeekQueue M}

/-- Only the slot of the lower bound passes for it. -/
lemma slotSeqNo_eq_iff (hM : M < 2 ^ 31) (hmin : q.readIndexMin < 2 ^ 32) (i : Fin M) :
    q.slotSeqNo i = q.readIndexMin ↔ i = slotOf M q.readIndexMin := by
  have hi := i.isLt
  have hmod : q.readIndexMin % M < M := Nat.mod_lt _ (Nat.pos_of_neZero M)
  have hle : q.readIndexMin % M ≤ q.readIndexMin := Nat.mod_le _ _
  have hval : i = slotOf M q.readIndexMin ↔ i.val = q.readIndexMin % M := by
    simp [slotOf, Fin.ext_iff]
  rw [hval]
  unfold slotSeqNo wrappingAdd
  omega

/-- What is still held from below the lower bound is out of bounds, and nothing else is. -/
lemma isInBounds_iff (h : Win conf lo w q) (hM : M < 2 ^ 31) {n : ℕ}
    (hn : n < q.readIndexNext) : q.isInBounds n = true ↔ q.readIndexMin ≤ n := by
  have h1 := h.min_le
  have h2 := h.next_le
  have h3 := h.w_lt
  have h4 := h.width
  unfold isInBounds minIndex
  rw [wrappingSub_eq (a := q.readIndexNext) (by omega) (by omega)]
  by_cases hle : q.readIndexMin ≤ n
  · rw [wrappingSub_eq hle (by omega), if_neg (by omega), if_neg (by omega)]
    simp [hle]
  · rw [wrappingSub_of_lt (by omega) (by omega)]
    by_cases hw : M < 2 ^ 32 - (q.readIndexMin - n)
    · rw [if_pos hw]
      simp [hle]
    · rw [if_neg hw, if_pos (by omega)]
      simp [hle]

lemma incSlotIndex_val (q : PeekQueue M) :
    q.incSlotIndex.slotIndex.val = (q.slotIndex.val + 1) % M := by
  have hi := q.slotIndex.isLt
  unfold incSlotIndex
  simp only [Fin.val_ofNat]
  split
  next hle =>
    rw [show q.slotIndex.val + 1 = M by omega, Nat.mod_self, Nat.zero_mod]
  next => rfl

/-- Passing an empty slot: the next slot, and one more confirmed item below the lower bound when the
slot is the one of the lower bound. -/
lemma passEmptySlot_eq (h : Win conf lo w q) (hM : M < 2 ^ 31) :
    q.passEmptySlot = { q.incSlotIndex with
      readIndexMin := if q.slotIndex = slotOf M q.readIndexMin ∧
          q.readIndexMin < q.readIndexNext then q.readIndexMin + 1 else q.readIndexMin } := by
  have h1 := h.min_le
  have h2 := h.next_le
  have h3 := h.w_lt
  have hiff := slotSeqNo_eq_iff (q := q.incSlotIndex) hM (by simp only [incSlotIndex]; omega)
    q.slotIndex
  simp only [show q.incSlotIndex.readIndexMin = q.readIndexMin from rfl] at hiff
  unfold passEmptySlot
  dsimp only
  by_cases hs : q.slotIndex = slotOf M q.readIndexMin
  · have hseq := hiff.mpr hs
    by_cases hlt : q.readIndexMin < q.readIndexNext
    · rw [if_pos ⟨hseq, by rw [hseq]; omega⟩, if_pos ⟨hs, hlt⟩]
      simp only [show q.incSlotIndex.readIndexMin = q.readIndexMin from rfl]
      rw [wrappingAdd_eq (by omega)]
    · rw [if_neg (fun hc => hc.2 (by rw [hseq]; omega)), if_neg (fun hc => hlt hc.2)]
      rfl
  · rw [if_neg (fun hc => hs (hiff.mp hc.1)), if_neg (fun hc => hs hc.1)]
    rfl

lemma win_passEmptySlot (h : Win conf lo w q) (hM : M < 2 ^ 31)
    (hnone : q.readerSlots q.slotIndex = .none) : Win conf lo w q.passEmptySlot := by
  rw [passEmptySlot_eq h hM]
  by_cases hc : q.slotIndex = slotOf M q.readIndexMin ∧ q.readIndexMin < q.readIndexNext
  · have hconf : conf q.readIndexMin := by
      rcases h.window _ le_rfl hc.2 with ⟨-, hconf⟩ | hb | ha
      · exact hconf
      · rw [← hc.1, hnone] at hb
        cases hb
      · rw [← hc.1, hnone] at ha
        cases ha
    simp only [hc, and_self, if_true]
    refine ⟨Nat.le_succ_of_le h.lo_le, hc.2, h.next_le, h.w_lt, ?_, h.own, ?_, ?_⟩
    · have := h.width
      simp only [incSlotIndex]
      omega
    · intro n hn hlt
      exact h.window n (by simp only at hn; omega) hlt
    · intro n hn hlt
      simp only at hlt
      rcases Nat.lt_or_ge n q.readIndexMin with hlt' | hge
      · exact h.past n hn hlt'
      · rwa [show n = q.readIndexMin by omega]
  · simp only [hc, if_false]
    exact ⟨h.lo_le, h.min_le, h.next_le, h.w_lt, h.width, h.own, h.window, h.past⟩

/-- Allocating the next sequence number in its own, empty slot. When the window is full, that is the
slot of the lower bound, which passing it has moved. -/
lemma win_alloc (h : Win conf lo w q) (hM : M < 2 ^ 31)
    (hnone : q.readerSlots q.slotIndex = .none) (hslot : q.slotIndex = slotOf M q.readIndexNext)
    (hlt : q.readIndexNext < w) :
    Win conf lo w { q.passEmptySlot.setSlot q.slotIndex (.busy q.readIndexNext) with
      readIndexNext := wrappingAdd q.readIndexNext 1 } := by
  have hp := win_passEmptySlot h hM hnone
  have hwlt := h.w_lt
  have hnext : q.passEmptySlot.readIndexNext = q.readIndexNext := by
    rw [passEmptySlot_eq h hM]
    rfl
  have hwidth : q.readIndexNext < q.passEmptySlot.readIndexMin + M := by
    have hw := h.width
    have hmin := h.min_le
    have hpos := Nat.pos_of_neZero M
    rw [passEmptySlot_eq h hM]
    dsimp only
    by_cases hfull : q.readIndexNext = q.readIndexMin + M
    · rw [if_pos ⟨hslot.trans (slotOf_eq_iff.mpr (by rw [hfull, Nat.add_mod_right])), by omega⟩]
      omega
    · split <;> omega
  have hple := hp.min_le
  rw [hnext] at hple
  rw [wrappingAdd_eq (by omega)]
  refine ⟨hp.lo_le, ?_, hlt, h.w_lt, ?_, ?_, ?_, hp.past⟩
  · simp only [setSlot]
    omega
  · simp only [setSlot]
    omega
  · intro i n hi
    by_cases his : i = q.slotIndex
    · subst his
      simp only [setSlot, Function.update_self, ReadState.seqNo?, Option.some.injEq] at hi
      subst hi
      exact ⟨hslot, Nat.lt_succ_self _⟩
    · simp only [setSlot, Function.update_of_ne his, passEmptySlot_readerSlots] at hi
      obtain ⟨h1, h2⟩ := h.own i n hi
      exact ⟨h1, Nat.lt_succ_of_lt h2⟩
  · intro n hn hltn
    simp only [setSlot] at hn hltn ⊢
    rcases Nat.lt_or_ge n q.readIndexNext with hlt' | hge
    · have hne : slotOf M n ≠ q.slotIndex := by
        intro he
        rw [hslot] at he
        have := eq_of_slotOf_eq he (by omega) (by omega)
        omega
      rw [Function.update_of_ne hne]
      exact hp.window n hn (by rw [hnext]; exact hlt')
    · have : n = q.readIndexNext := by omega
      subst this
      right; left
      rw [← hslot, Function.update_self]

/-- Retrying an aborted read that is in bounds. -/
lemma win_retry (h : Win conf lo w q) {n : ℕ} (habort : q.readerSlots q.slotIndex = .abort n)
    (hmin : q.readIndexMin ≤ n) :
    Win conf lo w (q.incSlotIndex.setSlot q.slotIndex (.busy n)) := by
  obtain ⟨hslot, hn⟩ := h.own q.slotIndex n (by rw [habort]; rfl)
  refine ⟨h.lo_le, h.min_le, h.next_le, h.w_lt, h.width, ?_, ?_, h.past⟩
  · intro i m hi
    by_cases his : i = q.slotIndex
    · subst his
      simp only [setSlot, Function.update_self, ReadState.seqNo?, Option.some.injEq] at hi
      subst hi
      exact ⟨hslot, hn⟩
    · simp only [setSlot, Function.update_of_ne his] at hi
      exact h.own i m hi
  · intro m hm hlt
    simp only [setSlot, incSlotIndex] at hm hlt ⊢
    by_cases hmn : m = n
    · subst hmn
      right; left
      rw [← hslot, Function.update_self]
    · have hne : slotOf M m ≠ q.slotIndex := by
        intro he
        rcases h.window m hm hlt with ⟨hx, -⟩ | hx | hx <;> rw [he, habort] at hx <;> cases hx
        exact hmn rfl
      rw [Function.update_of_ne hne]
      exact h.window m hm hlt

/-- Dropping an aborted read whose item was overwritten. -/
lemma win_clear (h : Win conf lo w q) {n : ℕ} (habort : q.readerSlots q.slotIndex = .abort n)
    (hmin : n < q.readIndexMin) : Win conf lo w (q.setSlot q.slotIndex .none) := by
  refine ⟨h.lo_le, h.min_le, h.next_le, h.w_lt, h.width, ?_, ?_, h.past⟩
  · intro i m hi
    by_cases his : i = q.slotIndex
    · subst his
      simp [setSlot, ReadState.seqNo?] at hi
    · simp only [setSlot, Function.update_of_ne his] at hi
      exact h.own i m hi
  · intro m hm hlt
    simp only [setSlot] at hm hlt ⊢
    have hne : slotOf M m ≠ q.slotIndex := by
      intro he
      rcases h.window m hm hlt with ⟨hx, -⟩ | hx | hx <;> rw [he, habort] at hx <;> cases hx
      omega
    rw [Function.update_of_ne hne]
    exact h.window m hm hlt

/-- **What one iteration of the search can do.** -/
theorem findStep_cases (h : Win conf lo w q) (hM : M < 2 ^ 31) :
    (∃ m, q.readerSlots q.slotIndex = .busy m ∧ q.findStep w = (some (.error .busy), q)) ∨
    (q.readerSlots q.slotIndex = .none ∧ q.readIndexNext = w ∧ q.passEmptySlot.readIndexMin = w ∧
      q.findStep w = (some (.error .empty), q.passEmptySlot)) ∨
    (q.readerSlots q.slotIndex = .none ∧ q.readIndexNext < w ∧
      q.slotIndex = slotOf M q.readIndexNext ∧
      q.findStep w = (some (.ok q.readIndexNext),
        { q.passEmptySlot.setSlot q.slotIndex (.busy q.readIndexNext) with
          readIndexNext := wrappingAdd q.readIndexNext 1 })) ∨
    (∃ n, q.readerSlots q.slotIndex = .abort n ∧ q.readIndexMin ≤ n ∧
      q.findStep w = (some (.ok n), q.incSlotIndex.setSlot q.slotIndex (.busy n))) ∨
    (q.readerSlots q.slotIndex = .none ∧
      (q.readIndexNext = w → q.passEmptySlot.readIndexMin ≠ w) ∧
      (q.readIndexNext < w → q.slotIndex ≠ slotOf M q.readIndexNext) ∧
      q.findStep w = (none, q.passEmptySlot)) ∨
    (∃ n, q.readerSlots q.slotIndex = .abort n ∧ n < q.readIndexMin ∧
      q.findStep w = (none, q.setSlot q.slotIndex .none)) := by
  have hnext := h.next_le
  cases hs : q.readerSlots q.slotIndex with
  | busy m =>
    left
    exact ⟨m, rfl, by simp only [findStep, hs]⟩
  | none =>
    right
    by_cases hw : q.readIndexNext = w
    · by_cases hm : q.passEmptySlot.readIndexMin = w
      · left
        exact ⟨rfl, hw, hm, by simp [findStep, hs, minIndex, hw, hm]⟩
      · right; right; right; left
        exact ⟨rfl, fun _ => hm, fun hlt => by omega, by simp [findStep, hs, minIndex, hw, hm]⟩
    · by_cases hslot : q.slotIndex = slotOf M q.readIndexNext
      · right; left
        exact ⟨rfl, by omega, hslot, by simp only [findStep, hs, hw, if_false, if_pos hslot]⟩
      · right; right; right; left
        exact ⟨rfl, fun he => absurd he hw, fun _ => hslot,
          by simp only [findStep, hs, hw, if_false, if_neg hslot]⟩
  | abort n =>
    have hb := isInBounds_iff h hM (h.own q.slotIndex n (by rw [hs]; rfl)).2
    right; right; right
    by_cases hmin : q.readIndexMin ≤ n
    · left
      exact ⟨n, rfl, hmin, by simp only [findStep, hs, hb.mpr hmin, if_true]⟩
    · right; right
      have hf : q.isInBounds n = false := by
        rw [← Bool.not_eq_true, hb]
        exact hmin
      exact ⟨n, rfl, by omega, by simp [findStep, hs, hf]⟩

end Step

/-! ### The search as a whole -/

/-- From `q` to `q'` nothing was issued: the lower bound may have moved up, and slots may have been
emptied whose item was overwritten. -/
structure Passed (q q' : PeekQueue M) : Prop where
  next : q'.readIndexNext = q.readIndexNext
  min_le : q.readIndexMin ≤ q'.readIndexMin
  slots : ∀ i, q'.readerSlots i = q.readerSlots i ∨
    ∃ n, q.readerSlots i = .abort n ∧ q'.readerSlots i = .none

/-- From `q` to `q'` the sequence number `n` was issued: for the first time, as the next one, or
again, after an abort. -/
structure Issued (q : PeekQueue M) (w n : ℕ) (q' : PeekQueue M) : Prop where
  min_le : q.readIndexMin ≤ n
  how : (n = q.readIndexNext ∧ n < w ∧ q'.readIndexNext = n + 1) ∨
    (q.readerSlots (slotOf M n) = .abort n ∧ n < q.readIndexNext ∧
      q'.readIndexNext = q.readIndexNext)
  slots : ∀ i m, q'.readerSlots i = .abort m → q.readerSlots i = .abort m
  mono : q.readIndexMin ≤ q'.readIndexMin

section Loop

variable {conf : ℕ → Prop} {lo w : ℕ} {q q₁ q₂ : PeekQueue M}

lemma Passed.trans (h : Passed q q₁) (h' : Passed q₁ q₂) : Passed q q₂ := by
  refine ⟨h'.next.trans h.next, h.min_le.trans h'.min_le, fun i => ?_⟩
  rcases h'.slots i with he' | ⟨n, ha, hn⟩
  · rcases h.slots i with he | ⟨n, ha, hn⟩
    · exact .inl (he'.trans he)
    · exact .inr ⟨n, ha, he'.trans hn⟩
  · rcases h.slots i with he | ⟨m, -, hm⟩
    · exact .inr ⟨n, he ▸ ha, hn⟩
    · rw [hm] at ha
      cases ha

lemma Passed.abort (h : Passed q q₁) {i : Fin M} {n : ℕ} (ha : q₁.readerSlots i = .abort n) :
    q.readerSlots i = .abort n := by
  rcases h.slots i with he | ⟨m, -, hm⟩
  · rw [← he, ha]
  · rw [hm] at ha
    cases ha

lemma Passed.issued (h : Passed q q₁) {n : ℕ} (h' : Issued q₁ w n q₂) : Issued q w n q₂ := by
  refine ⟨h.min_le.trans h'.min_le, ?_, fun i m hm => h.abort (h'.slots i m hm),
    h.min_le.trans h'.mono⟩
  rcases h'.how with ⟨hn, hlt, hnext⟩ | ⟨ha, hlt, hnext⟩
  · exact .inl ⟨hn.trans h.next, hlt, hnext⟩
  · exact .inr ⟨h.abort ha, h.next ▸ hlt, hnext.trans h.next⟩

lemma passed_passEmptySlot (h : Win conf lo w q) (hM : M < 2 ^ 31) : Passed q q.passEmptySlot := by
  refine ⟨?_, ?_, fun i => .inl (by simp)⟩
  · rw [passEmptySlot_eq h hM]
    rfl
  · rw [passEmptySlot_eq h hM]
    dsimp only
    split <;> omega

lemma passed_clear {n : ℕ} (ha : q.readerSlots q.slotIndex = .abort n) :
    Passed q (q.setSlot q.slotIndex .none) := by
  refine ⟨rfl, le_rfl, fun i => ?_⟩
  by_cases hi : i = q.slotIndex
  · subst hi
    exact .inr ⟨n, ha, by simp [setSlot]⟩
  · exact .inl (by simp [setSlot, hi])

lemma issued_alloc (h : Win conf lo w q) (hM : M < 2 ^ 31) (hlt : q.readIndexNext < w) :
    Issued q w q.readIndexNext { q.passEmptySlot.setSlot q.slotIndex (.busy q.readIndexNext) with
      readIndexNext := wrappingAdd q.readIndexNext 1 } := by
  have hw := h.w_lt
  refine ⟨h.min_le, .inl ⟨rfl, hlt, wrappingAdd_eq (by omega)⟩, fun i m hm => ?_,
    (passed_passEmptySlot h hM).min_le⟩
  by_cases hi : i = q.slotIndex
  · subst hi
    simp [setSlot] at hm
  · simpa [setSlot, hi] using hm

lemma issued_retry (h : Win conf lo w q) {n : ℕ} (ha : q.readerSlots q.slotIndex = .abort n)
    (hmin : q.readIndexMin ≤ n) :
    Issued q w n (q.incSlotIndex.setSlot q.slotIndex (.busy n)) := by
  obtain ⟨hslot, hn⟩ := h.own q.slotIndex n (by rw [ha]; rfl)
  refine ⟨hmin, .inr ⟨hslot ▸ ha, hn, rfl⟩, fun i m hm => ?_, le_rfl⟩
  by_cases hi : i = q.slotIndex
  · subst hi
    simp [setSlot] at hm
  · simpa [setSlot, incSlotIndex, hi] using hm

/-- **The search** keeps the window, and issues at most one sequence number. -/
theorem findLoop_spec (hM : M < 2 ^ 31) (k : ℕ) : ∀ {q : PeekQueue M}, Win conf lo w q →
    (∀ e q', findLoop w k q = (.error e, q') → Win conf lo w q' ∧ Passed q q') ∧
    (∀ n q', findLoop w k q = (.ok n, q') → Win conf lo w q' ∧ Issued q w n q') := by
  induction k with
  | zero =>
    intro q h
    refine ⟨fun e q' he => ?_, fun n q' he => by cases he⟩
    cases he
    exact ⟨h, rfl, le_rfl, fun _ => .inl rfl⟩
  | succ k ih =>
    intro q h
    -- an iteration that does not return leaves the rest of the loop a queue it has only passed
    have hcont : ∀ q₁, q.findStep w = (none, q₁) → Win conf lo w q₁ → Passed q q₁ →
        (∀ e q', findLoop w (k + 1) q = (.error e, q') → Win conf lo w q' ∧ Passed q q') ∧
        (∀ n q', findLoop w (k + 1) q = (.ok n, q') → Win conf lo w q' ∧ Issued q w n q') := by
      intro q₁ hf hw₁ hp
      obtain ⟨herr, hok⟩ := ih hw₁
      simp only [findLoop, hf]
      refine ⟨fun e q' he => ?_, fun n q' he => ?_⟩
      · obtain ⟨hw', hp'⟩ := herr e q' he
        exact ⟨hw', hp.trans hp'⟩
      · obtain ⟨hw', hi'⟩ := hok n q' he
        exact ⟨hw', hp.issued hi'⟩
    rcases findStep_cases h hM with ⟨m, -, hf⟩ | ⟨hs, -, -, hf⟩ | ⟨hs, hlt, hslot, hf⟩ |
      ⟨n, ha, hmin, hf⟩ | ⟨hs, -, -, hf⟩ | ⟨n, ha, hmin, hf⟩
    · simp only [findLoop, hf]
      refine ⟨fun e q' he => ?_, fun n q' he => by cases he⟩
      cases he
      exact ⟨h, rfl, le_rfl, fun _ => .inl rfl⟩
    · simp only [findLoop, hf]
      refine ⟨fun e q' he => ?_, fun n q' he => by cases he⟩
      cases he
      exact ⟨win_passEmptySlot h hM hs, passed_passEmptySlot h hM⟩
    · simp only [findLoop, hf]
      refine ⟨fun e q' he => (by cases he), fun n q' he => ?_⟩
      cases he
      exact ⟨win_alloc h hM hs hslot hlt, issued_alloc h hM hlt⟩
    · simp only [findLoop, hf]
      refine ⟨fun e q' he => (by cases he), fun m q' he => ?_⟩
      cases he
      exact ⟨win_retry h ha hmin, issued_retry h ha hmin⟩
    · exact hcont _ hf (win_passEmptySlot h hM hs) (passed_passEmptySlot h hM)
    · exact hcont _ hf (win_clear h ha hmin) (passed_clear ha)

end Loop

end SensorLink.Peek
