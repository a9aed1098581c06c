import Mathlib.Algebra.GroupWithZero.Nat
import Mathlib.Tactic.Common

/-!
Lists of ranges that cover an interval without gap or overlap, in ascending order.
-/

namespace SensorLink.Lib

/-- The ranges of the elements of a list cover `[lo, hi)` one after another; none is empty. -/
def Tiles {α : Type*} (start len : α → ℕ) : ℕ → List α → ℕ → Prop
  | lo, [], hi => lo = hi
  | lo, a :: l, hi => start a = lo ∧ 0 < len a ∧ Tiles start len (lo + len a) l hi

namespace Tiles

variable {α : Type*} {start len : α → ℕ} {lo hi : ℕ} {l : List α}

lemma nil : Tiles start len lo [] lo := rfl

lemma le (h : Tiles start len lo l hi) : lo ≤ hi := by
  induction l generalizing lo with
  | nil => exact Nat.le_of_eq h
  | cons a l ih =>
    have hrest := ih h.2.2
    omega

/-- **Exactness**: a point is in one of the ranges iff it is in the interval. -/
theorem mem_iff (h : Tiles start len lo l hi) (x : ℕ) :
    (∃ a ∈ l, start a ≤ x ∧ x < start a + len a) ↔ lo ≤ x ∧ x < hi := by
  induction l generalizing lo with
  | nil =>
    obtain rfl : lo = hi := h
    simp only [List.not_mem_nil, false_and, exists_false, false_iff]
    omega
  | cons a l ih =>
    obtain ⟨hstart, hlen, hrest⟩ := h
    have hle := hrest.le
    simp only [List.mem_cons, exists_eq_or_imp, ih hrest, hstart]
    omega

/-- A range lies in the interval. -/
lemma bounds (h : Tiles start len lo l hi) {a : α} (ha : a ∈ l) : lo ≤ start a ∧ start a + len a ≤ hi := by
  induction l generalizing lo with
  | nil => cases ha
  | cons b l ih =>
    obtain ⟨hstart, hlen, hrest⟩ := h
    have hle := hrest.le
    rcases List.mem_cons.mp ha with rfl | ha
    · omega
    · have hbounds := ih hrest ha
      omega

/-- The interval is as long as the ranges together. -/
lemma hi_eq (h : Tiles start len lo l hi) : hi = lo + (l.map len).sum := by
  induction l generalizing lo with
  | nil => exact h.symm
  | cons a l ih =>
    rw [ih h.2.2, List.map_cons, List.sum_cons, Nat.add_assoc]

end Tiles

end SensorLink.Lib
