import Mathlib.Order.Lattice
import Mathlib.Tactic.Common

/-!
Lists of which the first elements lack a property and the rest have it, as an ascending list has for a bound:
`findIdx` gives the place where the list changes over.
-/

namespace SensorLink.Lib

section Findidx

variable {α : Type*} {p : α → Bool} {l : List α}

/-- **The change-over**: an index is before it iff its element lacks the property. -/
theorem lt_findIdx_iff (h : l.Pairwise fun a b => p a = true → p b = true) {i : ℕ} (hi : i < l.length) :
    i < l.findIdx p ↔ p l[i] = false := by
  constructor
  · exact fun hlt => List.not_of_lt_findIdx hlt
  · intro hfalse
    by_contra hge
    have hlt : l.findIdx p < l.length := by omega
    have hfound : p l[l.findIdx p] = true := List.findIdx_getElem
    rcases Nat.lt_or_eq_of_le (Nat.not_lt.mp hge) with hbefore | heq
    · have hlater := List.pairwise_iff_getElem.mp h _ _ hlt hi hbefore hfound
      rw [hfalse] at hlater
      cases hlater
    · simp only [heq] at hfound
      rw [hfalse] at hfound
      cases hfound

end Findidx

section Order

variable {α : Type*} [LinearOrder α] {l : List α}

/-- An ascending list is at most `x` before the first element above `x`. -/
theorem lt_findIdx_above_iff (h : l.Pairwise (· ≤ ·)) (x : α) {i : ℕ} (hi : i < l.length) :
    i < l.findIdx (x < ·) ↔ l[i] ≤ x := by
  have hlater : l.Pairwise fun a b => decide (x < a) = true → decide (x < b) = true := by
    refine h.imp fun {a b} hab ha => ?_
    exact decide_eq_true ((of_decide_eq_true ha).trans_le hab)
  rw [lt_findIdx_iff hlater hi, decide_eq_false_iff_not, not_lt]

end Order

end SensorLink.Lib
