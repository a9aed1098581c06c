import Mathlib.Data.List.Infix
import Mathlib.Tactic.Common

/-!
Searching a list for a needle by its windows, and what a separator in it that is not in the needle says.
-/

namespace SensorLink.Lib

variable {α : Type}

/-- The parts of a list that have a length -/
def windows (n : ℕ) (xs : List α) : List (List α) :=
  (List.range (xs.length + 1 - n)).map fun i => (xs.drop i).take n

lemma mem_windows {needle xs : List α} : needle ∈ windows needle.length xs ↔ needle <:+: xs := by
  rw [windows, List.mem_map]
  constructor
  · rintro ⟨i, -, heq⟩
    rw [← heq]
    exact (List.take_prefix _ _).isInfix.trans (List.drop_suffix i xs).isInfix
  · rintro ⟨before, behind, rfl⟩
    refine ⟨before.length, List.mem_range.mpr ?_, ?_⟩
    · rw [List.length_append, List.length_append]
      omega
    · rw [List.append_assoc, List.drop_left, List.take_left]

/-- What is found in front of a separator lies in front of it. -/
lemma prefix_of_notMem {c : α} {m xs ys : List α} (hc : c ∉ m) (h : m <+: xs ++ c :: ys) : m <+: xs := by
  rcases List.prefix_or_prefix_of_prefix h (List.prefix_append xs (c :: ys)) with hm | ⟨rest, rfl⟩
  · exact hm
  · rw [List.prefix_append_right_inj] at h
    cases rest with
    | nil => rw [List.append_nil]
    | cons x rest =>
      obtain ⟨rfl, -⟩ := List.cons_prefix_cons.mp h
      exact absurd (List.mem_append_right xs List.mem_cons_self) hc

/-- A needle around a separator or in front of it begins in front of it; its beginning `m` has none. -/
lemma infix_append_cons {c : α} {m needle xs ys : List α} (hm : m <+: needle) (hc : c ∉ m)
    (h : needle <:+: xs ++ c :: ys) : m <:+: xs ∨ needle <:+: ys := by
  induction xs with
  | nil =>
    rcases List.infix_cons_iff.mp h with hprefix | hys
    · have hfront : m <+: [] := prefix_of_notMem hc (hm.trans hprefix)
      exact .inl hfront.isInfix
    · exact .inr hys
  | cons x xs ih =>
    rcases List.infix_cons_iff.mp h with hprefix | hrest
    · have hfront : m <+: x :: xs := prefix_of_notMem hc (hm.trans hprefix)
      exact .inl hfront.isInfix
    · exact (ih hrest).imp List.infix_cons id

end SensorLink.Lib
