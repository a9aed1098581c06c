import Mathlib.Algebra.BigOperators.Group.List.Basic
import Mathlib.Algebra.Group.Basic
import Mathlib.Tactic.Common

/-!
# Check digits

A list of symbols is checked by a sum to which each symbol adds a value that depends on its place, counted
from the right. Which errors change the sum is read off the values of the places concerned.
-/

namespace SensorLink.Lib

variable {α G : Type*}

section Monoid

variable [AddCommMonoid G] {w : ℕ → α → G}

/-- The sum of the values of the symbols, each at its place from the right -/
def weightedSum (w : ℕ → α → G) : List α → G
  | [] => 0
  | a :: l => w l.length a + weightedSum w l

@[simp]
lemma weightedSum_nil : weightedSum w [] = 0 := rfl

@[simp]
lemma weightedSum_cons (a : α) (l : List α) :
    weightedSum w (a :: l) = w l.length a + weightedSum w l := rfl

lemma weightedSum_append (l l' : List α) :
    weightedSum w (l ++ l') = weightedSum (fun i => w (i + l'.length)) l + weightedSum w l' := by
  induction l with
  | nil => simp
  | cons a l ih => simp [ih, add_assoc]

/-- The same sum, counted in the reversed list. -/
lemma sum_zipIdx_reverse (l : List α) :
    (l.reverse.zipIdx.map fun p => w p.2 p.1).sum = weightedSum w l := by
  induction l with
  | nil => rfl
  | cons a l ih =>
    rw [List.reverse_cons, List.zipIdx_append, List.map_append, List.sum_append, ih, weightedSum_cons,
      add_comm]
    simp

lemma weightedSum_hom {H : Type*} [AddCommMonoid H] (f : G →+ H) (l : List α) :
    weightedSum (fun i a => f (w i a)) l = f (weightedSum w l) := by
  induction l with
  | nil => simp
  | cons a l ih => simp [ih]

lemma weightedSum_map {β : Type*} (f : β → α) (l : List β) :
    weightedSum w (l.map f) = weightedSum (fun i b => w i (f b)) l := by
  induction l with
  | nil => rfl
  | cons b l ih => simp [ih]

end Monoid

section Group

variable [AddCommGroup G] {w : ℕ → α → G} {a b : α}

/-- **A replaced symbol** leaves the sum as it is only if the two have the same value at that place. -/
lemma weightedSum_replace (before behind : List α) :
    weightedSum w (before ++ a :: behind) = weightedSum w (before ++ b :: behind) ↔
      w behind.length a = w behind.length b := by
  rw [weightedSum_append, weightedSum_append]
  simp

/-- **Two exchanged neighbours** leave the sum as it is only if they do so at these two places. -/
lemma weightedSum_swap (before behind : List α) :
    weightedSum w (before ++ a :: b :: behind) = weightedSum w (before ++ b :: a :: behind) ↔
      w (behind.length + 1) a + w behind.length b = w (behind.length + 1) b + w behind.length a := by
  rw [weightedSum_append, weightedSum_append]
  simp only [List.length_cons, weightedSum_cons]
  rw [add_right_inj, ← add_assoc, ← add_assoc, add_left_inj]

/-- **One symbol completes the list** to a given sum. -/
lemma existsUnique_weightedSum (hw : Function.Bijective (w 0)) (l : List α) (total : G) :
    ∃! a, weightedSum w (l ++ [a]) = total := by
  have hsum : ∀ a, weightedSum w (l ++ [a]) = total ↔
      w 0 a = total - weightedSum (fun i => w (i + 1)) l := by
    intro a
    rw [weightedSum_append, eq_sub_iff_add_eq']
    simp
  simp only [hsum]
  exact hw.existsUnique _

end Group

end SensorLink.Lib
