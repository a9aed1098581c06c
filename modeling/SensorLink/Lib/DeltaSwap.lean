import Mathlib.Tactic.Common

/-!
# Exchanging bits within a word

A delta swap exchanges the bits of a mask with those `n` places above them. On bits it is a map of
indices, so that what several of them do to a word can be computed on the indices alone.
-/

namespace SensorLink.Lib

variable {w n i : ℕ} {mask : BitVec w}

/-- The bits of the mask exchanged with those `n` places above -/
def deltaSwap (x : BitVec w) (n : ℕ) (mask : BitVec w) : BitVec w :=
  let delta := (x ^^^ (x >>> n)) &&& mask
  x ^^^ delta ^^^ (delta <<< n)

/-- Where bit `i` comes from -/
def swapIndex (n : ℕ) (mask : BitVec w) (i : ℕ) : ℕ :=
  if mask.getLsbD i then i + n else if (mask <<< n).getLsbD i then i - n else i

lemma not_above (h : mask &&& (mask <<< n) = 0) (hi : mask.getLsbD i = true) :
    (mask <<< n).getLsbD i = false := by
  have hbit : (mask &&& (mask <<< n)).getLsbD i = false := by simp [h]
  rw [BitVec.getLsbD_and, hi, Bool.true_and] at hbit
  exact hbit

/-- **A delta swap moves bits**, when its two fields do not overlap. -/
lemma getLsbD_deltaSwap (h : mask &&& (mask <<< n) = 0) (x : BitVec w) (hi : i < w) :
    (deltaSwap x n mask).getLsbD i = x.getLsbD (swapIndex n mask i) := by
  have habove : (mask <<< n).getLsbD i = (!decide (i < n) && mask.getLsbD (i - n)) := by
    rw [BitVec.getLsbD_shiftLeft, decide_eq_true hi, Bool.true_and]
  have hbit : (deltaSwap x n mask).getLsbD i =
      (x.getLsbD i ^^ ((x.getLsbD i ^^ x.getLsbD (i + n)) && mask.getLsbD i) ^^
        ((x.getLsbD (i - n) ^^ x.getLsbD (n + (i - n))) && (mask <<< n).getLsbD i)) := by
    simp only [deltaSwap, BitVec.getLsbD_xor, BitVec.getLsbD_and, BitVec.getLsbD_shiftLeft,
      BitVec.getLsbD_ushiftRight, decide_eq_true hi, Bool.true_and, Nat.add_comm n i]
    ac_rfl
  rw [hbit, swapIndex]
  cases hmask : mask.getLsbD i with
  | true =>
    rw [not_above h hmask, if_pos rfl]
    simp
  | false =>
    rw [if_neg Bool.false_ne_true]
    cases hset : (mask <<< n).getLsbD i with
    | true =>
      have hle : ¬ i < n := by
        intro hlt
        simp [habove, hlt] at hset
      have hback : n + (i - n) = i := by omega
      rw [if_pos rfl, hback]
      cases x.getLsbD i <;> simp
    | false => simp

/-- A choice between two words, bit by bit -/
lemma getLsbD_select (x y mask : BitVec w) (hi : i < w) :
    ((x &&& mask) ||| (y &&& ~~~mask)).getLsbD i =
      if mask.getLsbD i then x.getLsbD i else y.getLsbD i := by
  simp only [BitVec.getLsbD_or, BitVec.getLsbD_and, BitVec.getLsbD_not, decide_eq_true hi, Bool.true_and]
  cases mask.getLsbD i <;> simp

end SensorLink.Lib
