import Mathlib.Algebra.Order.Ring.Abs
import Mathlib.Data.Int.ConditionallyCompleteOrder
import Mathlib.Dynamics.BirkhoffSum.Basic
import Mathlib.Tactic.Linarith
import Mathlib.Tactic.LinearCombination
import Mathlib.Tactic.Ring

/-!
# Scaling with a division that rounds towards zero

`scaleBy c n x` is `x * c / n` on the integers, with the division of C and Rust. It is additive up to one,
monotone or antitone with the sign of `c`, and for `|c| ≤ n` it does not spread two arguments. The sums of
its iterates (`birkhoffSum` of the identity) invert `x - scaleBy c n x` up to the number of summands.
-/

namespace SensorLink.Lib

/-- `x * c / n`, rounded towards zero -/
def scaleBy (c n x : ℤ) : ℤ := (x * c).tdiv n

section Scale

variable {c n : ℤ}

@[simp] lemma scaleBy_zero : scaleBy c n 0 = 0 := by simp [scaleBy]

@[simp] lemma scaleBy_neg_left (x : ℤ) : scaleBy (-c) n x = - scaleBy c n x := by
  simp [scaleBy, Int.neg_tdiv]

/-- What is rounded away has the sign of the product, and is smaller than `n`. -/
lemma scaleBy_spec (hn : 0 < n) (c x : ℤ) : ∃ rest, x * c = n * scaleBy c n x + rest ∧
    (0 ≤ x * c → 0 ≤ rest) ∧ (x * c ≤ 0 → rest ≤ 0) ∧ |rest| < n := by
  refine ⟨(x * c).tmod n, (Int.mul_tdiv_add_tmod (x * c) n).symm, Int.tmod_nonneg n, ?_, ?_⟩
  · intro hneg
    have hopposite := Int.tmod_nonneg n (a := -(x * c)) (by omega)
    rw [Int.neg_tmod] at hopposite
    omega
  · exact abs_lt.mpr ⟨Int.lt_tmod_of_pos _ hn, Int.tmod_lt_of_pos _ hn⟩

lemma scaleBy_mono (hn : 0 < n) (hc : 0 ≤ c) : Monotone (scaleBy c n) := by
  intro x y hxy
  exact Int.tdiv_le_tdiv hn (Int.mul_le_mul_of_nonneg_right hxy hc)

lemma scaleBy_anti (hn : 0 < n) (hc : c ≤ 0) : Antitone (scaleBy c n) := by
  intro x y hxy
  exact Int.tdiv_le_tdiv hn (Int.mul_le_mul_of_nonpos_right hxy hc)

/-- Scaling does not enlarge by more than `c / n`. -/
lemma mul_abs_scaleBy_le {k : ℤ} (hn : 0 < n) (hc : k * |c| ≤ n) (x : ℤ) :
    k * |scaleBy c n x| ≤ |x| := by
  have hle : |scaleBy c n x| * n ≤ |x| * |c| := by
    rw [← abs_mul, scaleBy, Int.abs_eq_natAbs, Int.abs_eq_natAbs, Int.natAbs_tdiv]
    have hquotient := Nat.div_mul_le_self (x * c).natAbs n.natAbs
    rw [← Int.natAbs_of_nonneg hn.le]
    exact_mod_cast hquotient
  rcases le_or_gt k 0 with hk | hk
  · have := mul_nonneg (neg_nonneg.mpr hk) (abs_nonneg (scaleBy c n x))
    have := abs_nonneg x
    linarith
  · have hchain : k * |scaleBy c n x| * n ≤ |x| * n := calc
      k * |scaleBy c n x| * n = k * (|scaleBy c n x| * n) := mul_assoc _ _ _
      _ ≤ k * (|x| * |c|) := Int.mul_le_mul_of_nonneg_left hle hk.le
      _ = |x| * (k * |c|) := by ring
      _ ≤ |x| * n := Int.mul_le_mul_of_nonneg_left hc (abs_nonneg x)
    exact Int.le_of_mul_le_mul_right hchain hn

/-- Scaling is additive up to one. -/
lemma abs_scaleBy_add_sub_le (hn : 0 < n) (x y : ℤ) :
    |scaleBy c n (x + y) - (scaleBy c n x + scaleBy c n y)| ≤ 1 := by
  obtain ⟨r, hx, hxpos, hxneg, hr⟩ := scaleBy_spec hn c x
  obtain ⟨s, hy, hypos, hyneg, hs⟩ := scaleBy_spec hn c y
  obtain ⟨t, hsum, hpos, hneg, ht⟩ := scaleBy_spec hn c (x + y)
  have hkey : n * (scaleBy c n (x + y) - (scaleBy c n x + scaleBy c n y)) = r + s - t := by
    linear_combination hx + hy - hsum
  rw [abs_lt] at hr hs ht
  have hadd : (x + y) * c = x * c + y * c := add_mul x y c
  -- with equal signs `r + s` and `t` have the same sign, else `r` and `s` have opposite ones
  have hbound : -(2 * n) < r + s - t ∧ r + s - t < 2 * n := by
    rcases le_total 0 (x * c) with hxc | hxc <;> rcases le_total 0 (y * c) with hyc | hyc
    · have := hxpos hxc
      have := hypos hyc
      have := hpos (by omega)
      omega
    · have := hxpos hxc
      have := hyneg hyc
      omega
    · have := hxneg hxc
      have := hypos hyc
      omega
    · have := hxneg hxc
      have := hyneg hyc
      have := hneg (by omega)
      omega
  rw [← hkey] at hbound
  have hlow : -2 < scaleBy c n (x + y) - (scaleBy c n x + scaleBy c n y) := by
    apply lt_of_mul_lt_mul_left (a := n) _ hn.le
    linarith
  have hhigh : scaleBy c n (x + y) - (scaleBy c n x + scaleBy c n y) < 2 := by
    apply lt_of_mul_lt_mul_left (a := n) _ hn.le
    linarith
  rw [abs_le]
  omega

/-- Whole multiples of the divisor, of a numerator of any sign. -/
lemma tdiv_add_mul_le (hn : 0 < n) {m : ℤ} (hm : 0 ≤ m) (a : ℤ) :
    (a + m * n).tdiv n ≤ a.tdiv n + m := by
  have ha := Int.mul_tdiv_add_tmod a n
  have hb := Int.mul_tdiv_add_tmod (a + m * n) n
  have hrest := Int.lt_tmod_of_pos (a + m * n) hn
  have hrest' := Int.tmod_lt_of_pos a hn
  by_contra hlt
  have hge : a.tdiv n + m + 1 ≤ (a + m * n).tdiv n := by omega
  have hscaled := Int.mul_le_mul_of_nonneg_left hge hn.le
  have hexpand : n * (a.tdiv n + m + 1) = n * a.tdiv n + m * n + n := by ring
  have hover : n + (a + m * n).tmod n ≤ a.tmod n := by omega
  -- so the rest of the larger numerator is negative, and both numerators are
  have hnegative : a + m * n < 0 := by
    by_contra hnonneg
    have := Int.tmod_nonneg n (a := a + m * n) (by omega)
    omega
  have hproduct : 0 ≤ m * n := mul_nonneg hm hn.le
  have hopposite := Int.tmod_nonneg n (a := -a) (by omega)
  rw [Int.neg_tmod] at hopposite
  omega

/-- Two arguments are not spread. -/
lemma abs_scaleBy_sub_le (hn : 0 < n) (hc : |c| ≤ n) {x y : ℤ} (hxy : x ≤ y) :
    |scaleBy c n y - scaleBy c n x| ≤ y - x := by
  have hpos : ∀ d : ℤ, 0 ≤ d → d ≤ n → |scaleBy d n y - scaleBy d n x| ≤ y - x := by
    intro d hd hdn
    have hle := scaleBy_mono hn hd hxy
    have hproduct : y * d ≤ x * d + (y - x) * n := by
      have := Int.mul_le_mul_of_nonneg_left hdn (sub_nonneg.mpr hxy)
      linarith [sub_mul y x d]
    have hstep : scaleBy d n y ≤ scaleBy d n x + (y - x) :=
      (Int.tdiv_le_tdiv hn hproduct).trans (tdiv_add_mul_le hn (by omega) _)
    rw [abs_of_nonneg (by omega)]
    omega
  rcases le_total 0 c with hsign | hsign
  · exact hpos c hsign ((le_abs_self c).trans hc)
  · have hneg := hpos (-c) (by omega) ((neg_le_abs c).trans hc)
    rwa [scaleBy_neg_left, scaleBy_neg_left, neg_sub_neg, abs_sub_comm] at hneg

/-! ### Iterates -/

lemma mul_abs_iterate_scaleBy_le {k : ℕ} (hn : 0 < n) (hc : k * |c| ≤ n) (i : ℕ) (x : ℤ) :
    (k : ℤ) ^ i * |(scaleBy c n)^[i] x| ≤ |x| := by
  induction i generalizing x with
  | zero => simp
  | succ i ih =>
    calc (k : ℤ) ^ (i + 1) * |(scaleBy c n)^[i + 1] x|
        = k * (k ^ i * |(scaleBy c n)^[i] (scaleBy c n x)|) := by
          rw [Function.iterate_succ_apply]
          ring
      _ ≤ k * |scaleBy c n x| := Int.mul_le_mul_of_nonneg_left (ih _) (Int.natCast_nonneg k)
      _ ≤ |x| := mul_abs_scaleBy_le hn hc x

/-- The sum of the iterates, scaled, is the sum without its first term, up to one for each term. -/
lemma abs_birkhoffSum_scaleBy_sub_le (hn : 0 < n) (k : ℕ) (x : ℤ) :
    |birkhoffSum (scaleBy c n) id k (scaleBy c n x) - scaleBy c n (birkhoffSum (scaleBy c n) id k x)| ≤
      k := by
  induction k generalizing x with
  | zero => simp
  | succ k ih =>
    have hsum := abs_scaleBy_add_sub_le (c := c) hn x (birkhoffSum (scaleBy c n) id k (scaleBy c n x))
    have hrest := ih (scaleBy c n x)
    rw [birkhoffSum_succ', birkhoffSum_succ' _ _ _ x, id, id]
    rw [abs_le] at *
    push_cast
    omega

end Scale

/-! ### Sums of iterates -/

section Sums

variable {f : ℤ → ℤ}

lemma birkhoffSum_mono (hf : Monotone f) (k : ℕ) : Monotone (birkhoffSum f id k) := by
  induction k with
  | zero => intro x y _; simp
  | succ k ih =>
    intro x y hxy
    rw [birkhoffSum_succ', birkhoffSum_succ']
    exact add_le_add hxy (ih (hf hxy))

/-- The differences of two sums alternate, and do not grow. -/
lemma birkhoffSum_sub_le (hf : Antitone f) (hspread : ∀ x y, x ≤ y → |f y - f x| ≤ y - x) (k : ℕ)
    {x y : ℤ} (hxy : x ≤ y) :
    0 ≤ birkhoffSum f id k y - birkhoffSum f id k x ∧
      birkhoffSum f id k y - birkhoffSum f id k x ≤ y - x := by
  induction k generalizing x y with
  | zero => simpa using hxy
  | succ k ih =>
    rw [birkhoffSum_succ', birkhoffSum_succ']
    have hstep := hspread x y hxy
    have hrest := ih (hf hxy)
    rw [abs_le] at hstep
    simp only [id]
    omega

end Sums

end SensorLink.Lib
