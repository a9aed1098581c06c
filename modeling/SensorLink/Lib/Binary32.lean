import Mathlib.Data.Int.Log
import Mathlib.Data.Rat.Floor
import Mathlib.Tactic.FieldSimp
import Mathlib.Tactic.Linarith
import Mathlib.Tactic.Positivity
import Mathlib.Tactic.Ring

/-!
# Rounding to 24 bits

The values of the format binary32 (Rust's `f32`) and the rounding of its operations: to the nearest value,
and to the even one in a tie. A value is a rational number; overflow and subnormal numbers are left out,
so that the error is relative everywhere.
-/

namespace SensorLink.Lib

/-- The nearest integer, the even one in a tie -/
def roundEven (q : ℚ) : ℤ :=
  let low := ⌊q⌋
  if q - low < 1 / 2 then low
  else if 1 / 2 < q - low then low + 1
  else if low % 2 = 0 then low
  else low + 1

lemma abs_roundEven_sub_le (q : ℚ) : |(roundEven q : ℚ) - q| ≤ 1 / 2 := by
  have hlow := Int.floor_le q
  have hhigh := Int.lt_floor_add_one q
  unfold roundEven
  dsimp only
  rw [abs_le]
  split_ifs <;> push_cast <;> constructor <;> linarith

/-- The value of the last of the 24 bits -/
def lastPlace (q : ℚ) : ℚ := 2 ^ (Int.log 2 |q| - 23)

/-- The result of a binary32 operation with the exact value `q` -/
def binary32 (q : ℚ) : ℚ := if q = 0 then 0 else roundEven (q / lastPlace q) * lastPlace q

lemma lastPlace_pos (q : ℚ) : 0 < lastPlace q := zpow_pos (by norm_num) _

lemma lastPlace_le {q : ℚ} (hq : q ≠ 0) : 2 ^ 23 * lastPlace q ≤ |q| := by
  have hpow := Int.zpow_log_le_self (R := ℚ) (b := 2) (by norm_num) (abs_pos.mpr hq)
  unfold lastPlace
  rw [zpow_sub₀ (by norm_num)]
  norm_num at hpow ⊢
  linarith

/-- **The error of rounding** is at most half of a unit in the last place. -/
lemma abs_binary32_sub_le (q : ℚ) : |binary32 q - q| ≤ |q| / 2 ^ 24 := by
  unfold binary32
  split_ifs with hq
  · simp [hq]
  · have hplace := lastPlace_pos q
    have hround := abs_roundEven_sub_le (q / lastPlace q)
    calc |roundEven (q / lastPlace q) * lastPlace q - q|
        = |roundEven (q / lastPlace q) - q / lastPlace q| * lastPlace q := by
          rw [← abs_of_pos hplace, ← abs_mul, abs_of_pos hplace, sub_mul, div_mul_cancel₀ _ hplace.ne']
      _ ≤ 1 / 2 * lastPlace q := mul_le_mul_of_nonneg_right hround hplace.le
      _ ≤ |q| / 2 ^ 24 := by
          have := lastPlace_le hq
          linarith

lemma abs_binary32_le (q : ℚ) : |binary32 q| ≤ (1 + 1 / 2 ^ 24) * |q| := by
  have herror := abs_binary32_sub_le q
  have htriangle := abs_sub_abs_le_abs_sub (binary32 q) q
  linarith

/-- The cast `as i64`: rounding towards zero, and the nearest bound outside of the range -/
def asI64 (q : ℚ) : ℤ := max (-2 ^ 63) (min (2 ^ 63 - 1) (if 0 ≤ q then ⌊q⌋ else ⌈q⌉))

lemma abs_asI64_le (q : ℚ) : |(asI64 q : ℚ)| ≤ |q| := by
  have hle : |asI64 q| ≤ |if 0 ≤ q then ⌊q⌋ else ⌈q⌉| := by
    unfold asI64
    generalize (if 0 ≤ q then ⌊q⌋ else ⌈q⌉) = t
    rcases abs_cases t with ⟨habs, hsign⟩ | ⟨habs, hsign⟩ <;> rw [habs, abs_le] <;> omega
  have htrunc : |((if 0 ≤ q then ⌊q⌋ else ⌈q⌉ : ℤ) : ℚ)| ≤ |q| := by
    split_ifs with hq
    · rw [abs_of_nonneg hq, abs_of_nonneg (by exact_mod_cast Int.floor_nonneg.mpr hq)]
      exact Int.floor_le q
    · have hceil : ⌈q⌉ ≤ 0 := Int.ceil_le.mpr (by simpa using (not_le.mp hq).le)
      rw [abs_of_neg (not_le.mp hq), abs_of_nonpos (by exact_mod_cast hceil)]
      linarith [Int.le_ceil q]
  calc |(asI64 q : ℚ)| = ((|asI64 q| : ℤ) : ℚ) := (Int.cast_abs).symm
    _ ≤ ((|if 0 ≤ q then ⌊q⌋ else ⌈q⌉| : ℤ) : ℚ) := by exact_mod_cast hle
    _ = |((if 0 ≤ q then ⌊q⌋ else ⌈q⌉ : ℤ) : ℚ)| := Int.cast_abs
    _ ≤ |q| := htrunc

end SensorLink.Lib
