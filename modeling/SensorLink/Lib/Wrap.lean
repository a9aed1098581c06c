import Mathlib.Algebra.GroupWithZero.Nat
import Mathlib.Tactic.Common

/-!
Unsigned 32-bit arithmetic on natural numbers: the operations that wrap at `2 ^ 32`, and what they
are on arguments for which they do not.

A plain operator panics on overflow in a build with checks, and wraps in one without. Numbers of blocks and
fragments are meant to wrap, and are modelled by these operations; for times and sizes a result that does not
fit is an error in either build, and a model of them returns `none`, or `.off`, for it.
-/

namespace SensorLink.Lib

/-- `a.wrapping_add(b)` on `u32`. -/
def wrappingAdd (a b : ℕ) : ℕ := (a + b) % 2 ^ 32

/-- `a.wrapping_sub(b)` on `u32`. -/
def wrappingSub (a b : ℕ) : ℕ := (a + (2 ^ 32 - b)) % 2 ^ 32

/-- `a * b` on `u32`. -/
def wrappingMul (a b : ℕ) : ℕ := a * b % 2 ^ 32

lemma wrappingAdd_lt (a b : ℕ) : wrappingAdd a b < 2 ^ 32 := Nat.mod_lt _ (by decide)

lemma wrappingSub_lt (a b : ℕ) : wrappingSub a b < 2 ^ 32 := Nat.mod_lt _ (by decide)

lemma wrappingAdd_eq {a b : ℕ} (h : a + b < 2 ^ 32) : wrappingAdd a b = a + b :=
  Nat.mod_eq_of_lt h

lemma wrappingSub_eq {a b : ℕ} (h : b ≤ a) (ha : a < 2 ^ 32) : wrappingSub a b = a - b := by
  unfold wrappingSub
  omega

/-- Below zero the difference comes out at the upper end of the range. -/
lemma wrappingSub_of_lt {a b : ℕ} (h : a < b) (hb : b < 2 ^ 32) :
    wrappingSub a b = 2 ^ 32 - (b - a) := by
  unfold wrappingSub
  omega

lemma wrappingSub_wrappingAdd {a b : ℕ} (ha : a < 2 ^ 32) (hb : b < 2 ^ 32) :
    wrappingSub (wrappingAdd a b) a = b := by
  unfold wrappingSub wrappingAdd
  omega

end SensorLink.Lib
