import SensorLink.Lib.Binary32
import SensorLink.Lib.Truncation

/-!
# The slope conversions of `logic/time_adjust.rs`

A time span is scaled by `1 + ppb / 10^9` (forward) or by `1 / (1 - ppb / 10^9)` (reverse, as a sum of at
most 16 corrections). The integers are those of `ℤ`; `none` is a panic, where a result does not fit.
-/

namespace SensorLink.Clock

open SensorLink.Lib

/-! ### Machine integers -/

/-- The result of an `i64` operator -/
def fitI64 (v : ℤ) : Option ℤ := if -2 ^ 63 ≤ v ∧ v < 2 ^ 63 then some v else none

/-- The result of an `i32` operator -/
def fitI32 (v : ℤ) : Option ℤ := if -2 ^ 31 ≤ v ∧ v < 2 ^ 31 then some v else none

/-- The result of a `u32` operator -/
def fitU32 (v : ℕ) : Option ℕ := if v < 2 ^ 32 then some v else none

/-- The quotient of two `i64` -/
def divI64 (v w : ℤ) : Option ℤ := if w = 0 then none else fitI64 (v.tdiv w)

/-- The result of a saturating `i64` operation -/
def saturate (v : ℤ) : ℤ := max (-2 ^ 63) (min v (2 ^ 63 - 1))

def i32Max : ℤ := 2 ^ 31 - 1

lemma fitI64_eq {v : ℤ} (h : |v| < 2 ^ 63) : fitI64 v = some v := by
  rw [abs_lt] at h
  exact if_pos ⟨by omega, h.2⟩

lemma fitI32_eq {v : ℤ} (h : |v| < 2 ^ 31) : fitI32 v = some v := by
  rw [abs_lt] at h
  exact if_pos ⟨by omega, h.2⟩

lemma fitU32_eq {v : ℕ} (h : v < 2 ^ 32) : fitU32 v = some v := if_pos h

lemma fitI64_eq_some_iff {v r : ℤ} : fitI64 v = some r ↔ r = v ∧ -2 ^ 63 ≤ v ∧ v < 2 ^ 63 := by
  unfold fitI64
  split
  next hfit => rw [Option.some.injEq, and_iff_left hfit, eq_comm]
  next hfit =>
    refine iff_of_false (fun h => by cases h) ?_
    rintro ⟨-, hin⟩
    exact hfit hin

lemma fitI64_eq_some {v r : ℤ} (h : fitI64 v = some r) : r = v ∧ -2 ^ 63 ≤ v ∧ v < 2 ^ 63 :=
  fitI64_eq_some_iff.mp h

lemma divI64_eq {v w : ℤ} (hv : -2 ^ 63 ≤ v ∧ v < 2 ^ 63) (hw : 0 < w) : divI64 v w = some (v.tdiv w) := by
  have hle := Int.natAbs_tdiv_le_natAbs v w
  unfold divI64
  rw [if_neg hw.ne']
  apply if_pos
  rcases le_total 0 v with hsign | hsign
  · have := Int.tdiv_nonneg hsign hw.le
    omega
  · have := Int.tdiv_le_tdiv hw hsign
    rw [Int.zero_tdiv] at this
    omega

lemma saturate_range (v : ℤ) : -2 ^ 63 ≤ saturate v ∧ saturate v < 2 ^ 63 := by
  unfold saturate
  omega

/-! ### Conversions -/

/-- `slope_correct` -/
def slopeCorrect (dt correctionPpb : ℤ) : Option ℤ :=
  if saturate |dt| < i32Max then do
    let product ← fitI64 (dt * correctionPpb)
    pure (product.tdiv 1000000000)
  else
    -- large delta: floating point approximation
    pure (asI64 (binary32 (binary32 dt * binary32 (binary32 correctionPpb / 1000000000))))

/-- `forward_slope_convert` -/
def forwardSlopeConvert (dt correctionPpb : ℤ) : Option ℤ := do
  let correction ← slopeCorrect dt correctionPpb
  fitI64 (dt + correction)

/-- The loop of `reverse_slope_convert` -/
def reverseLoop (correctionPpb : ℤ) : ℕ → ℤ → ℤ → Option ℤ
  | 0, _, dt => some dt
  | iterations + 1, deltaAdj, dt => do
    let deltaAdj ← slopeCorrect deltaAdj correctionPpb
    let dt ← fitI64 (dt + deltaAdj)
    if deltaAdj = 0 then pure dt else reverseLoop correctionPpb iterations deltaAdj dt

/-- `reverse_slope_convert`, with `MAX_ITERATIONS` of 16 -/
def reverseSlopeConvert (dt correctionPpb : ℤ) : Option ℤ := reverseLoop correctionPpb 16 dt dt

/-! ### Small spans -/

section Small

variable {dt c : ℤ}

/-- A small span is scaled exactly. -/
lemma slopeCorrect_small (hdt : |dt| < i32Max) (hc : |c| ≤ 2 ^ 31) :
    slopeCorrect dt c = some (scaleBy c 1000000000 dt) := by
  have hsmall : saturate |dt| < i32Max := by
    unfold saturate i32Max at *
    omega
  have hproduct : |dt * c| < 2 ^ 63 := by
    unfold i32Max at hdt
    calc |dt * c| = |dt| * |c| := abs_mul dt c
      _ ≤ (2 ^ 31 - 1) * 2 ^ 31 := mul_le_mul hdt.le hc (abs_nonneg c) (by norm_num)
      _ < 2 ^ 63 := by norm_num
  unfold slopeCorrect
  rw [if_pos hsmall, fitI64_eq hproduct]
  rfl

lemma birkhoffSum_scaleBy_of_zero (c : ℤ) (k : ℕ) : birkhoffSum (scaleBy c 1000000000) id k 0 = 0 := by
  induction k with
  | zero => rfl
  | succ k ih =>
    rw [birkhoffSum_succ', scaleBy_zero, ih]
    rfl

/-- The loop adds up the iterates of the scaling. -/
lemma reverseLoop_small (hc : 4 * |c| ≤ 1000000000) (k : ℕ) {delta : ℤ} (hdelta : |delta| < i32Max)
    (hdt : 3 * |dt| + |delta| < 3 * 2 ^ 63) :
    reverseLoop c k delta dt =
      some (dt + birkhoffSum (scaleBy c 1000000000) id k (scaleBy c 1000000000 delta)) := by
  induction k generalizing delta dt with
  | zero => simp [reverseLoop]
  | succ k ih =>
    have hsmaller := mul_abs_scaleBy_le (n := 1000000000) (by norm_num) hc delta
    have hcorrect := slopeCorrect_small hdelta (c := c) (by omega)
    have hadd := abs_add_le dt (scaleBy c 1000000000 delta)
    have hnonneg := abs_nonneg delta
    have hfit : fitI64 (dt + scaleBy c 1000000000 delta) = some (dt + scaleBy c 1000000000 delta) :=
      fitI64_eq (by omega)
    rw [reverseLoop, hcorrect]
    simp only [Option.bind_eq_bind, Option.bind_some, hfit]
    rw [birkhoffSum_succ']
    split_ifs with hzero
    · rw [hzero, scaleBy_zero, birkhoffSum_scaleBy_of_zero]
      rfl
    · rw [ih (by omega) (by omega), add_assoc]
      rfl

lemma reverseSlopeConvert_small (hdt : |dt| < i32Max) (hc : 4 * |c| ≤ 1000000000) :
    reverseSlopeConvert dt c = some (birkhoffSum (scaleBy c 1000000000) id 17 dt) := by
  unfold reverseSlopeConvert
  rw [reverseLoop_small hc 16 hdt (by unfold i32Max at hdt; omega), birkhoffSum_succ']
  rfl

lemma forwardSlopeConvert_small (hdt : |dt| < i32Max) (hc : 4 * |c| ≤ 1000000000) :
    forwardSlopeConvert dt c = some (dt + scaleBy c 1000000000 dt) := by
  have hsmaller := mul_abs_scaleBy_le (n := 1000000000) (by norm_num) hc dt
  have hadd := abs_add_le dt (scaleBy c 1000000000 dt)
  unfold forwardSlopeConvert
  rw [slopeCorrect_small hdt (by omega), Option.bind_eq_bind, Option.bind_some]
  apply fitI64_eq
  unfold i32Max at hdt
  omega

end Small

/-! ### All spans -/

section Bounds

variable {dt c : ℤ}

/-- No correction of at most half is larger than two thirds of the span, also when it is approximated. -/
lemma slopeCorrect_bound (hc : |c| ≤ 500000000) (dt : ℤ) :
    ∃ correction, slopeCorrect dt c = some correction ∧ 3 * |correction| ≤ 2 * |dt| := by
  by_cases hsmall : |dt| < i32Max
  · refine ⟨_, slopeCorrect_small hsmall (by omega), ?_⟩
    have := mul_abs_scaleBy_le (c := c) (n := 1000000000) (k := 2) (by norm_num) (by omega) dt
    have hnonneg := abs_nonneg dt
    omega
  · have hlarge : ¬ saturate |dt| < i32Max := by
      unfold saturate i32Max at *
      omega
    refine ⟨_, if_neg hlarge, ?_⟩
    set factor := binary32 (binary32 c / 1000000000)
    have hppb : |(c : ℚ)| ≤ 500000000 := by exact_mod_cast hc
    have hfactor : |factor| ≤ (1 + 1 / 2 ^ 24) ^ 2 / 2 := by
      have hcast := abs_binary32_le (c : ℚ)
      have hround := abs_binary32_le (binary32 (c : ℚ) / 1000000000)
      rw [abs_div, abs_of_pos (by norm_num : (0 : ℚ) < 1000000000)] at hround
      linarith
    have hspan := abs_binary32_le (dt : ℚ)
    have hproduct : |binary32 dt * factor| ≤ (1 + 1 / 2 ^ 24) ^ 3 / 2 * |(dt : ℚ)| := by
      rw [abs_mul]
      calc |binary32 (dt : ℚ)| * |factor|
          ≤ (1 + 1 / 2 ^ 24) * |(dt : ℚ)| * ((1 + 1 / 2 ^ 24) ^ 2 / 2) :=
            mul_le_mul hspan hfactor (abs_nonneg _) (by positivity)
        _ = (1 + 1 / 2 ^ 24) ^ 3 / 2 * |(dt : ℚ)| := by ring
    have hresult := (abs_asI64_le _).trans (abs_binary32_le (binary32 (dt : ℚ) * factor))
    have hq : 3 * |((asI64 (binary32 (binary32 dt * factor)) : ℤ) : ℚ)| ≤ 2 * |(dt : ℚ)| := by
      linarith [abs_nonneg (dt : ℚ)]
    exact_mod_cast hq

lemma forwardSlopeConvert_bound (dt : ℤ) (hc : |c| ≤ 500000000) (hdt : 5 * |dt| < 3 * 2 ^ 63) :
    ∃ r, forwardSlopeConvert dt c = some r ∧ 3 * |r| ≤ 5 * |dt| := by
  obtain ⟨correction, hcorrection, hbound⟩ := slopeCorrect_bound hc dt
  have hadd := abs_add_le dt correction
  refine ⟨dt + correction, ?_, by omega⟩
  unfold forwardSlopeConvert
  rw [hcorrection, Option.bind_eq_bind, Option.bind_some]
  exact fitI64_eq (by omega)

/-- The corrections still to come are at most twice the last one. -/
lemma reverseLoop_bound (hc : |c| ≤ 500000000) (k : ℕ) {delta bound : ℤ}
    (hdt : |dt| + 2 * |delta| ≤ bound) (hbound : bound < 2 ^ 63) :
    ∃ r, reverseLoop c k delta dt = some r ∧ |r| ≤ bound := by
  induction k generalizing delta dt with
  | zero =>
    have := abs_nonneg delta
    exact ⟨dt, rfl, by omega⟩
  | succ k ih =>
    obtain ⟨correction, hcorrection, hsmaller⟩ := slopeCorrect_bound hc delta
    have hadd := abs_add_le dt correction
    have hnonneg := abs_nonneg correction
    have hfit := fitI64_eq (v := dt + correction) (by omega)
    rw [reverseLoop, hcorrection]
    simp only [Option.bind_eq_bind, Option.bind_some, hfit]
    split_ifs
    · exact ⟨_, rfl, by omega⟩
    · exact ih (by omega)

lemma reverseSlopeConvert_bound (dt : ℤ) (hc : |c| ≤ 500000000) (hdt : 3 * |dt| < 2 ^ 63) :
    ∃ r, reverseSlopeConvert dt c = some r ∧ |r| ≤ 3 * |dt| :=
  reverseLoop_bound hc 16 (by omega) hdt

end Bounds

end SensorLink.Clock
