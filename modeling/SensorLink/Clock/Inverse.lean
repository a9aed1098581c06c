import SensorLink.Clock.Estimate

/-!
# Raw and temperature-corrected times

With a correction of at most a quarter, the sum of the iterates that converts a raw time is monotone, and
the conversion back differs from its inverse by at most one microsecond for each iterate. Both hold while
the offsets to the reference points are below `i32::MAX`; larger offsets are approximated.
-/

namespace SensorLink.Clock

open SensorLink.Lib

namespace ClockDriftEstimate

variable {s : ClockDriftEstimate}

/-- The slope of the correction is at most a quarter. -/
def SlopeWithinQuarter (s : ClockDriftEstimate) : Prop :=
  ∀ tRaw tTemp e, s.temp = some (tRaw, tTemp, e) → |e.errorPpb| ≤ 250000000

/-- The offset of a raw time to the reference point is below `i32::MAX`. -/
def RawNear (s : ClockDriftEstimate) (raw : ℤ) : Prop :=
  ∀ tRaw tTemp e, s.temp = some (tRaw, tTemp, e) → |raw - tRaw| < i32Max

/-- The offset of a corrected time to the reference point is below `i32::MAX`. -/
def CorrectedNear (s : ClockDriftEstimate) (corrected : ℤ) : Prop :=
  ∀ tRaw tTemp e, s.temp = some (tRaw, tTemp, e) → |corrected - tTemp| < i32Max

/-! ### The two scalings -/

/-- The span of corrected time for a span of raw time -/
def correctedSpan (c d : ℤ) : ℤ := birkhoffSum (scaleBy (-c) 1000000000) id 17 d

/-- The span of raw time for a span of corrected time -/
def rawSpan (c d : ℤ) : ℤ := d + scaleBy c 1000000000 d

section Spans

variable {c : ℤ}

lemma correctedSpan_mono (hc : |c| ≤ 250000000) : Monotone (correctedSpan c) := by
  rcases le_total 0 c with hsign | hsign
  · intro x y hxy
    have hanti : Antitone (scaleBy (-c) 1000000000) := scaleBy_anti (by norm_num) (by omega)
    have hspread : ∀ x y, x ≤ y →
        |scaleBy (-c) 1000000000 y - scaleBy (-c) 1000000000 x| ≤ y - x := by
      intro x y hxy
      exact abs_scaleBy_sub_le (by norm_num) (by rw [abs_neg]; omega) hxy
    have := (birkhoffSum_sub_le hanti hspread 17 hxy).1
    unfold correctedSpan
    omega
  · exact birkhoffSum_mono (scaleBy_mono (by norm_num) (by omega)) 17

lemma rawSpan_mono (hc : |c| ≤ 250000000) : Monotone (rawSpan c) := by
  intro x y hxy
  have hspread := abs_scaleBy_sub_le (c := c) (n := 1000000000) (by norm_num) (by omega) hxy
  rw [abs_le] at hspread
  unfold rawSpan
  omega

/-- **The way back** misses by at most one for each iterate. -/
lemma abs_rawSpan_correctedSpan_sub_le (hc : |c| ≤ 250000000) {d : ℤ} (hd : |d| < i32Max) :
    |rawSpan c (correctedSpan c d) - d| ≤ 16 := by
  set f := scaleBy (-c) 1000000000
  have hlast : f^[16] d = 0 := by
    have hshrinks := mul_abs_iterate_scaleBy_le (c := -c) (k := 4) (by norm_num : (0 : ℤ) < 1000000000)
      (by rw [abs_neg]; omega) 16 d
    change ((4 : ℕ) : ℤ) ^ 16 * |f^[16] d| ≤ |d| at hshrinks
    unfold i32Max at hd
    rw [← abs_eq_zero]
    have := abs_nonneg (f^[16] d)
    omega
  have hsum : correctedSpan c d = birkhoffSum f id 16 d := by
    change birkhoffSum f id 17 d = _
    rw [birkhoffSum_succ, hlast]
    exact add_zero _
  have hhead : correctedSpan c d = d + birkhoffSum f id 16 (f d) := birkhoffSum_succ' f id 16 d
  have herror := abs_birkhoffSum_scaleBy_sub_le (c := -c) (by norm_num : (0 : ℤ) < 1000000000) 16 d
  change |birkhoffSum f id 16 (f d) - f (birkhoffSum f id 16 d)| ≤ (16 : ℕ) at herror
  have hback : rawSpan c (correctedSpan c d) = correctedSpan c d - f (correctedSpan c d) := by
    unfold rawSpan
    rw [show f (correctedSpan c d) = - scaleBy c 1000000000 (correctedSpan c d) from
      scaleBy_neg_left _, sub_neg_eq_add]
  rw [← hsum, abs_le] at herror
  rw [hback, abs_le]
  omega

end Spans

/-! ### The conversions -/

section Conversions

variable {raw corrected tRaw tTemp : ℤ} {e : TempErrorEstimate}

/-- A raw time is converted, unless its corrected time overflows. -/
lemma convertRawToTempCorrected_eq (htemp : s.temp = some (tRaw, tTemp, e)) (he : |e.errorPpb| ≤ 250000000)
    (hraw : |raw - tRaw| < i32Max) :
    s.convertRawToTempCorrected raw = fitI64 (tTemp + correctedSpan e.errorPpb (raw - tRaw)) := by
  have hspan := reverseSlopeConvert_small (c := -e.errorPpb) hraw (by rw [abs_neg]; omega)
  unfold convertRawToTempCorrected
  unfold i32Max at hraw
  rw [htemp]
  dsimp only
  rw [fitI64_eq (by omega), fitI32_eq (by rw [abs_neg]; omega)]
  simp only [Option.bind_eq_bind, Option.bind_some, hspan]
  rfl

/-- A corrected time is converted, unless its raw time overflows. -/
lemma convertTempCorrectedToRaw_eq (htemp : s.temp = some (tRaw, tTemp, e)) (he : |e.errorPpb| ≤ 250000000)
    (hcorrected : |corrected - tTemp| < i32Max) :
    s.convertTempCorrectedToRaw corrected = fitI64 (tRaw + rawSpan e.errorPpb (corrected - tTemp)) := by
  have hspan := forwardSlopeConvert_small (c := e.errorPpb) hcorrected (by omega)
  unfold convertTempCorrectedToRaw
  unfold i32Max at hcorrected
  rw [htemp]
  dsimp only
  rw [fitI64_eq (by omega)]
  simp only [Option.bind_eq_bind, Option.bind_some, hspan]
  rfl

/-- There and back, away from the ends of `i64`. -/
lemma convert_back (hslope : s.SlopeWithinQuarter) (hraw : s.RawNear raw)
    (hcorrected : s.CorrectedNear corrected) (hconvert : s.convertRawToTempCorrected raw = some corrected)
    (hlow : -2 ^ 63 + 17 ≤ raw) (hhigh : raw < 2 ^ 63 - 17) :
    ∃ raw', s.convertTempCorrectedToRaw corrected = some raw' ∧ |raw' - raw| ≤ 17 := by
  cases htemp : s.temp with
  | none =>
    have hsame : corrected = raw := by
      unfold convertRawToTempCorrected at hconvert
      rw [htemp] at hconvert
      exact (Option.some.inj hconvert).symm
    refine ⟨raw, ?_, by simp⟩
    unfold convertTempCorrectedToRaw
    rw [htemp, hsame]
  | some temp =>
    obtain ⟨tRaw, tTemp, e⟩ := temp
    have he := hslope _ _ _ htemp
    have hd := hraw _ _ _ htemp
    rw [convertRawToTempCorrected_eq htemp he hd] at hconvert
    obtain ⟨heq, -⟩ := fitI64_eq_some hconvert
    have hspan : corrected - tTemp = correctedSpan e.errorPpb (raw - tRaw) := by omega
    have hback := abs_rawSpan_correctedSpan_sub_le he hd
    rw [abs_le] at hback
    rw [convertTempCorrectedToRaw_eq htemp he (hcorrected _ _ _ htemp), hspan]
    refine ⟨_, if_pos (by omega), ?_⟩
    rw [abs_le]
    omega

/-- The reason why a near raw time is not converted. -/
lemma convertRawToTempCorrected_eq_none (hslope : s.SlopeWithinQuarter) (hraw : s.RawNear raw)
    (hnone : s.convertRawToTempCorrected raw = none) :
    ∃ tRaw tTemp e d, s.temp = some (tRaw, tTemp, e) ∧
      reverseSlopeConvert (raw - tRaw) (-e.errorPpb) = some d ∧
      ¬ (-2 ^ 63 ≤ tTemp + d ∧ tTemp + d < 2 ^ 63) := by
  cases htemp : s.temp with
  | none =>
    unfold convertRawToTempCorrected at hnone
    rw [htemp] at hnone
    cases hnone
  | some temp =>
    obtain ⟨tRaw, tTemp, e⟩ := temp
    have he := hslope _ _ _ htemp
    have hd := hraw _ _ _ htemp
    rw [convertRawToTempCorrected_eq htemp he hd] at hnone
    refine ⟨tRaw, tTemp, e, _, rfl, reverseSlopeConvert_small hd (by rw [abs_neg]; omega), ?_⟩
    intro hfit
    have hsome : fitI64 (tTemp + correctedSpan e.errorPpb (raw - tRaw)) = some _ := if_pos hfit
    rw [hsome] at hnone
    cases hnone

lemma convertRawToTempCorrected_mono (hslope : s.SlopeWithinQuarter) {raw raw' corrected corrected' : ℤ}
    (hle : raw ≤ raw') (hraw : s.RawNear raw) (hraw' : s.RawNear raw')
    (hconvert : s.convertRawToTempCorrected raw = some corrected)
    (hconvert' : s.convertRawToTempCorrected raw' = some corrected') : corrected ≤ corrected' := by
  cases htemp : s.temp with
  | none =>
    unfold convertRawToTempCorrected at hconvert hconvert'
    rw [htemp] at hconvert hconvert'
    cases hconvert
    cases hconvert'
    exact hle
  | some temp =>
    obtain ⟨tRaw, tTemp, e⟩ := temp
    have he := hslope _ _ _ htemp
    rw [convertRawToTempCorrected_eq htemp he (hraw _ _ _ htemp)] at hconvert
    rw [convertRawToTempCorrected_eq htemp he (hraw' _ _ _ htemp)] at hconvert'
    obtain ⟨heq, -⟩ := fitI64_eq_some hconvert
    obtain ⟨heq', -⟩ := fitI64_eq_some hconvert'
    have := correctedSpan_mono he (show raw - tRaw ≤ raw' - tRaw by omega)
    omega

lemma convertTempCorrectedToRaw_mono (hslope : s.SlopeWithinQuarter) {raw raw' corrected corrected' : ℤ}
    (hle : corrected ≤ corrected') (hcorrected : s.CorrectedNear corrected)
    (hcorrected' : s.CorrectedNear corrected') (hconvert : s.convertTempCorrectedToRaw corrected = some raw)
    (hconvert' : s.convertTempCorrectedToRaw corrected' = some raw') : raw ≤ raw' := by
  cases htemp : s.temp with
  | none =>
    unfold convertTempCorrectedToRaw at hconvert hconvert'
    rw [htemp] at hconvert hconvert'
    cases hconvert
    cases hconvert'
    exact hle
  | some temp =>
    obtain ⟨tRaw, tTemp, e⟩ := temp
    have he := hslope _ _ _ htemp
    rw [convertTempCorrectedToRaw_eq htemp he (hcorrected _ _ _ htemp)] at hconvert
    rw [convertTempCorrectedToRaw_eq htemp he (hcorrected' _ _ _ htemp)] at hconvert'
    obtain ⟨heq, -⟩ := fitI64_eq_some hconvert
    obtain ⟨heq', -⟩ := fitI64_eq_some hconvert'
    have := rawSpan_mono he (show corrected - tTemp ≤ corrected' - tTemp by omega)
    omega

end Conversions

/-- Going there and back changes a raw time by at most 17 microseconds, and both conversions are monotone,
for offsets below `i32::MAX`; a raw time is not converted only if its corrected time overflows. -/
structure InverseUpToRounding (s : ClockDriftEstimate) : Prop where
  back : ∀ raw corrected, s.RawNear raw → s.CorrectedNear corrected →
    s.convertRawToTempCorrected raw = some corrected → -2 ^ 63 + 17 ≤ raw → raw < 2 ^ 63 - 17 →
    ∃ raw', s.convertTempCorrectedToRaw corrected = some raw' ∧ |raw' - raw| ≤ 17
  overflow : ∀ raw, s.RawNear raw → s.convertRawToTempCorrected raw = none →
    ∃ tRaw tTemp e d, s.temp = some (tRaw, tTemp, e) ∧
      reverseSlopeConvert (raw - tRaw) (-e.errorPpb) = some d ∧
      ¬ (-2 ^ 63 ≤ tTemp + d ∧ tTemp + d < 2 ^ 63)
  correctedMono : ∀ raw raw' corrected corrected', raw ≤ raw' → s.RawNear raw → s.RawNear raw' →
    s.convertRawToTempCorrected raw = some corrected → s.convertRawToTempCorrected raw' = some corrected' →
    corrected ≤ corrected'
  rawMono : ∀ corrected corrected' raw raw', corrected ≤ corrected' → s.CorrectedNear corrected →
    s.CorrectedNear corrected' → s.convertTempCorrectedToRaw corrected = some raw →
    s.convertTempCorrectedToRaw corrected' = some raw' → raw ≤ raw'

/-- **Inverse up to rounding**, in every state with a correction of at most a quarter. -/
theorem inverseUpToRounding (s : ClockDriftEstimate) (hslope : s.SlopeWithinQuarter) :
    s.InverseUpToRounding where
  back _ _ hraw hcorrected hconvert hlow hhigh :=
    convert_back hslope hraw hcorrected hconvert hlow hhigh
  overflow _ hraw hnone := convertRawToTempCorrected_eq_none hslope hraw hnone
  correctedMono _ _ _ _ hle hraw hraw' hconvert hconvert' :=
    convertRawToTempCorrected_mono hslope hle hraw hraw' hconvert hconvert'
  rawMono _ _ _ _ hle hcorrected hcorrected' hconvert hconvert' :=
    convertTempCorrectedToRaw_mono hslope hle hcorrected hcorrected' hconvert hconvert'

/-- The state with a correction and nothing else -/
def corrected (tRaw tTemp errorPpb : ℤ) : ClockDriftEstimate :=
  ⟨⟨0, 100⟩, none, some (tRaw, tTemp, ⟨errorPpb, 5000⟩), none⟩

/-- Half an hour after a correction of 100 ppm, 179982 microseconds are taken back. -/
theorem inverse_half_hour : (corrected 314000000000 314000000000 100000).SlopeWithinQuarter ∧
    (corrected 314000000000 314000000000 100000).convertRawToTempCorrected 315800000000 =
      some (315800000000 - 179982) ∧
    ∃ raw', (corrected 314000000000 314000000000 100000).convertTempCorrectedToRaw
      (315800000000 - 179982) = some raw' ∧ |raw' - 315800000000| ≤ 17 := by
  have hslope : (corrected 314000000000 314000000000 100000).SlopeWithinQuarter := by
    rintro _ _ _ ⟨⟩
    decide
  have hconvert : (corrected 314000000000 314000000000 100000).convertRawToTempCorrected 315800000000 =
      some (315800000000 - 179982) := by decide
  refine ⟨hslope, hconvert, ?_⟩
  apply (inverseUpToRounding _ hslope).back _ _ _ _ hconvert
  · decide
  · decide
  · rintro _ _ _ ⟨⟩
    decide
  · rintro _ _ _ ⟨⟩
    decide

/-- Near the greatest `i64` the way back overflows, as the corrected time does if its reference point is
there; and where the approximation begins, the later one of two corrected times has the earlier raw time. -/
theorem not_inverse :
    (corrected (2 ^ 63 - 52) 0 250000000).convertRawToTempCorrected (2 ^ 63 - 1) = some 42 ∧
      (corrected (2 ^ 63 - 52) 0 250000000).convertTempCorrectedToRaw 42 = none ∧
      (corrected 0 (2 ^ 63 - 1) 0).convertRawToTempCorrected 1 = none ∧
      (corrected 0 0 240000000).convertTempCorrectedToRaw 2147483646 = some 2662879721 ∧
      (corrected 0 0 240000000).convertTempCorrectedToRaw 2147483647 = some 2662879711 := by
  refine ⟨?_, ?_, ?_, ?_, ?_⟩
  · decide
  · decide
  · decide
  · decide
  · decide +kernel

end ClockDriftEstimate

end SensorLink.Clock
