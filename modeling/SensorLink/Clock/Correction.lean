import SensorLink.Clock.Estimate

/-!
# `TimeCorrection` of `drivers/time.rs`

The time of a fast clock is shifted by an offset, and since the last update scaled by a slope. A gradual
update takes the corrected time for the start of the next slope and keeps the offset, so that what the last
slope compensated is lost: the corrected time steps by this much.
-/

namespace SensorLink.Clock

open SensorLink.Lib

/-- `UPDATE_INTERVAL_US` -/
def updateIntervalUs : ℤ := 120000000

/-- `SLOPE_RESOLUTION` -/
def slopeResolution : ℤ := 2 ^ 24

/-- An `i32` sum that saturates -/
def saturateI32 (v : ℤ) : ℤ := max (-2 ^ 31) (min v (2 ^ 31 - 1))

structure TimeCorrection where
  isInitialized : Bool
  offset : ℤ
  lastCorrected : ℤ
  slope : ℤ
  error : ℤ

namespace TimeCorrection

/-- `initialized` -/
def initialized (initialTime initialOffset : ℤ) : TimeCorrection := ⟨true, initialOffset, initialTime, 0, 0⟩

variable (s : TimeCorrection)

/-- `correct` -/
def correct (rawTime : ℤ) : Option ℤ := do
  let now ← fitI64 (rawTime + s.offset)
  if s.lastCorrected ≤ now then
    let tSinceLast ← fitI64 (now - s.lastCorrected)
    match fitI64 (tSinceLast * s.slope) with
    | some compensation => fitI64 (now + compensation.tdiv slopeResolution)
    | none => some now
  else some now

/-- `error_since_last` -/
def errorSinceLast (error : ℤ) : Option ℤ := fitI64 (s.error - error)

/-- `update_slope`, the result of which is ignored -/
def updateSlope (tSinceLast error : ℤ) : Option TimeCorrection :=
  if 0 < tSinceLast then do
    let errorSinceLast ← s.errorSinceLast error
    let scaled ← fitI64 (errorSinceLast * slopeResolution)
    let quotient ← divI64 scaled tSinceLast
    match fitI32 quotient with
    | some slopeCorrection => pure { s with slope := saturateI32 (s.slope + slopeCorrection) }
    | none => pure s
  else some s

/-- The third branch of `update`: gradually correct by adjusting the slope -/
def updateGradually (tNow tSinceLast error : ℤ) : Option TimeCorrection := do
  let s ← s.updateSlope tSinceLast error
  pure { s with lastCorrected := tNow, error := asI32 error }

/-- `update` -/
def update (refTime offset : ℤ) (offsetLimit : UInt32) : Option TimeCorrection := do
  let tNow ← fitI64 (refTime + offset)
  let tSinceLast ← fitI64 (tNow - s.lastCorrected)
  if !s.isInitialized then
    let negated ← fitI64 (-offset)
    pure { s with offset := negated, lastCorrected := tNow, isInitialized := true }
  else
    let absError ← fitI64 |offset|
    if (offsetLimit.toNat : ℤ) ≤ absError then
      let jumped ← fitI64 (s.offset - offset)
      pure { s with offset := jumped, lastCorrected := tNow, error := 0 }
    else if updateIntervalUs < tSinceLast then s.updateGradually tNow tSinceLast offset
    else
      let errorSinceLast ← s.errorSinceLast offset
      if ((offsetLimit / 4).toNat : ℤ) ≤ |errorSinceLast| then s.updateGradually tNow tSinceLast offset
      else pure s

/-! ### The compensation -/

/-- What a slope adds to a time, `since` after the start of the slope. A product that overflows is
dropped. -/
def compensation (slope since : ℤ) : ℤ :=
  if 0 ≤ since ∧ -2 ^ 63 ≤ since * slope ∧ since * slope < 2 ^ 63 then scaleBy slope slopeResolution since
  else 0

/-- What the slope has added at the raw time -/
def compensated (rawTime : ℤ) : ℤ := compensation s.slope (rawTime + s.offset - s.lastCorrected)

/-- The slope after a gradual update -/
def newSlope (tSinceLast error : ℤ) : ℤ :=
  let slopeCorrection := ((s.error - error) * slopeResolution).tdiv tSinceLast
  if 0 < tSinceLast ∧ -2 ^ 31 ≤ slopeCorrection ∧ slopeCorrection < 2 ^ 31 then
    saturateI32 (s.slope + slopeCorrection)
  else s.slope

variable {s} {s' : TimeCorrection} {rawTime now refTime offset : ℤ} {offsetLimit : UInt32}

@[simp] lemma compensation_zero (slope : ℤ) : compensation slope 0 = 0 := by simp [compensation]

/-- The second half of `correct`, behind the start of the slope. -/
lemma add_compensation_eq_some_iff {slope since base : ℤ} (hsince : 0 ≤ since)
    (hbase : -2 ^ 63 ≤ base ∧ base < 2 ^ 63) :
    (match fitI64 (since * slope) with
      | some compensation => fitI64 (base + compensation.tdiv slopeResolution)
      | none => some base) = some now ↔
      now = base + compensation slope since ∧ -2 ^ 63 ≤ now ∧ now < 2 ^ 63 := by
  unfold compensation
  by_cases hproduct : -2 ^ 63 ≤ since * slope ∧ since * slope < 2 ^ 63
  · have hfit : fitI64 (since * slope) = some (since * slope) := if_pos hproduct
    rw [hfit, if_pos ⟨hsince, hproduct⟩]
    dsimp only
    rw [fitI64_eq_some_iff]
    apply and_congr_right
    rintro rfl
    rfl
  · have hdropped : fitI64 (since * slope) = none := if_neg hproduct
    rw [hdropped, if_neg (fun h => hproduct h.2), add_zero, Option.some.injEq]
    constructor
    · rintro rfl
      exact ⟨rfl, hbase⟩
    · rintro ⟨rfl, -⟩
      rfl

lemma correct_eq_some_iff : s.correct rawTime = some now ↔
    (-2 ^ 63 ≤ rawTime + s.offset ∧ rawTime + s.offset < 2 ^ 63) ∧
      rawTime + s.offset - s.lastCorrected < 2 ^ 63 ∧
      now = rawTime + s.offset + s.compensated rawTime ∧ -2 ^ 63 ≤ now ∧ now < 2 ^ 63 := by
  unfold correct compensated
  simp only [Option.bind_eq_bind, Option.bind_eq_some_iff, fitI64_eq_some_iff, and_assoc, exists_eq_left]
  refine and_congr_right fun hlow => and_congr_right fun hhigh => ?_
  by_cases hstarted : s.lastCorrected ≤ rawTime + s.offset
  · rw [if_pos hstarted]
    simp only [Option.bind_eq_some_iff, fitI64_eq_some_iff, and_assoc, exists_eq_left]
    rw [add_compensation_eq_some_iff (by omega) ⟨hlow, hhigh⟩, and_iff_right (by omega)]
  · have hnothing : compensation s.slope (rawTime + s.offset - s.lastCorrected) = 0 :=
      if_neg fun h => by omega
    rw [if_neg hstarted, hnothing, add_zero, Option.some.injEq]
    constructor
    · rintro rfl
      exact ⟨by omega, rfl, hlow, hhigh⟩
    · rintro ⟨-, rfl, -⟩
      rfl

/-! ### Gradual updates -/

/-- The update takes the branch that adjusts the slope. -/
def TakesGradual (s : TimeCorrection) (refTime offset : ℤ) (offsetLimit : UInt32) : Prop :=
  s.isInitialized = true ∧ |offset| < offsetLimit.toNat ∧
    (updateIntervalUs < refTime + offset - s.lastCorrected ∨
      ((offsetLimit / 4).toNat : ℤ) ≤ |s.error - offset|)

lemma updateSlope_eq {tSinceLast error : ℤ} (h : s.updateSlope tSinceLast error = some s') :
    s' = { s with slope := s.newSlope tSinceLast error } := by
  unfold updateSlope errorSinceLast at h
  by_cases hpos : 0 < tSinceLast
  · rw [if_pos hpos] at h
    simp only [Option.bind_eq_bind, Option.bind_eq_some_iff, fitI64_eq_some_iff] at h
    obtain ⟨diff, ⟨rfl, -⟩, scaled, ⟨rfl, hscaled⟩, quotient, hquotient, h⟩ := h
    rw [divI64_eq hscaled hpos] at hquotient
    cases hquotient
    unfold newSlope
    by_cases hfit : -2 ^ 31 ≤ ((s.error - error) * slopeResolution).tdiv tSinceLast ∧
        ((s.error - error) * slopeResolution).tdiv tSinceLast < 2 ^ 31
    · rw [show fitI32 _ = some _ from if_pos hfit] at h
      cases h
      rw [if_pos ⟨hpos, hfit⟩]
    · rw [show fitI32 _ = none from if_neg hfit] at h
      cases h
      rw [if_neg (fun hc => hfit hc.2)]
  · rw [if_neg hpos] at h
    cases h
    unfold newSlope
    rw [if_neg (fun hc => hpos hc.1)]

lemma update_gradual (hgradual : s.TakesGradual refTime offset offsetLimit)
    (h : s.update refTime offset offsetLimit = some s') :
    s' = { s with
      slope := s.newSlope (refTime + offset - s.lastCorrected) offset
      lastCorrected := refTime + offset
      error := asI32 offset } := by
  obtain ⟨hinit, hsmall, hdue⟩ := hgradual
  have hslope : ∀ tNow tSinceLast, s.updateGradually tNow tSinceLast offset = some s' →
      s' = { s with
        slope := s.newSlope tSinceLast offset
        lastCorrected := tNow
        error := asI32 offset } := by
    intro tNow tSinceLast h
    obtain ⟨s₁, hs₁, h⟩ := Option.bind_eq_some_iff.mp h
    rw [updateSlope_eq hs₁] at h
    cases h
    rfl
  unfold update errorSinceLast at h
  simp only [Option.bind_eq_bind, Option.bind_eq_some_iff, fitI64_eq_some_iff] at h
  obtain ⟨tNow, ⟨rfl, -⟩, tSinceLast, ⟨rfl, -⟩, h⟩ := h
  rw [hinit, if_neg (by decide)] at h
  simp only [Option.bind_eq_some_iff, fitI64_eq_some_iff] at h
  obtain ⟨absError, ⟨rfl, -⟩, h⟩ := h
  rw [if_neg (by omega)] at h
  by_cases hinterval : updateIntervalUs < refTime + offset - s.lastCorrected
  · rw [if_pos hinterval] at h
    exact hslope _ _ h
  · rw [if_neg hinterval] at h
    simp only [Option.bind_eq_some_iff, fitI64_eq_some_iff] at h
    obtain ⟨diff, ⟨rfl, -⟩, h⟩ := h
    rw [if_pos (hdue.resolve_left hinterval)] at h
    exact hslope _ _ h

/-- The slope has not added anything by the raw time: it has not started, or not added up to one
microsecond, or its product overflows and is dropped. -/
def NothingCompensated (s : TimeCorrection) (rawTime : ℤ) : Prop :=
  let since := rawTime + s.offset - s.lastCorrected
  since < 0 ∨ |since * s.slope| < slopeResolution ∨ ¬ (-2 ^ 63 ≤ since * s.slope ∧ since * s.slope < 2 ^ 63)

lemma compensated_eq_zero_iff : s.compensated rawTime = 0 ↔ s.NothingCompensated rawTime := by
  unfold compensated compensation NothingCompensated
  set since := rawTime + s.offset - s.lastCorrected
  dsimp only
  by_cases hcounted : 0 ≤ since ∧ -2 ^ 63 ≤ since * s.slope ∧ since * s.slope < 2 ^ 63
  · rw [if_pos hcounted]
    obtain ⟨hsince, hproduct⟩ := hcounted
    have hsmall : scaleBy s.slope slopeResolution since = 0 ↔ |since * s.slope| < slopeResolution := by
      unfold scaleBy
      rw [← Int.natAbs_eq_zero, Int.natAbs_tdiv, Int.abs_eq_natAbs]
      change _ / (2 ^ 24 : ℤ).natAbs = 0 ↔ _ < ((2 ^ 24 : ℕ) : ℤ)
      rw [Nat.div_eq_zero_iff]
      omega
    rw [hsmall]
    constructor
    · intro h
      exact .inr (.inl h)
    · rintro (h | h | h)
      · omega
      · exact h
      · exact absurd hproduct h
  · rw [if_neg hcounted]
    refine iff_of_true rfl ?_
    by_cases hsince : 0 ≤ since
    · exact .inr (.inr fun hproduct => hcounted ⟨hsince, hproduct⟩)
    · exact .inl (by omega)

/-- The next slope is -1 or a little below it, so that it takes time back just as the last one did: it stops
the clock for as long. -/
def SlopeTakesBack (s : TimeCorrection) (rawTime nextSlope : ℤ) : Prop :=
  let taken := - s.compensated rawTime
  0 < taken ∧ nextSlope ≤ -slopeResolution ∧ taken * (-nextSlope - slopeResolution) < slopeResolution ∧
    -2 ^ 63 ≤ taken * nextSlope

lemma tdiv_eq_neg_iff {taken : ℤ} (htaken : 0 < taken) (product : ℤ) :
    product.tdiv slopeResolution = -taken ↔
      product ≤ -(taken * slopeResolution) ∧ -((taken + 1) * slopeResolution) < product := by
  unfold slopeResolution
  rcases le_total 0 product with hsign | hsign
  · have hnonneg := Int.tdiv_nonneg hsign (show (0 : ℤ) ≤ 2 ^ 24 by decide)
    constructor <;> intro <;> omega
  · have hneg : product.tdiv (2 ^ 24) = -(-product / 2 ^ 24) := by
      rw [← Int.tdiv_eq_ediv_of_nonneg (by omega), Int.neg_tdiv, neg_neg]
    rw [hneg, neg_inj]
    omega

lemma slopeTakesBack_iff {nextSlope : ℤ} : s.SlopeTakesBack rawTime nextSlope ↔ s.compensated rawTime < 0 ∧
    compensation nextSlope (- s.compensated rawTime) = s.compensated rawTime := by
  unfold SlopeTakesBack
  obtain ⟨taken, htaken⟩ : ∃ taken, s.compensated rawTime = -taken := ⟨-s.compensated rawTime, (neg_neg _).symm⟩
  rw [htaken, neg_neg, Left.neg_neg_iff]
  dsimp only
  refine and_congr_right fun hpos => ?_
  have hproduct : taken * (-nextSlope - slopeResolution) = -(taken * nextSlope) - taken * slopeResolution := by
    ring
  have hlow : nextSlope ≤ -slopeResolution ↔ taken * nextSlope ≤ -(taken * slopeResolution) := by
    rw [← mul_neg, mul_le_mul_iff_right₀ hpos]
  have hnext : (taken + 1) * slopeResolution = taken * slopeResolution + slopeResolution := by ring
  have htdiv := tdiv_eq_neg_iff hpos (taken * nextSlope)
  have hres : 0 < taken * slopeResolution := mul_pos hpos (by decide)
  rw [hproduct, hlow]
  unfold compensation scaleBy
  split_ifs with hcounted
  · rw [htdiv, hnext]
    omega
  · constructor
    · rintro ⟨hle, -, hfits⟩
      exact absurd ⟨hpos.le, hfits, by omega⟩ hcounted
    · intro hzero
      omega

/-- The next slope starts with the time that the last one ended with. -/
def CarriesOver (s : TimeCorrection) (rawTime refTime offset : ℤ) : Prop :=
  s.NothingCompensated rawTime ∨
    s.SlopeTakesBack rawTime (s.newSlope (refTime + offset - s.lastCorrected) offset)

lemma abs_compensation_le (slope since : ℤ) : |compensation slope since| ≤ 2 ^ 39 := by
  unfold compensation
  split_ifs with hcounted
  · obtain ⟨-, hlow, hhigh⟩ := hcounted
    have hlower := Int.tdiv_le_tdiv (c := slopeResolution) (by decide) hlow
    have hupper := Int.tdiv_le_tdiv (c := slopeResolution) (by decide) hhigh.le
    rw [show (-2 ^ 63 : ℤ).tdiv slopeResolution = -2 ^ 39 by decide] at hlower
    rw [show (2 ^ 63 : ℤ).tdiv slopeResolution = 2 ^ 39 by decide] at hupper
    exact abs_le.mpr ⟨hlower, hupper⟩
  · decide

/-- The corrected time is the same before and after a gradual update if and only if it carries over. -/
lemma correct_after_update_iff (hcorrect : s.correct rawTime = some now)
    (hgradual : s.TakesGradual refTime (now - refTime) offsetLimit)
    (hupdate : s.update refTime (now - refTime) offsetLimit = some s') :
    s'.correct rawTime = some now ↔ s.CarriesOver rawTime refTime (now - refTime) := by
  obtain ⟨hshift, -, hnow, hfit⟩ := correct_eq_some_iff.mp hcorrect
  have hs' := update_gradual hgradual hupdate
  have hbound := abs_compensation_le s.slope (rawTime + s.offset - s.lastCorrected)
  change |s.compensated rawTime| ≤ 2 ^ 39 at hbound
  rw [abs_le] at hbound
  have hstart : rawTime + s'.offset - s'.lastCorrected = - s.compensated rawTime := by
    rw [hs']
    dsimp only
    omega
  have hoffset : s'.offset = s.offset := by rw [hs']
  have hcarries : s.CarriesOver rawTime refTime (now - refTime) ↔
      compensation s'.slope (- s.compensated rawTime) = s.compensated rawTime := by
    unfold CarriesOver
    rw [slopeTakesBack_iff, ← compensated_eq_zero_iff, hs']
    constructor
    · rintro (hzero | ⟨-, hback⟩)
      · rw [hzero, neg_zero, compensation_zero]
      · exact hback
    · intro hback
      rcases lt_trichotomy (s.compensated rawTime) 0 with hneg | hzero | hpos
      · exact .inr ⟨hneg, hback⟩
      · exact .inl hzero
      · -- the next slope has not started
        rw [compensation, if_neg (fun h => by omega)] at hback
        exact .inl hback.symm
  rw [hcarries, correct_eq_some_iff, and_iff_right (hoffset ▸ hshift), hstart,
    and_iff_right (by omega), and_iff_left hfit, compensated, hstart, hoffset]
  omega

/-! ### Runs -/

/-- A clock reading, with an update by a reference time or without -/
inductive Reading where
  | plain (rawTime : ℤ)
  | sync (rawTime refTime : ℤ) (offsetLimit : UInt32)

def Reading.time : Reading → ℤ
  | .plain rawTime | .sync rawTime _ _ => rawTime

/-- The corrected time of a reading, and what the reading makes of the state -/
def exec (s : TimeCorrection) : Reading → Option (ℤ × TimeCorrection)
  | .plain rawTime => do
    let now ← s.correct rawTime
    pure (now, s)
  | .sync rawTime refTime offsetLimit => do
    let now ← s.correct rawTime
    let offset ← fitI64 (now - refTime)
    let s ← s.update refTime offset offsetLimit
    pure (now, s)

/-- The corrected times of the readings -/
def outputs : TimeCorrection → List Reading → Option (List ℤ)
  | _, [] => some []
  | s, reading :: readings => do
    let (now, s) ← s.exec reading
    let nows ← outputs s readings
    pure (now :: nows)

/-- The slope does not turn the clock back, and its product is not dropped. -/
def SlopeApplies (s : TimeCorrection) (rawTime : ℤ) : Prop :=
  -slopeResolution ≤ s.slope ∧ (0 ≤ rawTime + s.offset - s.lastCorrected →
    -2 ^ 63 ≤ (rawTime + s.offset - s.lastCorrected) * s.slope ∧
      (rawTime + s.offset - s.lastCorrected) * s.slope < 2 ^ 63)

/-- The slope applies, and an update is a gradual one that carries over. -/
def SmoothStep (s : TimeCorrection) (reading : Reading) : Prop :=
  s.SlopeApplies reading.time ∧ ∀ rawTime refTime offsetLimit now,
    reading = .sync rawTime refTime offsetLimit → s.correct rawTime = some now →
      s.TakesGradual refTime (now - refTime) offsetLimit ∧ s.CarriesOver rawTime refTime (now - refTime)

def Smooth : TimeCorrection → List Reading → Prop
  | _, [] => True
  | s, reading :: readings =>
    s.SmoothStep reading ∧ ∀ now s', s.exec reading = some (now, s') → Smooth s' readings

lemma add_scaleBy_mono {slope : ℤ} (hslope : -slopeResolution ≤ slope) :
    Monotone fun since => since + scaleBy slope slopeResolution since := by
  have hpos : 0 < slopeResolution := by decide
  intro x y hxy
  dsimp only
  rcases le_total 0 slope with hsign | hsign
  · have := scaleBy_mono hpos hsign hxy
    omega
  · have hspread := abs_scaleBy_sub_le hpos (by rw [abs_of_nonpos hsign]; omega) hxy
    rw [abs_le] at hspread
    omega

/-- Without an update the corrected time does not go back. -/
lemma correct_mono {rawTime' now' : ℤ} (happlies : s.SlopeApplies rawTime') (hle : rawTime ≤ rawTime')
    (h : s.correct rawTime = some now) (h' : s.correct rawTime' = some now') : now ≤ now' := by
  obtain ⟨-, -, hnow, -⟩ := correct_eq_some_iff.mp h
  obtain ⟨-, -, hnow', -⟩ := correct_eq_some_iff.mp h'
  obtain ⟨hslope, hfits⟩ := happlies
  unfold compensated at hnow hnow'
  set since := rawTime + s.offset - s.lastCorrected
  set since' := rawTime' + s.offset - s.lastCorrected
  have hsince : since ≤ since' := by omega
  by_cases hstarted' : 0 ≤ since'
  · have hfit' := hfits hstarted'
    have hadded' : compensation s.slope since' = scaleBy s.slope slopeResolution since' :=
      if_pos ⟨hstarted', hfit'⟩
    by_cases hstarted : 0 ≤ since
    · have hfit : -2 ^ 63 ≤ since * s.slope ∧ since * s.slope < 2 ^ 63 := by
        rcases le_total 0 s.slope with hsign | hsign
        · have := Int.mul_le_mul_of_nonneg_right hsince hsign
          have := mul_nonneg hstarted hsign
          omega
        · have := Int.mul_le_mul_of_nonpos_right hsince hsign
          have := mul_nonpos_of_nonneg_of_nonpos hstarted hsign
          omega
      have hadded : compensation s.slope since = scaleBy s.slope slopeResolution since :=
        if_pos ⟨hstarted, hfit⟩
      have hmono := add_scaleBy_mono hslope hsince
      dsimp only at hmono
      omega
    · have hadded : compensation s.slope since = 0 := if_neg fun hc => hstarted hc.1
      have hmono := add_scaleBy_mono hslope hstarted'
      dsimp only at hmono
      rw [scaleBy_zero] at hmono
      omega
  · have hadded : compensation s.slope since = 0 := if_neg fun hc => by omega
    have hadded' : compensation s.slope since' = 0 := if_neg fun hc => hstarted' hc.1
    omega

/-- A smooth step outputs what both states make of its raw time. -/
lemma exec_smooth {reading : Reading} (hstep : s.SmoothStep reading)
    (h : s.exec reading = some (now, s')) :
    s.correct reading.time = some now ∧ s'.correct reading.time = some now := by
  cases reading with
  | plain rawTime =>
    obtain ⟨now', hnow, h⟩ := Option.bind_eq_some_iff.mp h
    cases h
    exact ⟨hnow, hnow⟩
  | sync rawTime refTime offsetLimit =>
    obtain ⟨now', hnow, h⟩ := Option.bind_eq_some_iff.mp h
    obtain ⟨offset, hoffset, h⟩ := Option.bind_eq_some_iff.mp h
    obtain ⟨rfl, -⟩ := fitI64_eq_some hoffset
    obtain ⟨s₁, hupdate, hpure⟩ := Option.bind_eq_some_iff.mp h
    cases hpure
    obtain ⟨hgradual, hcarries⟩ := hstep.2 _ _ _ _ rfl hnow
    exact ⟨hnow, (correct_after_update_iff hnow hgradual hupdate).mpr hcarries⟩

/-- What holds along a run is that `now`, the last output, is what the present state makes of the last raw
time. -/
lemma outputs_sorted {readings : List Reading} {nows : List ℤ} (hnow : s.correct rawTime = some now)
    (hsmooth : s.Smooth readings) (hsorted : (rawTime :: readings.map Reading.time).Pairwise (· ≤ ·))
    (h : s.outputs readings = some nows) : (now :: nows).Pairwise (· ≤ ·) := by
  induction readings generalizing s rawTime now nows with
  | nil =>
    cases h
    exact List.pairwise_singleton _ _
  | cons reading readings ih =>
    obtain ⟨⟨now₁, s₁⟩, hexec, h⟩ := Option.bind_eq_some_iff.mp h
    obtain ⟨nows₁, houtputs, h⟩ := Option.bind_eq_some_iff.mp h
    cases h
    obtain ⟨hstep, hrest⟩ := hsmooth
    obtain ⟨hbefore, hafter⟩ := exec_smooth hstep hexec
    rw [List.map_cons, List.pairwise_cons] at hsorted
    have hle := correct_mono hstep.1 (hsorted.1 reading.time List.mem_cons_self) hnow hbefore
    have htail := ih hafter (hrest now₁ s₁ hexec) hsorted.2 houtputs
    refine List.pairwise_cons.mpr ⟨?_, htail⟩
    intro m hm
    rcases List.mem_cons.mp hm with rfl | hm
    · exact hle
    · exact hle.trans (List.rel_of_pairwise_cons htail hm)

/-- A gradual update at the raw time leaves the corrected time of it. -/
def KeepsTime (s : TimeCorrection) (rawTime refTime : ℤ) (offsetLimit : UInt32) : Prop :=
  ∀ now s', s.correct rawTime = some now → s.TakesGradual refTime (now - refTime) offsetLimit →
    s.update refTime (now - refTime) offsetLimit = some s' → s'.correct rawTime = some now

/-- The outputs of a run are in the order of its raw times. -/
def NonDecreasing (s : TimeCorrection) (readings : List Reading) : Prop :=
  (readings.map Reading.time).Pairwise (· ≤ ·) →
    ∀ nows, s.outputs readings = some nows → nows.Pairwise (· ≤ ·)

/-- **Continuity of the gradual correction.** In every state an update at any raw time keeps the corrected
time if and only if, where it is a gradual one, the slope has not compensated anything yet or the next slope
takes it back. In every run with such updates, and slopes that apply, the corrected time does not go back. -/
theorem keepsTime_iff (s : TimeCorrection) (rawTime refTime : ℤ) (offsetLimit : UInt32)
    (readings : List Reading) :
    (s.KeepsTime rawTime refTime offsetLimit ↔
        ∀ now s', s.correct rawTime = some now → s.TakesGradual refTime (now - refTime) offsetLimit →
          s.update refTime (now - refTime) offsetLimit = some s' →
            s.CarriesOver rawTime refTime (now - refTime)) ∧
      (s.Smooth readings → s.NonDecreasing readings) := by
  constructor
  · refine forall_congr' fun now => forall_congr' fun s' => forall_congr' fun hcorrect => ?_
    refine forall_congr' fun hgradual => forall_congr' fun hupdate => ?_
    exact correct_after_update_iff hcorrect hgradual hupdate
  · intro hsmooth hsorted nows h
    cases readings with
    | nil =>
      cases h
      exact List.Pairwise.nil
    | cons reading readings =>
      obtain ⟨⟨now₁, s₁⟩, hexec, h⟩ := Option.bind_eq_some_iff.mp h
      obtain ⟨nows₁, houtputs, h⟩ := Option.bind_eq_some_iff.mp h
      cases h
      obtain ⟨hstep, hrest⟩ := hsmooth
      obtain ⟨-, hafter⟩ := exec_smooth hstep hexec
      exact outputs_sorted hafter (hrest now₁ s₁ hexec) hsorted houtputs

/-- The first update of a clock is smooth: its slope is still zero. -/
example : (initialized 0 0).Smooth [.sync 121000000 121001000 10000, .plain 121001000, .plain 300000000] := by
  have hcorrect : (initialized 0 0).correct 121000000 = some 121000000 := by decide
  have hupdate : (initialized 0 0).exec (.sync 121000000 121001000 10000) =
      some (121000000, ⟨true, 0, 121000000, 138, -1000⟩) := rfl
  have hreading : exec ⟨true, 0, 121000000, 138, -1000⟩ (.plain 121001000) =
      some (121001000, ⟨true, 0, 121000000, 138, -1000⟩) := rfl
  have hplain : ∀ rawTime ∈ [121001000, 300000000],
      SlopeApplies ⟨true, 0, 121000000, 138, -1000⟩ rawTime := by
    unfold SlopeApplies
    decide
  refine ⟨⟨by unfold SlopeApplies; decide, ?_⟩, fun now s' h => ?_⟩
  · rintro _ _ _ now ⟨⟩ hnow
    cases hcorrect.symm.trans hnow
    exact ⟨by unfold TakesGradual; decide, .inl (.inr (.inl (by decide)))⟩
  · cases hupdate.symm.trans h
    refine ⟨⟨hplain _ (by decide), fun _ _ _ _ heq => by cases heq⟩, fun now s' h => ?_⟩
    cases hreading.symm.trans h
    exact ⟨⟨hplain _ (by decide), fun _ _ _ _ heq => by cases heq⟩, fun _ _ _ => trivial⟩

/-- A clock that lags by 1000 microseconds is sped up by a gradual update at 121 s. At the next one the
compensation of 996 microseconds is lost, so that the corrected time goes back by this much. -/
theorem update_steps_back : ∃ s : TimeCorrection,
    (initialized 0 0).update 121001000 (-1000) 10000 = some s ∧
      (initialized 0 0).TakesGradual 121001000 (-1000) 10000 ∧
      s.correct 242100000 = some 242100996 ∧ ¬ s.KeepsTime 242100000 242100000 10000 ∧
      ¬ s.NonDecreasing [.sync 242100000 242100000 10000, .plain 242100000] := by
  refine ⟨_, rfl, by unfold TakesGradual; decide, by decide, ?_, ?_⟩
  · intro hkeeps
    have hafter := hkeeps 242100996 _ (by decide) (by unfold TakesGradual; decide) rfl
    revert hafter
    decide
  · intro hsorted
    have hpairs := hsorted (by decide) [242100996, 242100000] rfl
    revert hpairs
    decide

end TimeCorrection

end SensorLink.Clock
