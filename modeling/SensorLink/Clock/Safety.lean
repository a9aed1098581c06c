import SensorLink.Clock.Rejection

/-!
# Overflow in runs of the clock error estimate

The 32-bit sums are safe by an invariant: every stored error is clamped or given within
`CORRECTION_ERROR_MAX_PPB`, and what temperatures add to the uncertainty is at most four times of it. The
64-bit sums of the conversions are safe while the timestamp and the reference points are less than `2 ^ 58`
microseconds; they are plain sums, and extreme timestamps overflow.
-/

namespace SensorLink.Clock

open SensorLink.Lib

/-! ### The invariant -/

/-- The error and the uncertainty are at most `CORRECTION_ERROR_MAX_PPB`. -/
structure ErrorEstimate.Valid (e : ErrorEstimate) : Prop where
  error : |e.errorPpb| ≤ correctionErrorMaxPpb
  uncertainty : e.uncertaintyPpb ≤ correctionErrorMaxPpbU32

@[inherit_doc ErrorEstimate.Valid]
structure TempErrorEstimate.Valid (e : TempErrorEstimate) : Prop where
  error : |e.errorPpb| ≤ correctionErrorMaxPpb
  uncertainty : e.uncertaintyPpb ≤ correctionErrorMaxPpbU32

instance : DecidablePred TempErrorEstimate.Valid := fun e =>
  decidable_of_iff (|e.errorPpb| ≤ correctionErrorMaxPpb ∧ e.uncertaintyPpb ≤ correctionErrorMaxPpbU32)
    ⟨fun h => ⟨h.1, h.2⟩, fun h => ⟨h.error, h.uncertainty⟩⟩

lemma abs_clampPpb_le (v : ℤ) : |clampPpb v| ≤ correctionErrorMaxPpb := by
  unfold clampPpb correctionErrorMaxPpb
  rw [abs_le]
  omega

lemma weighedAverage_valid (average : ErrorEstimate → ErrorEstimate → ErrorEstimate)
    (e e' : ErrorEstimate) : (weighedAverage average e e').Valid :=
  ⟨abs_clampPpb_le _, min_le_right _ _⟩

namespace ClockDriftEstimate

structure Inv (s : ClockDriftEstimate) : Prop where
  estimatePreTemp : s.estimatePreTemp.Valid
  temp : ∀ tRaw tTemp e, s.temp = some (tRaw, tTemp, e) → e.Valid
  network : ∀ prev, s.network = some prev → prev.maxTempUncertaintyPpb ≤ 2000000000

variable {s s' : ClockDriftEstimate}

lemma inv_new {e : ErrorEstimate} (h : e.Valid) : (new e).Inv := by
  refine ⟨?_, by simp [new], by simp [new]⟩
  unfold new
  split_ifs
  · exact ⟨h.error, Nat.le_of_ble_eq_true rfl⟩
  · exact h

lemma Inv.tempError (h : s.Inv) : s.tempError.Valid := by
  unfold ClockDriftEstimate.tempError
  cases ht : s.temp with
  | none => exact ⟨by decide, by decide⟩
  | some temp => exact h.temp _ _ _ ht

/-- The estimate is computed without an overflow, and clamped. -/
lemma Inv.estimate (h : s.Inv) :
    ∃ e, s.estimate = some e ∧ |e.errorPpb| ≤ correctionErrorMaxPpb := by
  obtain ⟨htempError, htempUncertainty⟩ := h.tempError
  obtain ⟨herror, huncertainty⟩ := h.estimatePreTemp
  have hadd := abs_add_le s.tempError.errorPpb s.estimatePreTemp.errorPpb
  unfold correctionErrorMaxPpb at herror htempError
  unfold correctionErrorMaxPpbU32 at huncertainty htempUncertainty
  unfold ClockDriftEstimate.estimate
  rw [fitI32_eq (by omega), fitU32_eq (by omega)]
  exact ⟨_, rfl, abs_clampPpb_le _⟩

/-- Two error ranges have a width of at most four times the largest error. -/
lemma tempUncertainty_eq {prev adjust : TempErrorEstimate} (hprev : prev.Valid) (hadjust : adjust.Valid) :
    ∃ width, tempUncertainty prev adjust = some width ∧ width ≤ 2000000000 := by
  obtain ⟨hprevError, hprevUncertainty⟩ := hprev
  obtain ⟨herror, huncertainty⟩ := hadjust
  unfold correctionErrorMaxPpb at hprevError herror
  unfold correctionErrorMaxPpbU32 at hprevUncertainty huncertainty
  rw [abs_le] at hprevError herror
  have hcast : ∀ u : ℕ, u ≤ 500000000 → asI32 u = u := by
    intro u hu
    unfold asI32
    rw [Int.bmod_eq_of_le] <;> omega
  have hfit : ∀ v : ℤ, -2000000000 ≤ v → v ≤ 2000000000 → fitI32 v = some v := by
    intro v hlow hhigh
    exact if_pos (by omega)
  unfold tempUncertainty
  rw [hcast _ hprevUncertainty, hcast _ huncertainty, hfit _ (by omega) (by omega),
    hfit _ (by omega) (by omega), hfit _ (by omega) (by omega), hfit _ (by omega) (by omega)]
  simp only [Option.bind_eq_bind, Option.bind_some]
  rw [hfit _ (by omega) (by omega)]
  exact ⟨_, rfl, by omega⟩

/-! ### Updates -/

lemma Inv.spreadWithLast (h : s.Inv) {adjust : TempErrorEstimate} (hadjust : adjust.Valid) :
    ∃ width, s.spreadWithLast adjust = some width ∧ width ≤ 2000000000 := by
  unfold ClockDriftEstimate.spreadWithLast
  cases ht : s.temp with
  | none =>
    have huncertainty := hadjust.uncertainty
    unfold correctionErrorMaxPpbU32 at huncertainty
    exact ⟨_, rfl, by omega⟩
  | some temp => exact tempUncertainty_eq (h.temp _ _ _ ht) hadjust

lemma Inv.noteTempUncertainty (h : s.Inv) (tTemp : ℤ) {adjust : TempErrorEstimate}
    (hadjust : adjust.Valid) : ∃ network, s.noteTempUncertainty tTemp adjust = some network ∧
      ∀ prev, network = some prev → prev.maxTempUncertaintyPpb ≤ 2000000000 := by
  unfold ClockDriftEstimate.noteTempUncertainty
  cases hprev : s.network with
  | none => exact ⟨none, rfl, fun _ hnone => by cases hnone⟩
  | some prev =>
    have hmax := h.network prev hprev
    dsimp only
    split_ifs
    · obtain ⟨width, heq, hle⟩ := h.spreadWithLast hadjust
      rw [heq]
      refine ⟨_, rfl, ?_⟩
      rintro _ ⟨⟩
      show (if prev.maxTempUncertaintyPpb < width then width else prev.maxTempUncertaintyPpb) ≤ _
      split_ifs <;> assumption
    · refine ⟨_, rfl, ?_⟩
      rintro _ ⟨⟩
      exact hmax

/-- A temperature never makes the update overflow. -/
lemma Inv.updateTempCorrection (h : s.Inv) (tRaw tTemp : ℤ) {adjust : TempErrorEstimate}
    (hadjust : adjust.Valid) :
    ∃ e s', s.updateTempCorrection tRaw tTemp adjust = some (e, s') ∧ s'.Inv := by
  obtain ⟨network, heq, hmax⟩ := h.noteTempUncertainty tTemp hadjust
  have hinv : ({ s with network := network, temp := some (tRaw, tTemp, adjust) } :
      ClockDriftEstimate).Inv := by
    refine ⟨h.estimatePreTemp, ?_, hmax⟩
    rintro _ _ _ ⟨⟩
    exact hadjust
  obtain ⟨e, hestimate, -⟩ := hinv.estimate
  refine ⟨e, _, ?_, hinv⟩
  unfold ClockDriftEstimate.updateTempCorrection
  simp only [heq, Option.bind_eq_bind, Option.bind_some, hestimate]
  rfl

/-- A network time never makes the update overflow. -/
lemma Inv.updateNetworkTime (h : s.Inv) (average : ErrorEstimate → ErrorEstimate → ErrorEstimate)
    (tTemp tDrift : ℤ) (networkTime : NetworkTime) :
    ∃ r s', s.updateNetworkTime average tTemp tDrift networkTime = some (r, s') ∧ s'.Inv := by
  cases hprev : s.network with
  | none =>
    refine ⟨.error .noPreviousData, _, by unfold ClockDriftEstimate.updateNetworkTime; rw [hprev], ?_⟩
    have huncertainty := h.tempError.uncertainty
    unfold correctionErrorMaxPpbU32 at huncertainty
    refine ⟨h.estimatePreTemp, h.temp, ?_⟩
    rintro _ ⟨⟩
    show s.tempError.uncertaintyPpb ≤ 2000000000
    omega
  | some prev =>
    have hmax := h.network prev hprev
    by_cases hcompares : prev.Compares tTemp networkTime
    · rw [updateNetworkTime_compares hprev hcompares]
      split_ifs
      · refine ⟨_, _, rfl, h.estimatePreTemp, h.temp, ?_⟩
        rintro _ ⟨⟩
        exact hmax
      · have huncertainty : prev.uncertaintyPpb networkTime < 500000000 := by
          have hlow := hcompares.2
          have hpos := Int.tdiv_nonneg (a := (prev.maxLatencyError networkTime : ℤ) * 1000000000)
            (by omega) hcompares.dt_pos.2.1.le
          unfold correctionErrorMaxPpb at hlow
          unfold NetworkRef.uncertaintyPpb asU32
          omega
        rw [fitU32_eq (by omega)]
        refine ⟨_, _, rfl, weighedAverage_valid _ _ _, h.temp, ?_⟩
        rintro network hnetwork
        unfold compared at hnetwork
        simp only [Option.some.injEq] at hnetwork
        subst hnetwork
        split_ifs <;> exact hmax
    · obtain ⟨e, -, hearly⟩ := updateNetworkTime_early average tDrift hprev hcompares
      exact ⟨_, s, hearly, h⟩

/-! ### Conversions -/

/-- The reference points of the conversions are within the reach. -/
structure RefsWithin (s : ClockDriftEstimate) (reach : ℤ) : Prop where
  temp : ∀ tRaw tTemp e, s.temp = some (tRaw, tTemp, e) → |tRaw| ≤ reach ∧ |tTemp| ≤ reach
  estimateAt : ∀ tTemp tDrift, s.estimateAt = some (tTemp, tDrift) → |tTemp| ≤ reach ∧ |tDrift| ≤ reach

instance (s : ClockDriftEstimate) (reach : ℤ) : Decidable (s.RefsWithin reach) :=
  decidable_of_iff
    ((∀ temp ∈ s.temp, |temp.1| ≤ reach ∧ |temp.2.1| ≤ reach) ∧
      ∀ refs ∈ s.estimateAt, |refs.1| ≤ reach ∧ |refs.2| ≤ reach)
    ⟨fun h => ⟨fun tRaw tTemp e => h.1 (tRaw, tTemp, e), fun tTemp tDrift => h.2 (tTemp, tDrift)⟩,
      fun h => ⟨fun ⟨tRaw, tTemp, e⟩ => h.temp tRaw tTemp e, fun ⟨tTemp, tDrift⟩ => h.estimateAt tTemp tDrift⟩⟩

/-- A conversion changes nothing but the reference point of the drift. -/
structure SameButRef (s s' : ClockDriftEstimate) : Prop where
  estimatePreTemp : s'.estimatePreTemp = s.estimatePreTemp
  temp : s'.temp = s.temp
  network : s'.network = s.network

lemma Inv.of_sameButRef (h : s.Inv) (hsame : SameButRef s s') : s'.Inv := by
  constructor
  · rw [hsame.estimatePreTemp]
    exact h.estimatePreTemp
  · rw [hsame.temp]
    exact h.temp
  · rw [hsame.network]
    exact h.network

/-- From one reference point to the other against a slope -/
lemma reverse_fits {t ref ref' c : ℤ} (ht : |t| ≤ 7 * 2 ^ 58) (href : |ref| ≤ 2 ^ 58)
    (href' : |ref'| ≤ 2 ^ 58) (hc : |c| ≤ correctionErrorMaxPpb) :
    ∃ delta, fitI64 (t - ref) = some (t - ref) ∧ fitI32 (-c) = some (-c) ∧
      reverseSlopeConvert (t - ref) (-c) = some delta ∧ fitI64 (ref' + delta) = some (ref' + delta) ∧
      |ref' + delta| ≤ 4 * 2 ^ 58 + 3 * |t| := by
  unfold correctionErrorMaxPpb at hc
  have hdelta := abs_sub t ref
  obtain ⟨delta, hconvert, hbound⟩ :=
    reverseSlopeConvert_bound (t - ref) (c := -c) (by rwa [abs_neg]) (by omega)
  have hsum := abs_add_le ref' delta
  exact ⟨delta, fitI64_eq (by omega), fitI32_eq (by rw [abs_neg]; omega), hconvert, fitI64_eq (by omega),
    by omega⟩

/-- From one reference point to the other along a slope -/
lemma forward_fits {t ref ref' c : ℤ} (ht : |t| ≤ 5 * 2 ^ 58) (href : |ref| ≤ 2 ^ 58)
    (href' : |ref'| ≤ 2 ^ 58) (hc : |c| ≤ correctionErrorMaxPpb) :
    ∃ delta, fitI64 (t - ref) = some (t - ref) ∧ forwardSlopeConvert (t - ref) c = some delta ∧
      fitI64 (ref' + delta) = some (ref' + delta) ∧ 3 * |ref' + delta| ≤ 8 * 2 ^ 58 + 5 * |t| := by
  unfold correctionErrorMaxPpb at hc
  have hdelta := abs_sub t ref
  obtain ⟨delta, hconvert, hbound⟩ := forwardSlopeConvert_bound (t - ref) hc (by omega)
  have hsum := abs_add_le ref' delta
  exact ⟨delta, fitI64_eq (by omega), hconvert, fitI64_eq (by omega), by omega⟩

lemma convertRawToTempCorrected_bound (h : s.Inv) (hrefs : s.RefsWithin (2 ^ 58)) (raw : ℤ)
    (hraw : |raw| ≤ 2 ^ 58) :
    ∃ t, s.convertRawToTempCorrected raw = some t ∧ |t| ≤ 7 * 2 ^ 58 := by
  unfold convertRawToTempCorrected
  cases ht : s.temp with
  | none => exact ⟨raw, rfl, by omega⟩
  | some temp =>
    obtain ⟨tRaw, tTemp, e⟩ := temp
    obtain ⟨hrefRaw, hrefTemp⟩ := hrefs.temp _ _ _ ht
    obtain ⟨delta, hdt, hslope, hconvert, hfit, hbound⟩ :=
      reverse_fits (t := raw) (by omega) hrefRaw hrefTemp (h.temp _ _ _ ht).error
    refine ⟨tTemp + delta, ?_, by omega⟩
    simp only [hdt, hslope, hconvert, hfit, Option.bind_eq_bind, Option.bind_some]

lemma convertTempCorrectedToRaw_bound (h : s.Inv) (hrefs : s.RefsWithin (2 ^ 58)) {t : ℤ}
    (ht : |t| ≤ 5 * 2 ^ 58) : ∃ raw, s.convertTempCorrectedToRaw t = some raw := by
  unfold convertTempCorrectedToRaw
  cases htemp : s.temp with
  | none => exact ⟨t, rfl⟩
  | some temp =>
    obtain ⟨tRaw, tTemp, e⟩ := temp
    obtain ⟨hrefRaw, hrefTemp⟩ := hrefs.temp _ _ _ htemp
    obtain ⟨delta, hdt, hconvert, hfit, -⟩ := forward_fits ht hrefTemp hrefRaw (h.temp _ _ _ htemp).error
    refine ⟨tRaw + delta, ?_⟩
    simp only [hdt, hconvert, hfit, Option.bind_eq_bind, Option.bind_some]

lemma convertTempCorrectedToDriftCorrected_bound (h : s.Inv) (hrefs : s.RefsWithin (2 ^ 58)) {t : ℤ}
    (ht : |t| ≤ 7 * 2 ^ 58) :
    ∃ d s', s.convertTempCorrectedToDriftCorrected t = some (d, s') ∧ SameButRef s s' := by
  unfold convertTempCorrectedToDriftCorrected
  cases hat : s.estimateAt with
  | none => exact ⟨t, _, rfl, rfl, rfl, rfl⟩
  | some refs =>
    obtain ⟨tTemp, tDrift⟩ := refs
    obtain ⟨hrefTemp, hrefDrift⟩ := hrefs.estimateAt _ _ hat
    obtain ⟨delta, hdt, hslope, hconvert, hfit, -⟩ :=
      reverse_fits ht hrefTemp hrefDrift h.estimatePreTemp.error
    refine ⟨tDrift + delta, s, ?_, rfl, rfl, rfl⟩
    simp only [hdt, hslope, hconvert, hfit, Option.bind_eq_bind, Option.bind_some]
    rfl

lemma convertDriftCorrectedToTempCorrected_bound (h : s.Inv) (hrefs : s.RefsWithin (2 ^ 58)) {d : ℤ}
    (hd : |d| ≤ 2 ^ 58) :
    ∃ t s', s.convertDriftCorrectedToTempCorrected d = some (t, s') ∧ |t| ≤ 5 * 2 ^ 58 ∧
      SameButRef s s' := by
  unfold convertDriftCorrectedToTempCorrected
  cases hat : s.estimateAt with
  | none => exact ⟨d, _, rfl, by omega, rfl, rfl, rfl⟩
  | some refs =>
    obtain ⟨tTemp, tDrift⟩ := refs
    obtain ⟨hrefTemp, hrefDrift⟩ := hrefs.estimateAt _ _ hat
    obtain ⟨delta, hdt, hconvert, hfit, hbound⟩ :=
      forward_fits (t := d) (by omega) hrefDrift hrefTemp h.estimatePreTemp.error
    refine ⟨tTemp + delta, s, ?_, by omega, rfl, rfl, rfl⟩
    simp only [hdt, hconvert, hfit, Option.bind_eq_bind, Option.bind_some]
    rfl

lemma SameButRef.convertTempCorrectedToRaw (h : SameButRef s s') (t : ℤ) :
    s'.convertTempCorrectedToRaw t = s.convertTempCorrectedToRaw t := by
  unfold ClockDriftEstimate.convertTempCorrectedToRaw
  rw [h.temp]

lemma convertToTempCorrected_eq (h : s.Inv) (hrefs : s.RefsWithin (2 ^ 58)) (timestamp : Timestamp)
    (ht : |timestamp.us| ≤ 2 ^ 58) :
    ∃ times s', s.convertToTempCorrected timestamp = some (times, s') ∧ SameButRef s s' := by
  have hdrift : ∀ driftCorr : Int64, |driftCorr.toInt| ≤ 2 ^ 58 →
      ∃ times s', s.convertToTempCorrected (.driftCorrectedMono driftCorr) = some (times, s') ∧
        SameButRef s s' := by
    intro driftCorr hd
    obtain ⟨tTemp, s', hconvert, hbound, hsame⟩ :=
      convertDriftCorrectedToTempCorrected_bound h hrefs hd
    obtain ⟨raw, hraw⟩ := convertTempCorrectedToRaw_bound h hrefs hbound
    refine ⟨(raw, tTemp), s', ?_, hsame⟩
    simp [convertToTempCorrected, hconvert, hsame.convertTempCorrectedToRaw, hraw]
  cases timestamp with
  | rawMono raw =>
    obtain ⟨tTemp, hconvert, -⟩ := convertRawToTempCorrected_bound h hrefs raw.toInt ht
    exact ⟨(raw.toInt, tTemp), s, by simp [convertToTempCorrected, hconvert], rfl, rfl, rfl⟩
  | tempCorrectedMono tempCorr =>
    have hbound : |tempCorr.toInt| ≤ 2 ^ 58 := ht
    obtain ⟨raw, hconvert⟩ := convertTempCorrectedToRaw_bound h hrefs (t := tempCorr.toInt) (by omega)
    exact ⟨(raw, tempCorr.toInt), s, by simp [convertToTempCorrected, hconvert], rfl, rfl, rfl⟩
  | driftCorrectedMono driftCorr => exact hdrift driftCorr ht
  | offsetAdjusted driftCorr => exact hdrift driftCorr ht

lemma convertToDriftCorrected_eq (h : s.Inv) (hrefs : s.RefsWithin (2 ^ 58)) (timestamp : Timestamp)
    (ht : |timestamp.us| ≤ 2 ^ 58) :
    ∃ times s', s.convertToDriftCorrected timestamp = some (times, s') ∧ SameButRef s s' := by
  have hdrift : ∀ driftCorr : Int64, |driftCorr.toInt| ≤ 2 ^ 58 →
      ∃ times s', s.convertToDriftCorrected (.driftCorrectedMono driftCorr) = some (times, s') ∧
        SameButRef s s' := by
    intro driftCorr hd
    obtain ⟨tTemp, s', hconvert, -, hsame⟩ := convertDriftCorrectedToTempCorrected_bound h hrefs hd
    exact ⟨(tTemp, driftCorr.toInt), s', by simp [convertToDriftCorrected, hconvert], hsame⟩
  cases timestamp with
  | rawMono raw =>
    obtain ⟨tTemp, hconvert, hbound⟩ := convertRawToTempCorrected_bound h hrefs raw.toInt ht
    obtain ⟨tDrift, s', hcorrect, hsame⟩ := convertTempCorrectedToDriftCorrected_bound h hrefs hbound
    exact ⟨(tTemp, tDrift), s', by simp [convertToDriftCorrected, hconvert, hcorrect], hsame⟩
  | tempCorrectedMono tempCorr =>
    have hbound : |tempCorr.toInt| ≤ 2 ^ 58 := ht
    obtain ⟨tDrift, s', hcorrect, hsame⟩ :=
      convertTempCorrectedToDriftCorrected_bound h hrefs (t := tempCorr.toInt) (by omega)
    exact ⟨(tempCorr.toInt, tDrift), s', by simp [convertToDriftCorrected, hcorrect], hsame⟩
  | driftCorrectedMono driftCorr => exact hdrift driftCorr ht
  | offsetAdjusted driftCorr => exact hdrift driftCorr ht

end ClockDriftEstimate

/-! ### Runs -/

/-- A call of the estimator -/
inductive Update where
  | tempCorrection (timestamp : Timestamp) (tempAdjust : TempErrorEstimate)
  | networkTime (timestamp : Timestamp) (networkTime : NetworkTime)

namespace Update

def timestamp : Update → Timestamp
  | .tempCorrection timestamp _ | .networkTime timestamp _ => timestamp

/-- A temperature estimate is within its bounds. -/
def Valid : Update → Prop
  | .tempCorrection _ tempAdjust => tempAdjust.Valid
  | .networkTime _ _ => True

instance : DecidablePred Valid
  | .tempCorrection _ tempAdjust => inferInstanceAs (Decidable tempAdjust.Valid)
  | .networkTime _ _ => isTrue trivial

end Update

namespace ClockErrorEstimate

variable {average : ErrorEstimate → ErrorEstimate → ErrorEstimate} {s : ClockErrorEstimate}

def exec (average : ErrorEstimate → ErrorEstimate → ErrorEstimate) (s : ClockErrorEstimate) :
    Update → Option ClockErrorEstimate
  | .tempCorrection timestamp tempAdjust => (s.updateTempCorrection timestamp tempAdjust).map Prod.snd
  | .networkTime timestamp networkTime => (s.updateNetworkTime average timestamp networkTime).map Prod.snd

/-- The estimate is computed, and it is at most `CORRECTION_ERROR_MAX_PPB`. -/
def EstimateBounded (s : ClockErrorEstimate) : Prop :=
  ∃ e, s.driftEstimate = some e ∧ |e.errorPpb| ≤ correctionErrorMaxPpb

/-- No update panics, and the estimate is bounded in every state. -/
def RunsSafely (average : ErrorEstimate → ErrorEstimate → ErrorEstimate) :
    ClockErrorEstimate → List Update → Prop
  | s, [] => s.EstimateBounded
  | s, update :: updates =>
    s.EstimateBounded ∧ ∃ s', s.exec average update = some s' ∧ RunsSafely average s' updates

/-- At each update the timestamp and the reference points are less than `2 ^ 58` microseconds. -/
def StaysInReach (average : ErrorEstimate → ErrorEstimate → ErrorEstimate) :
    ClockErrorEstimate → List Update → Prop
  | _, [] => True
  | s, update :: updates =>
    (|update.timestamp.us| ≤ 2 ^ 58 ∧ s.drift.RefsWithin (2 ^ 58)) ∧
      ∀ s', s.exec average update = some s' → StaysInReach average s' updates

instance decidableStaysInReach (average : ErrorEstimate → ErrorEstimate → ErrorEstimate) :
    ∀ (s : ClockErrorEstimate) (updates : List Update), Decidable (s.StaysInReach average updates)
  | _, [] => isTrue trivial
  | s, update :: updates =>
    have := fun s' => decidableStaysInReach average s' updates
    inferInstanceAs (Decidable ((|update.timestamp.us| ≤ 2 ^ 58 ∧ s.drift.RefsWithin (2 ^ 58)) ∧
      ∀ s' ∈ s.exec average update, StaysInReach average s' updates))

/-- One update. -/
lemma exec_inv (average : ErrorEstimate → ErrorEstimate → ErrorEstimate) (h : s.drift.Inv)
    {update : Update} (hvalid : update.Valid) (ht : |update.timestamp.us| ≤ 2 ^ 58)
    (hrefs : s.drift.RefsWithin (2 ^ 58)) :
    ∃ s', s.exec average update = some s' ∧ s'.drift.Inv := by
  cases update with
  | tempCorrection timestamp tempAdjust =>
    obtain ⟨⟨tRaw, tTemp⟩, drift, hconvert, hsame⟩ :=
      ClockDriftEstimate.convertToTempCorrected_eq h hrefs timestamp ht
    obtain ⟨e, drift', hupdate, hinv⟩ :=
      (h.of_sameButRef hsame).updateTempCorrection tRaw tTemp hvalid
    exact ⟨⟨drift'⟩, by simp [exec, updateTempCorrection, hconvert, hupdate], hinv⟩
  | networkTime timestamp networkTime =>
    obtain ⟨⟨tTemp, tDrift⟩, drift, hconvert, hsame⟩ :=
      ClockDriftEstimate.convertToDriftCorrected_eq h hrefs timestamp ht
    obtain ⟨r, drift', hupdate, hinv⟩ :=
      (h.of_sameButRef hsame).updateNetworkTime average tTemp tDrift networkTime
    exact ⟨⟨drift'⟩, by simp [exec, updateNetworkTime, hconvert, hupdate], hinv⟩

lemma runsSafely_of_inv (average : ErrorEstimate → ErrorEstimate → ErrorEstimate) (updates : List Update)
    (h : s.drift.Inv) (hvalid : ∀ update ∈ updates, update.Valid)
    (hreach : s.StaysInReach average updates) : s.RunsSafely average updates := by
  induction updates generalizing s with
  | nil => exact h.estimate
  | cons update updates ih =>
    obtain ⟨⟨ht, hrefs⟩, hrest⟩ := hreach
    rw [List.forall_mem_cons] at hvalid
    obtain ⟨s', hexec, hinv⟩ := exec_inv average h hvalid.1 ht hrefs
    exact ⟨h.estimate, s', hexec, ih hinv hvalid.2 (hrest s' hexec)⟩

/-- **Arithmetic of the estimator**: in every run from a calibration within the bounds, with temperatures
within the bounds and any average, no update overflows or divides by zero, and the estimate stays within the
bounds, if the timestamp and the reference points of each update are less than `2 ^ 58` microseconds. -/
theorem runsSafely_of_staysInReach (average : ErrorEstimate → ErrorEstimate → ErrorEstimate)
    (calibration : ErrorEstimate) (updates : List Update) (hcalibration : calibration.Valid)
    (hvalid : ∀ update ∈ updates, update.Valid) (hreach : (new calibration).StaysInReach average updates) :
    (new calibration).RunsSafely average updates :=
  runsSafely_of_inv average updates (ClockDriftEstimate.inv_new hcalibration) hvalid hreach

/-- Corrections and network times in turn: a reference of the network, a correction that moves the reference
points, a network time ten minutes later that is averaged in, and a correction against the new estimate. -/
theorem runsSafely_corrections : (new ⟨120000, 40000⟩).RunsSafely ClockDriftEstimate.latest
    [.tempCorrection (.rawMono 10000000) ⟨100000, 5000⟩,
      .networkTime (.tempCorrectedMono 20000000) ⟨1600000020000000, 30000⟩,
      .tempCorrection (.driftCorrectedMono 200000000) ⟨-50000, 5000⟩,
      .networkTime (.rawMono 620000000) ⟨1600000620000000, 20000⟩,
      .tempCorrection (.offsetAdjusted 700000000) ⟨20000, 4000⟩] :=
  runsSafely_of_staysInReach _ _ _ ⟨by decide, by decide⟩ (by decide) (by decide +kernel)

/-- Two corrections, the first one microsecond after zero and the second at the least timestamp: the
difference to the reference point overflows. -/
theorem correction_overflows : ErrorEstimate.Valid ⟨0, 100⟩ ∧ TempErrorEstimate.zero.Valid ∧
    ¬ (new ⟨0, 100⟩).RunsSafely ClockDriftEstimate.latest
      [.tempCorrection (.rawMono 1) .zero, .tempCorrection (.rawMono Int64.minValue) .zero] := by
  refine ⟨⟨by decide, by decide⟩, ⟨by decide, by decide⟩, ?_⟩
  rintro ⟨-, s', hfirst, -, s'', hsecond, -⟩
  cases hfirst
  cases hsecond

end ClockErrorEstimate

end SensorLink.Clock
