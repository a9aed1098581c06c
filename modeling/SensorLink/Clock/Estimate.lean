import SensorLink.Clock.Slope

/-!
# The clock error estimate of `logic/time_adjust.rs`

The estimate of the drift is updated by comparison with the network time, and the one of the temperature
error by the temperature. Times are in microseconds, errors in ppb; `none` is a panic. The floating point
average of two estimates is a parameter `average`, from which only its clamp is computed.
-/

namespace SensorLink.Clock

open SensorLink.Lib

/-- `NETWORK_TIME_UPDATE_INTERVAL_MIN_US` -/
def networkTimeUpdateIntervalMinUs : ℤ := 60000000

/-- `NETWORK_UNCERTAINTY_THRESHOLD_MIN_PPB` -/
def networkUncertaintyThresholdMinPpb : ℕ := 1000

/-- `ESTIMATE_MIN_INITIAL_UNCERTAINTY_PPB` -/
def estimateMinInitialUncertaintyPpb : ℕ := 100

/-- `CORRECTION_ERROR_MAX_PPB` -/
def correctionErrorMaxPpb : ℤ := 500000000

/-- `CORRECTION_ERROR_MAX_PPB_U32` -/
def correctionErrorMaxPpbU32 : ℕ := 500000000

/-- The cast of an integer `as i32` -/
def asI32 (v : ℤ) : ℤ := v.bmod (2 ^ 32)

/-- The cast of an integer `as u32` -/
def asU32 (v : ℤ) : ℕ := (v % 2 ^ 32).toNat

/-! ### Data -/

structure TempErrorEstimate where
  errorPpb : ℤ
  uncertaintyPpb : ℕ

/-- `TempErrorEstimate::zero` -/
def TempErrorEstimate.zero : TempErrorEstimate := ⟨0, 0⟩

/-- `ErrorEstimate`, which `DriftError` wraps and `ClockCalibration` stores -/
structure ErrorEstimate where
  errorPpb : ℤ
  uncertaintyPpb : ℕ

structure TotalDriftError where
  errorPpb : ℤ
  uncertaintyPpb : ℕ

structure NetworkTime where
  timestampServerUs : Int64
  latencyEstimateUs : UInt32

inductive Timestamp where
  | rawMono (t : Int64)
  | tempCorrectedMono (t : Int64)
  | driftCorrectedMono (t : Int64)
  | offsetAdjusted (t : Int64)

/-- The time of the timestamp -/
def Timestamp.us : Timestamp → ℤ
  | .rawMono t | .tempCorrectedMono t | .driftCorrectedMono t | .offsetAdjusted t => t.toInt

/-- `NetworkRef` -/
structure NetworkRef where
  tNetwork : NetworkTime
  tLocal : ℤ
  initialEstimate : ErrorEstimate
  maxTempUncertaintyPpb : ℕ

/-- `ClockDriftEstimate`, wrapped by `ClockErrorEstimate`. `estimateAt` has a temperature-corrected and a
drift-corrected time, `temp` a raw and a temperature-corrected one. -/
structure ClockDriftEstimate where
  estimatePreTemp : ErrorEstimate
  estimateAt : Option (ℤ × ℤ)
  temp : Option (ℤ × ℤ × TempErrorEstimate)
  network : Option NetworkRef

inductive NetworkEstError where
  | noPreviousData
  | previousDataTooRecent
  | uncertaintyTooLarge
  | uncertaintyNotImprovedYet
  | errorTooLarge
deriving DecidableEq

/-- `clamp` to the largest error -/
def clampPpb (v : ℤ) : ℤ := max (-correctionErrorMaxPpb) (min v correctionErrorMaxPpb)

/-- `weighed_average` -/
def weighedAverage (average : ErrorEstimate → ErrorEstimate → ErrorEstimate)
    (self other : ErrorEstimate) : ErrorEstimate :=
  let result := average self other
  ⟨clampPpb result.errorPpb, min result.uncertaintyPpb correctionErrorMaxPpbU32⟩

/-- The width of the error ranges of two temperature estimates -/
def tempUncertainty (prev tempAdjust : TempErrorEstimate) : Option ℕ := do
  let prevMin ← fitI32 (prev.errorPpb - asI32 prev.uncertaintyPpb)
  let prevMax ← fitI32 (prev.errorPpb + asI32 prev.uncertaintyPpb)
  let newMin ← fitI32 (tempAdjust.errorPpb - asI32 tempAdjust.uncertaintyPpb)
  let newMax ← fitI32 (tempAdjust.errorPpb + asI32 tempAdjust.uncertaintyPpb)
  let errMin := min prevMin newMin
  let errMax := max prevMax newMax
  let width ← fitI32 (errMax - errMin)
  pure width.natAbs

namespace ClockDriftEstimate

/-- `new` -/
def new (initialDriftEstimate : ErrorEstimate) : ClockDriftEstimate where
  estimatePreTemp :=
    if initialDriftEstimate.uncertaintyPpb < estimateMinInitialUncertaintyPpb then
      { initialDriftEstimate with uncertaintyPpb := estimateMinInitialUncertaintyPpb }
    else initialDriftEstimate
  estimateAt := none
  temp := none
  network := none

variable (s : ClockDriftEstimate)

/-- The last known temperature error, or zero -/
def tempError : TempErrorEstimate :=
  match s.temp with
  | some (_, _, estimate) => estimate
  | none => TempErrorEstimate.zero

/-- `estimate` -/
def estimate : Option TotalDriftError := do
  let errorPpb ← fitI32 (s.tempError.errorPpb + s.estimatePreTemp.errorPpb)
  let uncertaintyPpb ← fitU32 (s.tempError.uncertaintyPpb + s.estimatePreTemp.uncertaintyPpb)
  pure ⟨clampPpb errorPpb, min uncertaintyPpb correctionErrorMaxPpbU32⟩

/-! ### Conversions of a time -/

/-- `convert_raw_to_temp_corrected` -/
def convertRawToTempCorrected (raw : ℤ) : Option ℤ :=
  match s.temp with
  | none => some raw
  | some (tRawOffset, tCorrOffset, estimate) => do
    let deltaRaw ← fitI64 (raw - tRawOffset)
    let slope ← fitI32 (-estimate.errorPpb)
    let deltaCorr ← reverseSlopeConvert deltaRaw slope
    fitI64 (tCorrOffset + deltaCorr)

/-- `convert_temp_corrected_to_raw` -/
def convertTempCorrectedToRaw (tempCorr : ℤ) : Option ℤ :=
  match s.temp with
  | none => some tempCorr
  | some (tRawOffset, tCorrOffset, estimate) => do
    let deltaCorr ← fitI64 (tempCorr - tCorrOffset)
    let deltaRaw ← forwardSlopeConvert deltaCorr estimate.errorPpb
    fitI64 (tRawOffset + deltaRaw)

/-- `convert_temp_corrected_to_drift_corrected` -/
def convertTempCorrectedToDriftCorrected (tempCorr : ℤ) : Option (ℤ × ClockDriftEstimate) :=
  match s.estimateAt with
  | none => some (tempCorr, { s with estimateAt := some (tempCorr, tempCorr) })
  | some (tempCorrOffset, driftCorrOffset) => do
    let dt ← fitI64 (tempCorr - tempCorrOffset)
    let slope ← fitI32 (-s.estimatePreTemp.errorPpb)
    let deltaDrift ← reverseSlopeConvert dt slope
    let driftCorr ← fitI64 (driftCorrOffset + deltaDrift)
    pure (driftCorr, s)

/-- `convert_drift_corrected_to_temp_corrected` -/
def convertDriftCorrectedToTempCorrected (driftCorr : ℤ) : Option (ℤ × ClockDriftEstimate) :=
  match s.estimateAt with
  | none => some (driftCorr, { s with estimateAt := some (driftCorr, driftCorr) })
  | some (tempCorrOffset, driftCorrOffset) => do
    let dt ← fitI64 (driftCorr - driftCorrOffset)
    let deltaTemp ← forwardSlopeConvert dt s.estimatePreTemp.errorPpb
    let tempCorr ← fitI64 (tempCorrOffset + deltaTemp)
    pure (tempCorr, s)

/-- `convert_to_temp_corrected`: the raw and the temperature-corrected time -/
def convertToTempCorrected : Timestamp → Option ((ℤ × ℤ) × ClockDriftEstimate)
  | .rawMono raw => do
    let tempCorr ← s.convertRawToTempCorrected raw.toInt
    pure ((raw.toInt, tempCorr), s)
  | .tempCorrectedMono tempCorr => do
    let raw ← s.convertTempCorrectedToRaw tempCorr.toInt
    pure ((raw, tempCorr.toInt), s)
  | .driftCorrectedMono driftCorr | .offsetAdjusted driftCorr => do
    let (tempCorr, s) ← s.convertDriftCorrectedToTempCorrected driftCorr.toInt
    let raw ← s.convertTempCorrectedToRaw tempCorr
    pure ((raw, tempCorr), s)

/-- `convert_to_drift_corrected`: the temperature-corrected and the drift-corrected time -/
def convertToDriftCorrected : Timestamp → Option ((ℤ × ℤ) × ClockDriftEstimate)
  | .rawMono raw => do
    let tempCorr ← s.convertRawToTempCorrected raw.toInt
    let (driftCorr, s) ← s.convertTempCorrectedToDriftCorrected tempCorr
    pure ((tempCorr, driftCorr), s)
  | .tempCorrectedMono tempCorr => do
    let (driftCorr, s) ← s.convertTempCorrectedToDriftCorrected tempCorr.toInt
    pure ((tempCorr.toInt, driftCorr), s)
  | .driftCorrectedMono driftCorr | .offsetAdjusted driftCorr => do
    let (tempCorr, s) ← s.convertDriftCorrectedToTempCorrected driftCorr.toInt
    pure ((tempCorr, driftCorr.toInt), s)

/-! ### Updates -/

/-- The uncertainty of a temperature estimate and of its difference to the last one -/
def spreadWithLast (tempAdjust : TempErrorEstimate) : Option ℕ :=
  match s.temp with
  | some (_, _, prev) => tempUncertainty prev tempAdjust
  | none => some tempAdjust.uncertaintyPpb

/-- The network reference, where the temperature adds to the uncertainty of its interval -/
def noteTempUncertainty (tTemp : ℤ) (tempAdjust : TempErrorEstimate) : Option (Option NetworkRef) :=
  match s.network with
  | none => some none
  | some network =>
    if network.tLocal < tTemp then do
      let uncertainty ← s.spreadWithLast tempAdjust
      let maxTempUncertaintyPpb :=
        if network.maxTempUncertaintyPpb < uncertainty then uncertainty
        else network.maxTempUncertaintyPpb
      pure (some { network with maxTempUncertaintyPpb := maxTempUncertaintyPpb })
    else some (some network)

/-- `update_temp_correction`, for converted times -/
def updateTempCorrection (tRaw tTemp : ℤ) (tempAdjust : TempErrorEstimate) :
    Option (TotalDriftError × ClockDriftEstimate) := do
  let network ← s.noteTempUncertainty tTemp tempAdjust
  let s := { s with network := network, temp := some (tRaw, tTemp, tempAdjust) }
  let estimate ← s.estimate
  pure (estimate, s)

/-- `update_network_time`, for converted times -/
def updateNetworkTime (average : ErrorEstimate → ErrorEstimate → ErrorEstimate) (tTemp tDrift : ℤ)
    (networkTime : NetworkTime) : Option (Except NetworkEstError Unit × ClockDriftEstimate) :=
  match s.network with
  | none =>
    let network := ⟨networkTime, tTemp, s.estimatePreTemp, s.tempError.uncertaintyPpb⟩
    some (.error .noPreviousData, { s with network := some network })
  | some prev => do
    let localDt := saturate (tTemp - prev.tLocal)
    let networkDt :=
      saturate (networkTime.timestampServerUs.toInt - prev.tNetwork.timestampServerUs.toInt)
    let maxLatencyError : ℕ :=
      max networkTime.latencyEstimateUs.toNat prev.tNetwork.latencyEstimateUs.toNat
    let networkDtMinimum := saturate (networkDt - maxLatencyError)
    if min networkDtMinimum localDt ≤ networkTimeUpdateIntervalMinUs then
      pure (.error .previousDataTooRecent, s)
    else
      let latencyScaled ← fitI64 (maxLatencyError * 1000000000)
      let uncertaintyPpb ← divI64 latencyScaled networkDtMinimum
      if correctionErrorMaxPpb ≤ uncertaintyPpb then pure (.error .uncertaintyTooLarge, s)
      else
        let uncertaintyPpb := asU32 uncertaintyPpb
        let drift ← fitI64 (localDt - networkDt)
        let errorPpb ← divI64 (saturate (drift * 1000000000)) networkDt
        if i32Max ≤ drift ∨ correctionErrorMaxPpb ≤ errorPpb then
          let network := ⟨networkTime, tTemp, s.estimatePreTemp, prev.maxTempUncertaintyPpb⟩
          pure (.error .errorTooLarge, { s with network := some network })
        else
          let totalUncertaintyPpb ← fitU32 (uncertaintyPpb + prev.maxTempUncertaintyPpb)
          let networkEstimate := ⟨asI32 errorPpb, totalUncertaintyPpb⟩
          let estimatePreTemp := weighedAverage average prev.initialEstimate networkEstimate
          -- network-related part of uncertainty below threshold: reset to start a new network interval
          let network :=
            if uncertaintyPpb < min prev.maxTempUncertaintyPpb networkUncertaintyThresholdMinPpb then
              ⟨networkTime, tTemp, estimatePreTemp, prev.maxTempUncertaintyPpb⟩
            else prev
          pure (.ok (), ⟨estimatePreTemp, some (tTemp, tDrift), s.temp, some network⟩)

end ClockDriftEstimate

/-! ### The public interface -/

/-- `ClockErrorEstimate` -/
structure ClockErrorEstimate where
  drift : ClockDriftEstimate

namespace ClockErrorEstimate

/-- `new` -/
def new (initialCalibration : ErrorEstimate) : ClockErrorEstimate := ⟨.new initialCalibration⟩

/-- `update_temp_correction` -/
def updateTempCorrection (s : ClockErrorEstimate) (timestamp : Timestamp)
    (tempAdjust : TempErrorEstimate) : Option (TotalDriftError × ClockErrorEstimate) := do
  let ((tRaw, tTemp), drift) ← s.drift.convertToTempCorrected timestamp
  let (estimate, drift) ← drift.updateTempCorrection tRaw tTemp tempAdjust
  pure (estimate, ⟨drift⟩)

/-- `update_network_time` -/
def updateNetworkTime (average : ErrorEstimate → ErrorEstimate → ErrorEstimate)
    (s : ClockErrorEstimate) (timestamp : Timestamp) (networkTime : NetworkTime) :
    Option (Except NetworkEstError Unit × ClockErrorEstimate) := do
  let ((tTemp, tDrift), drift) ← s.drift.convertToDriftCorrected timestamp
  let (result, drift) ← drift.updateNetworkTime average tTemp tDrift networkTime
  pure (result, ⟨drift⟩)

/-- `drift_estimate` -/
def driftEstimate (s : ClockErrorEstimate) : Option TotalDriftError := s.drift.estimate

end ClockErrorEstimate

end SensorLink.Clock
