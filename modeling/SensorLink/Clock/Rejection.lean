import SensorLink.Clock.Estimate

/-!
# Which network times are rejected

A comparison with the network time measures how far the local clock ran ahead since the reference. Where it
ran ahead too far the comparison is rejected, and where it fell behind just as far it is not: `drift` and
`error_ppb` are compared without their absolute values. A network clock that was set back does not get as far
as the comparison: the network interval is then too short, whatever the drift.
-/

namespace SensorLink.Clock

/-! ### The comparison with a reference -/

namespace NetworkRef

variable (prev : NetworkRef) (tTemp : ℤ) (networkTime : NetworkTime)

/-- The local time since the reference -/
def localDt : ℤ := saturate (tTemp - prev.tLocal)

/-- The network time since the reference -/
def networkDt : ℤ :=
  saturate (networkTime.timestampServerUs.toInt - prev.tNetwork.timestampServerUs.toInt)

/-- The larger latency of the two network times -/
def maxLatencyError : ℕ :=
  max networkTime.latencyEstimateUs.toNat prev.tNetwork.latencyEstimateUs.toNat

/-- The least network time since the reference, if one of the latencies was zero -/
def networkDtMinimum : ℤ := saturate (prev.networkDt networkTime - prev.maxLatencyError networkTime)

/-- How far the local clock ran ahead -/
def drift : ℤ := prev.localDt tTemp - prev.networkDt networkTime

def errorPpb : ℤ :=
  (saturate (prev.drift tTemp networkTime * 1000000000)).tdiv (prev.networkDt networkTime)

/-- What the latency adds to the uncertainty -/
def uncertaintyPpb : ℕ :=
  asU32 (((prev.maxLatencyError networkTime : ℤ) * 1000000000).tdiv (prev.networkDtMinimum networkTime))

/-- The reference is old enough for the latencies, so that the two times are compared. -/
def Compares : Prop :=
  networkTimeUpdateIntervalMinUs < min (prev.networkDtMinimum networkTime) (prev.localDt tTemp) ∧
    ((prev.maxLatencyError networkTime : ℤ) * 1000000000).tdiv (prev.networkDtMinimum networkTime) <
      correctionErrorMaxPpb

/-- The drift or the error reaches its limit, on either side. -/
def TooLarge : Prop :=
  i32Max ≤ |prev.drift tTemp networkTime| ∨ correctionErrorMaxPpb ≤ |prev.errorPpb tTemp networkTime|

/-- The drift or the error reaches its limit from below. -/
def TooFarAhead : Prop :=
  i32Max ≤ prev.drift tTemp networkTime ∨ correctionErrorMaxPpb ≤ prev.errorPpb tTemp networkTime

variable {prev tTemp networkTime}

lemma Compares.dt_pos (h : prev.Compares tTemp networkTime) :
    0 < prev.localDt tTemp ∧ 0 < prev.networkDtMinimum networkTime ∧ 0 < prev.networkDt networkTime := by
  obtain ⟨hmin, -⟩ := h
  have hrange := saturate_range
    (networkTime.timestampServerUs.toInt - prev.tNetwork.timestampServerUs.toInt)
  unfold networkTimeUpdateIntervalMinUs networkDtMinimum saturate at hmin
  unfold networkDtMinimum saturate
  change -2 ^ 63 ≤ prev.networkDt networkTime ∧ prev.networkDt networkTime < 2 ^ 63 at hrange
  omega

/-- The error has the sign of the drift. -/
lemma errorPpb_sign (tTemp : ℤ) (hdt : 0 < prev.networkDt networkTime) :
    (0 ≤ prev.drift tTemp networkTime → 0 ≤ prev.errorPpb tTemp networkTime) ∧
      (prev.drift tTemp networkTime ≤ 0 → prev.errorPpb tTemp networkTime ≤ 0) := by
  unfold errorPpb
  constructor
  · intro hsign
    apply Int.tdiv_nonneg _ hdt.le
    unfold saturate
    omega
  · intro hsign
    have hscaled : saturate (prev.drift tTemp networkTime * 1000000000) ≤ 0 := by
      unfold saturate
      omega
    simpa using Int.tdiv_le_tdiv hdt hscaled

/-- A limit is passed with a clock that ran ahead, or is not passed from below. -/
lemma tooFarAhead_iff (h : prev.Compares tTemp networkTime) (hlarge : prev.TooLarge tTemp networkTime) :
    prev.TooFarAhead tTemp networkTime ↔ prev.networkDt networkTime < prev.localDt tTemp := by
  obtain ⟨hpos, hneg⟩ := errorPpb_sign tTemp h.dt_pos.2.2
  unfold TooLarge at hlarge
  unfold TooFarAhead
  have hdrift : prev.drift tTemp networkTime = prev.localDt tTemp - prev.networkDt networkTime := rfl
  constructor
  · rintro (hfar | hfar)
    · unfold i32Max at hfar
      omega
    · by_contra hbehind
      have := hneg (by omega)
      unfold correctionErrorMaxPpb at hfar
      omega
  · intro hahead
    rwa [abs_of_nonneg (by omega), abs_of_nonneg (hpos (by omega))] at hlarge

end NetworkRef

namespace ClockDriftEstimate

variable {average : ErrorEstimate → ErrorEstimate → ErrorEstimate} {s : ClockDriftEstimate}
variable {prev : NetworkRef} {tTemp tDrift : ℤ} {networkTime : NetworkTime}

/-- The state with a network reference of the present time, where a new interval starts -/
def restarted (s : ClockDriftEstimate) (prev : NetworkRef) (tTemp : ℤ) (networkTime : NetworkTime) :
    ClockDriftEstimate :=
  { s with network := some ⟨networkTime, tTemp, s.estimatePreTemp, prev.maxTempUncertaintyPpb⟩ }

/-- The state with the estimate of a comparison, of the total uncertainty `total` -/
def compared (average : ErrorEstimate → ErrorEstimate → ErrorEstimate) (s : ClockDriftEstimate)
    (prev : NetworkRef) (tTemp tDrift : ℤ) (networkTime : NetworkTime) (total : ℕ) : ClockDriftEstimate :=
  let estimatePreTemp :=
    weighedAverage average prev.initialEstimate ⟨asI32 (prev.errorPpb tTemp networkTime), total⟩
  let network :=
    if prev.uncertaintyPpb networkTime <
        min prev.maxTempUncertaintyPpb networkUncertaintyThresholdMinPpb then
      ⟨networkTime, tTemp, estimatePreTemp, prev.maxTempUncertaintyPpb⟩
    else prev
  ⟨estimatePreTemp, some (tTemp, tDrift), s.temp, some network⟩

lemma fitI64_latency (prev : NetworkRef) (networkTime : NetworkTime) :
    fitI64 ((prev.maxLatencyError networkTime : ℤ) * 1000000000) =
      some ((prev.maxLatencyError networkTime : ℤ) * 1000000000) := by
  have hnew := networkTime.latencyEstimateUs.toNat_lt
  have hold := prev.tNetwork.latencyEstimateUs.toNat_lt
  have hlatency : prev.maxLatencyError networkTime < 2 ^ 32 := max_lt hnew hold
  apply if_pos
  omega

lemma divI64_latency (hdt : 0 < prev.networkDtMinimum networkTime) :
    divI64 ((prev.maxLatencyError networkTime : ℤ) * 1000000000) (prev.networkDtMinimum networkTime) =
      some (((prev.maxLatencyError networkTime : ℤ) * 1000000000).tdiv (prev.networkDtMinimum networkTime)) :=
  divI64_eq (fitI64_eq_some (fitI64_latency prev networkTime)).2 hdt

/-- Where the reference is too recent for the latencies, the update fails and changes nothing. -/
lemma updateNetworkTime_early (average : ErrorEstimate → ErrorEstimate → ErrorEstimate) (tDrift : ℤ)
    (hprev : s.network = some prev) (h : ¬ prev.Compares tTemp networkTime) :
    ∃ e, e ≠ .errorTooLarge ∧
      s.updateNetworkTime average tTemp tDrift networkTime = some (.error e, s) := by
  unfold updateNetworkTime
  rw [hprev]
  dsimp only
  by_cases hrecent : min (prev.networkDtMinimum networkTime) (prev.localDt tTemp) ≤
      networkTimeUpdateIntervalMinUs
  · exact ⟨.previousDataTooRecent, by decide, if_pos hrecent⟩
  · have hdt : 0 < prev.networkDtMinimum networkTime := by
      unfold networkTimeUpdateIntervalMinUs at hrecent
      omega
    have huncertain : correctionErrorMaxPpb ≤
        ((prev.maxLatencyError networkTime : ℤ) * 1000000000).tdiv (prev.networkDtMinimum networkTime) := by
      by_contra hlow
      exact h ⟨not_le.mp hrecent, not_le.mp hlow⟩
    refine ⟨.uncertaintyTooLarge, by decide, (if_neg hrecent).trans ?_⟩
    change (fitI64 ((prev.maxLatencyError networkTime : ℤ) * 1000000000)).bind _ = _
    rw [fitI64_latency, Option.bind_some]
    change (divI64 ((prev.maxLatencyError networkTime : ℤ) * 1000000000)
      (prev.networkDtMinimum networkTime)).bind _ = _
    rw [divI64_latency hdt, Option.bind_some]
    exact if_pos huncertain

/-- Else the times are compared. -/
lemma updateNetworkTime_compares (hprev : s.network = some prev) (h : prev.Compares tTemp networkTime) :
    s.updateNetworkTime average tTemp tDrift networkTime =
      if i32Max ≤ prev.drift tTemp networkTime ∨
          correctionErrorMaxPpb ≤ prev.errorPpb tTemp networkTime then
        some (.error .errorTooLarge, s.restarted prev tTemp networkTime)
      else
        (fitU32 (prev.uncertaintyPpb networkTime + prev.maxTempUncertaintyPpb)).map fun total =>
          (.ok (), s.compared average prev tTemp tDrift networkTime total) := by
  obtain ⟨hlocal, hmin, hnetwork⟩ := h.dt_pos
  obtain ⟨hrecent, huncertain⟩ := h
  have hlocal' : prev.localDt tTemp < 2 ^ 63 := (saturate_range _).2
  have hnetwork' : prev.networkDt networkTime < 2 ^ 63 := (saturate_range _).2
  have hdrift : fitI64 (prev.localDt tTemp - prev.networkDt networkTime) =
      some (prev.drift tTemp networkTime) := if_pos (by omega)
  have herror : divI64 (saturate (prev.drift tTemp networkTime * 1000000000))
      (prev.networkDt networkTime) = some (prev.errorPpb tTemp networkTime) :=
    divI64_eq (saturate_range _) hnetwork
  unfold updateNetworkTime
  rw [hprev]
  refine (if_neg (not_le.mpr hrecent)).trans ?_
  change (fitI64 ((prev.maxLatencyError networkTime : ℤ) * 1000000000)).bind _ = _
  rw [fitI64_latency, Option.bind_some]
  change (divI64 ((prev.maxLatencyError networkTime : ℤ) * 1000000000)
    (prev.networkDtMinimum networkTime)).bind _ = _
  rw [divI64_latency hmin, Option.bind_some]
  refine (if_neg (not_le.mpr huncertain)).trans ?_
  change (fitI64 (prev.localDt tTemp - prev.networkDt networkTime)).bind _ = _
  rw [hdrift, Option.bind_some]
  change (divI64 (saturate (prev.drift tTemp networkTime * 1000000000))
    (prev.networkDt networkTime)).bind _ = _
  rw [herror, Option.bind_some]
  by_cases hfar : i32Max ≤ prev.drift tTemp networkTime ∨
      correctionErrorMaxPpb ≤ prev.errorPpb tTemp networkTime
  · exact (if_pos hfar).trans (if_pos hfar).symm
  · refine (if_neg hfar).trans (Eq.trans ?_ (if_neg hfar).symm)
    change (fitU32 (prev.uncertaintyPpb networkTime + prev.maxTempUncertaintyPpb)).bind _ = _
    cases fitU32 (prev.uncertaintyPpb networkTime + prev.maxTempUncertaintyPpb) <;> rfl

/-- `ErrorTooLarge` is returned, and the drift estimate and the reference points of the conversions are
kept. (The network interval starts anew.) -/
def Rejects (average : ErrorEstimate → ErrorEstimate → ErrorEstimate) (s : ClockDriftEstimate)
    (tTemp tDrift : ℤ) (networkTime : NetworkTime) : Prop :=
  ∃ s', s.updateNetworkTime average tTemp tDrift networkTime = some (.error .errorTooLarge, s') ∧
    s'.estimatePreTemp = s.estimatePreTemp ∧ s'.estimateAt = s.estimateAt ∧ s'.temp = s.temp

/-- A network time whose drift or error reaches a limit on either side is rejected. -/
def RejectsLarge (average : ErrorEstimate → ErrorEstimate → ErrorEstimate) (s : ClockDriftEstimate)
    (tTemp tDrift : ℤ) (networkTime : NetworkTime) : Prop :=
  ∀ prev, s.network = some prev → prev.TooLarge tTemp networkTime →
    s.Rejects average tTemp tDrift networkTime

/-- A comparison is rejected if and only if it comes out too far ahead. -/
lemma rejects_iff (hprev : s.network = some prev) (h : prev.Compares tTemp networkTime) :
    s.Rejects average tTemp tDrift networkTime ↔ prev.TooFarAhead tTemp networkTime := by
  unfold Rejects
  rw [updateNetworkTime_compares hprev h]
  by_cases hfar : prev.TooFarAhead tTemp networkTime
  · exact iff_of_true ⟨s.restarted prev tTemp networkTime, if_pos hfar, rfl, rfl, rfl⟩ hfar
  · refine iff_of_false ?_ hfar
    rintro ⟨s', hupdate, -⟩
    obtain ⟨total, -, htotal⟩ := Option.map_eq_some_iff.mp ((if_neg hfar).symm.trans hupdate)
    cases htotal

/-- What is rejected was compared: the errors of the earlier exits are others. -/
lemma Rejects.compares (hprev : s.network = some prev)
    (h : s.Rejects average tTemp tDrift networkTime) : prev.Compares tTemp networkTime := by
  by_contra hearly
  obtain ⟨e, he, hfailed⟩ := updateNetworkTime_early average tDrift hprev hearly
  obtain ⟨s', hrejected, -⟩ := h
  cases hfailed.symm.trans hrejected
  exact he rfl

/-- **Which large errors are rejected**, for every state and every network time: all of them if and only if
one that reaches a limit is compared at all and has a local clock that ran ahead of the network. (Where the
times are not compared an update fails with another error and changes nothing.) -/
theorem rejectsLarge_iff (average : ErrorEstimate → ErrorEstimate → ErrorEstimate)
    (s : ClockDriftEstimate) (tTemp tDrift : ℤ) (networkTime : NetworkTime) :
    (s.RejectsLarge average tTemp tDrift networkTime ↔
        ∀ prev, s.network = some prev → prev.TooLarge tTemp networkTime →
          prev.Compares tTemp networkTime ∧ prev.networkDt networkTime < prev.localDt tTemp) ∧
      ∀ prev, s.network = some prev → ¬ prev.Compares tTemp networkTime →
        ∃ e, e ≠ .errorTooLarge ∧
          s.updateNetworkTime average tTemp tDrift networkTime = some (.error e, s) := by
  refine ⟨?_, fun prev hprev h => updateNetworkTime_early average tDrift hprev h⟩
  constructor
  · intro hrejects prev hprev hlarge
    have hrejected := hrejects prev hprev hlarge
    have hcompares := hrejected.compares hprev
    have hfar := (rejects_iff hprev hcompares).mp hrejected
    exact ⟨hcompares, (NetworkRef.tooFarAhead_iff hcompares hlarge).mp hfar⟩
  · intro hahead prev hprev hlarge
    obtain ⟨hcompares, hbefore⟩ := hahead prev hprev hlarge
    have hfar := (NetworkRef.tooFarAhead_iff hcompares hlarge).mpr hbefore
    exact (rejects_iff hprev hcompares).mpr hfar

/-! ### A clock that fell behind -/

/-- The average with an estimate that has no uncertainty -/
def latest (_ other : ErrorEstimate) : ErrorEstimate := other

/-- Two minutes after the first update the network is at 10000 s: the local clock fell behind by more than
`i32::MAX` and by 988000000 ppb. The update succeeds, with the largest error for the drift estimate. -/
theorem behind_not_rejected : ∃ s : ClockErrorEstimate,
    (ClockErrorEstimate.new ⟨0, 100⟩).updateNetworkTime latest (.tempCorrectedMono 0) ⟨0, 0⟩ =
        some (.error .noPreviousData, s) ∧
      (∃ s', s.updateNetworkTime latest (.tempCorrectedMono 120000000) ⟨10000000000, 0⟩ =
        some (.ok (), s') ∧ s'.drift.estimatePreTemp.errorPpb = -500000000) ∧
      ¬ s.drift.RejectsLarge latest 120000000 120000000 ⟨10000000000, 0⟩ := by
  refine ⟨_, rfl, ⟨_, rfl, by decide⟩, ?_⟩
  intro hrejects
  have hcompares : NetworkRef.Compares ⟨⟨0, 0⟩, 0, ⟨0, 100⟩, 0⟩ 120000000 ⟨10000000000, 0⟩ := by
    unfold NetworkRef.Compares
    decide
  have hlarge : NetworkRef.TooLarge ⟨⟨0, 0⟩, 0, ⟨0, 100⟩, 0⟩ 120000000 ⟨10000000000, 0⟩ := by
    unfold NetworkRef.TooLarge
    decide
  have hfar := (rejects_iff rfl hcompares).mp (hrejects _ rfl hlarge)
  revert hfar
  unfold NetworkRef.TooFarAhead
  decide

-- A network clock set back from 10000 s to 6000 s: the interval is negative, so the drift is not looked at.
example :
    (ClockDriftEstimate.mk ⟨0, 100⟩ none none (some ⟨⟨10000000000, 0⟩, 0, ⟨0, 100⟩, 0⟩)).updateNetworkTime
        latest 120000000 120000000 ⟨6000000000, 0⟩ =
      some (.error .previousDataTooRecent,
        ClockDriftEstimate.mk ⟨0, 100⟩ none none (some ⟨⟨10000000000, 0⟩, 0, ⟨0, 100⟩, 0⟩)) := rfl

end ClockDriftEstimate

end SensorLink.Clock
