import SensorLink.Firmware.Chunking

/-!
# When `update` says that the image is complete

`update` returns true where an iteration finds the validator done, or an image without a length or with
a length that is too short. The iteration that makes it done does not count as one of these: when no
byte of the slice is left behind it, or when it took none, the loop ends with false. So the result is
the announced one except for slices that end exactly where the validator is done, `EndsExactly`.
-/

set_option linter.unusedSectionVars false

namespace SensorLink.Firmware

open SensorLink.Lib

namespace Validator

variable {C : Crypto} {D H : Type} [ApplicationHeader C D H]

/-- The validator is in the state `Complete` or `Fail`. -/
def done (v : Validator C D H) : Bool :=
  match v.state with
  | .init _ => false
  | .needMoreData _ _ => false
  | .complete _ _ => true
  | .fail _ => true

/-- The call returns true if and only if the validator is done after it. -/
def Reported (v : Validator C D H) (bytes : List UInt8) : Prop :=
  (v.update bytes).2 = true ↔ (v.update bytes).1.done = true

/-- Behind `nBytes` bytes the image is at its announced length, or it is after `len` more. -/
def EndsAt (metadata : H) (nBytes len : ℕ) : Prop :=
  ∃ length, (ApplicationHeader.security metadata).length? = some length ∧
    (length = nBytes ∨ length = nBytes + len)

/-- The slice ends exactly where the validator is done: a header that is rejected ends with the slice,
or the bytes behind the header end at the announced length, or that length was reached before them. -/
def EndsExactly (v : Validator C D H) (bytes : List UInt8) : Prop :=
  match v.state with
  | .init buffer =>
    let n := ApplicationHeader.binarySize H - v.nBytes
    n ≤ bytes.length ∧
      match ApplicationHeader.tryFromBytes (H := H) (copyInto buffer v.nBytes (bytes.take n)) with
      | .error _ => bytes.length = n
      | .ok metadata => n < bytes.length ∧ EndsAt metadata n (bytes.length - n)
  | .needMoreData metadata _ => EndsAt metadata v.nBytes bytes.length
  | .complete _ _ => False
  | .fail _ => False

section States

variable {v : Validator C D H} {bytes buffer : List UInt8} {metadata : H} {hasher : Hasher}

lemma reported_of_eq (h : (v.update bytes).2 = (v.update bytes).1.done) : Reported v bytes := by
  unfold Reported
  rw [h]

/-- A validator that is done stays done, and says so. -/
lemma reported_of_done (h : v.done = true) : Reported v bytes := by
  apply reported_of_eq
  cases hs : v.state with
  | init buffer => simp [done, hs] at h
  | needMoreData metadata hasher => simp [done, hs] at h
  | complete metadata hash => simp [update_complete hs, h]
  | fail error => simp [update_fail hs, h]

/-- Behind the header: the image is complete with this slice, or more data is needed. -/
lemma update_needMoreData (bytes : List UInt8) (hs : v.state = .needMoreData metadata hasher)
    {length : ℕ}
    (hlen : (ApplicationHeader.security metadata).length? = some length) (hle : v.nBytes ≤ length) :
    (v.update bytes).1.done = decide (length - v.nBytes ≤ bytes.length) ∧
      (v.update bytes).2 = decide (v.nBytes < length ∧ length - v.nBytes < bytes.length) := by
  constructor
  · rw [update_needMoreData_some bytes hs hlen hle]
    by_cases hdone : length - v.nBytes ≤ bytes.length
    · simp [done, hdone]
    · simp [done, hdone]
  · rw [update_eq, updateStep, hs]
    simp only [hlen, if_neg (Nat.not_lt.mpr hle)]
    by_cases hdone : length - v.nBytes ≤ bytes.length
    · simp only [Nat.min_eq_left hdone, if_true, List.length_drop]
      by_cases hstop : length - v.nBytes = 0 ∨ bytes.length - (length - v.nBytes) = 0
      · rw [if_pos hstop]
        symm
        rw [decide_eq_false_iff_not]
        omega
      · rw [if_neg hstop, update_complete rfl]
        symm
        rw [decide_eq_true_iff]
        omega
    · have hmin : min (length - v.nBytes) bytes.length = bytes.length := by omega
      simp only [hmin, List.take_length]
      rw [if_neg (by omega)]
      simp only [List.drop_length, List.length_nil, or_true, if_true]
      symm
      rw [decide_eq_false_iff_not]
      omega

lemma reported_needMoreData (hs : v.state = .needMoreData metadata hasher) :
    Reported v bytes ↔ ¬ EndsAt metadata v.nBytes bytes.length := by
  cases hlen : (ApplicationHeader.security metadata).length? with
  | none =>
    have hnot : ¬ EndsAt metadata v.nBytes bytes.length := by
      rintro ⟨length, hlength, -⟩
      rw [hlen] at hlength
      cases hlength
    refine iff_of_true (reported_of_eq ?_) hnot
    rw [update_eq, updateStep, hs]
    simp [hlen, done]
  | some length =>
    by_cases hlt : length < v.nBytes
    · have hnot : ¬ EndsAt metadata v.nBytes bytes.length := by
        rintro ⟨length', hlength, hor⟩
        rw [hlen] at hlength
        obtain rfl := Option.some.inj hlength
        omega
      refine iff_of_true (reported_of_eq ?_) hnot
      rw [update_eq, updateStep, hs]
      simp [hlen, hlt, done]
    · obtain ⟨hdone, hresult⟩ := update_needMoreData bytes hs hlen (by omega)
      have hends : EndsAt metadata v.nBytes bytes.length ↔
          length = v.nBytes ∨ length = v.nBytes + bytes.length := by
        constructor
        · rintro ⟨length', hlength, hor⟩
          rw [hlen] at hlength
          obtain rfl := Option.some.inj hlength
          exact hor
        · intro hor
          exact ⟨length, hlen, hor⟩
      unfold Reported
      rw [hdone, hresult, hends]
      simp only [decide_eq_true_eq]
      omega

lemma reported_init (hs : v.state = .init buffer)
    (hn : v.nBytes < ApplicationHeader.binarySize H) :
    Reported v bytes ↔ ¬ v.EndsExactly bytes := by
  unfold EndsExactly
  rw [hs]
  dsimp only
  by_cases hlt : v.nBytes + bytes.length < ApplicationHeader.binarySize H
  · refine iff_of_true (reported_of_eq ?_) (by omega)
    rw [update_init_short hs hlt]
    rfl
  · set n := ApplicationHeader.binarySize H - v.nBytes with hndef
    set v' := v.withHeader (copyInto buffer v.nBytes (bytes.take n)) n
    have hfull : v.update bytes = if bytes.drop n = [] then (v', false) else v'.update (bytes.drop n) :=
      update_init_full hs hn (Nat.le_of_not_lt hlt)
    have hstate : v'.state = parsed (copyInto buffer v.nBytes (bytes.take n)) := rfl
    have hle : n ≤ bytes.length := by omega
    unfold parsed at hstate
    by_cases hrest : bytes.drop n = []
    · -- the slice ends with the header
      rw [if_pos hrest] at hfull
      have hlen : bytes.length = n := by
        have := List.drop_eq_nil_iff.mp hrest
        omega
      unfold Reported
      rw [hfull]
      revert hstate
      cases ApplicationHeader.tryFromBytes (H := H) (copyInto buffer v.nBytes (bytes.take n)) with
      | error error =>
        intro hstate
        simp [done, hstate, hlen]
      | ok metadata =>
        intro hstate
        simp [done, hstate, hlen]
    · rw [if_neg hrest] at hfull
      have hlen : n < bytes.length := by
        have := mt List.drop_eq_nil_iff.mpr hrest
        omega
      have hsame : Reported v bytes ↔ Reported v' (bytes.drop n) := by
        unfold Reported
        rw [hfull]
      rw [hsame]
      revert hstate
      cases ApplicationHeader.tryFromBytes (H := H) (copyInto buffer v.nBytes (bytes.take n)) with
      | error error =>
        intro hstate
        refine iff_of_true (reported_of_done ?_) (by omega)
        simp [done, hstate]
      | ok metadata =>
        intro hstate
        rw [reported_needMoreData hstate, List.length_drop]
        have hcount : v'.nBytes = n := rfl
        rw [hcount]
        simp [hle, hlen]

end States

/-! ### Over a whole image -/

/-- As long as the header is not complete, fewer bytes than its size were counted. -/
def Counted (v : Validator C D H) : Prop :=
  ∀ buffer, v.state = .init buffer → v.nBytes < ApplicationHeader.binarySize H

lemma counted_of_state {v : Validator C D H} (h : ∀ buffer, v.state ≠ .init buffer) : v.Counted := by
  intro buffer hs
  exact absurd hs (h buffer)

/-- Only a slice that does not complete the header leaves the validator in its first state. -/
lemma Counted.update {v : Validator C D H} (h : v.Counted) (bytes : List UInt8) :
    (v.update bytes).1.Counted := by
  have hmore : ∀ (w : Validator C D H) metadata hasher bytes,
      w.state = .needMoreData metadata hasher → (w.update bytes).1.Counted := by
    intro w metadata hasher bytes hs
    apply counted_of_state
    intro buffer
    cases hlen : (ApplicationHeader.security metadata).length? with
    | none => simp [update_needMoreData_none hs hlen]
    | some length =>
      by_cases hlt : length < w.nBytes
      · simp [update_needMoreData_short hs hlen hlt]
      · rw [update_needMoreData_some bytes hs hlen (Nat.le_of_not_lt hlt)]
        dsimp only
        split <;> simp
  cases hs : v.state with
  | complete metadata hash => rwa [update_complete hs]
  | fail error => rwa [update_fail hs]
  | needMoreData metadata hasher => exact hmore v metadata hasher bytes hs
  | init buffer =>
    have hn := h buffer hs
    by_cases hlt : v.nBytes + bytes.length < ApplicationHeader.binarySize H
    · rw [update_init_short hs hlt]
      intro _ _
      exact hlt
    · rw [update_init_full hs hn (Nat.le_of_not_lt hlt)]
      dsimp only
      set n := ApplicationHeader.binarySize H - v.nBytes
      set w := v.withHeader (copyInto buffer v.nBytes (bytes.take n)) n
      have hstate : w.state = parsed (copyInto buffer v.nBytes (bytes.take n)) := rfl
      unfold parsed at hstate
      revert hstate
      cases ApplicationHeader.tryFromBytes (H := H) (copyInto buffer v.nBytes (bytes.take n)) with
      | error error =>
        intro hstate
        rw [update_fail hstate]
        have hcounted : w.Counted := counted_of_state (by simp [hstate])
        split
        · exact hcounted
        · exact hcounted
      | ok metadata =>
        intro hstate
        split
        · exact counted_of_state (by simp [hstate])
        · exact hmore w metadata Hasher.new _ hstate

lemma Counted.feed {v : Validator C D H} (h : v.Counted) (slices : List (List UInt8)) :
    (v.feed slices).Counted := by
  induction slices generalizing v with
  | nil => exact h
  | cons slice slices ih => exact ih (h.update slice)

/-- **`update` reports completion except at slices that end exactly there**: for every image in every
split, after any number of its slices. -/
theorem reported_iff (signingKey : C.PubKey) (minSecurity : SecurityLevel) (deviceType : D)
    (slices : List (List UInt8)) (slice : List UInt8) :
    Reported ((new signingKey minSecurity deviceType : Validator C D H).feed slices) slice ↔
      ¬ ((new signingKey minSecurity deviceType : Validator C D H).feed slices).EndsExactly slice := by
  have hnew : (new signingKey minSecurity deviceType : Validator C D H).Counted := by
    intro _ _
    exact ApplicationHeader.binarySize_pos
  have hcounted := hnew.feed slices
  generalize (new signingKey minSecurity deviceType : Validator C D H).feed slices = v at hcounted
  cases hs : v.state with
  | init buffer => exact reported_init hs (hcounted buffer hs)
  | needMoreData metadata hasher =>
    unfold EndsExactly
    rw [hs]
    exact reported_needMoreData hs
  | complete metadata hash =>
    refine iff_of_true (reported_of_done ?_) ?_
    · simp [done, hs]
    · simp [EndsExactly, hs]
  | fail error =>
    refine iff_of_true (reported_of_done ?_) ?_
    · simp [done, hs]
    · simp [EndsExactly, hs]

/-- **The valid image of the tests in one call**: the result is false. -/
theorem complete_not_reported :
    (sample.update sampleImage).1.verify.isOk = true ∧ ¬ Reported sample sampleImage := by
  have hvalid : (sample.update sampleImage).1.verify.isOk = true := by decide +kernel
  have hresult : (sample.update sampleImage).2 = false := by decide +kernel
  have hdone : (sample.update sampleImage).1.done = true := by decide +kernel
  refine ⟨hvalid, ?_⟩
  unfold Reported
  rw [hresult, hdone]
  simp

end Validator

end SensorLink.Firmware
