import SensorLink.Firmware.Header

/-!
# The firmware validator of `meta/firmware.rs`

`Validator::update` is a loop over the bytes that are left of a slice; one iteration is `updateStep`.
Every iteration but the last consumes at least one byte, so the number of bytes bounds the iterations:
`updateLoop_fuel`.
-/

set_option linter.unusedSectionVars false

namespace SensorLink.Firmware

open SensorLink.Lib

inductive ValidationError
  /-- more data expected -/
  | incomplete
  /-- firmware metadata invalid -/
  | invalid (error : ApplicationHeaderError)
  /-- security level is not sufficient -/
  | security (level : SecurityLevel)
  /-- downgrade to this version is not allowed -/
  | downgrade (version : UInt32)
  /-- hash mismatch -/
  | integrity
  /-- signature invalid -/
  | signature
deriving DecidableEq

inductive ValidatorState (H : Type)
  | init (buffer : List UInt8)
  | needMoreData (metadata : H) (hasher : Hasher)
  | complete (metadata : H) (hash : Hash)
  | fail (error : ApplicationHeaderError)

structure Validator (C : Crypto) (D H : Type) where
  signingKey : C.PubKey
  minSecurity : SecurityLevel
  deviceType : D
  state : ValidatorState H
  nBytes : ℕ

variable {C : Crypto} {D H : Type} [ApplicationHeader C D H]

/-- `authenticated_fields_as_bytes(header_bytes).unwrap()` into `BINARY_SIZE_AUTH` bytes of zeroes -/
def authFields (metadata : H) : List UInt8 :=
  match ApplicationHeader.authenticatedFieldsAsBytes metadata
      ((List.replicate maxAuthFieldBytes 0).take (ApplicationHeader.binarySizeAuth H)) with
  | .ok headerBytes => headerBytes
  -- excluded by `authenticatedFieldsAsBytes_ok`
  | .error _ => []

namespace Validator

/-- `Validator::new`, with the zeroed buffer of `new_raw_buffer`. -/
def new (signingKey : C.PubKey) (minSecurity : SecurityLevel) (deviceType : D) : Validator C D H where
  signingKey := signingKey
  minSecurity := minSecurity
  deviceType := deviceType
  state := .init (List.replicate (ApplicationHeader.binarySize H) 0)
  nBytes := 0

def reset (v : Validator C D H) : Validator C D H := new v.signingKey v.minSecurity v.deviceType

/-- The state when the header is in the buffer: `try_from_bytes` of it. -/
def parsed (buffer : List UInt8) : ValidatorState H :=
  match ApplicationHeader.tryFromBytes (H := H) buffer with
  | .ok metadata => .needMoreData metadata Hasher.new
  | .error error => .fail error

/-- One iteration of the loop of `update`, up to the end of its `match`: the validator, and the number
of bytes processed, or none where the source returns true. -/
def updateStep (v : Validator C D H) (applicationBytes : List UInt8) : Validator C D H × Option ℕ :=
  match v.state with
  | .init buffer =>
    let remaining := ApplicationHeader.binarySize H - v.nBytes
    let bytesProcessed := min remaining applicationBytes.length
    let buffer := copyInto buffer v.nBytes (applicationBytes.take bytesProcessed)
    if bytesProcessed = remaining then
      ({ v with state := parsed buffer, nBytes := 0 }, some bytesProcessed)
    else ({ v with state := .init buffer }, some bytesProcessed)
  | .needMoreData metadata hasher =>
    match (ApplicationHeader.security metadata).length? with
    -- no security: skip ahead to complete, the length is unknown
    | none => ({ v with state := .complete metadata (hasher.hash C) }, none)
    | some nBytesRequired =>
      if nBytesRequired < v.nBytes then ({ v with state := .fail .invalidLength }, none)
      else
        let remaining := nBytesRequired - v.nBytes
        let bytesProcessed := min remaining applicationBytes.length
        let hasher :=
          if v.nBytes = ApplicationHeader.binarySize H then hasher.update (authFields metadata) else hasher
        let hasher := hasher.update (applicationBytes.take bytesProcessed)
        if bytesProcessed = remaining then
          ({ v with state := .complete metadata (hasher.hash C) }, some bytesProcessed)
        else ({ v with state := .needMoreData metadata hasher }, some bytesProcessed)
  | .complete _ _ => (v, none)
  | .fail _ => (v, none)

def addBytes (v : Validator C D H) (n : ℕ) : Validator C D H := { v with nBytes := v.nBytes + n }

/-- The loop of `update`, for at most `fuel` iterations. -/
def updateLoop : ℕ → Validator C D H → List UInt8 → Validator C D H × Bool
  | 0, v, _ => (v, false)
  | fuel + 1, v, applicationBytes =>
    match v.updateStep applicationBytes with
    | (v', none) => (v', true)
    | (v', some bytesProcessed) =>
      let rest := applicationBytes.drop bytesProcessed
      if bytesProcessed = 0 ∨ rest.length = 0 then (v'.addBytes bytesProcessed, false)
      else updateLoop fuel (v'.addBytes bytesProcessed) rest

/-- `Validator::update` -/
def update (v : Validator C D H) (applicationBytes : List UInt8) : Validator C D H × Bool :=
  updateLoop (applicationBytes.length + 1) v applicationBytes

/-- `validate_update` -/
def validateUpdate [DecidableEq D] (v : Validator C D H) (existingApplication : Option H) :
    Except ValidationError H :=
  match v.state with
  | .init _ => .error .incomplete
  | .needMoreData _ _ => .error .incomplete
  | .fail metaError => .error (.invalid metaError)
  | .complete metadata hash =>
    let level := (ApplicationHeader.security metadata).level
    let minVersion := (existingApplication.map ApplicationHeader.antiDowngradeVersion).getD 0
    let version := ApplicationHeader.antiDowngradeVersion metadata
    if ApplicationHeader.deviceType metadata ≠ v.deviceType then .error (.invalid .invalidDeviceType)
    else if level < v.minSecurity then .error (.security level)
    else if version < minVersion then .error (.downgrade version)
    else match ApplicationHeader.security metadata with
      | .none => .ok metadata
      | .integrityOnly _ refHash => if refHash = hash then .ok metadata else .error .integrity
      | .signed _ refSignature =>
        if C.verifyPrehash v.signingKey hash refSignature then .ok metadata else .error .signature

def verify [DecidableEq D] (v : Validator C D H) : Except ValidationError H := v.validateUpdate none

def allowUpdateFrom [DecidableEq D] (v : Validator C D H) (existingApplication : H) :
    Except ValidationError H :=
  v.validateUpdate (some existingApplication)

def dataHash (v : Validator C D H) : Except ValidationError Hash :=
  match v.state with
  | .init _ => .error .incomplete
  | .needMoreData _ _ => .error .incomplete
  | .fail metaError => .error (.invalid metaError)
  | .complete _ hash => .ok hash

/-- The slices of an image, one call of `update` for each. -/
def feed (v : Validator C D H) (slices : List (List UInt8)) : Validator C D H :=
  slices.foldl (fun v slice => (v.update slice).1) v

@[simp]
lemma feed_nil (v : Validator C D H) : v.feed [] = v := rfl

@[simp]
lemma feed_cons (v : Validator C D H) (slice : List UInt8) (slices : List (List UInt8)) :
    v.feed (slice :: slices) = (v.update slice).1.feed slices := rfl

lemma feed_append (v : Validator C D H) (s t : List (List UInt8)) :
    v.feed (s ++ t) = (v.feed s).feed t := List.foldl_append

/-! ### One call of `update` -/

lemma updateStep_le {v v' : Validator C D H} {bytes : List UInt8} {n : ℕ}
    (h : v.updateStep bytes = (v', some n)) : n ≤ bytes.length := by
  unfold updateStep at h
  split at h
  · dsimp only at h
    split at h <;> cases h <;> exact Nat.min_le_right _ _
  · split at h
    · cases h
    · dsimp only at h
      split at h
      · cases h
      · split at h <;> cases h <;> exact Nat.min_le_right _ _
  · cases h
  · cases h

/-- **The loop ends by itself**: more fuel than bytes changes nothing. -/
theorem updateLoop_fuel (fuel : ℕ) (v : Validator C D H) (bytes : List UInt8)
    (h : bytes.length < fuel) : updateLoop fuel v bytes = v.update bytes := by
  unfold update
  generalize hf : bytes.length + 1 = fuel'
  have hlt : bytes.length < fuel' := by omega
  clear hf
  induction fuel generalizing fuel' v bytes with
  | zero => omega
  | succ fuel ih =>
    obtain ⟨fuel', rfl⟩ : ∃ k, fuel' = k + 1 := ⟨fuel' - 1, by omega⟩
    unfold updateLoop
    cases hstep : v.updateStep bytes with
    | mk v' r =>
      cases r with
      | none => rfl
      | some n =>
        have hn := updateStep_le hstep
        dsimp only
        by_cases hstop : n = 0 ∨ (bytes.drop n).length = 0
        · rw [if_pos hstop, if_pos hstop]
        · rw [if_neg hstop, if_neg hstop]
          have hdrop : (bytes.drop n).length < bytes.length := by
            rw [List.length_drop] at hstop ⊢
            omega
          exact ih _ _ (by omega) _ (by omega)

/-- `update` by its first iteration. -/
lemma update_eq (v : Validator C D H) (bytes : List UInt8) :
    v.update bytes = match v.updateStep bytes with
      | (v', none) => (v', true)
      | (v', some n) =>
        if n = 0 ∨ (bytes.drop n).length = 0 then (v'.addBytes n, false)
        else (v'.addBytes n).update (bytes.drop n) := by
  conv_lhs => unfold update updateLoop
  cases hstep : v.updateStep bytes with
  | mk v' r =>
    cases r with
    | none => rfl
    | some n =>
      have hn := updateStep_le hstep
      dsimp only
      by_cases hstop : n = 0 ∨ (bytes.drop n).length = 0
      · rw [if_pos hstop, if_pos hstop]
      · rw [if_neg hstop, if_neg hstop]
        refine updateLoop_fuel _ _ _ ?_
        rw [List.length_drop] at hstop ⊢
        omega

section Update

variable {v : Validator C D H} {buffer bytes : List UInt8} {metadata : H} {hasher : Hasher}

lemma update_complete {hash : Hash} (hs : v.state = .complete metadata hash) :
    v.update bytes = (v, true) := by
  rw [update_eq, updateStep, hs]

lemma update_fail {error : ApplicationHeaderError} (hs : v.state = .fail error) :
    v.update bytes = (v, true) := by
  rw [update_eq, updateStep, hs]

/-- A slice that does not complete the header is appended to the buffer. -/
lemma update_init_short (hs : v.state = .init buffer)
    (h : v.nBytes + bytes.length < ApplicationHeader.binarySize H) :
    v.update bytes = ({ v with
      state := .init (copyInto buffer v.nBytes bytes), nBytes := v.nBytes + bytes.length }, false) := by
  have hmin : min (ApplicationHeader.binarySize H - v.nBytes) bytes.length = bytes.length := by omega
  rw [update_eq, updateStep, hs]
  simp only [hmin, List.take_length]
  rw [if_neg (by omega)]
  simp only [List.drop_length, List.length_nil, or_true, if_true, addBytes]

/-- The validator when its buffer is full, where `n` bytes of the current slice went into it. -/
def withHeader (v : Validator C D H) (buffer : List UInt8) (n : ℕ) : Validator C D H :=
  { v with state := parsed buffer, nBytes := n }

/-- A slice that completes the header: what is left of it is for the state after the header. -/
lemma update_init_full (hs : v.state = .init buffer)
    (hn : v.nBytes < ApplicationHeader.binarySize H)
    (h : ApplicationHeader.binarySize H ≤ v.nBytes + bytes.length) :
    v.update bytes =
      let n := ApplicationHeader.binarySize H - v.nBytes
      let v' := v.withHeader (copyInto buffer v.nBytes (bytes.take n)) n
      if bytes.drop n = [] then (v', false) else v'.update (bytes.drop n) := by
  have hmin : min (ApplicationHeader.binarySize H - v.nBytes) bytes.length =
      ApplicationHeader.binarySize H - v.nBytes := by omega
  rw [update_eq, updateStep, hs]
  simp only [hmin, if_true, List.length_eq_zero_iff]
  by_cases hrest : bytes.drop (ApplicationHeader.binarySize H - v.nBytes) = []
  · rw [if_pos (Or.inr hrest), if_pos hrest]
    simp only [addBytes, withHeader, Nat.zero_add]
  · rw [if_neg (not_or.mpr ⟨by omega, hrest⟩), if_neg hrest]
    simp only [addBytes, withHeader, Nat.zero_add]

lemma update_needMoreData_none (hs : v.state = .needMoreData metadata hasher)
    (hlen : (ApplicationHeader.security metadata).length? = none) :
    (v.update bytes).1 = { v with state := .complete metadata (hasher.hash C) } := by
  rw [update_eq, updateStep, hs]
  simp only [hlen]

lemma update_needMoreData_short {nBytesRequired : ℕ}
    (hs : v.state = .needMoreData metadata hasher)
    (hlen : (ApplicationHeader.security metadata).length? = some nBytesRequired)
    (h : nBytesRequired < v.nBytes) :
    (v.update bytes).1 = { v with state := .fail .invalidLength } := by
  rw [update_eq, updateStep, hs]
  simp only [hlen, if_pos h]

/-- The hasher after a slice of which `taken` was used. -/
def hashed (v : Validator C D H) (metadata : H) (hasher : Hasher) (taken : List UInt8) : Hasher :=
  (if v.nBytes = ApplicationHeader.binarySize H then hasher.update (authFields metadata)
    else hasher).update taken

/-- A slice behind the header: it completes the image or is used up. -/
lemma update_needMoreData_some {nBytesRequired : ℕ} (bytes : List UInt8)
    (hs : v.state = .needMoreData metadata hasher)
    (hlen : (ApplicationHeader.security metadata).length? = some nBytesRequired)
    (h : v.nBytes ≤ nBytesRequired) :
    (v.update bytes).1 = { v with
      state :=
        if nBytesRequired - v.nBytes ≤ bytes.length then
          .complete metadata
            ((v.hashed metadata hasher (bytes.take (nBytesRequired - v.nBytes))).hash C)
        else .needMoreData metadata (v.hashed metadata hasher bytes)
      nBytes := v.nBytes + min (nBytesRequired - v.nBytes) bytes.length } := by
  rw [update_eq, updateStep, hs]
  simp only [hlen, if_neg (Nat.not_lt.mpr h)]
  by_cases hdone : nBytesRequired - v.nBytes ≤ bytes.length
  · simp only [Nat.min_eq_left hdone, if_true, if_pos hdone]
    -- a further iteration finds the image complete
    split
    · rfl
    · rw [update_complete rfl]
      rfl
  · have hmin : min (nBytesRequired - v.nBytes) bytes.length = bytes.length := by omega
    simp only [hmin, List.take_length, if_neg hdone]
    rw [if_neg (by omega)]
    simp only [List.drop_length, List.length_nil, or_true, if_true, addBytes, hashed]

end Update

/-! ### The settings -/

/-- The parts of a validator that `update` does not change. -/
def settings (v : Validator C D H) : C.PubKey × SecurityLevel × D :=
  (v.signingKey, v.minSecurity, v.deviceType)

lemma settings_updateStep (v : Validator C D H) (bytes : List UInt8) :
    (v.updateStep bytes).1.settings = v.settings := by
  unfold updateStep
  split
  · dsimp only
    split <;> rfl
  · split
    · rfl
    · dsimp only
      split
      · rfl
      · split <;> rfl
  · rfl
  · rfl

lemma settings_updateLoop (fuel : ℕ) (v : Validator C D H) (bytes : List UInt8) :
    (updateLoop fuel v bytes).1.settings = v.settings := by
  induction fuel generalizing v bytes with
  | zero => rfl
  | succ fuel ih =>
    have hset := settings_updateStep v bytes
    unfold updateLoop
    cases hstep : v.updateStep bytes with
    | mk v' r =>
      rw [hstep] at hset
      cases r with
      | none => exact hset
      | some n =>
        dsimp only
        split
        · exact hset
        · rw [ih]
          exact hset

lemma settings_feed (v : Validator C D H) (slices : List (List UInt8)) :
    (v.feed slices).settings = v.settings := by
  induction slices generalizing v with
  | nil => rfl
  | cons slice slices ih => rw [feed_cons, ih, update, settings_updateLoop]

/-- What a caller sees: the result of `verify` (with the header) and of `data_hash`. -/
def outcome [DecidableEq D] (v : Validator C D H) :
    Except ValidationError H × Except ValidationError Hash :=
  (v.verify, v.dataHash)

/-- The outcome is a function of the settings and the state. -/
lemma outcome_congr [DecidableEq D] {v w : Validator C D H} (hset : v.settings = w.settings)
    (hstate : v.state = w.state) : v.outcome = w.outcome := by
  obtain ⟨k, l, d, s, n⟩ := v
  obtain ⟨k', l', d', s', n'⟩ := w
  simp only [settings, Prod.mk.injEq] at hset hstate
  obtain ⟨rfl, rfl, rfl⟩ := hset
  subst hstate
  rfl

end Validator

end SensorLink.Firmware
