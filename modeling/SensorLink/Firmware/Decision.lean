import SensorLink.Firmware.Bootloader
import SensorLink.Firmware.Chunking

/-!
# What the bootloader decides

`Verifies` says what a valid image is, as a property of its bytes; one call of the validator accepts
exactly these images. An update candidate is read in fragments: the validator is fed with them, which is
the same if its header is in the first of them (`SplitOk`).
-/

set_option linter.unusedSectionVars false

namespace SensorLink.Firmware

open SensorLink.Db

variable {C : Crypto} {D H : Type} [ApplicationHeader C D H]

/-! ### Valid images -/

/-- The hash is the one that the header asks for, or was signed with the key. -/
def Authentic (pubkey : C.PubKey) (hash : Hash) : Security C → Prop
  | .none => True
  | .integrityOnly _ refHash => refHash = hash
  | .signed _ signature => C.verifyPrehash pubkey hash signature = true

/-- The hash over the authenticated fields of the header and the `length` bytes of the image, or over
nothing where the header records no length -/
def imageHash (image : List UInt8) (header : H) : Hash :=
  match (ApplicationHeader.security header).length? with
  | none => C.sha256 []
  | some length =>
    C.sha256 (authFields header ++ (image.take length).drop (ApplicationHeader.binarySize H))

/-- The image has the header, data behind it, and all bytes that the header records; it is for the device
type, of the required level, and authentic. Trailing bytes do not matter. -/
structure Verifies (pubkey : C.PubKey) (minSecurity : SecurityLevel) (deviceType : D)
    (image : List UInt8) (header : H) : Prop where
  longer : ApplicationHeader.binarySize H < image.length
  parses : ApplicationHeader.tryFromBytes (image.take (ApplicationHeader.binarySize H)) = .ok header
  length_le : ∀ length, (ApplicationHeader.security header).length? = some length →
    ApplicationHeader.binarySize H ≤ length ∧ length ≤ image.length
  device : ApplicationHeader.deviceType header = deviceType
  level : ¬ (ApplicationHeader.security header).level < minSecurity
  authentic : Authentic pubkey (imageHash image header) (ApplicationHeader.security header)

lemma ite_eq_ok {p : Prop} [Decidable p] {header header' : H} {error : ValidationError} :
    (if p then Except.ok header else .error error) = .ok header' ↔ header = header' ∧ p := by
  by_cases hp : p <;> simp [hp]

namespace Validator

variable [DecidableEq D] {v : Validator C D H}

lemma validateUpdate_eq_ok {existing : Option H} {header : H} :
    v.validateUpdate existing = .ok header ↔ ∃ hash, v.state = .complete header hash ∧
      ApplicationHeader.deviceType header = v.deviceType ∧
      ¬ (ApplicationHeader.security header).level < v.minSecurity ∧
      (∀ old, existing = some old → ApplicationHeader.antiDowngradeVersion old ≤
        ApplicationHeader.antiDowngradeVersion header) ∧
      Authentic v.signingKey hash (ApplicationHeader.security header) := by
  unfold validateUpdate
  cases hs : v.state with
  | init buffer => simp
  | needMoreData metadata hasher => simp
  | fail error => simp
  | complete metadata hash =>
    have hversion : ¬ ApplicationHeader.antiDowngradeVersion metadata <
        (existing.map ApplicationHeader.antiDowngradeVersion).getD 0 ↔
        ∀ old, existing = some old → ApplicationHeader.antiDowngradeVersion old ≤
          ApplicationHeader.antiDowngradeVersion metadata := by
      cases existing with
      | none => exact ⟨nofun, fun _ => UInt32.not_lt_zero⟩
      | some old => simp
    simp only [ValidatorState.complete.injEq]
    constructor
    · intro h
      split at h
      · cases h
      next hdevice =>
      split at h
      · cases h
      next hlevel =>
      split at h
      · cases h
      next hold =>
      have hauth : metadata = header ∧
          Authentic v.signingKey hash (ApplicationHeader.security metadata) := by
        cases hsec : ApplicationHeader.security metadata with
        | none => simpa [hsec, Authentic] using h
        | integrityOnly length refHash =>
          rw [hsec] at h
          obtain ⟨hheader, hauth⟩ := ite_eq_ok.mp h
          exact ⟨hheader, hauth⟩
        | signed length refSignature =>
          rw [hsec] at h
          obtain ⟨hheader, hauth⟩ := ite_eq_ok.mp h
          exact ⟨hheader, hauth⟩
      obtain ⟨rfl, hauth⟩ := hauth
      exact ⟨hash, ⟨rfl, rfl⟩, not_not.mp hdevice, hlevel, hversion.mp hold, hauth⟩
    · rintro ⟨hash', ⟨rfl, rfl⟩, hdevice, hlevel, hold, hauth⟩
      rw [if_neg (not_not_intro hdevice), if_neg hlevel, if_neg (hversion.mpr hold)]
      cases hsec : ApplicationHeader.security metadata with
      | none => rfl
      | integrityOnly length refHash => simpa [hsec, Authentic] using hauth
      | signed length refSignature => simpa [hsec, Authentic] using hauth

lemma imageState_eq_complete {image : List UInt8} {header : H} {hash : Hash} :
    imageState image = .complete header hash ↔
      ApplicationHeader.tryFromBytes (image.take (ApplicationHeader.binarySize H)) = .ok header ∧
      (∀ length, (ApplicationHeader.security header).length? = some length →
        ApplicationHeader.binarySize H ≤ length ∧ length ≤ image.length) ∧
      hash = imageHash image header := by
  unfold imageState
  cases hparse : ApplicationHeader.tryFromBytes (H := H)
      (image.take (ApplicationHeader.binarySize H)) with
  | error error => simp
  | ok metadata =>
    simp only [Except.ok.injEq]
    constructor
    · intro h
      split at h
      next hlength =>
        obtain ⟨rfl, rfl⟩ := ValidatorState.complete.inj h
        exact ⟨rfl, by simp [hlength], by simp [imageHash, hlength, Hasher.hash, Hasher.new]⟩
      next length hlength =>
        split at h
        · cases h
        next hle =>
        split at h
        next hlen =>
          obtain ⟨rfl, rfl⟩ := ValidatorState.complete.inj h
          refine ⟨rfl, ?_, by simp [imageHash, hlength, Hasher.hash, Hasher.update, Hasher.new]⟩
          intro length' hlength'
          rw [hlength] at hlength'
          cases hlength'
          exact ⟨Nat.not_lt.mp hle, hlen⟩
        · cases h
    · rintro ⟨rfl, hlen, rfl⟩
      cases hlength : (ApplicationHeader.security metadata).length? with
      | none => simp [imageHash, hlength, Hasher.hash, Hasher.new]
      | some length =>
        obtain ⟨hle, hle'⟩ := hlen length hlength
        simp [imageHash, hlength, Hasher.hash, Hasher.update, Hasher.new, Nat.not_lt.mpr hle, hle']

/-- **One call accepts exactly the valid images.** -/
theorem verify_update_eq_ok {pubkey : C.PubKey} {minSecurity : SecurityLevel} {deviceType : D}
    {image : List UInt8} {header : H} :
    ((new pubkey minSecurity deviceType).update image).1.verify = .ok header ↔
      Verifies pubkey minSecurity deviceType image header := by
  have hreceived := (received_new (H := H) pubkey minSecurity deviceType).whole image
  generalize hv : ((new pubkey minSecurity deviceType : Validator C D H).update image).1 = v at *
  have hset : v.settings = (pubkey, minSecurity, deviceType) := by
    rw [← hv, update, settings_updateLoop]
    rfl
  simp only [settings, Prod.mk.injEq] at hset
  obtain ⟨hkey, hlevel, hdevice⟩ := hset
  rw [verify, validateUpdate_eq_ok, hkey, hlevel, hdevice]
  rcases lt_trichotomy image.length (ApplicationHeader.binarySize H) with hlt | heq | hgt
  · obtain ⟨buffer, hs, -⟩ := hreceived.init hlt
    constructor
    · rintro ⟨hash, hcomplete, -⟩
      rw [hs] at hcomplete
      cases hcomplete
    · intro h
      exact absurd h.longer (by omega)
  · have hs := (hreceived.header heq).1
    constructor
    · rintro ⟨hash, hcomplete, -⟩
      rw [hs, parsed] at hcomplete
      split at hcomplete <;> cases hcomplete
    · intro h
      exact absurd h.longer (by omega)
  · rw [(hreceived.image hgt).1]
    constructor
    · rintro ⟨hash, hcomplete, hdev, hlev, -, hauth⟩
      obtain ⟨hparse, hlen, rfl⟩ := imageState_eq_complete.mp hcomplete
      exact ⟨hgt, hparse, hlen, hdev, hlev, hauth⟩
    · intro h
      exact ⟨_, imageState_eq_complete.mpr ⟨h.parses, h.length_le, rfl⟩, h.device, h.level,
        fun old hold => (by cases hold), h.authentic⟩

/-- An update is allowed if the image is valid and its version not lower than the installed one. -/
lemma allowUpdateFrom_eq_ok {existing header : H} :
    v.allowUpdateFrom existing = .ok header ↔ v.verify = .ok header ∧
      ApplicationHeader.antiDowngradeVersion existing ≤
        ApplicationHeader.antiDowngradeVersion header := by
  rw [allowUpdateFrom, verify, validateUpdate_eq_ok, validateUpdate_eq_ok]
  constructor
  · rintro ⟨hash, hs, hdevice, hlevel, hversion, hauth⟩
    exact ⟨⟨hash, hs, hdevice, hlevel, fun old hold => (by cases hold), hauth⟩, hversion existing rfl⟩
  · rintro ⟨⟨hash, hs, hdevice, hlevel, -, hauth⟩, hversion⟩
    refine ⟨hash, hs, hdevice, hlevel, ?_, hauth⟩
    rintro old ⟨⟩
    exact hversion

end Validator

/-! ### The candidate -/

section Candidate

variable {σ ε : Type} (store : FileStore σ ε) (fwFile : Object) (blockSize chunkSize : ℕ)
  (deviceType : D) (pubkey : C.PubKey)

/-- The fragments that the loop of `validate_new_firmware` passes to the validator -/
def fragmentsRead (handle : FileHandle) : List ℕ → Validator C D H → σ → List (List UInt8)
  | [], _, _ => []
  | frag :: frags, validator, s =>
    match store.readFileFragment handle frag chunkSize s with
    | (.ok bytes, s) =>
      let (validator, complete) := validator.update bytes
      bytes :: if complete then [] else fragmentsRead handle frags validator s
    | (.error _, _) => []

/-- The fragments that `validate_new_firmware` passes to the validator -/
def candidate (H : Type) [ApplicationHeader C D H] (s : σ) : List (List UInt8) :=
  match store.fileHandle fwFile s with
  | (.ok handle, s) =>
    fragmentsRead store chunkSize handle (List.range (fwFile.fragmentCount blockSize))
      (Validator.new pubkey .signed deviceType : Validator C D H) s
  | (.error _, _) => []

variable {store} {chunkSize}

lemma validateLoop_eq_feed (handle : FileHandle) (frags : List ℕ) (v : Validator C D H) (s : σ) :
    (validateLoop store chunkSize handle frags v s).1 =
      v.feed (fragmentsRead store chunkSize handle frags v s) := by
  induction frags generalizing v s with
  | nil => rfl
  | cons frag frags ih =>
    unfold validateLoop fragmentsRead
    rcases store.readFileFragment handle frag chunkSize s with ⟨bytes | bytes, s'⟩
    · rfl
    · rcases hup : v.update bytes with ⟨v', complete⟩
      cases complete with
      | true => simp [hup]
      | false => simp [hup, ih]

variable {fwFile blockSize deviceType pubkey}

lemma validateNewFirmware_eq_feed (s : σ) :
    (validateNewFirmware store fwFile blockSize chunkSize deviceType pubkey s :
        Validator C D H × σ).1 =
      (Validator.new pubkey .signed deviceType).feed
        (candidate store fwFile blockSize chunkSize deviceType pubkey H s) := by
  unfold validateNewFirmware candidate
  rcases store.fileHandle fwFile s with ⟨_ | handle, s'⟩
  · rfl
  · exact validateLoop_eq_feed handle _ _ s'

/-- The fragments are accepted for the device: together they are a valid signed image, when the validator
can be fed with fragments of their lengths. -/
structure Approved [DecidableEq D] (pubkey : C.PubKey) (deviceType : D) (fragments : List (List UInt8))
    (header : H) : Prop where
  verified : ((Validator.new pubkey .signed deviceType).feed fragments).verify = .ok header
  device : ApplicationHeader.deviceType header = deviceType
  signed : (ApplicationHeader.security header).level = .signed
  image : SplitOk (ApplicationHeader.binarySize H) (fragments.map List.length) →
    Verifies pubkey .signed deviceType fragments.flatten header

lemma approved_of_verify [DecidableEq D] {fragments : List (List UInt8)} {header : H}
    (h : ((Validator.new pubkey .signed deviceType).feed fragments).verify = .ok header) :
    Approved pubkey deviceType fragments header := by
  have hset := Validator.settings_feed (Validator.new pubkey .signed deviceType : Validator C D H)
    fragments
  simp only [Validator.settings, Validator.new, Prod.mk.injEq] at hset
  obtain ⟨hash, -, hdevice, hlevel, -, -⟩ := Validator.validateUpdate_eq_ok.mp h
  refine ⟨h, hdevice.trans hset.2.2, ?_, fun hok => ?_⟩
  · rw [show ((Validator.new pubkey .signed deviceType : Validator C D H).feed
      fragments).minSecurity = .signed from hset.2.1] at hlevel
    cases hsec : (ApplicationHeader.security header).level with
    | none => exact absurd (by rw [hsec]; decide) hlevel
    | integrityOnly => exact absurd (by rw [hsec]; decide) hlevel
    | signed => rfl
  · have houtcome := (Validator.received_new (H := H) pubkey .signed deviceType).outcome_feed hok
    rw [← Validator.verify_update_eq_ok, ← h]
    exact (congrArg Prod.fst houtcome).symm

end Candidate

/-! ### The decision -/

section Decision

variable [DecidableEq D] {σ ε φ : Type} {store : FileStore σ ε} {fwFile : Object}
  {blockSize chunkSize : ℕ} {deviceType : D} {pubkey : C.PubKey} {internalFlash : AppFlashRead φ}
  {flash : φ} {minSecurity : SecurityLevel} {s : σ} {header : H}

lemma verify_validateExistingFirmware :
    (validateExistingFirmware internalFlash flash deviceType pubkey minSecurity).verify =
        .ok header ↔
      Verifies pubkey minSecurity deviceType (internalFlash.applicationTotal flash) header :=
  Validator.verify_update_eq_ok

variable [BEq H]

/-- An update is decided only for a candidate that verifies, and not to a lower version than that of a
valid installed image. -/
lemma validateUpdate_shouldUpdate
    (h : (validateUpdate store fwFile blockSize chunkSize deviceType pubkey internalFlash flash
      minSecurity s).1 = .shouldUpdate header) :
    (validateUpdate store fwFile blockSize chunkSize deviceType pubkey internalFlash flash
        minSecurity s : AppStatus H × σ).2 =
      (validateNewFirmware store fwFile blockSize chunkSize deviceType pubkey
        (newUnvalidatedHeader store fwFile chunkSize H s).2 : Validator C D H × σ).2 ∧
    (validateNewFirmware store fwFile blockSize chunkSize deviceType pubkey
        (newUnvalidatedHeader store fwFile chunkSize H s).2).1.verify = .ok header ∧
    ∀ old : H, Verifies pubkey minSecurity deviceType (internalFlash.applicationTotal flash) old →
      ApplicationHeader.antiDowngradeVersion old ≤ ApplicationHeader.antiDowngradeVersion header := by
  unfold validateUpdate at h ⊢
  dsimp only at h ⊢
  cases hold : (validateExistingFirmware internalFlash flash deviceType pubkey minSecurity :
      Validator C D H).verify with
  | ok existing =>
    simp only [hold] at h ⊢
    split at h
    · cases h
    next hne =>
    split at h
    · cases h
    next hhash =>
    rw [if_neg hne, if_neg hhash]
    split at h
    next newHeader hallow =>
      cases h
      obtain ⟨hverify, hversion⟩ := Validator.allowUpdateFrom_eq_ok.mp hallow
      refine ⟨rfl, hverify, fun old hvalid => ?_⟩
      rw [← verify_validateExistingFirmware, hold] at hvalid
      cases hvalid
      exact hversion
    · cases h
  | error existingError =>
    simp only [hold] at h ⊢
    split at h
    next newHeader hverify =>
      cases h
      refine ⟨rfl, hverify, fun old hvalid => ?_⟩
      rw [← verify_validateExistingFirmware, hold] at hvalid
      cases hvalid
    · cases h

/-- The installed firmware is kept only if it is valid. -/
lemma validateUpdate_keep
    (h : (validateUpdate store fwFile blockSize chunkSize deviceType pubkey internalFlash flash
        minSecurity s).1 = .upToDate header ∨
      ∃ error, (validateUpdate store fwFile blockSize chunkSize deviceType pubkey internalFlash flash
        minSecurity s).1 = .updateRejected header error) :
    Verifies pubkey minSecurity deviceType (internalFlash.applicationTotal flash) header := by
  rw [← verify_validateExistingFirmware]
  unfold validateUpdate at h
  dsimp only at h
  cases hold : (validateExistingFirmware internalFlash flash deviceType pubkey minSecurity :
      Validator C D H).verify with
  | ok existing =>
    simp only [hold] at h
    split at h
    · obtain h | ⟨error, h⟩ := h <;> cases h
      rfl
    split at h
    · obtain h | ⟨error, h⟩ := h <;> cases h
      rfl
    split at h
    · obtain h | ⟨error, h⟩ := h <;> cases h
    · obtain h | ⟨error, h⟩ := h <;> cases h
      rfl
  | error existingError =>
    simp only [hold] at h
    split at h
    · obtain h | ⟨error, h⟩ := h <;> cases h
    · obtain h | ⟨error, h⟩ := h <;> cases h

end Decision

/-! ### Stable reads -/

section Stable

variable {σ ε φ ε' ω : Type} {store : FileStore σ ε} {fwFile : Object} {blockSize chunkSize : ℕ}
  {deviceType : D} {pubkey : C.PubKey} {file : Except ε FileHandle}
  {content : FileHandle → ℕ → Except ε (List UInt8)} {s : σ}

/-- From `s` on, the file has one handle, and reading a fragment has one result. -/
def Stable (store : FileStore σ ε) (fwFile : Object) (chunkSize : ℕ) (file : Except ε FileHandle)
    (content : FileHandle → ℕ → Except ε (List UInt8)) (s : σ) : Prop :=
  ∃ P : σ → Prop, P s ∧ ∀ s, P s →
    (store.fileHandle fwFile s).1 = file ∧ P (store.fileHandle fwFile s).2 ∧
    ∀ handle frag, (store.readFileFragment handle frag chunkSize s).1 = content handle frag ∧
      P (store.readFileFragment handle frag chunkSize s).2

lemma Stable.fileHandle (h : Stable store fwFile chunkSize file content s) :
    ∃ s', store.fileHandle fwFile s = (file, s') ∧ Stable store fwFile chunkSize file content s' := by
  obtain ⟨P, hs, hP⟩ := h
  obtain ⟨hfile, hnext, -⟩ := hP s hs
  exact ⟨_, Prod.ext hfile rfl, P, hnext, hP⟩

lemma Stable.readFileFragment (h : Stable store fwFile chunkSize file content s)
    (handle : FileHandle) (frag : ℕ) :
    ∃ s', store.readFileFragment handle frag chunkSize s = (content handle frag, s') ∧
      Stable store fwFile chunkSize file content s' := by
  obtain ⟨P, hs, hP⟩ := h
  obtain ⟨hread, hnext⟩ := (hP s hs).2.2 handle frag
  exact ⟨_, Prod.ext hread rfl, P, hnext, hP⟩

/-- The fragments that can be read, in order -/
def readable (content : FileHandle → ℕ → Except ε (List UInt8)) (handle : FileHandle)
    (frags : List ℕ) : List (List UInt8) :=
  frags.filterMap fun frag => (content handle frag).toOption

lemma Stable.fragmentsRead_isPrefix (h : Stable store fwFile chunkSize file content s)
    (handle : FileHandle) (frags : List ℕ) (v : Validator C D H) :
    fragmentsRead store chunkSize handle frags v s <+: readable content handle frags := by
  induction frags generalizing v s with
  | nil => exact List.nil_prefix
  | cons frag frags ih =>
    obtain ⟨s', hread, hnext⟩ := h.readFileFragment handle frag
    unfold fragmentsRead readable
    cases hcontent : content handle frag with
    | error error => simp [hread, hcontent]
    | ok bytes =>
      simp only [hread, hcontent, Except.toOption, List.filterMap_cons]
      split
      · simp
      · exact (List.prefix_cons_inj bytes).mpr (ih hnext (v.update bytes).1)

lemma Stable.validateLoop (h : Stable store fwFile chunkSize file content s) (handle : FileHandle)
    (frags : List ℕ) (v : Validator C D H) :
    Stable store fwFile chunkSize file content (validateLoop store chunkSize handle frags v s).2 := by
  induction frags generalizing v s with
  | nil => exact h
  | cons frag frags ih =>
    obtain ⟨s', hread, hnext⟩ := h.readFileFragment handle frag
    unfold Firmware.validateLoop
    cases hcontent : content handle frag with
    | error error => simpa [hread, hcontent] using hnext
    | ok bytes =>
      simp only [hread, hcontent]
      split
      · exact hnext
      · exact ih hnext (v.update bytes).1

lemma Stable.validateNewFirmware (h : Stable store fwFile chunkSize file content s) :
    Stable store fwFile chunkSize file content
      (validateNewFirmware store fwFile blockSize chunkSize deviceType pubkey s :
        Validator C D H × σ).2 := by
  obtain ⟨s', hfile, hnext⟩ := h.fileHandle
  unfold Firmware.validateNewFirmware
  cases file with
  | error error => simpa [hfile] using hnext
  | ok handle =>
    simp only [hfile]
    exact hnext.validateLoop handle _ _

lemma Stable.newUnvalidatedHeader (h : Stable store fwFile chunkSize file content s) :
    Stable store fwFile chunkSize file content (newUnvalidatedHeader store fwFile chunkSize H s).2 := by
  obtain ⟨s', hfile, hnext⟩ := h.fileHandle
  unfold Firmware.newUnvalidatedHeader
  cases file with
  | error error => simpa [hfile] using hnext
  | ok handle =>
    obtain ⟨s'', hread, hnext'⟩ := hnext.readFileFragment handle 0
    cases hcontent : content handle 0 with
    | error error => simpa [hfile, hread, hcontent] using hnext'
    | ok bytes => simpa [hfile, hread, hcontent] using hnext'

/-! ### Installation -/

/-- The slices are appended to the flash, until that fails. -/
def appendAll (internalFlash : AppFlashWrite φ ε' ω) : List (List UInt8) → φ → Except ω Unit × φ
  | [], flash => (.ok (), flash)
  | bytes :: slices, flash =>
    match internalFlash.append bytes flash with
    | (.ok _, flash) => appendAll internalFlash slices flash
    | (.error error, flash) => (.error error, flash)

/-- The flash is erased and programmed with the slices. -/
def program (internalFlash : AppFlashWrite φ ε' ω) (slices : List (List UInt8)) (flash : φ) :
    Except (UpdateError ε' ω) Unit × φ :=
  match internalFlash.eraseApplication flash with
  | (.error error, flash) => (.error (.erase error), flash)
  | (.ok _, flash) =>
    match appendAll internalFlash slices flash with
    | (.error error, flash) => (.error (.write error), flash)
    | (.ok _, flash) =>
      match internalFlash.finalize flash with
      | (.error error, flash) => (.error (.write error), flash)
      | (.ok _, flash) => (.ok (), flash)

lemma Stable.copyLoop (h : Stable store fwFile chunkSize file content s)
    (internalFlash : AppFlashWrite φ ε' ω) (handle : FileHandle) (frags : List ℕ) (flash : φ) :
    ∃ s', copyLoop store chunkSize internalFlash handle frags s flash =
      ((appendAll internalFlash (readable content handle frags) flash).1, s',
        (appendAll internalFlash (readable content handle frags) flash).2) := by
  induction frags generalizing s flash with
  | nil => exact ⟨s, rfl⟩
  | cons frag frags ih =>
    obtain ⟨s', hread, hnext⟩ := h.readFileFragment handle frag
    unfold Firmware.copyLoop readable
    cases hcontent : content handle frag with
    | error error =>
      simp only [hread, hcontent, Except.toOption, List.filterMap_cons]
      exact ih hnext flash
    | ok bytes =>
      simp only [hread, hcontent, Except.toOption, List.filterMap_cons, appendAll]
      rcases internalFlash.append bytes flash with ⟨error | n, flash'⟩
      · exact ⟨s', rfl⟩
      · exact ih hnext flash'

/-- **`apply_update` programs all fragments that can be read**, and verifies the result. -/
theorem Stable.applyUpdate [DecidableEq D] {handle : FileHandle}
    (h : Stable store fwFile chunkSize (.ok handle) content s)
    (internalFlash : AppFlashWrite φ ε' ω) (flash : φ) :
    ∃ s', (applyUpdate store fwFile blockSize chunkSize deviceType pubkey internalFlash s flash :
        Except (UpdateError ε' ω) H × σ × φ) =
      match program internalFlash
          (readable content handle (List.range (fwFile.fragmentCount blockSize))) flash with
      | (.error error, flash) => (.error error, s', flash)
      | (.ok _, flash) => (verifyApplied deviceType pubkey internalFlash flash, s', flash) := by
  unfold Firmware.applyUpdate program copyFirmware
  rcases internalFlash.eraseApplication flash with ⟨error | _, flash⟩
  · exact ⟨s, rfl⟩
  · obtain ⟨s', hfile, hnext⟩ := h.fileHandle
    obtain ⟨s'', hcopy⟩ := hnext.copyLoop internalFlash handle
      (List.range (fwFile.fragmentCount blockSize)) flash
    refine ⟨s'', ?_⟩
    simp only [hfile, hcopy]
    rcases appendAll internalFlash _ flash with ⟨error | _, flash⟩
    · rfl
    · dsimp only
      rcases internalFlash.finalize flash with ⟨error | _, flash⟩
      · rfl
      · rfl

end Stable

/-! ### The bootloader -/

section Bootloader

variable [DecidableEq D] {σ ε φ ε' ω : Type}

lemma verifies_of_applyUpdate {store : FileStore σ ε} {fwFile : Object} {blockSize chunkSize : ℕ}
    {deviceType : D} {pubkey : C.PubKey} {internalFlash : AppFlashWrite φ ε' ω} {s s' : σ}
    {flash flash' : φ} {header : H}
    (h : applyUpdate store fwFile blockSize chunkSize deviceType pubkey internalFlash s flash =
      (.ok header, s', flash')) :
    Verifies pubkey .signed deviceType (internalFlash.applicationTotal flash') header := by
  unfold applyUpdate at h
  split at h
  · cases h
  split at h
  · cases h
  split at h
  · cases h
  next flash'' _ =>
    simp only [Prod.mk.injEq] at h
    obtain ⟨hverify, -, rfl⟩ := h
    unfold verifyApplied at hverify
    dsimp only at hverify
    split at hverify
    next hok =>
      cases hverify
      exact verify_validateExistingFirmware.mp hok
    · cases hverify

/-- The slices start with those that were validated, and so with the bytes that the header records. -/
structure CopiesValidated (header : H) (validated copied : List (List UInt8)) : Prop where
  isPrefix : validated <+: copied
  bytes : SplitOk (ApplicationHeader.binarySize H) (validated.map List.length) →
    ∃ length, (ApplicationHeader.security header).length? = some length ∧
      length ≤ validated.flatten.length ∧
      copied.flatten.take length = validated.flatten.take length

lemma Approved.copiesValidated {pubkey : C.PubKey} {deviceType : D} {header : H}
    {validated copied : List (List UInt8)} (h : Approved pubkey deviceType validated header)
    (hstart : validated <+: copied) : CopiesValidated header validated copied := by
  refine ⟨hstart, fun hok => ?_⟩
  obtain ⟨length, hlength⟩ : ∃ length,
      (ApplicationHeader.security header).length? = some length := by
    have hsigned := h.signed
    cases hsec : ApplicationHeader.security header with
    | none =>
      rw [hsec] at hsigned
      cases hsigned
    | integrityOnly length hash => exact ⟨length, rfl⟩
    | signed length signature => exact ⟨length, rfl⟩
  have hle := ((h.image hok).length_le length hlength).2
  obtain ⟨rest, rfl⟩ := hstart
  exact ⟨length, hlength, hle, by rw [List.flatten_append, List.take_append_of_le_length hle]⟩

end Bootloader

/-! ### A signed image -/

/-- `MockSingleFileStore` of the tests -/
structure MockSingleFileStore where
  objId : Option ℕ
  buffer : List UInt8

/-- `read_file_fragment` of the mock -/
def MockSingleFileStore.readFileFragment (handle : FileHandle) (fragmentNo len : ℕ)
    (s : MockSingleFileStore) : Except Error (List UInt8) × MockSingleFileStore :=
  if s.objId ≠ some handle.file.id then (.error .notFound, s)
  else
    let start := min (fragmentNo * handle.file.fragmentSize) s.buffer.length
    let stop := min (start + handle.file.fragmentSize) s.buffer.length
    (.ok ((s.buffer.drop start).take (min (stop - start) len)), s)

def mockStore : FileStore MockSingleFileStore Error where
  fileHandle file s := (.ok ⟨file, 0⟩, s)
  readFileFragment := MockSingleFileStore.readFileFragment
  length_le handle fragmentNo len s bytes h := by
    unfold MockSingleFileStore.readFileFragment at h
    split at h
    · cases h
    · cases h
      simp only [List.length_take]
      omega

/-- An application region in memory -/
def ramFlash : AppFlashWrite (List UInt8) Unit Unit where
  applicationTotal image := image
  eraseApplication _ := (.ok (), [])
  append data image := (.ok data.length, image ++ data)
  finalize image := (.ok image.length, image)

/-- The signature over five zeroes and `Hello World.` for the key of the tests, which is the generator -/
def helloSignature : List UInt8 :=
  [3, 177, 99, 247, 12, 53, 84, 99, 161, 231, 190, 251, 227, 204, 232, 191, 196, 157, 75, 142, 69, 218,
    32, 149, 21, 235, 227, 0, 71, 44, 89, 249, 166, 218, 194, 208, 108, 121, 58, 72, 242, 1, 89, 253,
    235, 88, 82, 148, 88, 24, 186, 103, 75, 218, 255, 123, 207, 137, 216, 54, 86, 20, 201, 109]

def hello : List UInt8 := [72, 101, 108, 108, 111, 32, 87, 111, 114, 108, 100, 46]

/-- The key of the tests and its signature over the message -/
def helloCrypto : Crypto where
  Signature := Unit
  PubKey := Unit
  sha256 := sampleSha256
  signatureFromSlice bytes := if bytes = helloSignature then some () else none
  signatureToBytes _ := helloSignature
  signatureToBytes_length _ := rfl
  verifyPrehash _ hash _ := hash = sampleSha256 (List.replicate 5 0 ++ hello)

instance : DecidableEq helloCrypto.Signature := inferInstanceAs (DecidableEq Unit)

abbrev HelloHeader := V2.AppHeader helloCrypto MockDeviceType

def helloHeader : HelloHeader := ⟨.signed 93 (), 0, .a⟩

/-- Version 0 for device type A, signed -/
def helloImage : List UInt8 := V2.AppHeader.layout 2 93 helloSignature 0 0 ++ hello

/-- A header that announces version 9, and behind it the message that was signed for version 0 -/
def forgedHeader : HelloHeader := ⟨.signed 18 (), 9, .a⟩

def forgedImage : List UInt8 :=
  V2.AppHeader.layout 2 18 helloSignature 9 0 ++ (List.replicate 5 0 ++ hello)

/-- A file of four blocks -/
def fwFile (fragmentSize : ℕ) : Object := ⟨1, fragmentSize, 0, 4, 45 * fragmentSize⟩

/-- The decision for a file with the image, where erased flash is installed -/
def helloUpdate (chunkSize : ℕ) (image : List UInt8) : AppStatus HelloHeader × MockSingleFileStore :=
  validateUpdate mockStore (fwFile chunkSize) 4096 chunkSize MockDeviceType.a ()
    ramFlash.toAppFlashRead (List.replicate 100 255) .signed ⟨some 1, image⟩

end SensorLink.Firmware
