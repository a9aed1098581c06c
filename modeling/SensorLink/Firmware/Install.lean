import SensorLink.Firmware.Decision
import SensorLink.Lib.Reach

/-!
# Updates that are interrupted

A device boots: the bootloader decides, and installs the candidate if it should. When the power is lost
meanwhile, anything may be left in the internal flash. With a valid candidate in the external flash, the next
boot that is not interrupted repairs this, and the boots after it write nothing.
-/

set_option linter.unusedSectionVars false

namespace SensorLink.Firmware

open SensorLink.Db SensorLink.Lib

variable {C : Crypto} {D H : Type} [ApplicationHeader C D H]

/-! ### The same image, with other bytes behind it -/

section Image

variable {pubkey : C.PubKey} {minSecurity : SecurityLevel} {deviceType : D} {image rest : List UInt8}
  {header : H}

/-- The hash is over the bytes that the header records. -/
lemma imageHash_append (h : ∀ length, (ApplicationHeader.security header).length? = some length →
    length ≤ image.length) : imageHash (image ++ rest) header = imageHash image header := by
  unfold imageHash
  cases hlength : (ApplicationHeader.security header).length? with
  | none => rfl
  | some length => simp only [List.take_append_of_le_length (h length hlength)]

lemma Verifies.append (h : Verifies pubkey minSecurity deviceType image header) (rest : List UInt8) :
    Verifies pubkey minSecurity deviceType (image ++ rest) header where
  longer := by
    rw [List.length_append]
    exact Nat.lt_add_right _ h.longer
  parses := by
    rw [List.take_append_of_le_length h.longer.le]
    exact h.parses
  length_le := fun length hlength => by
    obtain ⟨hle, hle'⟩ := h.length_le length hlength
    exact ⟨hle, by rw [List.length_append]; omega⟩
  device := h.device
  level := h.level
  authentic := by
    rw [imageHash_append fun length hlength => (h.length_le length hlength).2]
    exact h.authentic

/-- A signed image has any level that is asked for. -/
lemma Verifies.any_level (h : Verifies pubkey .signed deviceType image header)
    (minSecurity : SecurityLevel) : Verifies pubkey minSecurity deviceType image header := by
  refine ⟨h.longer, h.parses, h.length_le, h.device, ?_, h.authentic⟩
  have hsigned := h.level
  cases hlevel : (ApplicationHeader.security header).level with
  | none => exact absurd (by rw [hlevel]; decide) hsigned
  | integrityOnly => exact absurd (by rw [hlevel]; decide) hsigned
  | signed => cases minSecurity <;> decide

variable [DecidableEq D]

/-- The hash of a valid image -/
lemma Verifies.dataHash (h : Verifies pubkey minSecurity deviceType image header) :
    ((Validator.new pubkey minSecurity deviceType : Validator C D H).update image).1.dataHash =
      .ok (imageHash image header) := by
  have hstate := ((Validator.received_new (H := H) pubkey minSecurity deviceType).whole image).image
    h.longer
  rw [Validator.dataHash, hstate.1,
    Validator.imageState_eq_complete.mpr ⟨h.parses, h.length_le, rfl⟩]

end Image

/-! ### A boot -/

/-- The external flash with the file store, and the internal one -/
structure Device (σ φ : Type) where
  store : σ
  flash : φ

section Boot

variable [DecidableEq D] {σ ε φ ε' ω : Type} (store : FileStore σ ε) (fwFile : Object)
  (blockSize chunkSize : ℕ) (deviceType : D) (pubkey : C.PubKey) (internalFlash : AppFlashWrite φ ε' ω)
  (installedMinSecurity : SecurityLevel)

/-- The status that is decided, and the device after the update, if there should be one -/
def boot (H : Type) [ApplicationHeader C D H] [BEq H] (d : Device σ φ) : AppStatus H × Device σ φ :=
  match validateUpdate store fwFile blockSize chunkSize deviceType pubkey internalFlash.toAppFlashRead
      d.flash installedMinSecurity d.store with
  | (.shouldUpdate header, s) =>
    let applied : Except (UpdateError ε' ω) H × σ × φ :=
      applyUpdate store fwFile blockSize chunkSize deviceType pubkey internalFlash s d.flash
    (.shouldUpdate header, ⟨applied.2.1, applied.2.2⟩)
  | (status, s) => (status, ⟨s, d.flash⟩)

/-- A boot, or one that the power loss ends: what it leaves in the internal flash is arbitrary. -/
inductive Event (σ φ : Type)
  | boot
  | powerLoss (store : σ) (flash : φ)

def Device.exec (H : Type) [ApplicationHeader C D H] [BEq H] (d : Device σ φ) : Event σ φ → Device σ φ
  | .boot => (boot store fwFile blockSize chunkSize deviceType pubkey internalFlash installedMinSecurity H d).2
  | .powerLoss s flash => ⟨s, flash⟩

variable {store fwFile blockSize chunkSize deviceType pubkey internalFlash installedMinSecurity}
variable {file : Except ε FileHandle} {handle : FileHandle}
  {content : FileHandle → ℕ → Except ε (List UInt8)} {s s' : σ} {header : H}

/-- The flash takes the slices: it can be programmed with them, and then the image starts with them. -/
def Takes (internalFlash : AppFlashWrite φ ε' ω) (slices : List (List UInt8)) : Prop :=
  ∀ flash, ∃ flash' rest, program internalFlash slices flash = (.ok (), flash') ∧
    internalFlash.applicationTotal flash' = slices.flatten ++ rest

/-- The fragments that are passed to the validator, by the content of the file -/
def fragmentsOf (content : FileHandle → ℕ → Except ε (List UInt8)) (handle : FileHandle) :
    List ℕ → Validator C D H → List (List UInt8)
  | [], _ => []
  | frag :: frags, validator =>
    match content handle frag with
    | .ok bytes =>
      let (validator, complete) := validator.update bytes
      bytes :: if complete then [] else fragmentsOf content handle frags validator
    | .error _ => []

lemma Stable.fragmentsRead_eq (h : Stable store fwFile chunkSize file content s) (frags : List ℕ)
    (v : Validator C D H) :
    fragmentsRead store chunkSize handle frags v s = fragmentsOf content handle frags v := by
  induction frags generalizing v s with
  | nil => rfl
  | cons frag frags ih =>
    obtain ⟨s', hread, hnext⟩ := h.readFileFragment handle frag
    unfold fragmentsRead fragmentsOf
    cases hcontent : content handle frag with
    | error error => simp [hread, hcontent]
    | ok bytes => simp [hread, hcontent, ih hnext]

variable (fwFile blockSize deviceType pubkey content handle internalFlash) in
/-- The file has a candidate: it verifies in the fragments in which it is read, of which the first non-empty
one has the header, and the internal flash takes it. -/
structure Candidate (header : H) : Prop where
  verified : ((Validator.new pubkey .signed deviceType).feed (fragmentsOf content handle
    (List.range (fwFile.fragmentCount blockSize))
    (Validator.new pubkey .signed deviceType : Validator C D H))).verify = .ok header
  split : SplitOk (ApplicationHeader.binarySize H) ((fragmentsOf content handle
    (List.range (fwFile.fragmentCount blockSize))
    (Validator.new pubkey .signed deviceType : Validator C D H)).map List.length)
  takes : Takes internalFlash (readable content handle (List.range (fwFile.fragmentCount blockSize)))

lemma Stable.candidate_eq (h : Stable store fwFile chunkSize (.ok handle) content s) :
    candidate store fwFile blockSize chunkSize deviceType pubkey H s = fragmentsOf content handle
      (List.range (fwFile.fragmentCount blockSize))
      (Validator.new pubkey .signed deviceType : Validator C D H) := by
  obtain ⟨s', hfile, hnext⟩ := h.fileHandle
  simp only [candidate, hfile]
  exact hnext.fragmentsRead_eq _ _

/-- The bytes that are validated -/
def validatedImage (content : FileHandle → ℕ → Except ε (List UInt8)) (handle : FileHandle) (fwFile : Object)
    (blockSize : ℕ) (deviceType : D) (pubkey : C.PubKey) (H : Type) [ApplicationHeader C D H] : List UInt8 :=
  (fragmentsOf content handle (List.range (fwFile.fragmentCount blockSize))
    (Validator.new pubkey .signed deviceType : Validator C D H)).flatten

section Status

variable (hc : Candidate fwFile blockSize deviceType pubkey internalFlash handle content header)
include hc

lemma Candidate.verifies : Verifies pubkey .signed deviceType
    (validatedImage content handle fwFile blockSize deviceType pubkey H) header :=
  (approved_of_verify hc.verified).image hc.split

/-- In any stable state the candidate verifies, with the hash of the image. -/
lemma Candidate.accepted (h : Stable store fwFile chunkSize (.ok handle) content s) :
    (validateNewFirmware store fwFile blockSize chunkSize deviceType pubkey s :
        Validator C D H × σ).1.verify = .ok header ∧
      (validateNewFirmware store fwFile blockSize chunkSize deviceType pubkey s :
        Validator C D H × σ).1.dataHash =
        .ok (imageHash (validatedImage content handle fwFile blockSize deviceType pubkey H) header) := by
  rw [validateNewFirmware_eq_feed, h.candidate_eq]
  refine ⟨hc.verified, ?_⟩
  have houtcome := (Validator.received_new (H := H) pubkey .signed deviceType).outcome_feed hc.split
  exact (congrArg Prod.snd houtcome).trans hc.verifies.dataHash

variable [BEq H]

variable (installedMinSecurity) in
/-- With a candidate, a device is not bricked. -/
lemma Candidate.not_bricked (h : Stable store fwFile chunkSize (.ok handle) content s) (flash : φ)
    (existing new : ValidationError) :
    (validateUpdate store fwFile blockSize chunkSize deviceType pubkey internalFlash.toAppFlashRead flash
      installedMinSecurity s : AppStatus H × σ).1 ≠ .bricked existing new := by
  have hverify := (hc.accepted (h.newUnvalidatedHeader (H := H))).1
  unfold validateUpdate
  dsimp only
  split
  · split
    · simp
    · split
      · simp
      · split <;> simp
  · rw [hverify]
    simp

variable (installedMinSecurity) in
/-- Where the candidate is installed, nothing is left to do. -/
lemma Candidate.upToDate (h : Stable store fwFile chunkSize (.ok handle) content s) {flash : φ}
    {rest : List UInt8} (hflash : internalFlash.applicationTotal flash =
      validatedImage content handle fwFile blockSize deviceType pubkey H ++ rest) :
    (validateUpdate store fwFile blockSize chunkSize deviceType pubkey internalFlash.toAppFlashRead flash
      installedMinSecurity s : AppStatus H × σ).1 = .upToDate header := by
  have hinstalled := (hc.verifies.append rest).any_level installedMinSecurity
  rw [← hflash] at hinstalled
  have hsame : sameHash (validateNewFirmware store fwFile blockSize chunkSize deviceType pubkey
      (newUnvalidatedHeader store fwFile chunkSize H s).2 : Validator C D H × σ).1.dataHash
      (validateExistingFirmware internalFlash.toAppFlashRead flash deviceType pubkey installedMinSecurity :
        Validator C D H).dataHash := by
    rw [(hc.accepted h.newUnvalidatedHeader).2, validateExistingFirmware, hinstalled.dataHash,
      hflash, imageHash_append fun length hlength => (hc.verifies.length_le length hlength).2]
    simp [sameHash]
  unfold validateUpdate
  dsimp only
  rw [verify_validateExistingFirmware.mpr hinstalled]
  dsimp only
  rw [if_pos hsame]
  split <;> rfl

end Status

/-! ### Stable reads through a boot -/

lemma Stable.copyLoop_state (h : Stable store fwFile chunkSize file content s)
    (internalFlash : AppFlashWrite φ ε' ω) (handle : FileHandle) (frags : List ℕ) (flash : φ) :
    Stable store fwFile chunkSize file content
      (Firmware.copyLoop store chunkSize internalFlash handle frags s flash).2.1 := by
  induction frags generalizing s flash with
  | nil => exact h
  | cons frag frags ih =>
    obtain ⟨s', hread, hnext⟩ := h.readFileFragment handle frag
    unfold Firmware.copyLoop
    cases hcontent : content handle frag with
    | error error =>
      simp only [hread, hcontent]
      exact ih hnext flash
    | ok bytes =>
      simp only [hread, hcontent]
      rcases internalFlash.append bytes flash with ⟨error | n, flash'⟩
      · exact hnext
      · exact ih hnext flash'

variable (blockSize deviceType pubkey internalFlash H) in
lemma Stable.applyUpdate_state (h : Stable store fwFile chunkSize file content s) (flash : φ) :
    Stable store fwFile chunkSize file content
      (Firmware.applyUpdate store fwFile blockSize chunkSize deviceType pubkey internalFlash s flash :
        Except (UpdateError ε' ω) H × σ × φ).2.1 := by
  have hcopy : ∀ flash, Stable store fwFile chunkSize file content
      (copyFirmware store fwFile blockSize chunkSize internalFlash s flash).2.1 := by
    intro flash
    obtain ⟨s', hfile, hnext⟩ := h.fileHandle
    unfold copyFirmware
    cases file with
    | error error => simpa [hfile] using hnext
    | ok handle =>
      simp only [hfile]
      exact hnext.copyLoop_state internalFlash handle _ flash
  unfold Firmware.applyUpdate
  split
  · exact h
  · rename_i flash' _
    have hnext := hcopy flash'
    split
    · rename_i hresult
      rwa [hresult] at hnext
    · rename_i hresult
      rw [hresult] at hnext
      split <;> exact hnext

variable [BEq H]

variable (blockSize deviceType pubkey internalFlash installedMinSecurity H) in
lemma Stable.validateUpdate_state (h : Stable store fwFile chunkSize file content s) (flash : φ) :
    Stable store fwFile chunkSize file content
      (Firmware.validateUpdate store fwFile blockSize chunkSize deviceType pubkey
        internalFlash.toAppFlashRead flash installedMinSecurity s : AppStatus H × σ).2 := by
  have hheader := h.newUnvalidatedHeader (H := H)
  have hnew : Stable store fwFile chunkSize file content
      (Firmware.validateNewFirmware store fwFile blockSize chunkSize deviceType pubkey
        (Firmware.newUnvalidatedHeader store fwFile chunkSize H s).2 : Validator C D H × σ).2 :=
    hheader.validateNewFirmware
  unfold Firmware.validateUpdate
  dsimp only
  split
  · split
    · exact hheader
    · split
      · exact hnew
      · split <;> exact hnew
  · split <;> exact hnew

/-- The status depends on the content of the file only, not on the state of the store. -/
lemma Stable.status_congr (h : Stable store fwFile chunkSize (.ok handle) content s)
    (h' : Stable store fwFile chunkSize (.ok handle) content s') (flash : φ) :
    (Firmware.validateUpdate store fwFile blockSize chunkSize deviceType pubkey
        internalFlash.toAppFlashRead flash installedMinSecurity s : AppStatus H × σ).1 =
      (Firmware.validateUpdate store fwFile blockSize chunkSize deviceType pubkey
        internalFlash.toAppFlashRead flash installedMinSecurity s').1 := by
  have hheader : ∀ {s : σ}, Stable store fwFile chunkSize (.ok handle) content s →
      (Firmware.newUnvalidatedHeader store fwFile chunkSize H s).1 =
        match content handle 0 with
        | .ok bytes => (ApplicationHeader.tryFromBytes bytes).toOption
        | .error _ => none := by
    intro s h
    obtain ⟨s', hfile, hnext⟩ := h.fileHandle
    obtain ⟨s'', hread, -⟩ := hnext.readFileFragment handle 0
    unfold Firmware.newUnvalidatedHeader
    simp only [hfile, hread]
    cases content handle 0 <;> rfl
  have hnew : ∀ {s : σ}, Stable store fwFile chunkSize (.ok handle) content s →
      (Firmware.validateNewFirmware store fwFile blockSize chunkSize deviceType pubkey s :
        Validator C D H × σ).1 = (Validator.new pubkey .signed deviceType).feed (fragmentsOf content handle
          (List.range (fwFile.fragmentCount blockSize))
          (Validator.new pubkey .signed deviceType : Validator C D H)) := by
    intro s h
    rw [validateNewFirmware_eq_feed, h.candidate_eq]
  have hheader' := (hheader h).trans (hheader h').symm
  have hnew' := (hnew (h.newUnvalidatedHeader (H := H))).trans (hnew (h'.newUnvalidatedHeader (H := H))).symm
  unfold Firmware.validateUpdate
  dsimp only
  rw [hheader', hnew']
  split
  · split
    · rfl
    · split
      · rfl
      · split <;> rfl
  · split <;> rfl

/-! ### Recovery -/

/-- Without an update the flash stays as it is. -/
lemma boot_kept {d : Device σ φ} {result : AppStatus H × σ}
    (h : Firmware.validateUpdate store fwFile blockSize chunkSize deviceType pubkey
      internalFlash.toAppFlashRead d.flash installedMinSecurity d.store = result)
    (hkept : ∀ new, result.1 ≠ .shouldUpdate new) :
    boot store fwFile blockSize chunkSize deviceType pubkey internalFlash installedMinSecurity H d =
      (result.1, ⟨result.2, d.flash⟩) := by
  obtain ⟨status, s⟩ := result
  unfold boot
  rw [h]
  cases status with
  | shouldUpdate new => exact absurd rfl (hkept new)
  | upToDate _ | updateRejected _ _ | bricked _ _ => rfl

/-- A boot that finds the same status as the one before writes nothing. -/
lemma Stable.boot_again {d d' : Device σ φ} {status : AppStatus H}
    (h : Stable store fwFile chunkSize (.ok handle) content d.store)
    (h' : Stable store fwFile chunkSize (.ok handle) content d'.store) (hflash : d'.flash = d.flash)
    (hstatus : (Firmware.validateUpdate store fwFile blockSize chunkSize deviceType pubkey
      internalFlash.toAppFlashRead d.flash installedMinSecurity d.store).1 = status)
    (hkept : ∀ new, status ≠ .shouldUpdate new) :
    (boot store fwFile blockSize chunkSize deviceType pubkey internalFlash installedMinSecurity H d').1 =
        status ∧
      (boot store fwFile blockSize chunkSize deviceType pubkey internalFlash installedMinSecurity H
        d').2.flash = d.flash := by
  rw [h.status_congr h', ← hflash] at hstatus
  rw [boot_kept rfl (by rw [hstatus]; exact hkept)]
  exact ⟨hstatus, hflash⟩

section Recovery

variable (hc : Candidate fwFile blockSize deviceType pubkey internalFlash handle content header)
include hc

/-- A flash that takes the candidate has it installed. -/
lemma Candidate.applied (h : Stable store fwFile chunkSize (.ok handle) content s) (flash : φ) :
    ∃ s' flash' rest, (Firmware.applyUpdate store fwFile blockSize chunkSize deviceType pubkey internalFlash
        s flash : Except (UpdateError ε' ω) H × σ × φ) = (.ok header, s', flash') ∧
      internalFlash.applicationTotal flash' =
        validatedImage content handle fwFile blockSize deviceType pubkey H ++ rest := by
  obtain ⟨flash', rest, hprogram, htotal⟩ := hc.takes flash
  obtain ⟨s', happlied⟩ : ∃ s', (Firmware.applyUpdate store fwFile blockSize chunkSize deviceType pubkey
      internalFlash s flash : Except (UpdateError ε' ω) H × σ × φ) =
        (verifyApplied deviceType pubkey internalFlash flash', s', flash') := by
    have happly := @Stable.applyUpdate C D H _ σ ε φ ε' ω store fwFile blockSize chunkSize deviceType pubkey
      content s _ handle h internalFlash flash
    rwa [hprogram] at happly
  have hprefix := h.fragmentsRead_isPrefix handle (List.range (fwFile.fragmentCount blockSize))
    (Validator.new pubkey .signed deviceType : Validator C D H)
  rw [h.fragmentsRead_eq] at hprefix
  obtain ⟨more, hmore⟩ := hprefix
  have himage : internalFlash.applicationTotal flash' =
      validatedImage content handle fwFile blockSize deviceType pubkey H ++ (more.flatten ++ rest) := by
    rw [htotal, ← hmore, List.flatten_append, List.append_assoc]
    rfl
  refine ⟨s', flash', _, ?_, himage⟩
  rw [happlied]
  simp only [verifyApplied]
  rw [verify_validateExistingFirmware.mpr (himage ▸ hc.verifies.append _)]

/-- **A boot repairs the device.** Whatever the internal flash holds, a boot with a candidate is not bricked:
it ends with valid firmware, which is the candidate if there was an update; and the boot after it finds this
firmware and writes nothing. -/
lemma Candidate.boot {d : Device σ φ} (h : Stable store fwFile chunkSize (.ok handle) content d.store) :
    let r := Firmware.boot store fwFile blockSize chunkSize deviceType pubkey internalFlash
      installedMinSecurity H d
    let next := Firmware.boot store fwFile blockSize chunkSize deviceType pubkey internalFlash
      installedMinSecurity H r.2
    (∀ existing new, r.1 ≠ .bricked existing new) ∧
    (∀ new, r.1 = .shouldUpdate new → new = header ∧ next.1 = .upToDate header) ∧
    (∃ installed : H, Verifies pubkey installedMinSecurity deviceType
        (internalFlash.applicationTotal r.2.flash) installed ∧
      (next.1 = .upToDate installed ∨ ∃ error, next.1 = .updateRejected installed error)) ∧
    next.2.flash = r.2.flash := by
  intro r next
  have hstate := h.validateUpdate_state H blockSize deviceType pubkey internalFlash installedMinSecurity d.flash
  have hbricked := hc.not_bricked installedMinSecurity h d.flash
  rcases hresult : (Firmware.validateUpdate store fwFile blockSize chunkSize deviceType pubkey
    internalFlash.toAppFlashRead d.flash installedMinSecurity d.store : AppStatus H × σ) with ⟨status, s'⟩
  have hfirst : (Firmware.validateUpdate store fwFile blockSize chunkSize deviceType pubkey
      internalFlash.toAppFlashRead d.flash installedMinSecurity d.store : AppStatus H × σ).1 = status := by
    rw [hresult]
  rw [hresult] at hstate
  cases status with
  | bricked existing new => exact absurd hfirst (hbricked existing new)
  | upToDate installed =>
    have hr : r = (.upToDate installed, ⟨s', d.flash⟩) := boot_kept hresult nofun
    have hvalid := validateUpdate_keep (.inl hfirst)
    obtain ⟨hnext, hflash⟩ : next.1 = r.1 ∧ next.2.flash = d.flash := by
      rw [hr]
      exact h.boot_again (by rw [hr]; exact hstate) (by rw [hr]) hfirst nofun
    rw [hr] at hnext ⊢
    exact ⟨nofun, nofun, ⟨installed, hvalid, .inl hnext⟩, hflash⟩
  | updateRejected installed error =>
    have hr : r = (.updateRejected installed error, ⟨s', d.flash⟩) := boot_kept hresult nofun
    have hvalid := validateUpdate_keep (.inr ⟨error, hfirst⟩)
    obtain ⟨hnext, hflash⟩ : next.1 = r.1 ∧ next.2.flash = d.flash := by
      rw [hr]
      exact h.boot_again (by rw [hr]; exact hstate) (by rw [hr]) hfirst nofun
    rw [hr] at hnext ⊢
    exact ⟨nofun, nofun, ⟨installed, hvalid, .inr ⟨error, hnext⟩⟩, hflash⟩
  | shouldUpdate new =>
    have hnew : new = header := by
      obtain ⟨-, hverify, -⟩ := validateUpdate_shouldUpdate hfirst
      have haccepted := (hc.accepted (h.newUnvalidatedHeader (H := H))).1
      rw [hverify] at haccepted
      exact Except.ok.inj haccepted
    subst hnew
    obtain ⟨s'', flash', rest, happlied, himage⟩ := hc.applied hstate d.flash
    have hr : r = (.shouldUpdate new, ⟨s'', flash'⟩) := by
      simp only [r, Firmware.boot, hresult, happlied]
    have hstate' : Stable store fwFile chunkSize (.ok handle) content s'' := by
      have := hstate.applyUpdate_state H blockSize deviceType pubkey internalFlash d.flash
      rwa [happlied] at this
    have hnext := hc.upToDate installedMinSecurity hstate' himage
    have hagain : next.1 = .upToDate new ∧ next.2.flash = flash' := by
      simp only [next, hr]
      rw [boot_kept rfl (by rw [hnext]; exact nofun)]
      exact ⟨hnext, rfl⟩
    rw [hagain.1, hagain.2, hr]
    refine ⟨nofun, fun _ heq => ⟨(AppStatus.shouldUpdate.inj heq).symm, rfl⟩, ⟨new, ?_, .inl rfl⟩, rfl⟩
    rw [himage]
    exact (hc.verifies.append rest).any_level installedMinSecurity

end Recovery

variable (store fwFile chunkSize file content) in
/-- When the power is lost, the reads of the external flash are as stable as before. -/
def EventGuard (_ : Device σ φ) : Event σ φ → Prop
  | .boot => True
  | .powerLoss s _ => Stable store fwFile chunkSize file content s

lemma Stable.reach {d₀ d : Device σ φ} (h₀ : Stable store fwFile chunkSize file content d₀.store)
    (h : Reach (Device.exec store fwFile blockSize chunkSize deviceType pubkey internalFlash
      installedMinSecurity H) (EventGuard store fwFile chunkSize file content) d₀ d) :
    Stable store fwFile chunkSize file content d.store := by
  refine h.invariant (P := fun d => Stable store fwFile chunkSize file content d.store) h₀ ?_
  intro d event hd hguard
  cases event with
  | powerLoss s flash => exact hguard
  | boot =>
    have hstate := hd.validateUpdate_state H blockSize deviceType pubkey internalFlash installedMinSecurity d.flash
    simp only [Device.exec, boot]
    split
    · rename_i header s' hresult
      rw [hresult] at hstate
      exact hstate.applyUpdate_state H blockSize deviceType pubkey internalFlash d.flash
    · rename_i hresult
      rwa [hresult] at hstate

/-- **A device with a candidate recovers.** After any boots and losses of power, of which each may leave
anything in the internal flash, the next boot is not bricked, and ends with valid firmware: the candidate,
if there was an update. The boot behind it finds this firmware and leaves the flash as it is. -/
theorem boot_recovers {d₀ d : Device σ φ}
    (hc : Candidate fwFile blockSize deviceType pubkey internalFlash handle content header)
    (h₀ : Stable store fwFile chunkSize (.ok handle) content d₀.store)
    (h : Reach (Device.exec store fwFile blockSize chunkSize deviceType pubkey internalFlash
      installedMinSecurity H) (EventGuard store fwFile chunkSize (.ok handle) content) d₀ d) :
    let r := boot store fwFile blockSize chunkSize deviceType pubkey internalFlash installedMinSecurity H d
    let next := boot store fwFile blockSize chunkSize deviceType pubkey internalFlash installedMinSecurity
      H r.2
    (∀ existing new, r.1 ≠ .bricked existing new) ∧
    (∀ new, r.1 = .shouldUpdate new → new = header ∧ next.1 = .upToDate header) ∧
    (∃ installed : H, Verifies pubkey installedMinSecurity deviceType
        (internalFlash.applicationTotal r.2.flash) installed ∧
      (next.1 = .upToDate installed ∨ ∃ error, next.1 = .updateRejected installed error)) ∧
    next.2.flash = r.2.flash :=
  hc.boot (h₀.reach h)

end Boot

/-! ### The power is lost in an update -/

/-- The store of the tests, which never changes -/
def helloStore : MockSingleFileStore := ⟨some 1, helloImage⟩

def helloContent (handle : FileHandle) (frag : ℕ) : Except Error (List UInt8) :=
  (MockSingleFileStore.readFileFragment handle frag 256 helloStore).1

lemma helloStore_stable : Stable mockStore (fwFile 256) 256 (.ok ⟨fwFile 256, 0⟩) helloContent helloStore := by
  refine ⟨fun s => s = helloStore, rfl, ?_⟩
  rintro s rfl
  refine ⟨rfl, rfl, fun handle frag => ⟨rfl, ?_⟩⟩
  simp only [mockStore, MockSingleFileStore.readFileFragment]
  split <;> rfl

lemma ramFlash_takes (slices : List (List UInt8)) : Takes ramFlash slices := by
  have happend : ∀ (slices : List (List UInt8)) (image : List UInt8),
      appendAll ramFlash slices image = (.ok (), image ++ slices.flatten) := by
    intro slices
    induction slices with
    | nil => intro image; simp [appendAll]
    | cons bytes slices ih =>
      intro image
      calc appendAll ramFlash (bytes :: slices) image = appendAll ramFlash slices (image ++ bytes) := rfl
        _ = _ := by simp [ih]
  intro flash
  refine ⟨slices.flatten, [], ?_, (List.append_nil _).symm⟩
  rw [program, show ramFlash.eraseApplication flash = (.ok (), []) from rfl]
  simp only [happend, List.nil_append]
  rfl

lemma hello_candidate : Candidate (fwFile 256) 4096 MockDeviceType.a () ramFlash ⟨fwFile 256, 0⟩
    helloContent helloHeader where
  verified := by decide +kernel
  split := Or.inr (Or.inr ⟨by decide +kernel, [], 93, [0], by decide +kernel, by simp, by decide, by decide⟩)
  takes := ramFlash_takes _

/-- Half of an image is left in the internal flash. -/
def helloLoss : Device MockSingleFileStore (List UInt8) := ⟨helloStore, helloImage.take 40⟩

def helloBoot : Device MockSingleFileStore (List UInt8) →
    AppStatus HelloHeader × Device MockSingleFileStore (List UInt8) :=
  boot mockStore (fwFile 256) 4096 256 MockDeviceType.a () ramFlash .signed HelloHeader

theorem boot_recovers_hello : (helloBoot (helloBoot helloLoss).2).2.flash = helloImage := by
  have hreach : Reach (Device.exec mockStore (fwFile 256) 4096 256 MockDeviceType.a () ramFlash .signed
      HelloHeader) (EventGuard mockStore (fwFile 256) 256 (.ok ⟨fwFile 256, 0⟩) helloContent)
      ⟨helloStore, []⟩ helloLoss :=
    .step (Event.powerLoss helloStore (helloImage.take 40)) .start helloStore_stable
  have hrecovers := boot_recovers hello_candidate helloStore_stable hreach
  rw [helloBoot, hrecovers.2.2.2]
  decide +kernel

end SensorLink.Firmware
