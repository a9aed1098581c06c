import SensorLink.Db.Database
import SensorLink.Firmware.Validator

/-!
# The update logic of `bootloader.rs`

The bootloader is generic over the file store and the internal flash: the traits `FileStore`,
`AppFlashRead` and `AppFlashWrite` are structures here, whose operations pass on a state. What the
source writes through the `Writer` of an erased flash changes the state of the flash.
-/

namespace SensorLink.Firmware

open SensorLink.Db

/-! ### The traits -/

/-- `FileHandle` -/
structure FileHandle where
  file : Object
  version : ℕ

/-- The functions of the trait `FileStore` that the bootloader calls. What is read into a buffer of `len`
bytes is the result. -/
structure FileStore (σ ε : Type) where
  fileHandle : Object → σ → Except ε FileHandle × σ
  readFileFragment : FileHandle → ℕ → (len : ℕ) → σ → Except ε (List UInt8) × σ
  length_le : ∀ handle fragmentNo len s bytes,
    (readFileFragment handle fragmentNo len s).1 = .ok bytes → bytes.length ≤ len

/-- `AppFlashRead` -/
structure AppFlashRead (φ : Type) where
  /-- the installed application image -/
  applicationTotal : φ → List UInt8

/-- `AppFlashWrite` and `AppFlashWriter` -/
structure AppFlashWrite (φ ε ω : Type) extends AppFlashRead φ where
  eraseApplication : φ → Except ε Unit × φ
  append : List UInt8 → φ → Except ω ℕ × φ
  finalize : φ → Except ω ℕ × φ

/-- `AppStatus` -/
inductive AppStatus (H : Type)
  /-- firmware already matches the update: skip update -/
  | upToDate (header : H)
  /-- firmware cannot be updated: skip update -/
  | updateRejected (header : H) (error : ValidationError)
  /-- valid update is found -/
  | shouldUpdate (header : H)
  /-- no firmware is available at all -/
  | bricked (existing candidate : ValidationError)
deriving DecidableEq

/-- `UpdateError` -/
inductive UpdateError (ε ω : Type)
  | erase (error : ε)
  | write (error : ω)
  | validate (error : ValidationError)

section Bootloader

variable {C : Crypto} {D H : Type} [ApplicationHeader C D H] {σ ε φ ε' ω : Type}

/-! ### Validation -/

/-- `validate_existing_firmware` -/
def validateExistingFirmware (internalFlash : AppFlashRead φ) (flash : φ) (deviceType : D)
    (pubkey : C.PubKey) (minSecurity : SecurityLevel) : Validator C D H :=
  ((Validator.new pubkey minSecurity deviceType).update (internalFlash.applicationTotal flash)).1

variable (store : FileStore σ ε) (fwFile : Object) (blockSize chunkSize : ℕ) (deviceType : D)
  (pubkey : C.PubKey)

/-- The loop of `validate_new_firmware` over the fragments -/
def validateLoop (handle : FileHandle) : List ℕ → Validator C D H → σ → Validator C D H × σ
  | [], validator, s => (validator, s)
  | frag :: frags, validator, s =>
    match store.readFileFragment handle frag chunkSize s with
    | (.ok bytes, s) =>
      let (validator, complete) := validator.update bytes
      if complete then (validator, s) else validateLoop handle frags validator s
    | (.error _, s) => (validator, s)

/-- `validate_new_firmware` -/
def validateNewFirmware (s : σ) : Validator C D H × σ :=
  let validator := Validator.new pubkey .signed deviceType
  match store.fileHandle fwFile s with
  | (.ok handle, s) =>
    validateLoop store chunkSize handle (List.range (fwFile.fragmentCount blockSize)) validator s
  | (.error _, s) => (validator, s)

/-- The first chunk of the firmware file, parsed as header -/
def newUnvalidatedHeader (H : Type) [ApplicationHeader C D H] (s : σ) : Option H × σ :=
  match store.fileHandle fwFile s with
  | (.ok handle, s) =>
    match store.readFileFragment handle 0 chunkSize s with
    | (.ok bytes, s) => ((ApplicationHeader.tryFromBytes bytes).toOption, s)
    | (.error _, s) => (none, s)
  | (.error _, s) => (none, s)

/-- Both validators are complete and have the same hash. -/
def sameHash (newHash oldHash : Except ValidationError Hash) : Bool :=
  match newHash, oldHash with
  | .ok newHash, .ok oldHash => newHash = oldHash
  | _, _ => false

/-- `validate_update` -/
def validateUpdate [DecidableEq D] [BEq H] (internalFlash : AppFlashRead φ) (flash : φ)
    (installedMinSecurity : SecurityLevel) (s : σ) : AppStatus H × σ :=
  let (newHeader, s) := newUnvalidatedHeader store fwFile chunkSize H s
  let oldValidator : Validator C D H :=
    validateExistingFirmware internalFlash flash deviceType pubkey installedMinSecurity
  match oldValidator.verify with
  | .ok existingHeader =>
    -- the header includes the signature or hash, so that updating to the same one is pointless
    if newHeader.any (· == existingHeader) then (.upToDate existingHeader, s)
    else
      let (newValidator, s) :=
        validateNewFirmware store fwFile blockSize chunkSize deviceType pubkey s
      if sameHash newValidator.dataHash oldValidator.dataHash then (.upToDate existingHeader, s)
      else
        match newValidator.allowUpdateFrom existingHeader with
        | .ok newHeader => (.shouldUpdate newHeader, s)
        | .error error => (.updateRejected existingHeader error, s)
  | .error existingError =>
    let (newValidator, s) :=
      validateNewFirmware store fwFile blockSize chunkSize deviceType pubkey s
    match newValidator.verify with
    | .ok newHeader => (.shouldUpdate newHeader, s)
    | .error newError => (.bricked existingError newError, s)

/-! ### Installation -/

/-- The loop of `apply_update` over the fragments: those that cannot be read are left out. -/
def copyLoop (internalFlash : AppFlashWrite φ ε' ω) (handle : FileHandle) :
    List ℕ → σ → φ → Except ω Unit × σ × φ
  | [], s, flash => (.ok (), s, flash)
  | frag :: frags, s, flash =>
    match store.readFileFragment handle frag chunkSize s with
    | (.ok bytes, s) =>
      match internalFlash.append bytes flash with
      | (.ok _, flash) => copyLoop internalFlash handle frags s flash
      | (.error error, flash) => (.error error, s, flash)
    | (.error _, s) => copyLoop internalFlash handle frags s flash

/-- The copy of the firmware file into the erased flash -/
def copyFirmware (internalFlash : AppFlashWrite φ ε' ω) (s : σ) (flash : φ) :
    Except ω Unit × σ × φ :=
  match store.fileHandle fwFile s with
  | (.ok handle, s) =>
    copyLoop store chunkSize internalFlash handle (List.range (fwFile.fragmentCount blockSize)) s flash
  | (.error _, s) => (.ok (), s, flash)

/-- The result of `apply_update` behind the last write: the installed image is verified again. -/
def verifyApplied [DecidableEq D] (internalFlash : AppFlashWrite φ ε' ω) (flash : φ) :
    Except (UpdateError ε' ω) H :=
  let validator : Validator C D H :=
    validateExistingFirmware internalFlash.toAppFlashRead flash deviceType pubkey .signed
  match validator.verify with
  | .ok header => .ok header
  | .error error => .error (.validate error)

/-- `apply_update` -/
def applyUpdate [DecidableEq D] (internalFlash : AppFlashWrite φ ε' ω) (s : σ) (flash : φ) :
    Except (UpdateError ε' ω) H × σ × φ :=
  match internalFlash.eraseApplication flash with
  | (.error error, flash) => (.error (.erase error), s, flash)
  | (.ok _, flash) =>
    match copyFirmware store fwFile blockSize chunkSize internalFlash s flash with
    | (.error error, s, flash) => (.error (.write error), s, flash)
    | (.ok _, s, flash) =>
      match internalFlash.finalize flash with
      | (.error error, flash) => (.error (.write error), s, flash)
      | (.ok _, flash) => (verifyApplied deviceType pubkey internalFlash flash, s, flash)

end Bootloader

end SensorLink.Firmware
