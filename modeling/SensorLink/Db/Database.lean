import SensorLink.Flash.BlockLayer

/-!
# The database of `storage/flash_db.rs`

Objects, and what files and circular buffers have in common: the lock in the spare block, deleting an
object, and preparing a block for writing. `u32` and `usize` arithmetic of the source wraps at 32 bits, as
in the release build for the device.
-/

namespace SensorLink.Db

open SensorLink.Lib SensorLink.Flash

def reservedBlocksPerFile : ℕ := 1

/-- `(u32::MAX / 2) as usize` -/
def maxFragmentsPerObject : ℕ := (2 ^ 32 - 1) / 2

/-- The trait `Object`: the blocks from `blocksStart` up to `blocksEnd` (exclusive), and the value of
`capacity()`, which an object may override. -/
structure Object where
  id : ℕ
  fragmentSize : ℕ
  blocksStart : ℕ
  blocksEnd : ℕ
  capacity : ℕ
deriving DecidableEq, Repr

namespace Object

variable (o : Object)

def blockCount : ℕ := wrappingSub o.blocksEnd o.blocksStart

/-- Not used for data but for meta operations such as the lock. -/
def spareBlock : ℕ := o.blocksEnd - 1

def fragmentsPerBlock (blockSize : ℕ) : ℕ := calculateFragmentsPerBlock blockSize o.fragmentSize

def fragmentCount (blockSize : ℕ) : ℕ :=
  -- of an object without a block the difference is negative
  let dataBlocks := if o.blockCount < reservedBlocksPerFile then 2 ^ 32 - 1
    else o.blockCount - reservedBlocksPerFile
  min maxFragmentsPerObject (wrappingMul (o.fragmentsPerBlock blockSize) dataBlocks)

end Object

/-- `flash_db::Error` -/
inductive Error
  | flash
  | invalidObject
  | corruptOutOfBounds
  | corrupt
  | corruptStream
  | noSpaceAvailable
  | notFound
  | bufferTooSmall
  | internalError
  | fragmentExists
  | fragmentTooLarge
  | fragmentNotFound
  | fragmentNotWriteable
  | writeFailedVerify
  | fileNotReadable
  | fragmentNotReadable
deriving DecidableEq, Repr

namespace Error

/-- `From<FlashError>` -/
def ofFlash : FlashError → Error
  | .blockOutOfBounds => corruptOutOfBounds
  | .flash _ => flash

/-- `From<FlashReadError>` -/
def ofRead : FlashReadError → Error
  | .flash _ => flash
  | .read .fragmentEmpty => fragmentNotReadable
  | .read .fragmentInvalid => fragmentNotReadable
  | .read .fragmentObsolete => fragmentNotReadable
  | .read .fragmentNotFound => fragmentNotFound
  | .read .blockInvalid => fragmentNotReadable
  | .read .blockOutOfBounds => corruptOutOfBounds
  | .read .flash => flash

/-- `From<FlashWriteError>` -/
def ofWrite : FlashWriteError → Error
  | .flash _ => flash
  | .write .fragmentNotFound => fragmentNotFound
  | .write .blockInvalid => fragmentNotWriteable
  | .write .fragmentInvalid => fragmentNotWriteable
  | .write .fragmentObsolete => fragmentNotWriteable
  | .write .fragmentExists => fragmentNotWriteable
  | .write .fragmentTooLarge => fragmentTooLarge
  | .write .verifyFailed => writeFailedVerify
  | .write .blockOutOfBounds => corruptOutOfBounds
  | .write .flash => flash

end Error

inductive LockStatus
  /-- only blocks with this object version -/
  | unlocked (version : ℕ)
  | locked
deriving DecidableEq, Repr

inductive DeleteMode
  /-- delete and erase the whole object except the spare block -/
  | eraseSkipSpare
  /-- delete and erase the whole object under the lock -/
  | eraseLockSpare
  /-- the first and the spare block are formatted with an increased version -/
  | softVersion
deriving DecidableEq, Repr

section Database

variable (dev : BlockDevice) (o : Object)

/-- `lock_status`: a spare block that is invalid, or whose first fragment is not empty, is a lock. -/
def lockStatus : Io Error LockStatus := do
  match ← Dev.mapErr Error.ofFlash (dev.blockHeader o.spareBlock) with
  | none => pure .locked
  | some spare =>
    if o.id ≠ spare.objectId then Dev.throw .corrupt
    else do
      let status ← Dev.mapErr Error.ofRead (dev.fragmentStatus spare spare.firstFragNo)
      if status ≠ .empty then pure .locked else pure (.unlocked spare.objectVersion)

def lock : Io Error Unit := do
  match ← Dev.mapErr Error.ofFlash (dev.blockHeader o.spareBlock) with
  | none => pure ()
  | some spare => Dev.mapErr Error.ofWrite (dev.deleteFragment spare spare.firstFragNo)

/-- `format_block` for the object, with `fragment_size as u16`. -/
def formatFor (block version firstFragNo : ℕ) : Io Error Unit :=
  Dev.mapErr Error.ofWrite
    (dev.formatBlock block o.id version (o.fragmentSize % 2 ^ 16) firstFragNo)

def unlock (objectVersion : ℕ) : Io Error Unit := do
  match ← Dev.attempt (lockStatus dev o) with
  | .ok (.unlocked _) => pure ()
  | _ => formatFor dev o o.spareBlock objectVersion 0

/-- `versions[0]` and `erase_counts[0]` of `delete_object`: those of the last header of the list that
could be read. The second entries of the arrays keep their initial values. -/
def lastVersion (total : ℕ) (headers : List (Except FlashError (Option BlockHeader))) : ℕ × ℕ :=
  headers.foldl
    (fun acc header => match header with
      | .ok (some h) => (h.objectVersion, h.firstFragNo / total)
      | _ => acc)
    (0xFF, 0)

/-- The next object version: because of wrapping, a difference above 128 means that the lower number
is newer. -/
def nextVersion (version0 version1 : ℕ) : ℕ :=
  let maxVersion := max version0 version1
  let minVersion := min version0 version1
  let existingVersion := if 128 < maxVersion - minVersion then minVersion else maxVersion
  (existingVersion + 1) % 2 ^ 8

/-- `first_frag_no_for_block.wrapping_add((erase_count + 1) * total_frag_count)` -/
def nextFirstFragNo (block eraseCount : ℕ) : ℕ :=
  wrappingAdd (wrappingMul block (o.fragmentsPerBlock dev.blockSize))
    (wrappingMul (wrappingAdd eraseCount 1) (o.fragmentCount dev.blockSize))

/-- The soft delete: only the first and the spare block. -/
def deleteSoft (version eraseCount : ℕ) : Io Error Unit := do
  formatFor dev o o.blocksStart version (nextFirstFragNo dev o o.blocksStart eraseCount)
  formatFor dev o o.spareBlock version (nextFirstFragNo dev o o.spareBlock 0)

/-- Whether a block has to be formatted to be erased, and how often it was. -/
def eraseNeeded (block : ℕ) : Io Error (Bool × ℕ) := do
  match ← Dev.mapErr Error.ofFlash (dev.blockHeader block) with
  | none => pure (true, 0)
  | some header =>
    if header.objectId ≠ o.id then pure (true, 0)
    else
      let total := o.fragmentCount dev.blockSize
      let eraseCount := header.firstFragNo / total
      -- metadata up-to-date: only format the block if it is not empty
      if header.fragSize = o.fragmentSize ∧ header.firstFragNo % total =
          wrappingMul block (o.fragmentsPerBlock dev.blockSize) then do
        let empty ← Dev.mapErr Error.ofRead (dev.blockIsEmpty header)
        pure (!empty, eraseCount)
      else pure (true, eraseCount)

/-- The loop of the modes that erase: `locking` is `mode.lock_mode()`. -/
def eraseBlocks (version : ℕ) (mode : DeleteMode) : ℕ → List ℕ → Io Error Unit
  | _, [] => pure ()
  | formatCount, block :: blocks =>
    if mode = .eraseSkipSpare ∧ block = o.spareBlock then eraseBlocks version mode formatCount blocks
    else do
      let (format, eraseCount) ← eraseNeeded dev o block
      if format then do
        -- the first time a block will be formatted: lock the object
        if formatCount = 0 ∧ mode = .eraseLockSpare then lock dev o
        formatFor dev o block version (nextFirstFragNo dev o block eraseCount)
        eraseBlocks version mode (formatCount + 1) blocks
      else eraseBlocks version mode formatCount blocks

/-- `delete_object` -/
def deleteObject (mode : DeleteMode) : Io Error Unit :=
  if o.fragmentCount dev.blockSize = 0 then Dev.throw .invalidObject
  else do
    let firstHeader ← Dev.attempt (dev.blockHeader o.blocksStart)
    let spareHeader ← Dev.attempt (dev.blockHeader o.spareBlock)
    let (version0, eraseCount) :=
      lastVersion (o.fragmentCount dev.blockSize) [firstHeader, spareHeader]
    let version := nextVersion version0 0xFF
    match mode with
    | .softVersion => deleteSoft dev o version eraseCount
    | mode =>
      eraseBlocks dev o version mode 0 (List.range' o.blocksStart (o.blocksEnd - o.blocksStart))

/-- Whether the format of a block matches and its version is up-to-date. -/
def isWriteable (version : ℕ) (block : BlockHeader) : Bool :=
  o.fragmentSize = block.fragSize ∧ block.objectVersion = version

/-- The part of `prepare_writeable_block` that formats the block. -/
def formatWriteableBlock (blockNo version eraseCount : ℕ) : Io Error BlockHeader := do
  let total := max (o.fragmentCount dev.blockSize) 1
  formatFor dev o blockNo version
    (wrappingAdd (wrappingMul blockNo (o.fragmentsPerBlock dev.blockSize))
      (wrappingMul (wrappingAdd eraseCount 1) total))
  match ← Dev.mapErr Error.ofFlash (dev.blockHeader blockNo) with
  | some block => if isWriteable o version block then pure block else Dev.throw .writeFailedVerify
  | none => Dev.throw .writeFailedVerify

/-- `prepare_writeable_block` -/
def prepareWriteableBlock (blockNo version : ℕ) : Io Error BlockHeader := do
  match ← Dev.mapErr Error.ofFlash (dev.blockHeader blockNo) with
  | some block =>
    let eraseCount := block.firstFragNo / max (o.fragmentCount dev.blockSize) 1
    if isWriteable o version block then pure block
    else formatWriteableBlock dev o blockNo version eraseCount
  | none => formatWriteableBlock dev o blockNo version 0

end Database

end SensorLink.Db
