import SensorLink.Flash.Nor
import SensorLink.Lib.Bytes
import SensorLink.Lib.Wrap

/-!
# The block layer of `storage/flash_db/block_layer.rs`

The flash is divided into blocks, which are the erase blocks of the flash. A block starts with its
header of 16 bytes, then come the headers of its fragments, 3 bytes each, then their data. A result
buffer that the source fills is a result here; its length is an argument. `u32` values are natural
numbers below `2 ^ 32`, and a plain `+` of the source wraps as in the release build.
-/

namespace SensorLink.Flash

open SensorLink.Lib

def blockHeaderSize : ℕ := 16
def fragHeaderSize : ℕ := 3

/-- `calculate_fragments_per_block` -/
def calculateFragmentsPerBlock (blockSize fragmentSize : ℕ) : ℕ :=
  (blockSize - blockHeaderSize) / (fragmentSize + fragHeaderSize)

/-- The marker of a valid block: `900D`, not followed by `BAAD`. -/
def blockValidMarker : List UInt8 := [0x90, 0x0D]

/-- What `BlockValid(false)` writes at offset 2. -/
def blockInvalidMarker : List UInt8 := [0xBA, 0xAD]

/-- `BlockValid::from_bytes` -/
def blockValid (bytes : List UInt8) : Bool := bytes == [0x90, 0x0D, 0xFF, 0xFF]

/-- `BlockHeader`; the reserved bytes are left out. -/
structure BlockHeader where
  objectId : ℕ
  fragSize : ℕ
  firstFragNo : ℕ
  objectVersion : ℕ
  id : ℕ
  fragCount : ℕ
deriving DecidableEq, Repr

namespace BlockHeader

/-- `first_frag_no.wrapping_add(fragment_count - 1)` -/
def lastFragment (h : BlockHeader) : ℕ := wrappingAdd h.firstFragNo (h.fragCount - 1)

/-- `try_new`: fails if no fragment fits into the block. -/
def tryNew (blockSize blockId objectId objectVersion fragSize firstFragNo : ℕ) :
    Option BlockHeader :=
  let fragCount := calculateFragmentsPerBlock blockSize fragSize
  if fragCount = 0 then none
  else some ⟨objectId, fragSize, firstFragNo, objectVersion, blockId, fragCount⟩

def fromBytes (blockSize id : ℕ) (bytes : List UInt8) : Option BlockHeader :=
  if blockValid (bytes.take 4) then
    tryNew blockSize id (ofLeBytes ((bytes.drop 4).take 2)) (bytes.getD 12 0).toNat
      (ofLeBytes ((bytes.drop 6).take 2)) (ofLeBytes ((bytes.drop 8).take 4))
  else none

/-- `as_bytes`: the valid marker is not serialized, it is written separately. -/
def asBytes (h : BlockHeader) : List UInt8 :=
  List.replicate 4 0xFF ++ leBytes 2 h.objectId ++ leBytes 2 h.fragSize ++ leBytes 4 h.firstFragNo ++
    leBytes 1 h.objectVersion ++ List.replicate 3 0xFF

def headersTotalSize (h : BlockHeader) : ℕ := blockHeaderSize + h.fragCount * fragHeaderSize

/-- The index of a fragment in its block, `frag_no.wrapping_sub(first_frag_no)`. -/
def relFragNo (h : BlockHeader) (fragNo : ℕ) : ℕ := wrappingSub fragNo h.firstFragNo

end BlockHeader

inductive FragmentStatus
  | empty
  | invalid
  | valid
  | obsolete
deriving DecidableEq, Repr

namespace FragmentStatus

/-- `FragmentStatus::as_byte`: where the marker of a status is written in the fragment header. -/
def asByte : FragmentStatus → Option (ℕ × UInt8)
  | empty => none
  | invalid => some (0, 0xD1)
  | valid => some (1, 0xDC)
  | obsolete => some (2, 0x55)

/-- `FragmentStatus::from` a fragment header -/
def ofHeader (header : List UInt8) : FragmentStatus :=
  if header = [0xFF, 0xFF, 0xFF] then empty
  else if header = [0xD1, 0xDC, 0xFF] then valid
  else if header.getD 2 0 = 0x55 then obsolete
  else invalid

end FragmentStatus

/-! ### Errors -/

inductive FlashError
  | blockOutOfBounds
  | flash (e : NorFlashErrorKind)
deriving DecidableEq, Repr

inductive FlashReadErrorKind
  | fragmentEmpty
  | fragmentInvalid
  | fragmentObsolete
  | fragmentNotFound
  | blockInvalid
  | blockOutOfBounds
  | flash
deriving DecidableEq, Repr

inductive FlashReadError
  | read (kind : FlashReadErrorKind)
  | flash (e : NorFlashErrorKind)
deriving DecidableEq, Repr

inductive FlashWriteErrorKind
  | fragmentNotFound
  | blockInvalid
  | fragmentInvalid
  | fragmentObsolete
  | fragmentExists
  | fragmentTooLarge
  | verifyFailed
  | blockOutOfBounds
  | flash
deriving DecidableEq, Repr

inductive FlashWriteError
  | write (kind : FlashWriteErrorKind)
  | flash (e : NorFlashErrorKind)
deriving DecidableEq, Repr

/-- The error of `fragment_status` -/
def FlashError.toRead : FlashError → FlashReadError
  | blockOutOfBounds => .read .blockOutOfBounds
  | flash e => .flash e

/-- The error of `fragment_status_pre_write` -/
def FlashError.toWrite : FlashError → FlashWriteError
  | blockOutOfBounds => .write .blockOutOfBounds
  | flash e => .flash e

/-- The error of the readback in `verify_fragment` -/
def FlashReadError.toVerify : FlashReadError → FlashWriteError
  | read _ => .write .verifyFailed
  | flash e => .flash e

/-! ### The block device -/

/-- `BlockDevice` over a flash of `capacity` bytes whose erase size is `blockSize`, as
`writeable_from` checks. A block has room for its header, and addresses are `u32`. -/
structure BlockDevice where
  blockSize : ℕ
  capacity : ℕ
  header_le : blockHeaderSize ≤ blockSize
  capacity_lt : capacity < 2 ^ 32

namespace BlockDevice

variable (dev : BlockDevice)

def blocksTotal : ℕ := dev.capacity / dev.blockSize

/-- `block_addr`, none where it is out of bounds. -/
def blockAddr (blockId : ℕ) : Option ℕ :=
  if dev.blocksTotal < blockId then none else some (blockId * dev.blockSize)

/-- `block_addr(..)?` -/
def blockAddrOr {ε : Type} (e : ε) (blockId : ℕ) : Io ε ℕ :=
  match dev.blockAddr blockId with
  | none => Dev.throw e
  | some addr => pure addr

def blockHeader (blockId : ℕ) : Io FlashError (Option BlockHeader) := do
  let offset ← dev.blockAddrOr .blockOutOfBounds blockId
  let buffer ← Dev.mapErr .flash (read dev.capacity offset blockHeaderSize)
  pure (BlockHeader.fromBytes dev.blockSize blockId buffer)

/-- `try_get_fragment_status`: none if the fragment is not in this block. -/
def tryGetFragmentStatus (block : BlockHeader) (fragNo : ℕ) : Io FlashError (Option FragmentStatus) :=
  if block.fragCount ≤ block.relFragNo fragNo then pure none
  else do
    let blockAddr ← dev.blockAddrOr .blockOutOfBounds block.id
    let headerOffset := blockHeaderSize + fragHeaderSize * block.relFragNo fragNo
    let buffer ← Dev.mapErr .flash (read dev.capacity (blockAddr + headerOffset) fragHeaderSize)
    pure (some (FragmentStatus.ofHeader buffer))

def fragmentStatus (block : BlockHeader) (fragNo : ℕ) : Io FlashReadError FragmentStatus := do
  match ← Dev.mapErr FlashError.toRead (dev.tryGetFragmentStatus block fragNo) with
  | some status => pure status
  | none => Dev.throw (.read .fragmentNotFound)

def fragmentStatusPreWrite (block : BlockHeader) (fragNo : ℕ) : Io FlashWriteError FragmentStatus := do
  match ← Dev.mapErr FlashError.toWrite (dev.tryGetFragmentStatus block fragNo) with
  | some status => pure status
  | none => Dev.throw (.write .fragmentNotFound)

/-- `read_raw_fragment` into a buffer of `resultLen` bytes: what is read of it. -/
def readRawFragment (block : BlockHeader) (fragNo offset resultLen : ℕ) :
    Io FlashReadError (List UInt8) :=
  if block.fragCount ≤ block.relFragNo fragNo then Dev.throw (.read .fragmentNotFound)
  else do
    let len := min resultLen (block.fragSize - offset)
    let dataOffset := block.headersTotalSize + block.relFragNo fragNo * block.fragSize + offset
    let blockAddr ← dev.blockAddrOr (.read .blockOutOfBounds) block.id
    Dev.mapErr .flash (read dev.capacity (blockAddr + dataOffset) len)

def readFragmentAtOffset (block : BlockHeader) (fragNo offset resultLen : ℕ) :
    Io FlashReadError (List UInt8) := do
  match ← dev.fragmentStatus block fragNo with
  | .empty => Dev.throw (.read .fragmentEmpty)
  | .invalid => Dev.throw (.read .fragmentInvalid)
  | .obsolete => Dev.throw (.read .fragmentObsolete)
  | .valid => dev.readRawFragment block fragNo offset resultLen

def readFragment (block : BlockHeader) (fragNo resultLen : ℕ) : Io FlashReadError (List UInt8) :=
  dev.readFragmentAtOffset block fragNo 0 resultLen

/-- `CHUNK_SIZE` of `verify_fragment` -/
def verifyChunkSize : ℕ := 128

/-- The loop of `verify_fragment` over the chunks of the expected data. -/
def verifyChunks (block : BlockHeader) (fragNo : ℕ) : ℕ → List (List UInt8) → Io FlashWriteError Bool
  | _, [] => pure true
  | chunkNo, expected :: chunks => do
    let readback ← Dev.mapErr FlashReadError.toVerify
      (dev.readRawFragment block fragNo (chunkNo * verifyChunkSize) expected.length)
    if readback = expected then verifyChunks block fragNo (chunkNo + 1) chunks else pure false

def verifyFragment (block : BlockHeader) (fragNo : ℕ) (expectedData : List UInt8) :
    Io FlashWriteError Bool :=
  dev.verifyChunks block fragNo 0 (chunks verifyChunkSize expectedData)

/-- The loop of `block_is_empty` over the fragments of the block. -/
def isEmptyLoop (block : BlockHeader) : List ℕ → Io FlashReadError Bool
  | [] => pure true
  | relFrag :: rels => do
    if (← dev.fragmentStatus block (wrappingAdd block.firstFragNo relFrag)) = .empty then
      isEmptyLoop block rels
    else pure false

def blockIsEmpty (block : BlockHeader) : Io FlashReadError Bool :=
  dev.isEmptyLoop block (List.range block.fragCount)

/-- The loop of `block_find_valid_fragment`. -/
def findValidLoop (block : BlockHeader) : List ℕ → Io FlashReadError (Option ℕ)
  | [] => pure none
  | relFrag :: rels => do
    let fragNo := wrappingAdd block.firstFragNo relFrag
    if (← dev.fragmentStatus block fragNo) = .valid then pure (some fragNo)
    else findValidLoop block rels

def blockFindValidFragment (block : BlockHeader) : Io FlashReadError (Option ℕ) :=
  dev.findValidLoop block (List.range block.fragCount)

/-- `block_is_valid` -/
def blockIsValid (blockId : ℕ) : Io FlashError Bool := do
  let offset ← dev.blockAddrOr .blockOutOfBounds blockId
  let buffer ← Dev.mapErr .flash (read dev.capacity offset 4)
  pure (blockValid buffer)

def formatBlock (blockId objectId objectVersion fragSize firstFragNo : ℕ) :
    Io FlashWriteError Unit := do
  let blockAddr ← dev.blockAddrOr (.write .blockOutOfBounds) blockId
  -- 1. mark the block as invalid; an error is ignored on purpose
  let _ ← Dev.attempt (write dev.capacity (blockAddr + 2) blockInvalidMarker)
  -- 2. erase
  Dev.mapErr .flash (erase dev.blockSize dev.capacity blockAddr (blockAddr + dev.blockSize))
  -- 3. the header without its marker
  match BlockHeader.tryNew dev.blockSize blockId objectId objectVersion fragSize firstFragNo with
  | none => Dev.throw (.write .fragmentTooLarge)
  | some header => do
    Dev.mapErr .flash (write dev.capacity (blockAddr + 4) (header.asBytes.drop 4))
    -- 4. mark the block as valid
    Dev.mapErr .flash (write dev.capacity blockAddr blockValidMarker)

/-- Writing the marker of a status into a fragment header. -/
def writeMarker (fragHeaderAddr : ℕ) (status : FragmentStatus) : Io FlashWriteError Unit :=
  match status.asByte with
  | none => pure ()
  | some (markerOffset, marker) =>
    Dev.mapErr .flash (write dev.capacity (fragHeaderAddr + markerOffset) [marker])

def writeFragment (block : BlockHeader) (fragNo : ℕ) (data : List UInt8) :
    Io FlashWriteError Unit :=
  if block.fragSize < data.length then Dev.throw (.write .fragmentTooLarge)
  else do
    let blockAddr ← dev.blockAddrOr (.write .blockOutOfBounds) block.id
    let relFragNo := block.relFragNo fragNo
    if block.fragCount ≤ relFragNo then Dev.throw (.write .fragmentNotFound)
    else match ← dev.fragmentStatusPreWrite block fragNo with
      | .invalid => Dev.throw (.write .fragmentInvalid)
      | .obsolete => Dev.throw (.write .fragmentObsolete)
      | .valid => Dev.throw (.write .fragmentExists)
      | .empty => do
        -- 1. mark the fragment as incomplete
        let fragHeaderAddr := blockAddr + (blockHeaderSize + fragHeaderSize * relFragNo)
        dev.writeMarker fragHeaderAddr .invalid
        -- 2. the data
        let dataOffset := block.headersTotalSize + relFragNo * block.fragSize
        Dev.mapErr .flash (write dev.capacity (blockAddr + dataOffset) data)
        -- 3. read back and verify
        if !(← dev.verifyFragment block fragNo data) then Dev.throw (.write .verifyFailed)
        -- 4. mark the fragment as valid
        else dev.writeMarker fragHeaderAddr .valid

def deleteFragment (block : BlockHeader) (fragNo : ℕ) : Io FlashWriteError Unit := do
  let blockAddr ← dev.blockAddrOr (.write .blockOutOfBounds) block.id
  let relFragNo := block.relFragNo fragNo
  if block.fragCount ≤ relFragNo then Dev.throw (.write .fragmentNotFound)
  else match ← dev.fragmentStatusPreWrite block fragNo with
    -- no point in also marking it
    | .invalid => pure ()
    | .obsolete => pure ()
    | .empty => dev.writeMarker (blockAddr + (blockHeaderSize + fragHeaderSize * relFragNo)) .obsolete
    | .valid => dev.writeMarker (blockAddr + (blockHeaderSize + fragHeaderSize * relFragNo)) .obsolete

end BlockDevice

/-- A flash of four blocks, for samples -/
def smallDevice : BlockDevice := ⟨32, 128, by decide, by decide⟩

end SensorLink.Flash
