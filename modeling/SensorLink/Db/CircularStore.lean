import SensorLink.Db.Database

/-!
# Circular buffers: `storage/flash_db/circular_store.rs`

A circular is a sequence of fragments with increasing sequence numbers, each in a place that its number
determines. The block of a fragment is formatted when its first fragment is written. After a restart
`find_circular_range` finds out which sequence numbers are in use.
-/

namespace SensorLink.Db

open SensorLink.Lib SensorLink.Flash

/-- The trait `Circular`. -/
structure Circular extends Object where
  overwriteOnFull : Bool
  autoFormat : Bool
deriving DecidableEq, Repr

/-- `CircularRange`: the first valid fragment, and the first one to be written. -/
structure CircularRange where
  start : ℕ
  stop : ℕ
deriving DecidableEq, Repr

inductive FindFail
  | notFound (block : BlockHeader)
  | corrupt (block : BlockHeader)
  | other (e : Error)
deriving DecidableEq, Repr

/-- `From<FindFail>` -/
def FindFail.toError : FindFail → Error
  | notFound _ => .fragmentNotFound
  | corrupt _ => .corrupt
  | other e => e

/-- `fragment_gte`: `large >= small`. -/
def fragmentGte (large small : ℕ) : Bool := wrappingSub large small < maxFragmentsPerObject

section Find

variable (dev : BlockDevice) (c : Circular)

/-- `find_block_no_for_seq_no` -/
def findBlockNoForSeqNo (seqNo : ℕ) : ℕ :=
  c.blocksStart + seqNo % c.fragmentCount dev.blockSize / c.fragmentsPerBlock dev.blockSize

/-- `find_block_for_seq_no` -/
def findBlockForSeqNo (seqNo : ℕ) : Io FindFail (Option BlockHeader) := do
  match ← Dev.mapErr (fun e => .other (Error.ofFlash e))
      (dev.blockHeader (findBlockNoForSeqNo dev c seqNo)) with
  | none => pure none
  | some block =>
    if c.id ≠ block.objectId then Dev.throw (.corrupt block)
    else if c.fragmentSize ≠ block.fragSize then Dev.throw (.corrupt block)
    -- the block may hold the fragment of another round
    else if seqNo ≠ wrappingAdd block.firstFragNo (seqNo % c.fragmentsPerBlock dev.blockSize) then
      Dev.throw (.notFound block)
    else pure (some block)

end Find

/-! ### The range in use -/

/-- What the fragments of a block say about it. -/
inductive BlockKind
  | noData
  | data
  | empty
deriving DecidableEq, Repr

/-- The blocks found so far: the lowest and the highest that may hold data, the lowest empty one, and
the highest of all. -/
structure Scan where
  data : Option (BlockHeader × BlockHeader)
  firstEmpty : Option BlockHeader
  highest : Option BlockHeader

namespace Scan

/-- `get_or_insert_with` the block, and then keep the lower one. -/
def lower (block : BlockHeader) : Option BlockHeader → BlockHeader
  | none => block
  | some old => if fragmentGte block.firstFragNo old.firstFragNo then old else block

/-- `get_or_insert_with` the block, and then keep the higher one. -/
def higher (block : BlockHeader) : Option BlockHeader → BlockHeader
  | none => block
  | some old => if fragmentGte block.firstFragNo old.firstFragNo then block else old

def add (s : Scan) (block : BlockHeader) (kind : BlockKind) : Scan where
  data := if kind = .data then
      some (lower block (s.data.map Prod.fst), higher block (s.data.map Prod.snd))
    else s.data
  firstEmpty := if kind = .empty then some (lower block s.firstEmpty) else s.firstEmpty
  highest := some (higher block s.highest)

end Scan

section Range

variable (dev : BlockDevice) (c : Circular)

/-- The loop over the fragments of a block from the last one on, until one is not invalid. -/
def blockKindLoop (block : BlockHeader) : List ℕ → Io Error BlockKind
  | [] => pure .noData
  | offset :: offsets => do
    match ← Dev.mapErr Error.ofRead
        (dev.fragmentStatus block (wrappingSub block.lastFragment offset)) with
    | .invalid => blockKindLoop block offsets
    | .valid => pure .data
    -- deleted in increasing order
    | .obsolete => pure .noData
    -- written in increasing order: look at the first fragment
    | .empty => do
      let first ← Dev.mapErr Error.ofRead (dev.fragmentStatus block block.firstFragNo)
      if first = .empty then pure .empty else pure .data

def blockKind (block : BlockHeader) : Io Error BlockKind :=
  blockKindLoop dev block (List.range block.fragCount)

/-- The linear scan. Blocks with a foreign layout are ignored. -/
def scanLoop : List ℕ → Scan → Io Error Scan
  | [], scan => pure scan
  | blockId :: blockIds, scan => do
    match ← Dev.mapErr Error.ofFlash (dev.blockHeader blockId) with
    | none => scanLoop blockIds scan
    | some block =>
      if block.objectId ≠ c.id ∨ block.fragSize ≠ c.fragmentSize then scanLoop blockIds scan
      else do
        let kind ← blockKind dev block
        scanLoop blockIds (scan.add block kind)

/-- From `seqNo` on, the first fragment whose status stops the search. -/
def searchLoop (stops : FragmentStatus → Bool) (block : BlockHeader) : ℕ → ℕ → Io Error ℕ
  | 0, seqNo => pure seqNo
  | k + 1, seqNo => do
    let status ← Dev.mapErr Error.ofRead (dev.fragmentStatus block seqNo)
    if stops status then pure seqNo else searchLoop stops block k (wrappingAdd seqNo 1)

/-- The first valid fragment, or an empty one which means that there is no data. -/
def firstSeqNo (read : BlockHeader) : Io Error ℕ :=
  searchLoop dev (fun s => s = .empty ∨ s = .valid) read read.fragCount read.firstFragNo

/-- The first empty fragment, or the first one of the next block. -/
def lastSeqNo (write : BlockHeader) : Io Error ℕ :=
  searchLoop dev (fun s => s = .empty) write write.fragCount write.firstFragNo

def rangeOf (scan : Scan) : Io Error CircularRange :=
  match scan.data, scan.firstEmpty, scan.highest with
  | some (readBlock, writeBlock), _, _ => do
    let first ← firstSeqNo dev readBlock
    let last ← lastSeqNo dev writeBlock
    pure ⟨first, last⟩
  | none, some empty, _ => pure ⟨empty.firstFragNo, empty.firstFragNo⟩
  | none, none, some highest =>
    let toBeErased := wrappingAdd highest.firstFragNo highest.fragCount
    pure ⟨toBeErased, toBeErased⟩
  | none, none, none => pure ⟨0, 0⟩

/-- `find_circular_range` -/
def findCircularRange : Io Error CircularRange := do
  let scan ← scanLoop dev c (List.range' c.blocksStart (c.blocksEnd - 1 - c.blocksStart))
    ⟨none, none, none⟩
  rangeOf dev scan

end Range

/-! ### Reading, writing and deleting -/

section Store

variable (dev : BlockDevice) (c : Circular)

/-- `read_circular_fragment_at_offset` into a buffer of `len` bytes -/
def readCircularFragmentAtOffset (fragNo len offset : ℕ) : Io Error (List UInt8) := do
  match ← Dev.mapErr FindFail.toError (findBlockForSeqNo dev c fragNo) with
  | none => Dev.throw .fragmentNotReadable
  | some block => Dev.mapErr Error.ofRead (dev.readFragmentAtOffset block fragNo offset len)

/-- `read_circular_fragment` -/
def readCircularFragment (fragNo len : ℕ) : Io Error (List UInt8) :=
  readCircularFragmentAtOffset dev c fragNo len 0

/-- The block to write the fragment to, none if it has to be formatted. -/
def blockToWrite (fragNo : ℕ) : Io Error (Option BlockHeader) := do
  match ← Dev.attempt (findBlockForSeqNo dev c fragNo) with
  | .ok block => pure block
  | .error (.notFound block) =>
    -- only erase a block if it may be overwritten or has no data
    if c.overwriteOnFull then pure none
    else do
      match ← Dev.mapErr Error.ofRead (dev.blockFindValidFragment block) with
      | none => pure none
      | some _ => Dev.throw .noSpaceAvailable
  | .error (.corrupt _) => if c.autoFormat then pure none else Dev.throw .corrupt
  | .error (.other e) => Dev.throw e

/-- The second attempt, after formatting the block. -/
def writeFormatted (fragNo : ℕ) (bytes : List UInt8) : Io Error Unit := do
  match ← blockToWrite dev c fragNo with
  | some block => Dev.mapErr Error.ofWrite (dev.writeFragment block fragNo bytes)
  | none => Dev.throw .fragmentNotWriteable

/-- `write_circular_fragment` -/
def writeCircularFragment (fragNo : ℕ) (bytes : List UInt8) : Io Error Unit := do
  match ← blockToWrite dev c fragNo with
  | some block => Dev.mapErr Error.ofWrite (dev.writeFragment block fragNo bytes)
  | none =>
    -- a block is only formatted for its first fragment
    if fragNo % c.fragmentsPerBlock dev.blockSize ≠ 0 then Dev.throw .fragmentNotWriteable
    else do
      formatFor dev c.toObject (findBlockNoForSeqNo dev c fragNo) 0xFF fragNo
      writeFormatted dev c fragNo bytes

/-- `delete_circular_fragment` -/
def deleteCircularFragment (fragNo : ℕ) : Io Error Unit := do
  match ← Dev.mapErr FindFail.toError (findBlockForSeqNo dev c fragNo) with
  | none => pure ()
  | some block => Dev.mapErr Error.ofWrite (dev.deleteFragment block fragNo)

end Store

end SensorLink.Db
