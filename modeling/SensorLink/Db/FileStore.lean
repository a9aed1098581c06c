import SensorLink.Db.Database

/-!
# Files: `storage/flash_db/file_store.rs`

A file is read and written as a whole or in fragments. A handle carries the object version that its
blocks must have. A result buffer is given by its length, and what is read into it is the result.
-/

namespace SensorLink.Db

open SensorLink.Lib SensorLink.Flash

/-- The lengths of the pieces of `bytes.chunks_mut(n)` for a buffer of `len` bytes. -/
def chunkLengths (n len : ℕ) : List ℕ := (chunks n (List.replicate len ())).map List.length

section FileStore

variable (dev : BlockDevice) (o : Object)

/-- `file_handle`: the version of the handle. -/
def fileHandle : Io Error ℕ := do
  match ← lockStatus dev o with
  | .unlocked version => pure version
  | .locked => Dev.throw .fileNotReadable

/-- `file.capacity() - fragment_index as usize * file.fragment_size()`, on 32-bit words -/
def maxCapacityRemaining (fragmentIndex : ℕ) : ℕ :=
  wrappingSub o.capacity (fragmentIndex * o.fragmentSize)

def blockNoOf (fragmentIndex : ℕ) : ℕ :=
  o.blocksStart + fragmentIndex / o.fragmentsPerBlock dev.blockSize

/-- `read_file_fragment` of a handle with the given version, into a buffer of `len` bytes. -/
def readFileFragment (version fragmentIndex len : ℕ) : Io Error (List UInt8) :=
  if o.fragmentCount dev.blockSize ≤ fragmentIndex then Dev.throw .noSpaceAvailable
  else do
    let len := min len (maxCapacityRemaining o fragmentIndex)
    let fragmentInBlock := fragmentIndex % o.fragmentsPerBlock dev.blockSize
    match ← Dev.mapErr Error.ofFlash (dev.blockHeader (blockNoOf dev o fragmentIndex)) with
    | none => Dev.throw .fragmentNotReadable
    | some block =>
      -- a block of a previous version of the file is as good as invalid
      let fragNo := wrappingAdd block.firstFragNo fragmentInBlock
      if block.objectVersion ≠ version then Dev.throw .fragmentNotReadable
      else Dev.mapErr Error.ofRead (dev.readFragment block fragNo len)

/-- The chunk of an iteration of `read_file`, where `bytes` is what was read so far. The data may be
smaller than the buffer, so empty fragments may exist. -/
def readFileChunk (version fragIndex chunk : ℕ) (bytes : List UInt8) : Io Error (List UInt8) := do
  match ← Dev.attempt (readFileFragment dev o version fragIndex chunk) with
  | .error .fragmentNotReadable => if 0 < bytes.length then pure [] else Dev.throw .fileNotReadable
  | .error e => Dev.throw e
  | .ok chunkRead => pure chunkRead

/-- The loop of `read_file`. -/
def readFileLoop (version : ℕ) : ℕ → List ℕ → List UInt8 → Io Error (List UInt8)
  | _, [], bytes => pure bytes
  | fragIndex, chunk :: chunks, bytes =>
    if o.fragmentCount dev.blockSize ≤ fragIndex then pure bytes
    else do
      let chunkRead ← readFileChunk dev o version fragIndex chunk bytes
      -- an empty fragment: do not read any further
      if chunkRead.length ≠ chunk then pure (bytes ++ chunkRead)
      else readFileLoop version (fragIndex + 1) chunks (bytes ++ chunkRead)

/-- `read_file` into a buffer of `len` bytes. -/
def readFile (len : ℕ) : Io Error (List UInt8) := do
  let version ← fileHandle dev o
  readFileLoop dev o version 0 (chunkLengths o.fragmentSize (min len o.capacity)) []

/-- `write_file_fragment` of a handle with the given version. -/
def writeFileFragment (version fragmentIndex : ℕ) (bytes : List UInt8) : Io Error Unit :=
  if o.fragmentCount dev.blockSize ≤ fragmentIndex then Dev.throw .noSpaceAvailable
  else if maxCapacityRemaining o fragmentIndex < bytes.length then Dev.throw .noSpaceAvailable
  else do
    let block ← prepareWriteableBlock dev o (blockNoOf dev o fragmentIndex) version
    let fragmentInBlock := fragmentIndex % o.fragmentsPerBlock dev.blockSize
    Dev.mapErr Error.ofWrite
      (dev.writeFragment block (wrappingAdd block.firstFragNo fragmentInBlock) bytes)

/-- `delete`: the version of the new handle. -/
def delete : Io Error ℕ := do
  deleteObject dev o .softVersion
  fileHandle dev o

/-- The loop of `write_file` over the chunks of the new contents. -/
def writeFileLoop (version : ℕ) : ℕ → List (List UInt8) → Io Error Unit
  | _, [] => pure ()
  | fragIndex, chunk :: chunks =>
    if o.fragmentCount dev.blockSize ≤ fragIndex then Dev.throw .noSpaceAvailable
    else do
      writeFileFragment dev o version fragIndex chunk
      writeFileLoop version (fragIndex + 1) chunks

/-- `write_file` -/
def writeFile (bytes : List UInt8) : Io Error Unit :=
  if o.capacity < bytes.length then Dev.throw .noSpaceAvailable
  else do
    lock dev o
    let version ← delete dev o
    writeFileLoop dev o version 0 (chunks o.fragmentSize bytes)
    unlock dev o version

end FileStore

end SensorLink.Db
