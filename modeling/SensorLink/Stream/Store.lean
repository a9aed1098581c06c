import SensorLink.Db.CircularStore
import SensorLink.Lib.Bytes
import SensorLink.Peek.Model

/-!
# Streams: `storage/common/stream_store.rs`

A stream is a circular whose fragments hold items of any length, with a header of their length and their
CRC, and a queue in RAM that knows which sequence numbers are in use. The queue is set up from the flash
by the first operation after a start.

The operations end with a result or an error, and in either case with a store, unless power is lost. A
handle is its sequence number. The checksum of the `crc` crate is a parameter.
-/

namespace SensorLink.Stream

open SensorLink.Lib SensorLink.Flash SensorLink.Db

def lenOverheadBytes : ℕ := 2

def crcOverheadBytes : ℕ := 4

def streamOverheadBytes : ℕ := lenOverheadBytes + crcOverheadBytes

/-- `MAX_PEEKS` -/
abbrev maxPeeks : ℕ := 5

instance : NeZero maxPeeks := ⟨by decide⟩

/-- `StreamStore`, without the database and the circular, which do not change. -/
structure StreamStore where
  queue : Peek.Queue maxPeeks
  initDone : Bool

/-- What `peek_next` does with the handle it got from the queue: it is returned (if there is one),
confirmed, or dropped. -/
inductive HandleUse
  | keep
  | confirm
  | drop
deriving DecidableEq, Repr

/-- The result of `peek_next`, with what became of the handle. -/
structure Peeked where
  result : Except Error (Option (List UInt8 × ℕ))
  use : HandleUse

/-- The handle is consumed by `peek_next`. -/
def HandleUse.settle (use : HandleUse) (queue : Peek.Queue maxPeeks) (seqNo : ℕ) :
    Peek.Queue maxPeeks :=
  match use with
  | keep => queue
  | confirm => queue.settle seqNo true
  | drop => queue.settle seqNo false

section Store

variable (dev : BlockDevice) (c : Circular)

/-- `StreamStore::new` -/
def StreamStore.new : StreamStore where
  queue := Peek.Queue.withOverwriteSupport maxPeeks (c.fragmentCount dev.blockSize)
    (c.fragmentsPerBlock dev.blockSize)
  initDone := false

/-- `initialize`; `initialize_writeable_circular_store` does nothing. -/
def initializeStore (s : StreamStore) : Io Empty (StreamStore × Except Error Unit) :=
  if s.initDone then pure (s, .ok ())
  else do
    match ← Dev.attempt (findCircularRange dev c) with
    | .error e => pure (s, .error e)
    | .ok range =>
      pure (⟨s.queue.reinitWithExistingRange (range.start, range.stop), true⟩, .ok ())

/-- The loop of `peek_next` that deletes what was confirmed, with `k` iterations left. -/
def cleanup : ℕ → ℕ → Io Error Unit
  | 0, _ => pure ()
  | k + 1, oldestFragment => do
    match ← Dev.attempt (deleteCircularFragment dev c oldestFragment) with
    | .ok _ => cleanup k (wrappingAdd oldestFragment 1)
    -- erased by a circular overwrite
    | .error .fragmentNotFound => cleanup k (wrappingAdd oldestFragment 1)
    | .error e => Dev.throw e

variable (crc : List UInt8 → UInt32)

/-- `[length: u16][crc32: u32][data: variable]` -/
def frame (data : List UInt8) : List UInt8 :=
  leBytes lenOverheadBytes data.length ++ leBytes crcOverheadBytes (crc data).toNat ++ data

/-- The part of `peek_next` that reads an item, into a buffer of `bufferLen` bytes. -/
def readItem (seqNo bufferLen : ℕ) : Io Empty (Except Error (List UInt8) × HandleUse) := do
  match ← Dev.attempt (readCircularFragment dev c seqNo streamOverheadBytes) with
  | .error e =>
    if e = .flash ∨ e = .invalidObject then pure (.error e, .drop) else pure (.error e, .confirm)
  | .ok header =>
    let headerBuffer := header ++ List.replicate (streamOverheadBytes - header.length) 0
    let dataLen := ofLeBytes (headerBuffer.take lenOverheadBytes)
    let dataCrc := ofLeBytes (headerBuffer.drop lenOverheadBytes)
    if bufferLen < dataLen then pure (.error .bufferTooSmall, .confirm)
    else do
      match ← Dev.attempt (readCircularFragmentAtOffset dev c seqNo dataLen streamOverheadBytes) with
      | .error e => pure (.error e, .confirm)
      | .ok data =>
        if dataLen ≠ data.length ∨ dataCrc ≠ (crc data).toNat then
          pure (.error .fragmentNotReadable, .confirm)
        else pure (.ok data, .keep)

/-- `peek_next` of a store that is initialized. -/
def peekInitialized (s : StreamStore) (bufferLen : ℕ) : Io Empty (StreamStore × Peeked) := do
  let oldestFragment := s.queue.existingRange.1
  let (peekResult, queue) := s.queue.peekNext
  let range := queue.existingRange
  match ← Dev.attempt (cleanup dev c (wrappingSub range.1 oldestFragment) oldestFragment), peekResult with
  | .error e, .ok seqNo =>
    pure (⟨HandleUse.drop.settle queue seqNo, s.initDone⟩, ⟨.error e, .drop⟩)
  | .error e, .error _ => pure (⟨queue, s.initDone⟩, ⟨.error e, .keep⟩)
  | .ok _, .error _ => pure (⟨queue, s.initDone⟩, ⟨.ok none, .keep⟩)
  | .ok _, .ok seqNo => do
    let (result, use) ← readItem dev c crc seqNo bufferLen
    pure (⟨use.settle queue seqNo, s.initDone⟩, ⟨result.map fun data => some (data, seqNo), use⟩)

/-- `peek_next` -/
def peekNext (s : StreamStore) (bufferLen : ℕ) : Io Empty (StreamStore × Peeked) := do
  match ← initializeStore dev c s with
  | (s, .error e) => pure (s, ⟨.error e, .keep⟩)
  | (s, .ok _) => peekInitialized dev c crc s bufferLen

/-- `enqueue` of a store that is initialized. -/
def enqueueInitialized (s : StreamStore) (data : List UInt8) :
    Io Empty (StreamStore × Except Error ℕ) :=
  let seqNo := s.queue.writableSeqNo
  if c.fragmentSize - streamOverheadBytes < data.length then pure (s, .error .fragmentTooLarge)
  -- `prefixed_data` has room for a block
  else if dev.blockSize < (frame crc data).length then pure (s, .error .fragmentTooLarge)
  else do
    match ← Dev.attempt (writeCircularFragment dev c seqNo (frame crc data)) with
    | .ok _ =>
      match s.queue.enqueue with
      | (.ok _, queue) => pure (⟨queue, s.initDone⟩, .ok seqNo)
      | (.error _, queue) => pure (⟨queue, s.initDone⟩, .error .noSpaceAvailable)
    | .error e =>
      -- the fragment cannot be written: the next item gets another sequence number
      if e = .fragmentNotWriteable ∨ e = .fragmentExists then
        pure (⟨s.queue.enqueue.2, s.initDone⟩, .error e)
      else pure (s, .error e)

/-- `enqueue` -/
def enqueue (s : StreamStore) (data : List UInt8) : Io Empty (StreamStore × Except Error ℕ) := do
  match ← initializeStore dev c s with
  | (s, .error e) => pure (s, .error e)
  | (s, .ok _) => enqueueInitialized dev c crc s data

/-- `is_drained` -/
def isDrained (s : StreamStore) : Io Empty (StreamStore × Except Error Bool) := do
  match ← initializeStore dev c s with
  | (s, .error e) => pure (s, .error e)
  | (s, .ok _) => pure (⟨s.queue.isDrained.2, s.initDone⟩, .ok s.queue.isDrained.1)

/-- `wait_confirmation` -/
def waitConfirmation (s : StreamStore) : StreamStore := { s with queue := s.queue.waitConfirmation }

end Store

end SensorLink.Stream
