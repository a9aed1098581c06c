import Mathlib.Data.Fintype.Basic
import Mathlib.Data.Fin.Basic
import SensorLink.Lib.Wrap

/-!
# The peek queue of `storage/common/queue.rs`

The bookkeeping of a persistent queue: `PeekQueue` hands out sequence numbers to at most `MAX_PEEKS`
readers at a time and hears back from them through a channel of confirmations, `Queue` adds the
write index and the circular overwrite. `u32` values are natural numbers below `2 ^ 32`; a plain `+`
of the source is `wrappingAdd`, which is what it is in the release build. The two statistics counters
of `PeekQueue` are left out, since nothing reads them.
-/

namespace SensorLink.Peek

open SensorLink.Lib

/-- `queue::Error` -/
inductive Error
  | queueFull
deriving DecidableEq, Repr

/-- What a handle sends to its queue. -/
structure Confirm where
  id : ℕ
  success : Bool
deriving DecidableEq, Repr

inductive ReadState
  /-- slot available for a new reader -/
  | none
  /-- reader busy, waits for its confirm or abort -/
  | busy (n : ℕ)
  /-- read aborted, to be retried -/
  | abort (n : ℕ)
deriving DecidableEq, Repr

inductive ReadBlocked
  | busy
  | empty
  | unknown
deriving DecidableEq, Repr

/-- `PeekQueue`, with `M = MAX_PEEKS` slots. `bugs` counts how often `update` took the arm that logs
`BUG: ignore confirm`. -/
structure PeekQueue (M : ℕ) where
  readIndexMin : ℕ
  readIndexNext : ℕ
  readerSlots : Fin M → ReadState
  slotIndex : Fin M
  bugs : ℕ

variable {M : ℕ} [NeZero M]

/-- The slot of a sequence number: `N % MAX_PEEKS`. -/
def slotOf (M : ℕ) [NeZero M] (n : ℕ) : Fin M := Fin.ofNat M n

namespace PeekQueue

def new (M : ℕ) [NeZero M] (readIndexMin : ℕ) : PeekQueue M where
  readIndexMin := readIndexMin
  readIndexNext := readIndexMin
  readerSlots := fun _ => .none
  slotIndex := slotOf M readIndexMin
  bugs := 0

def minIndex (q : PeekQueue M) : ℕ := q.readIndexMin

/-- `bump_min_index`: indices below `min` are obsolete, whatever the active readers do. -/
def bumpMinIndex (q : PeekQueue M) (min : ℕ) : PeekQueue M :=
  let skipped := wrappingSub min q.readIndexMin
  let readersActive := wrappingSub q.readIndexNext q.readIndexMin
  if readersActive < skipped then { q with readIndexMin := min, readIndexNext := min }
  else { q with readIndexMin := min }

def isInBounds (q : PeekQueue M) (seqNo : ℕ) : Bool :=
  if M < wrappingSub seqNo q.minIndex then false
  else if M < wrappingSub q.readIndexNext seqNo then false
  else true

def setSlot (q : PeekQueue M) (i : Fin M) (s : ReadState) : PeekQueue M :=
  { q with readerSlots := Function.update q.readerSlots i s }

/-- `update`: the state of the slot after an incoming confirmation. -/
def update (q : PeekQueue M) (confirm : Confirm) : PeekQueue M :=
  let slot := slotOf M confirm.id
  if q.readerSlots slot = .busy confirm.id then
    q.setSlot slot (if confirm.success then .none else .abort confirm.id)
  -- not busy, or busy with another sequence number: "BUG: ignore confirm"
  else { q with bugs := q.bugs + 1 }

/-- Circular increase to the next slot. -/
def incSlotIndex (q : PeekQueue M) : PeekQueue M :=
  { q with slotIndex := Fin.ofNat M (if M ≤ q.slotIndex.val + 1 then 0 else q.slotIndex.val + 1) }

/-- `read_index_min - (read_index_min % MAX_PEEKS) + slot_id` -/
def slotSeqNo (q : PeekQueue M) (slotId : Fin M) : ℕ :=
  wrappingAdd (q.readIndexMin - q.readIndexMin % M) slotId.val

/-- The part of an empty slot's iteration that moves the indices: the next slot, and the lower bound
when this slot is its own and its item was issued. -/
def passEmptySlot (q : PeekQueue M) : PeekQueue M :=
  let slotId := q.slotIndex
  let q' := q.incSlotIndex
  if q'.slotSeqNo slotId = q'.readIndexMin ∧ q'.slotSeqNo slotId ≠ q.readIndexNext then
    { q' with readIndexMin := wrappingAdd q'.readIndexMin 1 }
  else q'

/-- One iteration of the loop of `find_reader`: its result if it returns, and the queue after it. -/
def findStep (q : PeekQueue M) (writeIndex : ℕ) :
    Option (Except ReadBlocked ℕ) × PeekQueue M :=
  let slotId := q.slotIndex
  match q.readerSlots slotId with
  -- still busy: try again later, do not skip ahead
  | .busy _ => (some (.error .busy), q)
  | .none =>
    let allocIndex := q.readIndexNext
    let q' := q.passEmptySlot
    if allocIndex = writeIndex then
      -- nothing new to read, but there may be something to retry
      if q'.minIndex ≠ writeIndex then (none, q') else (some (.error .empty), q')
    else if slotId = slotOf M allocIndex then
      (some (.ok allocIndex),
        { q'.setSlot slotId (.busy allocIndex) with readIndexNext := wrappingAdd allocIndex 1 })
    else (none, q')
  | .abort index =>
    if q.isInBounds index then
      (some (.ok index), q.incSlotIndex.setSlot slotId (.busy index))
    -- out of range: cannot be retried, the next iteration tries to allocate in this slot
    else (none, q.setSlot slotId .none)

/-- The loop of `find_reader` with `k` iterations left. -/
def findLoop (writeIndex : ℕ) : ℕ → PeekQueue M → Except ReadBlocked ℕ × PeekQueue M
  | 0, q => (.error .unknown, q)
  | k + 1, q =>
    match q.findStep writeIndex with
    | (some r, q') => (r, q')
    | (none, q') => findLoop writeIndex k q'

def findReader (q : PeekQueue M) (writeIndex : ℕ) : Except ReadBlocked ℕ × PeekQueue M :=
  findLoop writeIndex (2 * M) q

/-- The `match` of `is_drained` on one slot. -/
def slotDrained (q : PeekQueue M) : ReadState → Bool
  | .none => true
  | .busy _ => false
  | .abort index => !q.isInBounds index

def isDrained (q : PeekQueue M) (writeIndex : ℕ) : Bool :=
  if q.readIndexNext ≠ writeIndex then false
  else decide (∀ i, q.slotDrained (q.readerSlots i) = true)

end PeekQueue

/-- `Queue`; `confirmChannel` holds the messages of the channel, oldest first. -/
structure Queue (M : ℕ) where
  capacity : ℕ
  overwriteGranularity : ℕ
  writeIndex : ℕ
  readers : PeekQueue M
  confirmChannel : List Confirm

/-- `try_send` on a channel of capacity `M`; what it returns is discarded by both callers. -/
def trySend (M : ℕ) (channel : List Confirm) (c : Confirm) : List Confirm :=
  if channel.length < M then channel ++ [c] else channel

/-- `checked_next_multiple_of` on `u32`. -/
def checkedNextMultipleOf (a b : ℕ) : Option ℕ :=
  if b = 0 then none
  else
    let r := a % b
    if r = 0 then some a
    else if a + (b - r) < 2 ^ 32 then some (a + (b - r)) else none

namespace Queue

def withOverwriteSupport (M : ℕ) [NeZero M] (capacity overwriteGranularity : ℕ) : Queue M where
  capacity := if capacity < 2 ^ 32 then capacity else 2 ^ 32 - 1
  overwriteGranularity := if overwriteGranularity < 2 ^ 32 then overwriteGranularity else 2 ^ 32 - 1
  writeIndex := 0
  readers := PeekQueue.new M 0
  confirmChannel := []

/-- Without overwrite: `usize::MAX` on the 32-bit target is the capacity. -/
def new (M : ℕ) [NeZero M] : Queue M := withOverwriteSupport M (2 ^ 32 - 1) 1

/-- `reinit_with_existing_range`; the channel and its messages stay. -/
def reinitWithExistingRange (q : Queue M) (range : ℕ × ℕ) : Queue M :=
  { q with writeIndex := range.2, readers := PeekQueue.new M range.1 }

/-- `update_reader_slots`: process all confirmations. -/
def updateReaderSlots (q : Queue M) : Queue M :=
  { q with readers := q.confirmChannel.foldl PeekQueue.update q.readers, confirmChannel := [] }

/-- `wait_confirmation`, once a message is there; on an empty channel it keeps waiting. -/
def waitConfirmation (q : Queue M) : Queue M :=
  match q.confirmChannel with
  | [] => q
  | c :: rest => { q with readers := q.readers.update c, confirmChannel := rest }

/-- `unconfirmed_count` -/
def unconfirmedCount (q : Queue M) : ℕ := wrappingSub q.writeIndex q.readers.minIndex

/-- `existing_range` -/
def existingRange (q : Queue M) : ℕ × ℕ := (q.readers.minIndex, q.writeIndex)

/-- The lower bound that `enqueue` sets after an overwrite. -/
def erasedUntil (q : Queue M) : ℕ :=
  wrappingSub ((checkedNextMultipleOf q.writeIndex q.overwriteGranularity).getD 0) q.capacity

def enqueue (q : Queue M) : Except Error ℕ × Queue M :=
  let index := q.writeIndex
  if q.unconfirmedCount = 2 ^ 32 - 1 then (.error .queueFull, q)
  else
    let q' := { q with writeIndex := wrappingAdd index 1 }
    -- more than full: part of the store was erased by the circular overwrite
    if q'.capacity < q'.unconfirmedCount then
      (.ok index, { q' with readers := q'.readers.bumpMinIndex q'.erasedUntil })
    else (.ok index, q')

def writableSeqNo (q : Queue M) : ℕ := q.writeIndex

def isDrained (q : Queue M) : Bool × Queue M :=
  let q' := q.updateReaderSlots
  (q'.readers.isDrained q'.writeIndex, q')

/-- `peek_next`; the handle it returns is its sequence number. -/
def peekNext (q : Queue M) : Except ReadBlocked ℕ × Queue M :=
  if q.unconfirmedCount = 0 then (.error .empty, q)
  else
    let q' := q.updateReaderSlots
    match q'.readers.findReader q'.writeIndex with
    | (r, readers) => (r, { q' with readers := readers })

/-- `ConfirmHandle::confirm` and `try_abort` (the drop of a handle that was not confirmed). -/
def settle (q : Queue M) (id : ℕ) (success : Bool) : Queue M :=
  { q with confirmChannel := trySend M q.confirmChannel ⟨id, success⟩ }

end Queue

end SensorLink.Peek
