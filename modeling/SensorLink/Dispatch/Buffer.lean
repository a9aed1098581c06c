import SensorLink.Lib.Reach
import SensorLink.Samples.UniformSamples

/-!
# The sample buffer of `logic/dispatch/buffer.rs`

Samples of any type `α` are collected in a `UniformSamples` and handed to a serializer. `none` is a call
that does not return: a panic of the `i64` arithmetic, or a loop of `push_data` that goes on for ever
(with more rounds than `fuel`). The sample interval `(1e6 / fs) as i64` is a parameter.
-/

namespace SensorLink.Dispatch

open SensorLink.Lib SensorLink.Samples

variable {α P : Type} {nAxes max : ℕ}

/-- `SampleData`; that its capacity is at most the one of the buffer is checked at compile time. -/
structure SampleData (α : Type) (nAxes max : ℕ) where
  capacity : ℕ
  capacity_le : capacity ≤ max
  t : Int64
  len : ℕ
  len_le : len ≤ capacity
  samples : Fin nAxes → Fin capacity → α
  tLast : Int64
  fs : UInt32

/-- `data.samples[i][..data.len]` -/
def SampleData.slice (data : SampleData α nAxes max) (i : Fin nAxes) : List α :=
  (List.ofFn (data.samples i)).take data.len

inductive BufferStatus where
  | ok
  | notContiguous
  | notEnoughSpace
  | notEnoughSpaceForNext
  | timeout
deriving DecidableEq

structure SerializingBuffer (α : Type) (nAxes max : ℕ) where
  sampleBuffer : UniformSamples α nAxes max
  lastTimestamp : Int64
  tDeltaUs : Int64
  timeoutUs : Int64

namespace SerializingBuffer

/-- `SerializingBuffer::empty` -/
def empty (interval : UInt32 → Int64) (fs : UInt32) (timeoutUs : Int64) :
    Option (SerializingBuffer α nAxes max) := do
  let tDeltaUs ← checkedI64 ((interval fs).toInt * 2)
  pure ⟨UniformSamples.empty fs, 0, tDeltaUs, timeoutUs⟩

def len (b : SerializingBuffer α nAxes max) : ℕ := b.sampleBuffer.len

def isEmpty (b : SerializingBuffer α nAxes max) : Bool := b.len = 0

def isFull (b : SerializingBuffer α nAxes max) : Bool := b.len = max

def clear (b : SerializingBuffer α nAxes max) : SerializingBuffer α nAxes max :=
  { b with sampleBuffer := UniformSamples.empty b.sampleBuffer.fs }

/-- `set_timeout` -/
def setTimeout (b : SerializingBuffer α nAxes max) (timeoutUs : Int64) :
    SerializingBuffer α nAxes max :=
  { b with timeoutUs := timeoutUs }

/-- The loop over the axes: the channels, and whether every slice fitted -/
def extendAxes (data : SampleData α nAxes max) :
    List (Fin nAxes) → (Fin nAxes → HVec α max) → Bool × (Fin nAxes → HVec α max)
  | [], ch => (true, ch)
  | i :: axes, ch =>
    match (ch i).extendFromSlice (data.slice i) with
    | none => (false, ch)
    | some vec => extendAxes data axes fun j => if j = i then vec else ch j

/-- The timestamps that an empty buffer takes from the data -/
def stamp (b : SerializingBuffer α nAxes max) (data : SampleData α nAxes max) :
    SerializingBuffer α nAxes max :=
  if b.isEmpty then
    { b with
      sampleBuffer := { b.sampleBuffer with t := data.t }
      lastTimestamp := data.tLast }
  else b

/-- `push` -/
def push (b : SerializingBuffer α nAxes max) (data : SampleData α nAxes max) :
    Option (BufferStatus × SerializingBuffer α nAxes max) :=
  if max < b.len + data.len then some (.notEnoughSpace, b)
  else do
    let b := b.stamp data
    let limit ← checkedI64 (b.lastTimestamp.toInt + b.tDeltaUs.toInt)
    if limit.toInt < data.t.toInt then some (.notContiguous, b)
    else
      let (fits, ch) := extendAxes data (List.finRange nAxes) b.sampleBuffer.ch
      let b := { b with sampleBuffer := { b.sampleBuffer with ch := ch } }
      if !fits then some (.notEnoughSpace, b)
      else do
        let b := { b with lastTimestamp := data.tLast }
        let dtUs ← checkedI64 (b.lastTimestamp.toInt - b.sampleBuffer.t.toInt)
        if b.timeoutUs.toInt < dtUs.toInt then some (.timeout, b)
        else if max < b.len + data.len then some (.notEnoughSpaceForNext, b)
        else some (.ok, b)

end SerializingBuffer

/-- `BufferResult` -/
inductive BufferResult (P : Type) where
  | dataAdded
  | serialized (packet : P)
  | serializationFailed
deriving DecidableEq

/-- The packet of the result -/
def BufferResult.packets : BufferResult P → List P
  | .serialized packet => [packet]
  | .dataAdded | .serializationFailed => []

/-- The result behind the loop of `push_data` -/
def BufferResult.ofPacket : Option P → BufferResult P
  | some packet => .serialized packet
  | none => .dataAdded

/-- `push_data`: the loop, with the packet serialized so far and the number of failed tries -/
def pushDataLoop (serialize : UniformSamples α nAxes max → Option P)
    (data : SampleData α nAxes max) :
    ℕ → Option P → ℕ → SerializingBuffer α nAxes max →
      Option (BufferResult P × SerializingBuffer α nAxes max)
  | 0, _, _, _ => none
  | fuel + 1, serializedPacket, numTries, buffer => do
    let (status, buffer) ← buffer.push data
    let (dataInserted, shouldSerialize) := match status with
      | .ok => (true, buffer.isFull)
      | .notContiguous | .notEnoughSpace => (false, true)
      | .notEnoughSpaceForNext | .timeout => (true, serializedPacket.isNone)
    if shouldSerialize then
      match serialize buffer.sampleBuffer with
      | some serialized =>
        if dataInserted then some (.serialized serialized, buffer.clear)
        else pushDataLoop serialize data fuel (some serialized) numTries buffer.clear
      | none =>
        if 1 ≤ numTries then some (.serializationFailed, buffer.clear)
        else if dataInserted then some (.ofPacket serializedPacket, buffer.clear)
        else pushDataLoop serialize data fuel serializedPacket (numTries + 1) buffer.clear
    else some (.ofPacket serializedPacket, buffer)

/-- `push_data` -/
def pushData (serialize : UniformSamples α nAxes max → Option P) (fuel : ℕ)
    (buffer : SerializingBuffer α nAxes max) (data : SampleData α nAxes max) :
    Option (BufferResult P × SerializingBuffer α nAxes max) :=
  pushDataLoop serialize data fuel none 0 buffer

/-- `force_serialize` -/
def forceSerialize (serialize : UniformSamples α nAxes max → Option P)
    (buffer : SerializingBuffer α nAxes max) : Option P × SerializingBuffer α nAxes max :=
  if !buffer.isEmpty then (serialize buffer.sampleBuffer, buffer.clear) else (none, buffer)

/-! ### Runs -/

/-- A buffer manager, with the data pushed into it and the packets it returned -/
structure Manager (α P : Type) (nAxes max : ℕ) where
  buffer : SerializingBuffer α nAxes max
  pushed : List (SampleData α nAxes max)
  emitted : List P

inductive Op (α : Type) (nAxes max : ℕ) where
  | pushData (data : SampleData α nAxes max)
  | forceSerialize
  | setTimeout (timeoutUs : Int64)

/-- One call. A serializer that never fails is a function; a call that does not return in two rounds
leaves the run in `none`. -/
def Manager.exec (serialize : UniformSamples α nAxes max → P) (s : Option (Manager α P nAxes max))
    (op : Op α nAxes max) : Option (Manager α P nAxes max) := do
  let s ← s
  match op with
  | .pushData data =>
    let (result, buffer) ← pushData (fun u => some (serialize u)) 2 s.buffer data
    pure ⟨buffer, s.pushed ++ [data], s.emitted ++ result.packets⟩
  | .forceSerialize =>
    let (packet, buffer) := forceSerialize (fun u => some (serialize u)) s.buffer
    pure ⟨buffer, s.pushed, s.emitted ++ packet.toList⟩
  | .setTimeout timeoutUs => pure { s with buffer := s.buffer.setTimeout timeoutUs }

end SensorLink.Dispatch
