import SensorLink.Peek.Trace
import SensorLink.Stream.Spec

/-!
# A stream and its handles

The flash, the stream store in RAM, the handles that are alive, and the calls that may come in any
order, each with the fates of its flash operations. A loss of power, like a reboot, leaves the flash and
a new stream store; the first call after it sets up the queue from the flash (`opened`).

For the statements the world also remembers which items were accepted and confirmed, those whose enqueue
was cut by a loss of power, and what was delivered since the last start.
-/

namespace SensorLink.Stream

open SensorLink.Lib SensorLink.Flash SensorLink.Db RingBuffer

variable {dev : BlockDevice}

structure StreamWorld where
  mem : Mem
  /-- the queue with its handles -/
  peek : Peek.World maxPeeks
  initDone : Bool
  /-- the items whose enqueue has returned `Ok`, the last one for each sequence number -/
  accepted : ℕ → Option (List UInt8)
  /-- the items whose enqueue was cut since then -/
  cut : ℕ → List (List UInt8)
  /-- the sequence numbers of which a handle was confirmed since they were accepted -/
  confirmed : List ℕ
  /-- what `peek_next` has returned since the start, newest first -/
  delivered : List ℕ
  /-- a `peek_next` has returned a flash error since the start -/
  failed : Bool

/-- `confirm k` and `drop k` are about the `k`-th live handle. -/
inductive StreamCall
  | enqueue (data : List UInt8) (plan : List Fate)
  | peekNext (bufferLen : ℕ) (plan : List Fate)
  | confirm (k : ℕ)
  | drop (k : ℕ)
  | waitConfirmation
  | reboot

/-- The fates of the flash operations of a call. -/
def StreamCall.plan : StreamCall → List Fate
  | enqueue _ plan => plan
  | peekNext _ plan => plan
  | _ => []

/-- What `peek_next` does with the last handle. -/
def HandleUse.exec (use : HandleUse) (w : Peek.World maxPeeks) : Peek.World maxPeeks :=
  match use with
  | keep => w
  | confirm => w.exec (.confirm (w.handles.length - 1))
  | drop => w.exec (.drop (w.handles.length - 1))

namespace StreamWorld

variable (c : RingBuffer dev) (crc : List UInt8 → UInt32)

def store (s : StreamWorld) : StreamStore := ⟨s.peek.queue, s.initDone⟩

/-- A new stream store on the flash. -/
def rebooted (s : StreamWorld) (mem : Mem) : StreamWorld :=
  { s with
    mem := mem
    peek := .start (StreamStore.new dev c.toCircular).queue
    initDone := (StreamStore.new dev c.toCircular).initDone
    delivered := []
    failed := false }

/-- The world when the stream store has been initialized. -/
def opened (s : StreamWorld) : StreamWorld :=
  if s.initDone then s
  else
    match (initializeStore dev c.toCircular s.store).eval s.mem with
    | .ok (store, _) _ => { s with peek := .start store.queue, initDone := store.initDone }
    | _ => s

/-- After a call of `enqueue` with its result. -/
def enqueued (s : StreamWorld) (data : List UInt8) (store : StreamStore) (result : Except Error ℕ)
    (mem : Mem) : StreamWorld :=
  let w := if store.queue.writeIndex = s.peek.queue.writeIndex then s.peek else s.peek.exec .enqueue
  let s' := { s with mem := mem, peek := { w with queue := store.queue }, initDone := store.initDone }
  match result with
  | .error _ => s'
  | .ok n => { s' with
      accepted := Function.update s.accepted n (some data)
      cut := Function.update s.cut n []
      confirmed := s.confirmed.filter fun k => k ≠ n }

/-- After a call of `peek_next` with its result. -/
def peeked (s : StreamWorld) (store : StreamStore) (peeked : Peeked) (mem : Mem) : StreamWorld :=
  { s with
    mem := mem
    peek := { peeked.use.exec (s.peek.exec .peekNext) with queue := store.queue }
    initDone := store.initDone
    delivered :=
      match peeked.result with
      | .ok (some (_, n)) => n :: s.delivered
      | _ => s.delivered
    failed :=
      match peeked.result with
      | .error .flash => true
      | _ => s.failed }

def exec (s : StreamWorld) : StreamCall → StreamWorld
  | .enqueue data plan =>
    match (enqueue dev c.toCircular crc s.store data).run ⟨s.mem, plan, []⟩ with
    | .ok (store, result) d => (s.opened c).enqueued data store result d.mem
    | .err e _ => e.elim
    | .off d =>
      let n := (s.opened c).peek.queue.writeIndex
      { s.rebooted c d.mem with cut := Function.update s.cut n (data :: s.cut n) }
  | .peekNext bufferLen plan =>
    match (peekNext dev c.toCircular crc s.store bufferLen).run ⟨s.mem, plan, []⟩ with
    | .ok (store, result) d => (s.opened c).peeked store result d.mem
    | .err e _ => e.elim
    | .off d => s.rebooted c d.mem
  | .confirm k =>
    { s with
      peek := s.peek.exec (.confirm k)
      confirmed :=
        match s.peek.handles[k]? with
        | some n => n :: s.confirmed
        | none => s.confirmed }
  | .drop k => { s with peek := s.peek.exec (.drop k) }
  | .waitConfirmation => { s with peek := s.peek.exec .waitConfirmation }
  | .reboot => s.rebooted c s.mem

/-- A new stream store on a flash. -/
def start (mem : Mem) : StreamWorld where
  mem := mem
  peek := .start (StreamStore.new dev c.toCircular).queue
  initDone := false
  accepted := fun _ => none
  cut := fun _ => []
  confirmed := []
  delivered := []
  failed := false

/-- The sequence number of the next item, and with it the others of its block, do not wrap. -/
def NoWrap (s : StreamWorld) : Prop :=
  let n := (s.opened c).peek.queue.writeIndex
  n / c.perBlock * c.perBlock + c.perBlock < 2 ^ 32

end StreamWorld

/-- What the stream store reads of an item, with a buffer that is large enough for `data`. -/
def readBack (c : RingBuffer dev) (crc : List UInt8 → UInt32) (mem : Mem) (n len : ℕ) :
    Option (Except Error (List UInt8)) :=
  match (readItem dev c.toCircular crc n len).eval mem with
  | .ok (result, _) _ => some result
  | _ => none

/-- The item is stored: it is what the stream store reads. -/
def Stored (c : RingBuffer dev) (crc : List UInt8 → UInt32) (mem : Mem) (n : ℕ) (data : List UInt8) :
    Prop := readBack c crc mem n data.length = some (.ok data)

instance (c : RingBuffer dev) (crc : List UInt8 → UInt32) (mem : Mem) (n : ℕ) (data : List UInt8) :
    Decidable (Stored c crc mem n data) := inferInstanceAs (Decidable (_ = _))

/-! ### Samples -/

/-- One bit of the division by the polynomial of `CRC_32_CKSUM`. -/
def crcStep (crc : UInt32) : UInt32 :=
  if crc &&& 0x80000000 = 0 then crc <<< 1 else (crc <<< 1) ^^^ 0x04C11DB7

/-- `CRC_32_CKSUM` of the `crc` crate -/
def crc32Cksum (data : List UInt8) : UInt32 :=
  data.foldl (fun (crc : UInt32) (byte : UInt8) =>
    Nat.iterate crcStep 8 (crc ^^^ (byte.toUInt32 <<< 24))) 0 ^^^ 0xFFFFFFFF

def streamDevice : BlockDevice := ⟨40, 160, by decide, by decide⟩

def streamCircular (overwriteOnFull : Bool) : Circular where
  id := 1
  fragmentSize := 8
  blocksStart := 0
  blocksEnd := 3
  capacity := 0
  overwriteOnFull := overwriteOnFull
  autoFormat := false

/-- A circular of two data blocks with two fragments each, for items of up to two bytes. -/
def streamRing (overwriteOnFull : Bool) : RingBuffer streamDevice :=
  { streamCircular overwriteOnFull with
    id_lt := by cases overwriteOnFull <;> decide
    fragmentSize_pos := by cases overwriteOnFull <;> decide
    fragmentSize_lt := by cases overwriteOnFull <;> decide
    two_blocks := by cases overwriteOnFull <;> decide
    blocks_le := by cases overwriteOnFull <;> decide
    fits := by cases overwriteOnFull <;> decide }

/-- The world after some calls on an erased flash. -/
def streamRun (overwriteOnFull : Bool) (calls : List StreamCall) : StreamWorld :=
  calls.foldl (StreamWorld.exec (streamRing overwriteOnFull) crc32Cksum)
    (.start (streamRing overwriteOnFull) fun _ => erased)

end SensorLink.Stream
