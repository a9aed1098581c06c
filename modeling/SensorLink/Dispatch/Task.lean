import SensorLink.Dispatch.Serialize
import SensorLink.Stream.World

/-!
# The dispatch task of `logic/dispatch.rs`

The task stores what comes in, hands stored items to the network task and answers barrier requests. It is
a machine that makes one step for each call of the store, each packet that is flushed, each signal and each
future that `select3` finds ready; between any two of these steps the network task may confirm or drop an
upload, and a barrier may be requested. The answers of the flash, of the serializer and of the upload
channel are choices of the step. A call on a stream that is not initialized takes two steps, the first of
which initializes it.

For the statements the machine remembers which items were stored and which packets were flushed, and gives
each request a number, to tell which requests a reply answers.
-/

namespace SensorLink.Dispatch

open SensorLink.Lib SensorLink.Flash SensorLink.Db SensorLink.Stream

/-! ### `storage/dispatch_store.rs` -/

/-- The two streams of a `StreamPairStore` -/
inductive Source
  | event
  | data
deriving DecidableEq

/-- What the dispatch task is wired to: the streams, the checksum, and the lengths of the buffers that
events and data are read into. -/
structure Config where
  dev : BlockDevice
  circular : Source → RingBuffer dev
  crc : List UInt8 → UInt32
  bufferLen : Source → ℕ

/-- A stream store with its handles, and the sequence numbers that `enqueue` has returned -/
structure StreamState where
  peek : Peek.World maxPeeks
  initDone : Bool
  stored : List ℕ

namespace StreamState

variable (cfg : Config) (src : Source)

def store (st : StreamState) : StreamStore := ⟨st.peek.queue, st.initDone⟩

/-- A new stream store -/
def start : StreamState where
  peek := .start (StreamStore.new cfg.dev (cfg.circular src).toCircular).queue
  initDone := (StreamStore.new cfg.dev (cfg.circular src).toCircular).initDone
  stored := []

/-- A handle is confirmed or dropped. -/
def settle (st : StreamState) (n : ℕ) (success : Bool) : StreamState :=
  let k := st.peek.handles.idxOf n
  { st with peek := st.peek.exec (if success then .confirm k else .drop k) }

/-- `initialize` -/
def opened (st : StreamState) : Io Empty (StreamState × Except Error Unit) := do
  let (store, result) ← initializeStore cfg.dev (cfg.circular src).toCircular st.store
  let peek := if store.initDone then st.peek.exec (.reinit store.queue.existingRange) else st.peek
  pure ({ st with peek := { peek with queue := store.queue }, initDone := store.initDone }, result)

/-- `store_event` and `store_sensor_data` on an initialized stream -/
def enqueue (st : StreamState) (data : List UInt8) : Io Empty (StreamState × Except Error ℕ) := do
  let (store, result) ←
    enqueueInitialized cfg.dev (cfg.circular src).toCircular cfg.crc st.store data
  let peek :=
    if store.queue.writeIndex = st.peek.queue.writeIndex then st.peek else st.peek.exec .enqueue
  let stored := match result with
    | .ok n => n :: st.stored
    | .error _ => st.stored
  pure (⟨{ peek with queue := store.queue }, store.initDone, stored⟩, result)

/-- `peek_event` and `peek_sensor_data` on an initialized stream; an item that is too short for a topic
header is skipped. -/
def peekNext (st : StreamState) :
    Io Empty (StreamState × Except Error (Option (List UInt8 × ℕ))) := do
  let (store, peeked) ←
    peekInitialized cfg.dev (cfg.circular src).toCircular cfg.crc st.store (cfg.bufferLen src)
  let st := { st with
    peek := { peeked.use.exec (st.peek.exec .peekNext) with queue := store.queue }
    initDone := store.initDone }
  match peeked.result with
  | .ok (some (data, n)) =>
    if cfg.bufferLen src < data.length ∨ data.length < topicHeaderSize then
      pure (st.settle n true, .error .fragmentNotReadable)
    else pure (st, .ok (some (data, n)))
  | .ok none => pure (st, .ok none)
  | .error e => pure (st, .error e)

/-- `is_drained` of an initialized stream -/
def isDrained (st : StreamState) : Io Empty (StreamState × Except Error Bool) :=
  pure ({ st with peek := st.peek.exec .isDrained }, .ok st.peek.queue.isDrained.1)

/-- `wait_confirmation`, once a message is there -/
def waitConfirmation (st : StreamState) : StreamState :=
  { st with peek := st.peek.exec .waitConfirmation }

end StreamState

/-! ### The task -/

/-- `Confirmable`: an item, with its handle if it has one -/
structure Confirmable where
  inner : List UInt8
  confirmHandle : Option ℕ
deriving DecidableEq

/-- Where the task is -/
inductive Phase
  /-- at the peek of a stream; the peek of the events is the head of the loop -/
  | peek (src : Source)
  /-- in the loop that flushes buffered data -/
  | flush (flushed : Bool)
  /-- at the store of an item that was flushed or that came in -/
  | store (src : Source) (item : List UInt8) (flushing : Bool)
  /-- at `is_drained` of a stream -/
  | check (src : Source)
  /-- at the signal `DispatchDrained` -/
  | reply
  /-- at the signal `DispatchQueueEmpty` -/
  | queueEmpty
  /-- in `select3`, where the future that transmits may still send something, or waits -/
  | select (transmitting : Bool)
  /-- power is lost -/
  | off
deriving DecidableEq

/-- The fates of the flash operations of a call -/
structure Fates where
  plan : List Fate
  readPlan : List Bool

/-- The dispatch task, its store, and the uploads that the network task has -/
structure DispatchTask where
  mem : Mem
  streams : Source → StreamState
  /-- `Pending` -/
  pending : Source → Option Confirmable
  uploads : List (Source × Confirmable)
  phase : Phase
  storeRetry : Bool
  /-- the flag of the `DispatchBarrier` -/
  requested : Bool
  barrierActive : Bool
  /-- the number of requests -/
  requests : ℕ
  /-- the requests that set the flag -/
  flagged : List ℕ
  /-- the requests that the task has taken and not replied to -/
  waiting : List ℕ
  /-- the requests that each reply answers -/
  replies : List (List ℕ)
  /-- the packets that were flushed for a barrier: their sequence number, or none if it was not stored -/
  flushed : List (Option ℕ)

/-- `request` and `settle` are by other tasks; `settle k` is about the `k`-th upload. `alloc` is whether
the pool has room for a pending item. -/
inductive Act
  | request
  | settle (k : ℕ) (success : Bool)
  | call (fates : Fates) (alloc : Bool)
  | flush (packet : Option (List UInt8))
  | signal
  /-- an event or data to be stored, or an error -/
  | incoming (src : Source) (item : Option (List UInt8))
  | takeRequest
  | confirmation (src : Source)
  | transmit (sent : Bool)
  | timeout

namespace DispatchTask

variable (cfg : Config)

def start (mem : Mem) : DispatchTask where
  mem := mem
  streams := StreamState.start cfg
  pending _ := none
  uploads := []
  phase := .peek .event
  storeRetry := false
  requested := false
  barrierActive := false
  requests := 0
  flagged := []
  waiting := []
  replies := []
  flushed := []

/-- The head of the loop -/
def loopHead (s : DispatchTask) : DispatchTask := { s with phase := .peek .event, storeRetry := false }

def setStream (s : DispatchTask) (src : Source) (st : StreamState) : DispatchTask :=
  { s with streams := Function.update s.streams src st }

/-- A `Confirmable` goes out of scope, confirmed or not. -/
def settleItem (s : DispatchTask) (src : Source) (item : Confirmable) (success : Bool) : DispatchTask :=
  match item.confirmHandle with
  | none => s
  | some n => s.setStream src ((s.streams src).settle n success)

/-- `PendWriter::write`, on an empty slot -/
def write (s : DispatchTask) (src : Source) (item : Confirmable) (alloc : Bool) : DispatchTask :=
  if alloc then { s with pending := Function.update s.pending src (some item) }
  else s.settleItem src item false

/-- `Pending::overwrite`: the old item is dropped. -/
def overwrite (s : DispatchTask) (src : Source) (data : List UInt8) (alloc : Bool) : DispatchTask :=
  if alloc then
    let s' := { s with pending := Function.update s.pending src (some ⟨data, none⟩) }
    match s.pending src with
    | none => s'
    | some item => s'.settleItem src item false
  else s

/-- The phase behind the peeks -/
def afterPeeks (s : DispatchTask) : DispatchTask :=
  if (s.pending .event).isNone ∧ (s.pending .data).isNone then
    if s.barrierActive then { s with phase := .flush false } else { s with phase := .queueEmpty }
  else { s with phase := .select true }

/-- The phase behind the peek of a stream -/
def afterPeek (s : DispatchTask) : Source → DispatchTask
  | .event => { s with phase := .peek .data }
  | .data => s.afterPeeks

/-- The phase behind the store of an item, which has got a sequence number if it was stored -/
def afterStore (s : DispatchTask) (flushing : Bool) (seqNo : Option ℕ) : DispatchTask :=
  if flushing then { s with phase := .flush true, flushed := seqNo :: s.flushed } else s.loopHead

/-- A program on a stream: the flash and the stream after it, and its result; or the power is lost. -/
def runOn {α : Type} (s : DispatchTask) (src : Source) (fates : Fates)
    (p : StreamState → Io Empty (StreamState × α)) (k : α → DispatchTask → DispatchTask) :
    DispatchTask :=
  match (p (s.streams src)).run ⟨s.mem, fates.plan, fates.readPlan⟩ with
  | .ok (st, result) d => k result { s.setStream src st with mem := d.mem }
  | .err e _ => e.elim
  | .off d => { s with mem := d.mem, phase := .off }

/-- A call on a stream, with what follows on its result. -/
def call {α : Type} (s : DispatchTask) (src : Source) (fates : Fates)
    (p : StreamState → Io Empty (StreamState × Except Error α))
    (k : Except Error α → DispatchTask → DispatchTask) : DispatchTask :=
  if (s.streams src).initDone then s.runOn src fates p k
  else
    s.runOn src fates (StreamState.opened cfg src) fun result s =>
      match result with
      | .ok _ => s
      | .error e => k (.error e) s

/-- The peek of a stream, if there is nothing to send yet -/
def peekStep (s : DispatchTask) (src : Source) (fates : Fates) (alloc : Bool) : DispatchTask :=
  if (s.pending .event).isNone ∧ (s.pending src).isNone then
    s.call cfg src fates (StreamState.peekNext cfg src) fun result s =>
      match result with
      | .ok (some (data, n)) => (s.write src ⟨data, some n⟩ alloc).afterPeek src
      | .ok none => s.afterPeek src
      | .error _ => { s with storeRetry := true }.afterPeek src
  else s.afterPeek src

/-- `process_event` and `process_sensor_data` -/
def storeStep (s : DispatchTask) (src : Source) (item : List UInt8) (flushing : Bool) (fates : Fates)
    (alloc : Bool) : DispatchTask :=
  s.call cfg src fates (StreamState.enqueue cfg src · item) fun result s =>
    match result with
    | .ok n => s.afterStore flushing (some n)
    -- try to send it to the network anyways
    | .error _ => (s.overwrite src item alloc).afterStore flushing none

/-- `is_drained` of a stream: the data is asked only if the events are drained. -/
def checkStep (s : DispatchTask) (src : Source) (fates : Fates) : DispatchTask :=
  s.call cfg src fates StreamState.isDrained fun result s =>
    match result with
    | .ok true => match src with
      | .event => { s with phase := .check .data }
      | .data => { s with phase := .reply }
    | _ => { s with phase := .queueEmpty }

/-- `try_transmit`: an event is sent before data. -/
def transmitStep (s : DispatchTask) (sent : Bool) : DispatchTask :=
  let transmitItem (src : Source) (item : Confirmable) (rest : DispatchTask → DispatchTask) :=
    let s := { s with pending := Function.update s.pending src none }
    if sent then rest { s with uploads := s.uploads ++ [(src, item)] }
    else { s.settleItem src item false with phase := .select false }
  match s.pending .event, s.pending .data with
  | some item, none => transmitItem .event item loopHead
  | some item, some _ => transmitItem .event item id
  | none, some item => transmitItem .data item loopHead
  | none, none => s

/-- The network task is done with an upload. -/
def settleUpload (s : DispatchTask) (k : ℕ) (success : Bool) : DispatchTask :=
  match s.uploads[k]? with
  | none => s
  | some (src, item) => { s with uploads := s.uploads.eraseIdx k }.settleItem src item success

/-- `signal_out.send` -/
def signalStep (s : DispatchTask) : DispatchTask :=
  match s.phase with
  | .reply =>
    { s with
      barrierActive := false
      waiting := []
      replies := s.replies ++ [s.waiting]
      phase := .queueEmpty }
  | .queueEmpty => { s with phase := .select true }
  | _ => s

/-- The future that resolves in `select3` -/
def selectStep (s : DispatchTask) (transmitting : Bool) : Act → DispatchTask
  | .incoming src (some item) => { s with phase := .store src item false }
  | .incoming _ none => s.loopHead
  | .takeRequest =>
    if s.requested then
      { s with
        requested := false
        barrierActive := true
        flagged := []
        waiting := s.waiting ++ s.flagged }.loopHead
    else s
  | .confirmation src =>
    if (s.streams src).peek.queue.confirmChannel ≠ [] then
      (s.setStream src (s.streams src).waitConfirmation).loopHead
    else s
  | .transmit sent => if transmitting then s.transmitStep sent else s
  -- a failed upload and a failed read are retried after a delay
  | .timeout =>
    if !transmitting ∨ (s.pending .event).isNone ∧ (s.pending .data).isNone ∧ s.storeRetry then
      s.loopHead
    else s
  | _ => s

/-- One step; an act that is not possible where the task is changes nothing. -/
def exec (s : DispatchTask) (act : Act) : DispatchTask :=
  match s.phase, act with
  | .off, _ => s
  | _, .request =>
    { s with
      requested := true
      requests := s.requests + 1
      flagged := s.flagged ++ [s.requests] }
  | _, .settle k success => s.settleUpload k success
  | .peek src, .call fates alloc => s.peekStep cfg src fates alloc
  | .flush _, .flush (some packet) => { s with phase := .store .data packet true }
  | .flush flushed, .flush none => if flushed then s.loopHead else { s with phase := .check .event }
  | .store src item flushing, .call fates alloc => s.storeStep cfg src item flushing fates alloc
  | .check src, .call fates _ => s.checkStep cfg src fates
  | .select transmitting, act => s.selectStep transmitting act
  | _, .signal => s.signalStep
  | _, _ => s

end DispatchTask

/-! ### Samples -/

def dispatchDevice : BlockDevice := ⟨60, 600, by decide, by decide⟩

def dispatchCircular (src : Source) : Circular where
  id := match src with
    | .event => 1
    | .data => 2
  fragmentSize := 16
  blocksStart := match src with
    | .event => 0
    | .data => 5
  blocksEnd := match src with
    | .event => 5
    | .data => 10
  capacity := 0
  overwriteOnFull := false
  autoFormat := false

/-- Circulars of four data blocks with two fragments each, for items of up to ten bytes -/
def dispatchRing (src : Source) : RingBuffer dispatchDevice :=
  { dispatchCircular src with
    id_lt := by cases src <;> decide
    fragmentSize_pos := by cases src <;> decide
    fragmentSize_lt := by cases src <;> decide
    two_blocks := by cases src <;> decide
    blocks_le := by cases src <;> decide
    fits := by cases src <;> decide }

def dispatchConfig : Config := ⟨dispatchDevice, dispatchRing, crc32Cksum, fun _ => 10⟩

/-- The task after some acts on a flash -/
def dispatchRun (mem : Mem) (acts : List Act) : DispatchTask :=
  acts.foldl (DispatchTask.exec dispatchConfig) (.start dispatchConfig mem)

/-- A call without faults -/
def callOk : Act := .call ⟨[], []⟩ true

def packet : List UInt8 := [1, 2, 3, 4, 5, 6, 7, 8]

/-- Both streams are opened, and nothing is there to be sent. -/
def idleActs : List Act := [callOk, callOk, callOk, callOk, .signal]

/-- The flash of events of which the next is the last but one of `u32` -/
def lastEventsMem : Mem :=
  let write n := writeCircularFragment dispatchDevice (dispatchRing .event).toCircular n
    (frame crc32Cksum packet)
  let delete n := deleteCircularFragment dispatchDevice (dispatchRing .event).toCircular n
  let program : Io Error Unit := do
    write (2 ^ 32 - 4)
    write (2 ^ 32 - 3)
    delete (2 ^ 32 - 4)
    delete (2 ^ 32 - 3)
  match program.eval fun _ => erased with
  | .ok _ mem => mem
  | .err _ mem => mem
  | .off mem => mem

/-- An event comes in and is stored; it or an earlier one is then pending. -/
def storeEventActs : List Act := [.incoming .event (some packet), callOk, callOk, callOk]

/-- The pending item is sent, and the next one read. -/
def transmitActs : List Act := [.transmit true, callOk, callOk]

end SensorLink.Dispatch
