import Mathlib.Data.List.Basic
import SensorLink.Dma.Handoff
import SensorLink.Lib.Reach
import SensorLink.Lib.Tasks

/-!
# Transmitting with one-shot transfers

`Tx::write` and `Tx::flush` of `uartasync.rs` over the transfers of `dma/oneshot.rs`: the task that writes, the
control context, the handlers of the two interrupts, and the hardware. Each access to a static, a waker or a
register is a step, and a critical section is one step. The control context runs only where the task is
suspended or done; the task runs between any two steps of the control context, and the handlers preempt both.
-/

namespace SensorLink.Dma

open SensorLink.Lib

/-! ### The clock -/

/-- A channel of DMA1 -/
def DmaCh : Type := {n : ℕ // 1 ≤ n ∧ n ≤ 7}

instance : DecidableEq DmaCh := inferInstanceAs (DecidableEq {n : ℕ // 1 ≤ n ∧ n ≤ 7})

/-- The bit with which a channel votes -/
def DmaCh.bit (ch : DmaCh) : BitVec 8 := 1#8 <<< (ch.val - 1)

/-- `DMA1_CLK_HOLD`, and whether the clock is enabled -/
structure Clock where
  hold : BitVec 8
  on : Bool

/-- `dma1_clk_hold` -/
def Clock.dma1ClkHold (k : Clock) (ch : DmaCh) : Clock :=
  ⟨k.hold ||| ch.bit, k.on || k.hold == 0⟩

/-- `dma1_clk_release` -/
def Clock.dma1ClkRelease (k : Clock) (ch : DmaCh) : Clock :=
  ⟨k.hold &&& ~~~ch.bit, k.on && k.hold != ch.bit⟩

/-- The channel votes the clock on. -/
def Clock.held (k : Clock) (ch : DmaCh) : Bool := k.hold &&& ch.bit != 0

namespace Transmit

/-! ### The state -/

/-- The registers of the channel that are used. TCIE and TEIE are only written together; `mar` is how far the
engine is in the scratch. -/
structure Channel where
  en : Bool
  ie : Bool
  tcif : Bool
  teif : Bool
  ndtr : ℕ
  mar : ℕ

/-- The channel requests its interrupt. -/
def Channel.irq (c : Channel) : Bool := c.ie && (c.tcif || c.teif)

/-- `SuspendState` -/
inductive SuspendState
  | active
  | suspended
  | resuming
deriving DecidableEq

/-- The errors of the driver -/
inductive Error
  | overrun
  | suspended
deriving DecidableEq

/-- What the task does behind the drop of a transfer -/
inductive After
  | nextChunk
  | fail (error : Error)
  | cancelled
deriving DecidableEq

/-- The points of the task, each before an access: in `Tx::write` and `OneShot::write`; in its `poll_fn` with
`Transfer::poll`, suspended at `pending`; in the `drop` of the transfer; and in `Tx::flush`. -/
inductive Point
  | idle
  | begin
  | checkChunk
  | clearAbort
  | stage
  | hold
  | start
  | checkSuspended
  | registerTx
  | registerDma
  | flags
  | clearFlags
  | swapAbort
  | reenable
  | pending
  | stopping (step : StopStep)
  | dropping (step : StopStep) (after : After)
  | flushBegin
  | flushEnable
  | flushSuspended
  | flushRegister
  | flushTc
  | flushPending
deriving DecidableEq

/-- The points of the control context, in `suspend` -/
inductive Control
  | idle
  | abort
  | halt
  | wakeDma
  | deinit
  | wakeTx
deriving DecidableEq

/-- A call of `write` that has ended, with what went to the data register meanwhile. The future is dropped
where there is no result. A call is disturbed if a transfer fails or is to be aborted while it runs. -/
structure Outcome where
  words : List UInt8
  sent : List UInt8
  result : Option (Except Error ℕ)
  disturbed : Bool

/-- The channel with the clock and the scratch, the statics, the peripheral with its flag TC and TCIE, the
wakers, and the contexts. `words`, `total`, `sent` and `disturbed` belong to the current call of `write`,
`resumed` to that of `flush`: the peripheral was resumed meanwhile. -/
structure Uart where
  clock : Clock
  channel : Channel
  scratch : List UInt8
  oneshotAbort : Bool
  state : SuspendState
  ue : Bool
  tcie : Bool
  tc : Bool
  dmaWaker : Bool
  txWaker : Bool
  woken : Bool
  point : Point
  control : Control
  isr : Bool
  words : List UInt8
  total : ℕ
  sent : List UInt8
  disturbed : Bool
  resumed : Bool
  outcomes : List Outcome

/-- `TX_SCRATCH_LEN` -/
def txScratchLen : ℕ := 256

namespace Uart

/-- `UART::new`: suspended, with the channel configured -/
def new : Uart where
  clock := ⟨0, false⟩
  channel := ⟨false, false, false, false, 0, 0⟩
  scratch := List.replicate txScratchLen 0
  oneshotAbort := false
  state := .suspended
  ue := false
  tcie := false
  tc := true
  dmaWaker := false
  txWaker := false
  woken := false
  point := .idle
  control := .idle
  isr := false
  words := []
  total := 0
  sent := []
  disturbed := false
  resumed := false
  outcomes := []

variable (ch : DmaCh) (u : Uart)

/-- The chunk of `words.chunks(scratch_len)` whose turn it is -/
def chunk : List UInt8 := (u.words.drop u.total).take txScratchLen

/-- `DMA1_WAKERS[n - 1].wake()` -/
def wakeDma : Uart := { u with woken := AtomicWaker.wake u.dmaWaker u.woken }

/-- `tx_waker.wake()` -/
def wakeTx : Uart := { u with woken := AtomicWaker.wake u.txWaker u.woken }

/-- The call of `write` ends. -/
def finish (result : Option (Except Error ℕ)) : Uart :=
  { u with point := .idle, outcomes := u.outcomes ++ [⟨u.words, u.sent, result, u.disturbed⟩] }

/-! ### Registers of the channel -/

/-- The critical section of `start_oneshot`. A chunk fits into the 16 bits of NDTR. -/
def startOneshot : Uart :=
  { u with channel := ⟨true, true, false, false, u.chunk.length, 0⟩ }

/-- `clear_flags` -/
def clearFlags : Uart := { u with channel := { u.channel with tcif := false, teif := false } }

/-- A step of `RawChannel::stop`, and the next one -/
def stopStep : StopStep → Uart × Option StopStep
  | .hold => ({ u with clock := u.clock.dma1ClkHold ch }, some .clearEn)
  | .clearEn => ({ u with channel := { u.channel with en := false } }, some .waitHalt)
  | .waitHalt => (u, if u.channel.en then some .waitHalt else some .clearFlags)
  | .clearFlags => (u.clearFlags, some .release)
  | .release => ({ u with clock := u.clock.dma1ClkRelease ch }, none)

/-- A step of `RawChannel::cancel`, which clears TCIE and TEIE as well -/
def cancelStep : StopStep → Uart × Option StopStep
  | .clearEn => ({ u with channel := { u.channel with en := false, ie := false } }, some .waitHalt)
  | step => u.stopStep ch step

/-- `halt_if_clocked` -/
def haltIfClocked : Uart :=
  { u with channel := { u.channel with en := u.channel.en && !u.clock.held ch } }

/-! ### The task -/

/-- Behind the drop of the transfer -/
def afterDrop : After → Uart
  | .nextChunk => { u with point := .checkChunk, total := u.total + u.chunk.length }
  | .fail error => u.finish (some (.error error))
  | .cancelled => u.finish none

/-- The next step of the task. `empty` is what TXFE reads. -/
def stepTask (empty : Bool) : Uart :=
  match u.point with
  | .idle => u
  | .begin =>
    if u.words = [] then u.finish (some (.ok 0))
    else if u.state = .suspended then u.finish (some (.error .suspended))
    else { u with point := .checkChunk }
  | .checkChunk =>
    if u.chunk = [] then u.finish (some (.ok u.total))
    else if u.state = .suspended then u.finish (some (.error .suspended))
    else { u with point := .clearAbort }
  | .clearAbort => { u with oneshotAbort := false, point := .stage }
  | .stage => { u with scratch := u.chunk ++ u.scratch.drop u.chunk.length, point := .hold }
  | .hold => { u with clock := u.clock.dma1ClkHold ch, point := .start }
  | .start => { u.startOneshot with point := .checkSuspended }
  | .checkSuspended =>
    { u with point := if u.state = .suspended then .dropping .hold (.fail .suspended) else .registerTx }
  | .registerTx => { u with txWaker := true, point := .registerDma }
  | .registerDma => { u with dmaWaker := true, point := .flags }
  | .flags =>
    { u with
      point :=
        if u.channel.teif then .stopping .hold else if u.channel.tcif then .clearFlags else .swapAbort }
  | .clearFlags => { u.clearFlags with point := .dropping .hold .nextChunk }
  | .swapAbort =>
    { u with oneshotAbort := false, point := if u.oneshotAbort then .stopping .hold else .reenable }
  | .reenable => { u with channel := { u.channel with ie := true }, point := .pending }
  -- polled again
  | .pending => { u with woken := false, point := .checkSuspended }
  | .stopping step =>
    match u.stopStep ch step with
    | (u, some step) => { u with point := .stopping step }
    -- `TransferError` and `Aborted` both become `Overrun`
    | (u, none) => { u with point := .dropping .hold (.fail .overrun) }
  | .dropping step after =>
    match u.cancelStep ch step with
    | (u, some step) => { u with point := .dropping step after }
    | (u, none) => u.afterDrop after
  | .flushBegin => { u with point := if empty then .idle else .flushEnable }
  | .flushEnable => { u with tcie := true, point := .flushSuspended }
  | .flushSuspended => { u with point := if u.state = .suspended then .idle else .flushRegister }
  | .flushRegister => { u with txWaker := true, point := .flushTc }
  | .flushTc => if u.tc then { u with tcie := false, point := .idle } else { u with point := .flushPending }
  | .flushPending => { u with woken := false, point := .flushSuspended }

/-! ### The other contexts -/

inductive Request
  | suspend
  | resume
  | setBaudRate

/-- The abort is requested: `ONESHOT_ABORT` is set. -/
def requestAbort : Uart := { u with oneshotAbort := true, disturbed := true }

/-- A request to the control context. `init` resets the peripheral and clears TC. The baud rate is changed in a
critical section, to another one than before. -/
def request : Request → Uart
  | .suspend => if u.state = .active then { u with state := .suspended, control := .abort } else u
  | .resume =>
    if u.state = .suspended then
      { u with state := .resuming, ue := true, tcie := false, tc := false, resumed := true }
    else u
  | .setBaudRate => if u.state = .suspended then u else (u.requestAbort.haltIfClocked ch).wakeDma

/-- The next step of `suspend` -/
def stepControl : Uart :=
  match u.control with
  | .idle => u
  | .abort => { u.requestAbort with control := .halt }
  | .halt => { u.haltIfClocked ch with control := .wakeDma }
  | .wakeDma => { u.wakeDma with control := .deinit }
  | .deinit => { u with ue := false, control := .wakeTx }
  | .wakeTx => { u.wakeTx with control := .idle }

/-- `OneShotDmaIrq::handle_interrupt`, of which the second step wakes -/
def stepDmaIsr : Uart :=
  if u.isr then { u.wakeDma with isr := false }
  else if u.channel.irq then { u with channel := { u.channel with ie := false }, isr := true }
  else u

/-- `UartISR::handle_interrupt`, as far as transmitting is concerned -/
def usartIsr : Uart :=
  if u.state = .suspended then u
  else
    let handled := if u.tc && u.tcie then { u with tcie := false }.wakeTx else u
    if u.state = .resuming then { handled with state := .active } else handled

/-- The engine moves a byte to the data register, when it is enabled and the peripheral requests it. -/
def beat : Uart :=
  if u.channel.en && u.clock.on && u.ue then
    match u.channel.ndtr with
    | 0 => u
    | left + 1 =>
      { u with
        channel := { u.channel with ndtr := left, mar := u.channel.mar + 1, tcif := u.channel.tcif || left == 0 }
        sent := u.sent ++ (u.scratch.drop u.channel.mar).take 1
        tc := false }
  else u

/-- A forbidden access disables the channel. -/
def fault : Uart :=
  if u.channel.en then { u with channel := { u.channel with en := false, teif := true }, disturbed := true }
  else u

end Uart

inductive Op
  | write (words : List UInt8)
  | flush
  | step (empty : Bool)
  | cancel
  | request (request : Uart.Request)
  | control
  | dmaIsr
  | usartIsr
  | beat
  | fault
  | transmitted
  | hold (other : DmaCh)
  | release (other : DmaCh)

namespace Uart

variable (ch : DmaCh)

def exec (u : Uart) : Op → Uart
  | .write words =>
    if u.point = .idle then
      { u with point := .begin, words := words, total := 0, sent := [], disturbed := false }
    else u
  | .flush => if u.point = .idle then { u with point := .flushBegin, resumed := false } else u
  | .step empty => u.stepTask ch empty
  -- the future is dropped where it is suspended
  | .cancel =>
    match u.point with
    | .pending => { u with point := .dropping .hold .cancelled }
    | .flushPending => { u with point := .idle }
    | _ => u
  | .request request => if u.control = .idle then u.request ch request else u
  | .control => u.stepControl ch
  | .dmaIsr => u.stepDmaIsr
  | .usartIsr => u.usartIsr
  | .beat => u.beat
  | .fault => u.fault
  | .transmitted => { u with tc := true }
  | .hold other => { u with clock := u.clock.dma1ClkHold other }
  | .release other => { u with clock := u.clock.dma1ClkRelease other }

/-- The task has returned, or is suspended. -/
def AtRest (u : Uart) : Prop := u.point = .idle ∨ u.point = .pending ∨ u.point = .flushPending

/-- The handler of the channel is not running, nor about to. -/
def Unpreempted (u : Uart) : Prop := u.isr = false ∧ u.channel.irq = false

instance (u : Uart) : Decidable u.AtRest := inferInstanceAs (Decidable (_ ∨ _))

instance (u : Uart) : Decidable u.Unpreempted := inferInstanceAs (Decidable (_ ∧ _))

/-- Which context may run. Only the driver of a channel votes for it. -/
def Guard (u : Uart) : Op → Prop
  | .write _ | .flush | .step _ | .cancel => u.Unpreempted
  | .request _ | .control => u.Unpreempted ∧ u.AtRest
  | .dmaIsr | .usartIsr | .beat | .fault | .transmitted => True
  | .hold other | .release other => other ≠ ch

instance (u : Uart) (op : Op) : Decidable (u.Guard ch op) := by
  unfold Guard
  split <;> infer_instance

/-- A run from `UART::new` on -/
def Run (u : Uart) : Prop := Reach (exec ch) (Guard ch) new u

end Uart

/-- `DMA1_CH2`, on which the modem's UART transmits -/
def txChannel : DmaCh := ⟨2, by decide, by decide⟩

/-- A write of two bytes, up to where it is suspended -/
def pendingRun : List Op :=
  [.request .resume, .usartIsr, .write [65, 84]] ++ List.replicate 12 (.step false)

/-- The write to its end -/
def sampleRun : List Op :=
  pendingRun ++ [.beat, .beat, .dmaIsr, .dmaIsr] ++ List.replicate 12 (.step false)

def samplePending : Uart := pendingRun.foldl (Uart.exec txChannel) .new

def sample : Uart := sampleRun.foldl (Uart.exec txChannel) .new

lemma samplePending_run : samplePending.Run txChannel := Reach.run pendingRun .start (by decide)

lemma sample_run : sample.Run txChannel := Reach.run sampleRun .start (by decide)

end Transmit

end SensorLink.Dma
