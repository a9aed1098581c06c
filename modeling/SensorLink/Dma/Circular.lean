import SensorLink.Lib.Wrap

/-!
# The circular receiver

The channel writes the bytes of `stream` into a ring of `len` bytes, one after the other. The consumer
runs `try_read` and `data_ready` on an armed channel that is neither stopped nor re-armed. Each read of
CNDTR, each atomic access and each byte that is copied out of the ring is a step of its own; the interrupt
of the channel runs as one step, and bytes arrive between any two.
-/

namespace SensorLink.Dma

open SensorLink.Lib

/-- The bytes that were copied out, for `Bytes` -/
inductive TryRead
  | bytes (dst : List UInt8)
  | empty
  | overrun
deriving DecidableEq, Repr

/-- Who calls `observe`: `data_ready`, or a `try_read` before and after it has copied. -/
inductive Stage
  | ready
  | first (dst : ℕ)
  | second (toCopy : ℕ) (got : ℕ → Option UInt8)

/-- The points of the consumer -/
inductive RxPoint
  | idle
  | swap (dst : ℕ)
  | ndtr (stage : Stage) (c : Option ℕ)
  | isrLoad (stage : Stage) (c : ℕ)
  | copy (toCopy : ℕ) (got : ℕ → Option UInt8)
  | swapAgain (toCopy : ℕ) (got : ℕ → Option UInt8) (produced : ℕ)
  | exit (result : TryRead) (flagged : Bool)

/-- What a `try_read` gave, how many bytes had been received by then, and whether it found the overrun flag
set. -/
structure Report where
  result : TryRead
  received : ℕ
  flagged : Bool
deriving DecidableEq, Repr

structure Reception where
  /-- `CircShared`; the counters wrap at `2 ^ 32`. -/
  isrLaps : ℕ
  overrun : Bool
  /-- The bookkeeping of the consumer -/
  consLaps : ℕ
  consPrevNdtr : ℕ
  consumed : ℕ
  /-- The ring, and the channel: its remaining count and its flags -/
  ring : ℕ → UInt8
  ndtr : ℕ
  enabled : Bool
  htif : Bool
  tcif : Bool
  teif : Bool
  point : RxPoint
  /-- The history: how many bytes were received, and had been when the oldest pending flag was raised, when
  the consumer last looked at the channel, and when it looked for its last observation; how many laps the
  interrupt has counted; the place in the stream that the consumer has come to. -/
  received : ℕ
  raised : Option ℕ
  looked : ℕ
  seen : ℕ
  counted : ℕ
  next : ℕ
  log : List Report

inductive RxOp
  | byte
  | interrupt
  | transferError
  | signalOverrun
  | tryRead (dst : ℕ)
  | dataReady
  | consumer
  | copy (i : ℕ)
deriving DecidableEq, Repr

section

variable (len : ℕ) (stream : ℕ → UInt8)

namespace Reception

/-- Just armed -/
def create : Reception where
  isrLaps := 0
  overrun := false
  consLaps := 0
  consPrevNdtr := len
  consumed := 0
  ring := fun _ => 0
  ndtr := len
  enabled := true
  htif := false
  tcif := false
  teif := false
  point := .idle
  received := 0
  raised := none
  looked := 0
  seen := 0
  counted := 0
  next := 0
  log := []

variable (w : Reception)

/-- The position of the oldest pending flag, when one is raised now. -/
def raise (raised : Bool) (position : ℕ) : Option ℕ :=
  if raised then some (w.raised.getD position) else w.raised

/-- The channel writes a byte. In circular mode CNDTR is reloaded with the last byte of a lap. -/
def byte : Reception :=
  if w.enabled then
    let ht := decide (len - w.ndtr + 1 = len / 2)
    let tc := decide (w.ndtr = 1)
    { w with
      ring := fun i => if i = len - w.ndtr then stream w.received else w.ring i
      ndtr := if w.ndtr = 1 then len else w.ndtr - 1
      htif := w.htif || ht
      tcif := w.tcif || tc
      received := w.received + 1
      raised := w.raise (ht || tc) (w.received + 1) }
  else w

/-- The hardware disables the channel on a transfer error. -/
def transferError : Reception :=
  { w with enabled := false, teif := true, raised := w.raise true w.received }

def handleInterrupt : Reception :=
  let cleared := { w with htif := false, tcif := false, teif := false, raised := none }
  if w.teif then { cleared with overrun := true }
  -- Coalesced: a TC may have been missed.
  else if w.htif && w.tcif then { cleared with overrun := true }
  else if w.tcif then { cleared with isrLaps := wrappingAdd w.isrLaps 1, counted := w.counted + 1 }
  else cleared

/-- The live position of the producer, from a stable CNDTR. -/
def observe (c : ℕ) : Reception × ℕ :=
  let laps := if w.consPrevNdtr < c then wrappingAdd w.consLaps 1 else w.consLaps
  let laps := if wrappingSub w.isrLaps laps < 2 ^ 31 then w.isrLaps else laps
  ({ w with consPrevNdtr := c, consLaps := laps, seen := w.looked },
    wrappingAdd (wrappingMul laps len) ((len - c) % len))

/-- The index in the ring of the byte `i` of the copy, which wraps once. -/
def ringIndex (readHead toCopy i : ℕ) : ℕ :=
  let first := min (len - readHead) toCopy
  if i < first then readHead + i else i - first

/-- What was copied -/
def copied (toCopy : ℕ) (got : ℕ → Option UInt8) : List UInt8 :=
  (List.range toCopy).map fun i => (got i).getD 0

/-- Whether every byte has been copied -/
def copyDone (toCopy : ℕ) (got : ℕ → Option UInt8) : Bool :=
  (List.range toCopy).all fun i => (got i).isSome

/-- The consumer goes on at the position it has observed. -/
def resync (produced : ℕ) (flagged : Bool) : Reception :=
  { w with consumed := produced, next := w.seen, point := .exit .overrun flagged }

/-- What `data_ready` and `try_read` do with the position of the producer. -/
def observed (produced : ℕ) : Stage → Reception
  | .ready => { w with point := .idle }
  | .first dst =>
    let avail := wrappingSub produced w.consumed
    if avail > len then w.resync produced false
    else if avail = 0 then { w with point := .exit .empty false }
    else { w with point := .copy (min avail dst) fun _ => none }
  | .second toCopy got =>
    if wrappingSub produced w.consumed > len then w.resync produced false
    else { w with point := .swapAgain toCopy got produced }

/-- A step of the consumer -/
def consumerStep : Reception :=
  match w.point with
  | .idle => w
  | .swap dst =>
    if w.overrun then
      { w with overrun := false, looked := w.received, point := .exit .overrun true }
    else { w with point := .ndtr (.first dst) none }
  | .ndtr stage none => { w with looked := w.received, point := .ndtr stage (some w.ndtr) }
  | .ndtr stage (some c) =>
    if c = w.ndtr then { w with looked := w.received, point := .isrLoad stage c }
    else { w with looked := w.received, point := .ndtr stage (some w.ndtr) }
  | .isrLoad stage c =>
    let (w, produced) := w.observe len c
    w.observed len produced stage
  | .copy toCopy got =>
    if copyDone toCopy got then { w with point := .ndtr (.second toCopy got) none } else w
  | .swapAgain toCopy got produced =>
    if w.overrun then { w with overrun := false }.resync produced true
    else
      { w with
        consumed := wrappingAdd w.consumed toCopy
        next := w.next + toCopy
        point := .exit (.bytes (copied toCopy got)) false }
  | .exit result flagged =>
    { w with log := ⟨result, w.received, flagged⟩ :: w.log, point := .idle }

/-- One byte is copied out of the ring; the bytes of a copy come in any order. -/
def copyStep (i : ℕ) : Reception :=
  match w.point with
  | .copy toCopy got =>
    if i < toCopy then
      let value := w.ring (ringIndex len (w.consumed % len) toCopy i)
      { w with point := .copy toCopy fun j => if j = i then some value else got j }
    else w
  | _ => w

/-- A call of the consumer begins when there is none. -/
def call (point : RxPoint) : Reception :=
  match w.point with
  | .idle => { w with point := point }
  | _ => w

def exec (w : Reception) : RxOp → Reception
  | .byte => w.byte len stream
  | .interrupt => w.handleInterrupt
  | .transferError => w.transferError
  | .signalOverrun => { w with overrun := true }
  | .tryRead dst => w.call (.swap dst)
  | .dataReady => w.call (.ndtr .ready none)
  | .consumer => w.consumerStep len
  | .copy i => w.copyStep len i

end Reception

/-! ### What is to hold -/

/-- The results hold the bytes of the stream one after the other, and the next one goes on at `a`. An
overrun is reported with a cause, and the bytes that had been received by then are not returned any
more. -/
inductive Follows : List Report → ℕ → Prop
  | start : Follows [] 0
  | bytes {log a dst received flagged} : Follows log a →
    dst = (List.range dst.length).map (fun i => stream (a + i)) → a + dst.length ≤ received →
    Follows (⟨.bytes dst, received, flagged⟩ :: log) (a + dst.length)
  | empty {log a received flagged} : Follows log a → Follows (⟨.empty, received, flagged⟩ :: log) a
  | overrun {log a b received flagged} : Follows log a → flagged = true ∨ a + len < received →
    received ≤ b → Follows (⟨.overrun, received, flagged⟩ :: log) b

namespace Reception

variable (w : Reception)

def ReceptionOk : Prop := ∃ a, Follows len stream w.log a

/-- The interrupt runs less than half a ring after its event. -/
def Timely : RxOp → Prop
  | .byte => ∀ position ∈ w.raised, 2 * (w.received + 1 - position) < len
  | _ => True

/-- What `observe` relies on when it loads the count of the interrupt. The interrupt has not counted a lap
that ended after CNDTR was read. Less than a lap has passed since the last observation, or the interrupt has
counted every lap. The counters have not come round. -/
structure Sound : Prop where
  notAhead : w.counted ≤ w.looked / len
  counted : w.looked < w.seen + len ∨ w.counted = w.looked / len
  laps : w.looked / len < min w.counted (w.seen / len) + 2 ^ 31
  distance : w.looked < w.next + 2 ^ 32
  index : len ∣ 2 ^ 32 ∨ w.next < 2 ^ 32

instance : Decidable (w.Timely len op) :=
  match op with
  | .byte => inferInstanceAs (Decidable (∀ position ∈ w.raised, _))
  | .interrupt | .transferError | .signalOverrun | .tryRead _ | .dataReady | .consumer | .copy _ =>
    isTrue trivial

instance : Decidable (w.Sound len) :=
  decidable_of_iff (w.counted ≤ w.looked / len ∧ (w.looked < w.seen + len ∨ w.counted = w.looked / len) ∧
      w.looked / len < min w.counted (w.seen / len) + 2 ^ 31 ∧ w.looked < w.next + 2 ^ 32 ∧
      (len ∣ 2 ^ 32 ∨ w.next < 2 ^ 32))
    ⟨fun h => ⟨h.1, h.2.1, h.2.2.1, h.2.2.2.1, h.2.2.2.2⟩, fun h => ⟨h.1, h.2, h.3, h.4, h.5⟩⟩

/-- What the next step of the consumer relies on. Each observation is sound. Nothing is unread when the
flag of an overrun is found at the start of a read, and no byte arrives between the last look at the
channel of a read that reports an overrun and its return. -/
def Relies : RxPoint → Prop
  | .swap _ => w.overrun = true → w.next = w.received
  | .isrLoad _ _ => w.Sound len
  | .exit .overrun _ => w.looked = w.received
  | _ => True

instance (point : RxPoint) : Decidable (w.Relies len point) :=
  match point with
  | .swap _ => inferInstanceAs (Decidable (_ → _))
  | .isrLoad _ _ => inferInstanceAs (Decidable (w.Sound len))
  | .exit .overrun _ => inferInstanceAs (Decidable (_ = _))
  | .exit (.bytes _) _ | .exit .empty _ | .idle | .ndtr _ _ | .copy _ _ | .swapAgain _ _ _ => isTrue trivial

def Guard (op : RxOp) : Prop := w.Timely len op ∧ (op = .consumer → w.Relies len w.point)

instance (op : RxOp) : Decidable (w.Guard len op) := inferInstanceAs (Decidable (_ ∧ _))

end Reception

end

end SensorLink.Dma
