import Mathlib.Data.Nat.Notation

/-!
# The hand-off of the circular receiver

The consumer runs `try_read` or `data_ready`, the control context `stop` or `request_rearm`. Each
compare-exchange, load and store of the state, and each access to the registers or the clock vote of the
channel, is one step of one of the two; a critical section is one step.
-/

namespace SensorLink.Dma

/-- `CircShared::state` -/
inductive RxState
  /-- Not armed; clock not held. -/
  | idle
  /-- Armed and running; clock held; no consumer mid-register-access. -/
  | armed
  /-- Consumer is inside its DMA-register span. -/
  | reading
  /-- A stop was parked while the consumer was reading. -/
  | stopReq
  /-- The consumer arms on its next read. -/
  | rearmReq
deriving DecidableEq, Repr

/-- The steps of `RawChannel::stop` -/
inductive StopStep
  | hold
  | clearEn
  | waitHalt
  | clearFlags
  | release
deriving DecidableEq, Repr

/-- The steps of the consumer; it is in its reading span at `reading` and `exit`. -/
inductive ConsumerPoint
  | idle
  | enter
  | reading
  | exit
  | serviceLoad
  | armReset
  | armHold
  | armStart
  | armExchange
  | armLoad
  | armStore
  | stopping (step : StopStep)
  | stopExchange
deriving DecidableEq, Repr

/-- The steps of the control context -/
inductive ControlPoint
  | idle
  | exchangeArmed
  | exchangeReading
  | exchangeRearm
  | stopping (step : StopStep)
  | halt
  | storeRearm
deriving DecidableEq, Repr

inductive Request
  | stop
  | rearm
deriving DecidableEq, Repr

/-- The channel with its clock vote and its enable bit, the two contexts, and the last control request. -/
structure Handoff where
  state : RxState
  held : Bool
  enabled : Bool
  consumer : ConsumerPoint
  control : ControlPoint
  last : Option Request
deriving DecidableEq, Repr

/-- A step of the consumer, which leaves its reading span when it is done with the registers, or a step of
the control context, which begins a request when it has none. -/
inductive HandoffOp
  | consumer (done : Bool)
  | control (request : Request)
deriving DecidableEq, Repr

namespace Handoff

/-- Unarmed at construction; the first read arms it. -/
def create : Handoff := ⟨.rearmReq, false, false, .idle, .idle, none⟩

variable (w : Handoff)

/-- A step of `RawChannel::stop`, and the next one. -/
def stopStep : StopStep → Handoff × Option StopStep
  | .hold => ({ w with held := true }, some .clearEn)
  | .clearEn => ({ w with enabled := false }, some .waitHalt)
  | .waitHalt => (w, if w.enabled then some .waitHalt else some .clearFlags)
  | .clearFlags => (w, some .release)
  | .release => ({ w with held := false }, none)

/-- A step of the consumer -/
def consumerStep (done : Bool) : Handoff :=
  match w.consumer with
  | .idle => { w with consumer := .enter }
  | .enter =>
    match w.state with
    | .armed => { w with state := .reading, consumer := .reading }
    | _ => { w with consumer := .serviceLoad }
  | .reading => { w with consumer := if done then .exit else .reading }
  | .exit =>
    match w.state with
    | .reading => { w with state := .armed, consumer := .idle }
    | .stopReq => { w with consumer := .stopping .hold }
    | _ => { w with consumer := .idle }
  | .serviceLoad =>
    match w.state with
    | .rearmReq => { w with consumer := .armReset }
    | .stopReq => { w with consumer := .stopping .hold }
    | _ => { w with consumer := .idle }
  | .armReset => { w with consumer := .armHold }
  | .armHold => { w with held := true, consumer := .armStart }
  | .armStart => { w with enabled := true, consumer := .armExchange }
  | .armExchange =>
    match w.state with
    | .rearmReq => { w with state := .armed, consumer := .idle }
    | _ => { w with consumer := .armLoad }
  | .armLoad =>
    match w.state with
    | .stopReq | .idle => { w with consumer := .stopping .hold }
    | _ => { w with consumer := .armStore }
  | .armStore => { w with state := .armed, consumer := .idle }
  | .stopping step =>
    match w.stopStep step with
    | (w, some step) => { w with consumer := .stopping step }
    | (w, none) => { w with consumer := .stopExchange }
  | .stopExchange =>
    match w.state with
    | .stopReq => { w with state := .idle, consumer := .idle }
    | _ => { w with consumer := .idle }

/-- A step of the control context -/
def controlStep (request : Request) : Handoff :=
  match w.control with
  | .idle =>
    match request with
    | .stop => { w with control := .exchangeArmed, last := some .stop }
    | .rearm => { w with control := .storeRearm, last := some .rearm }
  | .exchangeArmed =>
    match w.state with
    | .armed => { w with state := .idle, control := .stopping .hold }
    | .reading => { w with control := .exchangeReading }
    | .rearmReq => { w with control := .exchangeRearm }
    | _ => { w with control := .idle }
  | .exchangeReading =>
    match w.state with
    | .reading => { w with state := .stopReq, control := .halt }
    | _ => { w with control := .exchangeArmed }
  | .exchangeRearm =>
    match w.state with
    | .rearmReq => { w with state := .idle, control := .idle }
    | _ => { w with control := .exchangeArmed }
  | .stopping step =>
    match w.stopStep step with
    | (w, some step) => { w with control := .stopping step }
    | (w, none) => { w with control := .idle }
  -- `halt_if_clocked`: the enable bit is cleared if the clock vote is held.
  | .halt => { w with enabled := w.enabled && !w.held, control := .idle }
  | .storeRearm => { w with state := .rearmReq, control := .idle }

def exec (w : Handoff) : HandoffOp → Handoff
  | .consumer done => w.consumerStep done
  | .control request => w.controlStep request

/-- The consumer runs on alone until its read returns. -/
def finishRead : ℕ → Handoff → Handoff
  | 0, w => w
  | n + 1, w => if w.consumer = .idle then w else finishRead n (w.consumerStep true)

/-- One further read; a read that meets no other step has at most ten. -/
def readOnce : Handoff := finishRead 10 (w.consumerStep true)

end Handoff

/-! ### What is to hold -/

namespace ConsumerPoint

/-- The consumer has nothing to do with the channel. -/
def outside : ConsumerPoint → Bool
  | idle | enter | serviceLoad => true
  | _ => false

/-- The consumer will see that a request was cancelled, or stops the channel anyway. -/
def willUndo : ConsumerPoint → Bool
  | armReset | armHold | armStart | armExchange | armLoad | stopping _ => true
  | _ => false

/-- The consumer is in its reading span. -/
def inSpan : ConsumerPoint → Bool
  | reading | exit => true
  | _ => false

end ConsumerPoint

/-- The control context is in `RawChannel::stop`. -/
def ControlPoint.isStopping : ControlPoint → Bool
  | stopping _ => true
  | _ => false

namespace Handoff

/-- Registers are accessed in the reading span with the clock vote held. After a stop, with nothing in
progress, the state is idle or a parked stop, and the channel is down once the consumer has read again. -/
structure HandoffOk (w : Handoff) : Prop where
  clocked : w.consumer.inSpan = true → w.held = true
  stopped : w.consumer = .idle → w.control = .idle → w.last = some .stop →
    (w.state = .idle ∨ w.state = .stopReq) ∧ w.readOnce.state = .idle ∧ w.readOnce.enabled = false ∧
      w.readOnce.held = false

/-- What `stop` relies on when it cancels a request to re-arm: the channel is not armed (its clock vote is
not held), or the consumer undoes what it has armed: it is arming and loads the state once more, or it is
stopping the channel already. -/
def Guard (w : Handoff) : HandoffOp → Prop
  | .control _ => w.control = .exchangeRearm → w.state = .rearmReq →
    w.held = false ∨ w.consumer.willUndo = true
  | .consumer _ => True

instance (w : Handoff) (op : HandoffOp) : Decidable (w.Guard op) :=
  match op with
  | .control _ => inferInstanceAs (Decidable (_ → _))
  | .consumer _ => isTrue trivial

end Handoff

end SensorLink.Dma
