import Mathlib.Data.List.Basic
import SensorLink.Lib.Reach

/-!
# The session channel of `sync/session_channel.rs`

A sender and a receiver share a bounded queue of data and a cell with the latest `SessionState`, whose
`recv` waits for a value that was not seen yet. The sender repeats `wait_started`, sends,
`finish_and_wait`; the receiver repeats `start`, `recv` until `End`, drop. Each access to the queue or
to the cell is a step, and a step that would wait does nothing, so that every interleaving of the two
parties is a list of steps. What each party sent and got is kept per session.
-/

namespace SensorLink.Sync

open SensorLink.Lib

/-- `FiniteStream` -/
inductive FiniteStream (T : Type) where
  | data (value : T)
  | reset
  | endMark
deriving DecidableEq

inductive SessionState where
  | none
  | started (sessionId : UInt32)
  | finished (sessionId : UInt32)
deriving DecidableEq

/-- Where the sender is: in `wait_started`, between its calls, in the second half of
`finish_and_wait`, or behind a `finish_and_wait` that returned `OutOfSync` -/
inductive SenderPoint where
  | waiting
  | active
  | finishing
  | outOfSync
deriving DecidableEq

/-- Where the receiver is: between two sessions, in a session, behind the `End`, or in the drop, where it
empties the queue and then signals that the session is finished -/
inductive ReceiverPoint where
  | idle
  | receiving
  | ended
  | dropping
  | signalling
deriving DecidableEq

/-- `SessionSender`, with the items it sent in each session it entered -/
structure Sender (T : Type) where
  point : SenderPoint
  state : SessionState
  sent : List (UInt32 × List (FiniteStream T))

/-- `SessionReceiver` and `SessionActive`, with what was received in each session -/
structure Receiver (T : Type) where
  point : ReceiverPoint
  sessionId : UInt32
  activeId : UInt32
  got : List (UInt32 × List (FiniteStream T))

/-- Both parties, the queue and the cell -/
structure Session (T : Type) where
  capacity : ℕ
  data : List (FiniteStream T)
  lifecycle : SessionState
  fresh : Bool
  sender : Sender T
  receiver : Receiver T

/-- The steps of the sender and of the receiver -/
inductive Act (T : Type) where
  | send (value : T)
  | sendReset
  | sendFinish
  | recvLifecycle
  | start
  | recv
  | dropActive
  | tryRecv
  | signalFinished

/-- The sender has seen the start of a session. -/
def Sender.enter {T : Type} (sender : Sender T) (sessionId : UInt32) : Sender T :=
  ⟨.active, .started sessionId, sender.sent ++ [(sessionId, [])]⟩

/-- One more item in the last entry -/
def snocLast {α β : Type} (l : List (α × List β)) (b : β) : List (α × List β) :=
  match l.getLast? with
  | none => l
  | some (a, bs) => l.dropLast ++ [(a, bs ++ [b])]

namespace Session

variable {T : Type}

/-- `create_session_channel` -/
def create (capacity : ℕ) : Session T where
  capacity := capacity
  data := []
  lifecycle := .finished 0
  fresh := false
  sender := ⟨.waiting, .finished 0, []⟩
  receiver := ⟨.idle, 0, 0, []⟩

/-- `data_tx.send` of an item of the session -/
def sendItem (s : Session T) (item : FiniteStream T) : Session T :=
  if s.sender.point = .active ∧ s.data.length < s.capacity then
    { s with
      data := s.data ++ [item]
      sender := { s.sender with sent := snocLast s.sender.sent item } }
  else s

/-- `finish_and_wait` up to the wait for the receiver -/
def sendFinish (s : Session T) : Session T :=
  if s.sender.point = .active ∧ s.data.length < s.capacity then
    { s with
      data := s.data ++ [.endMark]
      sender := { s.sender with
        point := match s.sender.state with
          | .finished _ => .waiting
          | .started _ | .none => .finishing } }
  else s

/-- `lifecycle_rx.recv()`, and what `wait_started` or `finish_and_wait` does with the value. A sender
that is told `Restarted` goes on with the new session. -/
def recvLifecycle (s : Session T) : Session T :=
  if s.fresh then
    match s.sender.point with
    | .waiting =>
      match s.lifecycle with
      | .started sessionId => { s with fresh := false, sender := s.sender.enter sessionId }
      | state => { s with fresh := false, sender := { s.sender with state := state } }
    | .finishing =>
      match s.lifecycle with
      | .finished finishId =>
        let startId := match s.sender.state with
          | .started sessionId => sessionId
          | _ => finishId
        { s with
          fresh := false
          sender := { s.sender with
            state := .finished finishId
            point := if startId = finishId then .waiting else .outOfSync } }
      | .started startId => { s with fresh := false, sender := s.sender.enter startId }
      | .none =>
        { s with fresh := false, sender := { s.sender with state := .none, point := .outOfSync } }
    | .active | .outOfSync => s
  else s

/-- `start` -/
def start (s : Session T) : Session T :=
  if s.receiver.point = .idle then
    { s with
      lifecycle := .started s.receiver.sessionId
      fresh := true
      receiver := ⟨.receiving, s.receiver.sessionId + 1, s.receiver.sessionId,
        s.receiver.got ++ [(s.receiver.sessionId, [])]⟩ }
  else s

/-- `SessionActive::recv` -/
def recv (s : Session T) : Session T :=
  match s.receiver.point, s.data with
  | .receiving, item :: data =>
    { s with
      data := data
      receiver := { s.receiver with
        point := match item with
          | .endMark => .ended
          | .data _ | .reset => .receiving
        got := snocLast s.receiver.got item } }
  | _, _ => s

/-- The receiver drops the session after its `End`. -/
def dropActive (s : Session T) : Session T :=
  if s.receiver.point = .ended then
    { s with receiver := { s.receiver with point := .dropping } }
  else s

/-- One `try_recv` of the loop of `_inner_finish` that empties the queue; when it fails, the loop ends. -/
def tryRecv (s : Session T) : Session T :=
  if s.receiver.point = .dropping then
    match s.data with
    | _ :: data => { s with data := data }
    | [] => { s with receiver := { s.receiver with point := .signalling } }
  else s

/-- The end of `_inner_finish`: the `Finished` signal -/
def signalFinished (s : Session T) : Session T :=
  if s.receiver.point = .signalling then
    { s with
      lifecycle := .finished s.receiver.activeId
      fresh := true
      receiver := { s.receiver with point := .idle } }
  else s

def exec (s : Session T) : Act T → Session T
  | .send value => s.sendItem (.data value)
  | .sendReset => s.sendItem .reset
  | .sendFinish => s.sendFinish
  | .recvLifecycle => s.recvLifecycle
  | .start => s.start
  | .recv => s.recv
  | .dropActive => s.dropActive
  | .tryRecv => s.tryRecv
  | .signalFinished => s.signalFinished

/-- The states that interleavings of the two parties reach -/
def Reachable (capacity : ℕ) (s : Session T) : Prop :=
  Reach exec (fun _ _ => True) (create capacity) s

end Session

end SensorLink.Sync
