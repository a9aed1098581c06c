import Mathlib.Data.List.Basic
import SensorLink.Lib.Reach

/-!
# The connection loop of `logic/network.rs`

`handle_connection` takes one operation per iteration: an action, an upload, or an event of the client.
What the other parties do in an iteration (the actions and messages that are there, the results of the
client) are its `Answers`; any sequence of answers is a run. A message of the queue gets the number of
messages taken before it as its ticket, which stands for its confirmation handle. `network_task` runs
the loop again after an error, with the upload that is still pending.
-/

namespace SensorLink.Network

open SensorLink.Lib

/-! ### Messages of the other parties -/

/-- `NetworkAction`; a status payload is its confirmation token. -/
inductive NetworkAction where
  | disconnect
  | sendDeviceInfo
  | sendStatus (token : ℕ)
  | downloadUpdate
  | setTimeout (timeoutS : ℕ)
deriving DecidableEq

/-- `sensor_link_protocol::Error` -/
inductive Error (E : Type) where
  | invalidSim
  | client (error : E)
  | timeOut
  | mqtt (message : String)
  | serialize
  | serializeTopic
deriving DecidableEq

/-- `Result<(), Error<C::ClientError>>` -/
abbrev SendResult (E : Type) := Except (Error E) Unit

inductive FirmwareDownloadStart where
  | started
  | failed
deriving DecidableEq

inductive ReadOutcome where
  | goesOn
  | disconnected
deriving DecidableEq

inductive DisconnectReason where
  | success
  | notConnected
  | unexpected
  | error
  | fatal
deriving DecidableEq

/-- `Confirmable`, with the ticket of its confirmation handle -/
structure Confirmable (U : Type) where
  ticket : ℕ
  inner : U
deriving DecidableEq

/-- The future of the `select3` that completes: `await_response`, `next_action` or `recv` -/
inductive Selected (U : Type) where
  | response (recv : Option Unit)
  | action (action : NetworkAction)
  | message (msg : Option U)

/-- What the calls of one iteration return -/
structure Answers (U E : Type) where
  tryNextAction : Option NetworkAction
  tryRecvDrainOnly : Option U
  selected : Selected U
  handleRead : ReadOutcome
  sendDeviceInfo : SendResult E
  sendStatus : SendResult E
  downloadFirmwareUpdate : Except (Error E) FirmwareDownloadStart
  /-- `upload.send(client)` -/
  sendUpload : SendResult E

inductive Op (U : Type) where
  | action (action : NetworkAction)
  | upload (upload : Confirmable U)
  | read
  | stop
  | none

/-- `Op::is_upload` -/
def Op.isUpload {U : Type} : Op U → Bool
  | .upload _ => true
  | _ => false

/-! ### The loop -/

/-- `State`, the variable `disconnect_pending`, and the number of messages taken from the queue -/
structure Conn (U : Type) where
  timeoutS : ℕ
  pendingUpload : Option (Confirmable U)
  disconnectPending : Bool
  taken : ℕ

/-- What the loop does towards the other parties -/
inductive Event (U E : Type) where
  | taken (upload : Confirmable U)
  | sent (upload : Confirmable U) (result : SendResult E)
  | confirmed (upload : Confirmable U)
  | statusSent (token : ℕ)
  | firmwareUpdateFailed
deriving DecidableEq

/-- `DEFAULT_TIMEOUT_S` -/
def defaultTimeoutS : ℕ := 20

/-- `MINIMUM_TIMEOUT_S` -/
def minimumTimeoutS : ℕ := 5

namespace Conn

variable {U E : Type}

/-- The state that `network_task` starts with -/
def start : Conn U := ⟨defaultTimeoutS, none, false, 0⟩

/-- `state.pending_upload.insert(msg)` -/
def insert (c : Conn U) (msg : U) : Conn U :=
  { c with pendingUpload := some ⟨c.taken, msg⟩, taken := c.taken + 1 }

/-- The operation of the iteration; without one the loop ends. -/
def nextOp (c : Conn U) (a : Answers U E) : Conn U × List (Event U E) × Option (Op U) :=
  match c.pendingUpload with
  -- an upload is still pending for retry
  | some upload =>
    match a.tryNextAction with
    | some action => (c, [], some (.action action))
    | none => (c, [], some (.upload upload))
  | none =>
    if c.disconnectPending then
      match a.tryNextAction with
      | some action => (c, [], some (.action action))
      | none =>
        match a.tryRecvDrainOnly with
        | some msg => (c.insert msg, [.taken ⟨c.taken, msg⟩], some (.upload ⟨c.taken, msg⟩))
        | none => (c, [], none)
    else
      match a.selected with
      | .response (some _) => (c, [], some .read)
      | .response none => (c, [], some .stop)
      | .action action => (c, [], some (.action action))
      | .message (some msg) =>
        (c.insert msg, [.taken ⟨c.taken, msg⟩], some (.upload ⟨c.taken, msg⟩))
      | .message none => (c, [], some .none)

/-- `match op`: the result of the operation, or the reason to leave the loop -/
def perform (c : Conn U) (a : Answers U E) :
    Op U → Conn U × List (Event U E) × Except DisconnectReason (SendResult E)
  | .read =>
    match a.handleRead with
    | .goesOn => (c, [], .ok (.ok ()))
    | .disconnected => (c, [], .error .unexpected)
  | .action .disconnect => ({ c with disconnectPending := true }, [], .ok (.ok ()))
  | .action (.setTimeout newTimeout) =>
    ({ c with timeoutS := max newTimeout minimumTimeoutS }, [], .ok (.ok ()))
  | .action .sendDeviceInfo => (c, [], .ok a.sendDeviceInfo)
  | .action (.sendStatus token) =>
    match a.sendStatus with
    | .ok _ => (c, [.statusSent token], .ok a.sendStatus)
    | .error _ => (c, [], .ok a.sendStatus)
  | .action .downloadUpdate =>
    match a.downloadFirmwareUpdate with
    | .ok .started => (c, [], .ok (.ok ()))
    | .ok .failed => (c, [.firmwareUpdateFailed], .ok (.ok ()))
    | .error _ => (c, [], .error .error)
  | .upload upload => (c, [.sent upload a.sendUpload], .ok a.sendUpload)
  | .none => (c, [], .ok (.ok ()))
  | .stop => (c, [], .error .success)

/-- `match op_result` -/
def settle (c : Conn U) (isUpload : Bool) :
    SendResult E → Conn U × List (Event U E) × Option DisconnectReason
  | .error .invalidSim => (c, [], some .error)
  | .error (.client _) => (c, [], some .error)
  | .error .timeOut => (c, [], some .error)
  | .error (.mqtt _) => (c, [], some .error)
  | .error .serialize => (c, [], none)
  | .error .serializeTopic => (c, [], none)
  | .ok _ =>
    if isUpload then
      match c.pendingUpload with
      | some completed => ({ c with pendingUpload := none }, [.confirmed completed], none)
      | none => (c, [], none)
    else (c, [], none)

/-- The iteration from `match op` on, with the reason to leave the loop -/
def finish (c : Conn U) (a : Answers U E) (op : Op U) :
    Conn U × List (Event U E) × Option DisconnectReason :=
  match c.perform a op with
  | (c, events, .error reason) => (c, events, some reason)
  | (c, events, .ok result) =>
    let (c, events', exit) := c.settle op.isUpload result
    (c, events ++ events', exit)

/-- One iteration of the loop -/
def iteration (c : Conn U) (a : Answers U E) :
    Conn U × List (Event U E) × Option DisconnectReason :=
  match c.nextOp a with
  | (c, events, none) => (c, events, some .success)
  | (c, events, some op) =>
    let (c, events', exit) := c.finish a op
    (c, events ++ events', exit)

end Conn

/-! ### Runs -/

/-- The network task: the connection, what it did so far, and why the loop was left -/
structure Task (U E : Type) where
  conn : Conn U
  log : List (Event U E)
  exit : Option DisconnectReason

/-- The loop runs an iteration, or the task connects again. -/
inductive Act (U E : Type) where
  | iterate (a : Answers U E)
  | reconnect

namespace Task

variable {U E : Type}

def start : Task U E := ⟨.start, [], none⟩

/-- Only after an error or an unexpected disconnect does the task connect again. -/
def exec (s : Task U E) : Act U E → Task U E
  | .iterate a =>
    match s.exit with
    | none =>
      let (conn, events, exit) := s.conn.iteration a
      ⟨conn, s.log ++ events, exit⟩
    | some _ => s
  | .reconnect =>
    match s.exit with
    | some .error => { s with conn := { s.conn with disconnectPending := false }, exit := none }
    | some .unexpected =>
      { s with conn := { s.conn with disconnectPending := false }, exit := none }
    | _ => s

/-- The states that runs of the network task reach -/
def Reachable (s : Task U E) : Prop := Reach exec (fun _ _ => True) start s

end Task

end SensorLink.Network
