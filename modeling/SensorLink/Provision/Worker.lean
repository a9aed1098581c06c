import Mathlib.Data.Finset.Insert
import SensorLink.Firmware.Config
import SensorLink.Lib.Reach
import SensorLink.Provision.IssuanceLog

/-!
# The provisioning station

The window of `app.rs` and the thread of `worker.rs`, which owns the probe and the CA, send each other messages over
two channels. The thread takes a device through its steps, and waits for the operator where one fails. Both run side
by side, and each message is an operation of its own.
-/

namespace SensorLink.Provision

open SensorLink.Lib SensorLink.Firmware

/-! ### Messages -/

structure Checks where
  iccid : Bool
  mqtt : Bool
deriving DecidableEq

/-- `Command::Provision` -/
structure Request where
  uid : Text
  icc : Text
  reprovision : Bool
  checks : Checks
deriving DecidableEq

inductive Command
  | listProbes
  | startSession
  | provision (request : Request)
  | retry
  | skip
deriving DecidableEq

inductive StepState
  | pending
  | running
  | done
  | failed (message : Text)
  | skipped
deriving DecidableEq

inductive Outcome
  | ok
  | unverified
  | fail
deriving DecidableEq

/-- `Event::DeviceFinished` -/
structure Report where
  uid : Text
  outcome : Outcome
  reprovision : Bool
  rttLog : Text
  error : Option Text
deriving DecidableEq

structure SessionInfo where
  uidMin : ℕ
  uidMax : ℕ
  checks : Checks
deriving DecidableEq

inductive Event
  | probes
  | rtt (log : Text)
  | sessionReady (info : SessionInfo)
  | sessionFailed (message : Text)
  | step (index : ℕ) (state : StepState)
  | deviceFinished (report : Report)
deriving DecidableEq

/-- `STEPS.len()` -/
def stepsLen : ℕ := 9

def stepLog : ℕ := 6

def stepRtt : ℕ := 7

def stepMqtt : ℕ := 8

/-! ### The window -/

/-- `normalize_uid` -/
def normalizeUid (raw : Text) : Text := (trim raw).map Char.toUpper

/-- `uid_warning` -/
def uidWarning (uid : Text) (min max : ℕ) : Option Text :=
  let n := uid.length
  if n < min ∨ max < n then
    some ("UID '".toList ++ uid ++ s!"' is {n} characters (expected {min}-{max}).".toList)
  else none

/-- `ICCID_WARNING` -/
def iccidWarning : Text :=
  ("The SIM ICCID failed validation (expected 19 or 20 digits with a valid Luhn-10 checksum). A wrong ICCID means " ++
    "the SIM may not get activated and the device-to-SIM record in the log will be incorrect, which later blocks " ++
    "stopping or upgrading this SIM's subscription. Only override if you are certain the scanner mis-read a " ++
    "known-good card.").toList

structure Counts where
  ok : ℕ
  unverified : Finset Text
  failed : Finset Text
deriving DecidableEq

/-- `Counts::record` -/
def Counts.record (counts : Counts) (uid : Text) (outcome : Outcome) (reprovision : Bool) : Counts :=
  match outcome with
  | .ok =>
    { ok := if reprovision = false ∨ uid ∈ counts.unverified ∨ uid ∈ counts.failed then counts.ok + 1 else counts.ok
      unverified := counts.unverified.erase uid
      failed := counts.failed.erase uid }
  | .unverified =>
    { counts with
      failed := counts.failed.erase uid
      unverified :=
        if uid ∈ counts.failed ∨ reprovision = false then insert uid counts.unverified else counts.unverified }
  | .fail => if reprovision then counts else { counts with failed := insert uid counts.failed }

inductive Phase
  | idle
  /-- The warnings that the operator has to acknowledge -/
  | confirm (warnings : List Text) (uid icc : Text) (reprovision : Bool)
  | running
  | failed (step : ℕ) (message : Text)
deriving DecidableEq

structure Session where
  info : SessionInfo
  uid : Text
  icc : Text
  checks : Checks
  counts : Counts
  phase : Phase
  last : Option (Text × Outcome × Option Text)
  steps : List StepState
  liveRtt : Text
deriving DecidableEq

def Session.new (info : SessionInfo) : Session where
  info := info
  uid := []
  icc := []
  checks := info.checks
  counts := ⟨0, ∅, ∅⟩
  phase := .idle
  last := none
  steps := List.replicate stepsLen .pending
  liveRtt := []

structure Setup where
  starting : Bool
  error : Option Text
deriving DecidableEq

inductive Screen
  | setup (setup : Setup)
  | session (session : Session)
deriving DecidableEq

/-- An event of `handle_events` -/
def Screen.handle : Screen → Event → Screen
  | .setup _, .sessionReady info => .session (.new info)
  | .setup _, .sessionFailed message => .setup ⟨false, some message⟩
  | .setup s, _ => .setup s
  | .session _, .sessionReady info => .session (.new info)
  | .session s, .step index state =>
    .session { s with
      phase := match state with
        | .failed message => if index < stepRtt then .failed index message else s.phase
        | _ => s.phase
      steps := s.steps.set index state }
  | .session s, .rtt log => .session { s with liveRtt := log }
  | .session s, .deviceFinished report =>
    .session { s with
      counts := s.counts.record report.uid report.outcome report.reprovision
      liveRtt := report.rttLog
      last := some (report.uid, report.outcome, report.error)
      phase := .idle
      uid := []
      icc := [] }
  | .session s, _ => .session s

/-- What the operator does on the screen of a session -/
inductive Act
  | edit (uid icc : Text)
  | check (checks : Checks)
  /-- Provision, or Enter behind the ICCID; `readable` tells whether the log can be read. -/
  | prepare (readable : Bool)
  | cancel
  /-- The warnings are acknowledged, or there are none. -/
  | proceed
  | retry
  | skip
deriving DecidableEq

namespace Session

/-- The inputs are enabled, or were in this frame. -/
def isOpen (s : Session) : Bool :=
  match s.phase with
  | .idle | .confirm .. => true
  | _ => false

def prepareStart (s : Session) (log : Option Text) : Session :=
  let s := { s with liveRtt := [], uid := normalizeUid s.uid, icc := trim s.icc }
  if s.uid.isEmpty || s.icc.isEmpty then s
  else
    let reprovision := IssuanceLog.containsUid log s.uid
    let warnings :=
      (uidWarning s.uid s.info.uidMin s.info.uidMax).toList ++
      (if s.checks.iccid && !iccidValid s.icc then [iccidWarning] else []) ++
      if reprovision then ["UID ".toList ++ s.uid ++ " is already in the log. Re-provision it?".toList] else []
    { s with phase := .confirm warnings s.uid s.icc reprovision }

/-- The session after an act, and the command that it sends; an act that is not offered does nothing. -/
def act (s : Session) (log : Option Text) : Act → Session × Option Command
  | .edit uid icc => (if s.isOpen then { s with uid := uid, icc := icc } else s, none)
  | .check checks => (if s.isOpen then { s with checks := checks } else s, none)
  | .prepare readable => (if s.isOpen then s.prepareStart (if readable then log else none) else s, none)
  | .cancel =>
    match s.phase with
    | .confirm (_ :: _) _ _ _ => ({ s with phase := .idle }, none)
    | _ => (s, none)
  | .proceed =>
    match s.phase with
    | .confirm _ uid icc reprovision =>
      ({ s with phase := .running }, some (.provision ⟨uid, icc, reprovision, s.checks⟩))
    | _ => (s, none)
  | .retry =>
    match s.phase with
    | .failed .. => ({ s with phase := .running }, some .retry)
    | _ => (s, none)
  | .skip =>
    match s.phase with
    | .failed .. => ({ s with phase := .running }, some .skip)
    | _ => (s, none)

end Session

/-! ### The worker -/

/-- What a session uses of the profile and its variant -/
structure Profile where
  deviceType : UInt8
  uidMin : ℕ
  uidMax : ℕ
  checks : Checks
  bootBanner : Text
  rttTimeoutS : ℕ
  mqttMarker : Text
  mqttTimeoutS : ℕ

def Profile.info (p : Profile) : SessionInfo := ⟨p.uidMin, p.uidMax, p.checks⟩

/-- A hexadecimal digit -/
def IsHex (c : Char) : Prop := c ∈ "0123456789abcdefABCDEF".toList

instance (c : Char) : Decidable (IsHex c) := inferInstanceAs (Decidable (c ∈ "0123456789abcdefABCDEF".toList))

structure IssuedCert where
  pem : Text
  serialHex : Text
  sha256Hex : Text
  hex : (∀ c ∈ serialHex, IsHex c) ∧ ∀ c ∈ sha256Hex, IsHex c

/-- A device in the hands of the worker -/
structure Device where
  request : Request
  profile : Profile
  issued : Option IssuedCert
  keyPem : Text
  config : List UInt8
  /-- The runs of its steps so far, and whether they succeeded -/
  runs : List (ℕ × Bool)

namespace Device

def new (request : Request) (profile : Profile) : Device := ⟨request, profile, none, [], [], []⟩

def ran (d : Device) (index : ℕ) (ok : Bool) : Device := { d with runs := d.runs ++ [(index, ok)] }

def row (d : Device) (issued : IssuedCert) : Row :=
  ⟨d.request.uid, d.request.icc, issued.serialHex, issued.sha256Hex⟩

end Device

/-- Where the worker waits: for a command, for the hardware, or for the operator -/
inductive Point
  | recv
  | starting
  | run (d : Device) (index : ℕ)
  | wait (d : Device) (index : ℕ)
  | reset (d : Device)
  | rtt (d : Device) (boot : BootLog)
  | mqtt (d : Device) (boot : BootLog)
  | panicked

/-- A turn of the loop of `wait_for`; the deadline may have passed, and an error has a message. -/
inductive Turn
  | poll (answer : Answer) (message : Text)
  | deadline

/-- What returns to the worker -/
inductive Call
  | recv
  /-- A start that failed may have written a part of the header. -/
  | started (result : Except (Text × Option ℕ) Profile)
  | issued (result : Except Text (IssuedCert × Text))
  | built
  | called (result : Except Text Unit)
  /-- An error may leave a part of the row behind. -/
  | appended (ts : Timestamp) (result : Except (Text × ℕ) Unit)
  | reset (result : Except Text Unit)
  | turn (turn : Turn)

inductive Op
  /-- The window rescans the probes, or starts a session. -/
  | rescan
  | start
  | act (act : Act)
  | handle
  | call (call : Call)
  /-- The worker sends an event. -/
  | send

structure World where
  screen : Screen
  commands : List Command
  events : List Event
  point : Point
  /-- The worker sends these before it goes on. -/
  outbox : List Event
  session : Option Profile
  /-- The issuance log -/
  log : Option Text
  /-- The log when the session started -/
  base : Option Text
  /-- Commands that the worker took and did nothing with -/
  ignored : List Command
  sent : List Request
  reports : List (Device × Report)

/-- A turn of `wait_for`: whether the log was updated, and what it returns unless it goes on -/
def BootLog.turn (std : Std) (boot : BootLog) (needle : Text) : Turn → BootLog × Bool × Option (Except Text Bool)
  | .deadline => (boot, false, some (.ok (seenAfterBanner std boot.log boot.banner needle)))
  | .poll answer message =>
    if seenAfterBanner std boot.log boot.banner needle then (boot, false, some (.ok true))
    else match boot.poll std answer with
      | none => (boot, false, some (.error message))
      | some polled =>
        (polled, (boot.attached || answer.attach) && answer.read.any fun bytes => 0 < bytes.length, none)

/-- `ensure!` of a wait -/
def ensureSeen (message : Text) : Except Text Bool → Except Text Unit
  | .ok true => .ok ()
  | .ok false => .error message
  | .error e => .error e

def notSeen (timeoutS : ℕ) : Text := s!"UID not seen in the boot log within {timeoutS} s".toList

def notConnected (timeoutS : ℕ) : Text := s!"no MQTT connection within {timeoutS} s".toList

namespace World

/-- `App::new` lists the probes. -/
def new (log : Option Text) : World :=
  ⟨.setup ⟨false, none⟩, [.listProbes], [], .recv, [], none, log, none, [], [], []⟩

variable (w : World)

def act (a : Act) : World :=
  match w.screen with
  | .session s =>
    let r := s.act w.log a
    { w with
      screen := .session r.1
      commands := w.commands ++ r.2.toList
      sent := w.sent ++ match r.2 with
        | some (.provision request) => [request]
        | _ => [] }
  | .setup _ => w

/-- `DeviceFinished` behind the last events of a device -/
def finish (events : List Event) (d : Device) (outcome : Outcome) (rttLog : Text) (error : Option Text) : World :=
  let report : Report := ⟨d.request.uid, outcome, d.request.reprovision, rttLog, error⟩
  { w with
    outbox := events ++ [.deviceFinished report]
    point := .recv
    reports := w.reports ++ [(d, report)] }

/-- All steps are pending. -/
def pendings : List Event := (List.range stepsLen).map fun index => .step index .pending

/-- `provision` until its first step runs -/
def provision (request : Request) : World :=
  match w.session with
  | some profile =>
    { w with outbox := pendings ++ [.step 0 .running], point := .run (.new request profile) 0 }
  | none =>
    { w with
      outbox := pendings ++ [.sessionFailed "no active session".toList]
      ignored := w.ignored ++ [.provision request] }

/-- A command of `run` -/
def dispatch : Command → World
  | .listProbes => { w with outbox := [.probes] }
  | .startSession => { w with point := .starting }
  | .provision request => w.provision request
  | .retry => { w with ignored := w.ignored ++ [.retry] }
  | .skip => { w with ignored := w.ignored ++ [.skip] }

/-- A command for a step that failed -/
def answer (d : Device) (index : ℕ) : Command → World
  | .retry => { w with outbox := [.step index .running], point := .run d index }
  | .skip => w.finish [] d .fail [] (some "skipped by operator".toList)
  | command => { w with ignored := w.ignored ++ [command] }

def recv : World :=
  match w.commands with
  | [] => w
  | command :: rest =>
    match w.point with
    | .recv => { w with commands := rest }.dispatch command
    | .wait d index => { w with commands := rest }.answer d index command
    | _ => w

/-- The end of `start_session` -/
def started : Except (Text × Option ℕ) Profile → World
  | .ok profile =>
    { w with
      outbox := [.sessionReady profile.info]
      point := .recv
      session := some profile
      log := some (IssuanceLog.init w.log)
      base := some (IssuanceLog.init w.log) }
  | .error (message, written) =>
    { w with
      outbox := [.sessionFailed message]
      point := .recv
      log := w.log <|> written.map fun n => (logHeader ++ ['\n']).take n }

/-- The end of a run of a step; the next one begins, or the operator is asked. -/
def stepped (d : Device) (index : ℕ) : Except Text Unit → World
  | .ok _ =>
    { w with
      outbox := [.step index .done, .step (index + 1) .running]
      point := if index < stepLog then .run (d.ran index true) (index + 1) else .reset (d.ran index true) }
  | .error message =>
    { w with
      outbox := [.step index (.failed message)]
      point := .wait (d.ran index false) index }

def built (d : Device) : World :=
  match d.issued with
  | none => w
  | some issued =>
    match build (.ofList d.request.uid) d.profile.deviceType (utf8 issued.pem) (utf8 d.keyPem) with
    | .ok config => w.stepped { d with config := config } 1 (.ok ())
    | .error (.err message) => w.stepped d 1 (.error message.toList)
    | .error .panic => { w with point := .panicked }

def appended (d : Device) (ts : Timestamp) (result : Except (Text × ℕ) Unit) : World :=
  match w.log, d.issued, result with
  | some log, some issued, .ok _ => { w with log := some (log ++ (d.row issued).text ts) }.stepped d stepLog (.ok ())
  | some log, some issued, .error (message, written) =>
    { w with log := some (log ++ ((d.row issued).text ts).take written) }.stepped d stepLog (.error message)
  | _, _, .error (message, _) => w.stepped d stepLog (.error message)
  | _, _, .ok _ => w

/-- The end of the RTT check -/
def booted (d : Device) (boot : BootLog) : Except Text Unit → World
  | .ok _ =>
    if d.request.checks.mqtt then
      { w with outbox := [.step stepRtt .done, .step stepMqtt .running], point := .mqtt d boot }
    else w.finish [.step stepRtt .done, .step stepMqtt .skipped] d .ok boot.log none
  | .error message =>
    w.finish [.step stepRtt (.failed message), .step stepMqtt .skipped] d .unverified boot.log (some message)

/-- The end of the MQTT check -/
def connected (d : Device) (boot : BootLog) : Except Text Unit → World
  | .ok _ => w.finish [.step stepMqtt .done] d .ok boot.log none
  | .error message => w.finish [.step stepMqtt (.failed message)] d .unverified boot.log (some message)

def reset (d : Device) : Except Text Unit → World
  | .ok _ => { w with point := .rtt d (.new d.profile.bootBanner) }
  | .error message => w.booted d (.new d.profile.bootBanner) (.error message)

def updates (updated : Bool) (boot : BootLog) : List Event := if updated then [.rtt boot.log] else []

variable (std : Std)

def rttTurn (d : Device) (boot : BootLog) (turn : Turn) : World :=
  match boot.turn std d.request.uid turn with
  | (boot, updated, none) => { w with outbox := updates updated boot, point := .rtt d boot }
  | (boot, _, some result) => w.booted d boot (ensureSeen (notSeen d.profile.rttTimeoutS) result)

def mqttTurn (d : Device) (boot : BootLog) (turn : Turn) : World :=
  match boot.turn std d.profile.mqttMarker turn with
  | (boot, updated, none) => { w with outbox := updates updated boot, point := .mqtt d boot }
  | (boot, _, some result) => w.connected d boot (ensureSeen (notConnected d.profile.mqttTimeoutS) result)

/-- The worker goes on, where it waits for what returns. -/
def call : Call → World
  | .recv => w.recv
  | .started result =>
    match w.point with
    | .starting => w.started result
    | _ => w
  | .issued result =>
    match w.point, result with
    | .run d 0, .ok (issued, keyPem) => w.stepped { d with issued := some issued, keyPem := keyPem } 0 (.ok ())
    | .run d 0, .error message => w.stepped d 0 (.error message)
    | _, _ => w
  | .built =>
    match w.point with
    | .run d 1 => w.built d
    | _ => w
  | .called result =>
    match w.point with
    | .run d index => if 2 ≤ index ∧ index < stepLog then w.stepped d index result else w
    | _ => w
  | .appended ts result =>
    match w.point with
    | .run d 6 => w.appended d ts result
    | _ => w
  | .reset result =>
    match w.point with
    | .reset d => w.reset d result
    | _ => w
  | .turn turn =>
    match w.point with
    | .rtt d boot => w.rttTurn std d boot turn
    | .mqtt d boot => w.mqttTurn std d boot turn
    | _ => w

def exec : Op → World
  | .rescan =>
    match w.screen with
    | .setup _ => { w with commands := w.commands ++ [.listProbes] }
    | .session _ => w
  | .start =>
    match w.screen with
    | .setup s =>
      if s.starting then w
      else { w with screen := .setup ⟨true, none⟩, commands := w.commands ++ [.startSession] }
    | .session _ => w
  | .act a => w.act a
  | .handle =>
    match w.events with
    | [] => w
    | event :: rest => { w with events := rest, screen := w.screen.handle event }
  | .call c => if w.outbox = [] then w.call std c else w
  | .send =>
    match w.outbox with
    | [] => w
    | event :: rest => { w with events := w.events ++ [event], outbox := rest }

/-- A run of the station whose operations meet `G` -/
def Run (G : World → Op → Prop) (log : Option Text) (w : World) : Prop := Reach (exec · std) G (new log) w

end World

end SensorLink.Provision
