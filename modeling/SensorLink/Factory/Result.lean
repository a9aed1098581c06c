import Mathlib.Data.Nat.Bitwise
import Mathlib.Logic.Function.Basic
import SensorLink.Lib.Tasks

/-!
# The verdict of the factory test, from `result.rs`, `factory.rs` and `factory_test.rs`

All of it lives in atomics, which the test sequence and the deadline task change. A function is the task of
its loads and stores.
-/

namespace SensorLink.Factory

open Lib

inductive Zone
  | board
  | modem
deriving DecidableEq

/-- `Zone::ALL` -/
def Zone.all : List Zone := [.board, .modem]

inductive BoardFault
  | mcu
  | charger
  | rails
  | temperature
  | firmware
deriving DecidableEq

inductive ModemFault
  | noResponse
  | sim
  | overcurrent
  | noCurrent
  | model
deriving DecidableEq

inductive Fault
  | board (fault : BoardFault)
  | modem (fault : ModemFault)
deriving DecidableEq

namespace Fault

def zone : Fault → Zone
  | board _ => .board
  | modem _ => .modem

/-- The number of flashes -/
def code : Fault → ℕ
  | board .mcu => 2
  | board .charger => 3
  | board .rails => 4
  | board .temperature => 5
  | board .firmware => 6
  | modem .noResponse => 2
  | modem .sim => 3
  | modem .overcurrent => 4
  | modem .noCurrent => 5
  | modem .model => 6

end Fault

inductive Step
  | boot
  | charger
  | rails
  | temperature
  | modemRail
  | modemAt
  | modemSim
  | modemCurrent
deriving DecidableEq

namespace Step

/-- `Step::ALL` -/
def all : List Step :=
  [boot, charger, rails, temperature, modemRail, modemAt, modemSim, modemCurrent]

def code : Step → ℕ
  | boot => 1
  | charger => 2
  | rails => 3
  | temperature => 4
  | modemRail => 5
  | modemAt => 6
  | modemSim => 7
  | modemCurrent => 8

def bit (step : Step) : ℕ := 2 ^ (step.code - 1)

def zone : Step → Zone
  | boot | charger | rails | temperature => .board
  | modemRail | modemAt | modemSim | modemCurrent => .modem

/-- The fault of a step that fails without naming one -/
def defaultFault : Step → Fault
  | boot => .board .mcu
  | charger => .board .charger
  | rails => .board .rails
  | temperature => .board .temperature
  | modemRail => .modem .noCurrent
  | modemAt => .modem .noResponse
  | modemSim => .modem .sim
  | modemCurrent => .modem .overcurrent

end Step

inductive ZonePhase
  | idle
  | running
  | pass
  | fail
deriving DecidableEq

inductive Phase
  | running
  | pass
  | fail
deriving DecidableEq

/-- REPORTED, FAILED, PHASE, CURRENT, ZONE_PHASE and ZONE_FAULT -/
structure Atomics where
  reported : ℕ
  failed : ℕ
  phase : Phase
  current : ℕ
  zonePhase : Zone → ZonePhase
  zoneFault : Zone → ℕ

inductive Op
  | storeCurrent (code : ℕ)
  | loadReported
  | orReported (bits : ℕ)
  | loadFailed
  | orFailed (bits : ℕ)
  | loadPhase
  | storePhase (phase : Phase)
  | loadZonePhase (zone : Zone)
  | storeZonePhase (zone : Zone) (phase : ZonePhase)
  | loadZoneFault (zone : Zone)
  /-- The exchange of 0 for the code of a fault -/
  | exchangeZoneFault (fault : Fault)
deriving DecidableEq

abbrev Op.Answer : Op → Type
  | loadReported | loadFailed | loadZoneFault _ => ℕ
  | loadPhase => Phase
  | loadZonePhase _ => ZonePhase
  | _ => Unit

def act : (o : Op) → Atomics → o.Answer × Atomics
  | .storeCurrent code, s => ((), { s with current := code })
  | .loadReported, s => (s.reported, s)
  | .orReported bits, s => ((), { s with reported := s.reported ||| bits })
  | .loadFailed, s => (s.failed, s)
  | .orFailed bits, s => ((), { s with failed := s.failed ||| bits })
  | .loadPhase, s => (s.phase, s)
  | .storePhase phase, s => ((), { s with phase := phase })
  | .loadZonePhase zone, s => (s.zonePhase zone, s)
  | .storeZonePhase zone phase, s => ((), { s with zonePhase := Function.update s.zonePhase zone phase })
  | .loadZoneFault zone, s => (s.zoneFault zone, s)
  | .exchangeZoneFault fault, s =>
    ((), if s.zoneFault fault.zone = 0 then
      { s with zoneFault := Function.update s.zoneFault fault.zone fault.code } else s)

abbrev FactoryTask := Task Op Op.Answer

def atomic (o : Op) : FactoryTask o.Answer := .perform o

/-! ### `result.rs` -/

def setCurrent (step : Step) : FactoryTask Unit := atomic (.storeCurrent step.code)

def zoneFault (zone : Zone) : FactoryTask (Option ℕ) := do
  match ← atomic (.loadZoneFault zone) with
  | 0 => return none
  | code + 1 => return some (code + 1)

def zonePhase (zone : Zone) : FactoryTask ZonePhase := atomic (.loadZonePhase zone)

def setZonePhase (zone : Zone) (phase : ZonePhase) : FactoryTask Unit := do
  if (← zonePhase zone) = .fail ∧ phase ≠ .fail then return
  else atomic (.storeZonePhase zone phase)

def record (step : Step) (ok : Bool) : FactoryTask Unit := do
  atomic (.orReported step.bit)
  if !ok then
    atomic (.orFailed step.bit)
    setZonePhase step.zone .fail

def armFault (fault : Fault) : FactoryTask Unit := atomic (.exchangeZoneFault fault)

def fail (fault : Fault) : FactoryTask Unit := do
  armFault fault
  setZonePhase fault.zone .fail

def reported (step : Step) : FactoryTask Bool := do
  return (← atomic .loadReported) &&& step.bit != 0

def phase : FactoryTask Phase := atomic .loadPhase

def setPhase (phase : Phase) : FactoryTask Unit := atomic (.storePhase phase)

def failUnreported : FactoryTask Unit :=
  Step.all.forM fun step => do
    if ← reported step then return
    else record step false

def anythingFailed : FactoryTask Bool := do
  if (← atomic .loadFailed) ≠ 0 then return true
  else Zone.all.anyM fun zone => return (← zonePhase zone) = .fail

/-- The part of `publish_verdict` behind the check that the run has not ended -/
def publish : FactoryTask Unit := do
  Zone.all.forM fun zone => do
    if (← zonePhase zone) = .running then setZonePhase zone .pass
  setPhase (if ← anythingFailed then .fail else .pass)

/-- `publish_verdict`; the summary that `finish` logs behind it only loads. -/
def publishVerdict : FactoryTask Unit := do
  if (← phase) ≠ .running then return
  else publish

/-! ### `factory.rs` -/

class Outcome (O : Type) where
  passed : O → Bool
  timedOut : O

instance : Outcome Bool := ⟨id, false⟩

instance {α : Type} : Outcome (Option α) := ⟨Option.isSome, none⟩

/-- What a check says of faults while it runs: arm_fault and fail -/
inductive Mark
  | arm (fault : Fault)
  | fail (fault : Fault)
deriving DecidableEq

def Mark.perform : Mark → FactoryTask Unit
  | arm fault => armFault fault
  | fail fault => Factory.fail fault

/-- A check: the marks that it makes, and its outcome, or none if its time is over before -/
structure Check (O : Type) where
  marks : List Mark
  outcome : Option O

def run {O : Type} [Outcome O] (step : Step) (check : Check O) : FactoryTask O := do
  setCurrent step
  setZonePhase step.zone .running
  check.marks.forM Mark.perform
  let outcome := check.outcome.getD Outcome.timedOut
  let ok := Outcome.passed outcome
  record step ok
  if !ok then
    if (← zoneFault step.zone).isNone then fail step.defaultFault
  return outcome

/-! ### `factory_test.rs` -/

structure Checks where
  boot : Check Bool
  charger : Check Bool
  rails : Check (Option ℤ)
  temperature : Check Bool
  modemRail : Check Bool
  modemAt : Check Bool
  modemSim : Check Bool
  modemCurrent : Check Bool

def modemSteps (checks : Checks) : FactoryTask Unit := do
  if !(← run .modemRail checks.modemRail) then return
  else
    if ← run .modemAt checks.modemAt then
      let _ ← run .modemSim checks.modemSim
    let _ ← run .modemCurrent checks.modemCurrent

/-- The match on the outcome of the rails: a jig that failed its self-test cannot judge a module. -/
def judgeModem (checks : Checks) : Option ℤ → FactoryTask Unit
  | some _ => do if (← zonePhase .board) ≠ .fail then modemSteps checks
  | none => return

/-- `sequence`, where `panicked` says that the previous run ended in a panic -/
def sequence (panicked : Bool) (checks : Checks) : FactoryTask Unit := do
  if panicked then
    setCurrent .boot
    fail (.board .firmware)
    publishVerdict
  else
    let _ ← run .boot checks.boot
    let _ ← run .charger checks.charger
    let ibusBaseline ← run .rails checks.rails
    let _ ← run .temperature checks.temperature
    judgeModem checks ibusBaseline
    publishVerdict

/-- `deadline`, when its time has come -/
def deadline : FactoryTask Unit := do
  if (← phase) ≠ .running then return
  else
    failUnreported
    fail (.board .firmware)
    publishVerdict

def initial : Atomics where
  reported := 0
  failed := 0
  phase := .running
  current := 0
  zonePhase _ := .idle
  zoneFault _ := 0

end SensorLink.Factory
