import SensorLink.Lib.Bytes
import SensorLink.Lib.Slice

/-!
# The driver of the SPI flash, `drivers/spi_flash.rs`

The chip is what it answers to each transaction, from all that was sent to it; it may answer anything, and
any transaction may fail. The log has the transactions that the driver issued.
-/

namespace SensorLink.Flash.Spi

open SensorLink.Lib (leBytes ofLeBytes Stop)

/-! ### The descriptor -/

structure FlashDescriptor where
  pageSize : ℕ
  eraseSize : ℕ
  totalSize : ℕ
  -- sizes are of type `usize`, with 32 bits on the microcontroller
  totalSize_lt : totalSize < 2 ^ 32

inductive DescriptorError where
  | pageSizeInvalid
  | eraseSizeNotMultipleOfPage
  | totalSizeNotMultipleOfErase
  | eraseSizeNotMultipleMaxEraseSize
deriving DecidableEq

/-- Wrapper to enforce validation. -/
structure ValidFlashDescriptor (maxEraseSize : ℕ) extends FlashDescriptor where
  pageSize_pos : 0 < pageSize
  pageSize_pow : 2 ^ pageSize.log2 = pageSize
  page_dvd : pageSize ∣ eraseSize
  erase_dvd : eraseSize ∣ totalSize
  erase_dvd_max : eraseSize ∣ maxEraseSize

def FlashDescriptor.validate (d : FlashDescriptor) (maxEraseSize : ℕ) :
    Except DescriptorError (ValidFlashDescriptor maxEraseSize) :=
  if hpage : d.pageSize < 1 ∨ 2 ^ d.pageSize.log2 ≠ d.pageSize then .error .pageSizeInvalid
  else if herase : ¬d.pageSize ∣ d.eraseSize then .error .eraseSizeNotMultipleOfPage
  else if htotal : ¬d.eraseSize ∣ d.totalSize then .error .totalSizeNotMultipleOfErase
  else if hmax : ¬d.eraseSize ∣ maxEraseSize then .error .eraseSizeNotMultipleMaxEraseSize
  else .ok { d with
    pageSize_pos := Nat.not_lt.mp (not_or.mp hpage).1
    pageSize_pow := not_not.mp (not_or.mp hpage).2
    page_dvd := not_not.mp herase
    erase_dvd := not_not.mp htotal
    erase_dvd_max := not_not.mp hmax }

example : ∃ d, FlashDescriptor.validate ⟨256, 4096, 8 * 1024 * 1024, by decide⟩ 4096 = .ok d := ⟨_, rfl⟩

/-! ### The bus -/

inductive Error where
  | unSupported
  | sizeMismatch
  | spi
  | outOfBounds
  | alignment
  | write
  | timeout
deriving DecidableEq

inductive Mode where
  | b24
  | b32
deriving DecidableEq

inductive Command where
  | wakeup
  | sleep
  | readStatus
  | enter4ByteMode
  | writeEnable
  | eraseSector
  | eraseSector4B
  | programPage
deriving DecidableEq

/-- `cmd as u8` -/
def Command.code : Command → UInt8
  | wakeup => 0xAB
  | sleep => 0xB9
  | readStatus => 0x05
  | enter4ByteMode => 0xB7
  | writeEnable => 0x06
  | eraseSector => 0x20
  | eraseSector4B => 0x21
  | programPage => 0x02

/-- The bytes that a transaction writes, and how many it reads after them -/
structure Transaction where
  written : List UInt8
  read : ℕ
deriving DecidableEq

/-- The bytes that are read, or a failure, for the transactions so far -/
abbrev Chip := List Transaction → Option (ℕ → UInt8)

/-- `SPIFlash` with its device -/
structure State where
  awake : Bool
  mode : Mode
  log : List Transaction

/-- `SPIFlash::new` -/
def State.new : State := ⟨false, .b24, []⟩

/-- A method of the driver -/
abbrev Driver := EStateM (Stop Error) State

section Methods

variable {α : Type}

/-- The `Result` of a method, as a value -/
def result (m : Driver α) : Driver (Except Error α) := fun s =>
  match m s with
  | .ok a s' => .ok (.ok a) s'
  | .error (.err e) s' => .ok (.error e) s'
  | .error .panic s' => .error .panic s'

/-- `?`, for a `Result` -/
def ofResult : Except Error α → Driver α
  | .ok a => pure a
  | .error e => throw (.err e)

variable (chip : Chip)

/-- `transaction(..).map_err(|_| Error::SPI)` -/
def transaction (t : Transaction) : Driver (ℕ → UInt8) := fun s =>
  let s' := { s with log := s.log ++ [t] }
  match chip s'.log with
  | some read => .ok read s'
  | none => .error (.err .spi) s'

def sendCommand (cmd : Command) : Driver Unit := do
  let _ ← transaction chip ⟨[cmd.code], 0⟩

/-- `Status::is_busy` -/
def isBusy (status : UInt8) : Bool := status &&& 1 != 0

/-- `Status::is_write_enable_set` -/
def isWriteEnableSet (status : UInt8) : Bool := status &&& 2 != 0

def status : Driver UInt8 := do
  let read ← transaction chip ⟨[Command.readStatus.code], 1⟩
  return read 0

def isReadyLoop : ℕ → Driver Unit
  | 0 => throw (.err .timeout)
  | n + 1 => do
    if isBusy (← status chip) then isReadyLoop n else pure ()

/-- Await the completion of the last operation; the pauses between the polls are left out. -/
def isReady : Driver Unit := isReadyLoop chip 10

/-- Must always be performed before each write or erase. -/
def writeEnable : Driver Unit := do
  sendCommand chip .writeEnable
  if isWriteEnableSet (← status chip) then pure () else throw (.err .write)

/-- Write a command with its address and data to an enabled chip, and await its completion. -/
def programPage (cmdAddr bytes : List UInt8) : Driver Unit := do
  writeEnable chip
  let _ ← transaction chip ⟨cmdAddr ++ bytes, 0⟩
  isReady chip

/-! ### Sleep -/

def sleepLoop : ℕ → Driver Unit
  | 0 => pure ()
  | n + 1 => do
    match ← result (sendCommand chip .sleep) with
    | .ok () => pure ()
    | .error _ => sleepLoop n

/-- `Sleepy::sleep` -/
def sleep : Driver Unit := do
  modify fun s => { s with awake := false }
  sleepLoop chip 2

/-- The attempts to wake the chip that are left -/
def wakeupLoop : ℕ → Driver Unit
  | 0 => pure ()
  | n + 1 => do
    match ← result (sendCommand chip .wakeup) with
    | .ok () => pure ()
    | .error e =>
      if n = 0 then
        sleep chip
        throw (.err e)
      else wakeupLoop n

/-- `Sleepy::wakeup` -/
def wakeup : Driver Unit := do
  if !(← get).awake then
    wakeupLoop chip 5
    modify fun s => { s with awake := true }

/-! ### Addresses -/

/-- `u32::to_be_bytes` -/
def toBeBytes (addr : UInt32) : List UInt8 := (leBytes 4 addr.toNat).reverse

/-- The command and the address; the top byte of the address is dropped in the mode with three bytes. -/
def cmdAndAddr (cmd : Command) (addr : UInt32) : Mode → List UInt8
  | .b24 => cmd.code :: (toBeBytes addr).drop 1
  | .b32 => cmd.code :: toBeBytes addr

def boundsCheck (address : UInt32) (len : ℕ) (minAddr : UInt32) (maxLen : ℕ) : Except Error UInt32 :=
  if address < minAddr then .error .outOfBounds
  else if maxLen < len then .error .outOfBounds
  else
    let offset := address - minAddr
    if UInt32.ofNat (maxLen - len) < offset then .error .outOfBounds else .ok address

variable {maxEraseSize : ℕ} (cfg : ValidFlashDescriptor maxEraseSize)

/-- The switch to addresses with four bytes -/
def enter4ByteMode : Driver Unit := do
  wakeup chip
  match ← result (sendCommand chip .enter4ByteMode) with
  | .error err =>
    sleep chip
    throw (.err err)
  | .ok () => modify fun s => { s with mode := .b32 }

/-- The `match self.mode` of `init_and_check_addr`: a chip with more than 16 MB is switched. -/
def switchMode : Driver Unit := do
  match (← get).mode with
  | .b32 => pure ()
  | .b24 =>
    if 0x1000000 < cfg.totalSize then enter4ByteMode chip else pure ()

def initAndCheckAddr (addr : UInt32) (len : ℕ) : Driver (UInt32 × Mode) := do
  let addr ← ofResult (boundsCheck addr len 0 cfg.totalSize)
  switchMode chip cfg
  let mode := (← get).mode
  wakeup chip
  return (addr, mode)

/-! ### Program and erase -/

/-- The loop of `program`, one page in each turn -/
def programLoop (programSize : ℕ) (addr : UInt32) (mode : Mode) (bytes : List UInt8) (blockOffset : ℕ) :
    Driver Unit :=
  let blockAddress := addr + UInt32.ofNat blockOffset
  let blockMaxLen := programSize - blockAddress.toNat % programSize
  let bytesToProgram := min (bytes.length - blockOffset) blockMaxLen
  if _hdone : bytesToProgram = 0 then pure ()
  else do
    programPage chip (cmdAndAddr .programPage blockAddress mode)
      ((bytes.drop blockOffset).take bytesToProgram)
    programLoop programSize addr mode bytes (blockOffset + bytesToProgram)
termination_by bytes.length - blockOffset
decreasing_by
  change bytes.length - (blockOffset + bytesToProgram) < bytes.length - blockOffset
  omega

def program (address : UInt32) (bytes : List UInt8) : Driver Unit := do
  let (addr, mode) ← initAndCheckAddr chip cfg address bytes.length
  let result ← result (programLoop chip cfg.pageSize addr mode bytes 0)
  sleep chip
  ofResult result

/-- `(0..len).step_by(step)`, for a step that is not zero -/
def stepBy (len step : ℕ) : List ℕ := (List.range ((len + step - 1) / step)).map (· * step)

/-- The command to erase: the opcode with four bytes is explicit. -/
def eraseCommand : Mode → Command
  | .b24 => .eraseSector
  | .b32 => .eraseSector4B

/-- The loop of `erase` over the offsets of the sectors -/
def eraseLoop (addr : UInt32) (mode : Mode) : List ℕ → Driver Unit
  | [] => pure ()
  | offset :: offsets => do
    writeEnable chip
    let _ ← transaction chip ⟨cmdAndAddr (eraseCommand mode) (addr + UInt32.ofNat offset) mode, 0⟩
    isReady chip
    eraseLoop addr mode offsets

/-- The start and the length of the `ErasedRange`. A step of zero is a panic. -/
def erase (address : UInt32) (len : ℕ) : Driver (UInt32 × ℕ) := do
  let (addr, mode) ← initAndCheckAddr chip cfg address len
  if ¬(cfg.eraseSize ∣ addr.toNat ∧ cfg.eraseSize ∣ len) then
    sleep chip
    throw (.err .alignment)
  else if cfg.eraseSize = 0 then throw .panic
  else
    let error ← result (eraseLoop chip addr mode (stepBy len cfg.eraseSize))
    sleep chip
    ofResult error
    return (addr, len)

/-- `ErasedRange::write`, for a range from `startAddr` with `maxLen` bytes -/
def write (startAddr : UInt32) (maxLen : ℕ) (address : UInt32) (bytes : List UInt8) : Driver Unit := do
  let addr ← ofResult (boundsCheck address bytes.length startAddr maxLen)
  program chip cfg addr bytes

end Methods

end SensorLink.Flash.Spi
