import Mathlib.Algebra.Order.BigOperators.Group.List
import Mathlib.Algebra.Order.Group.Nat
import Mathlib.Algebra.Order.Ring.Int
import Mathlib.Data.List.SplitBy
import Mathlib.Tactic.Common
import SensorLink.Lib.Stateful

/-!
# The I2C driver of `i2c.rs`

A transaction is a list of reads and writes; adjacent ones of the same direction are one run on the bus.
What the hardware answers is `Answers`: whether it has cleared the START bit by an access, how a wait ends,
and the bytes that are received. The bus remembers what was written to CR2 and TXDR.
-/

namespace SensorLink.Bsp

open Lib.Stateful

inductive I2cError
  | busy
  | timeout
  | bus
  | arbitration
  | nack
  | maxLength
  | invalidAddress
deriving DecidableEq

/-- `Event` -/
inductive I2cEvent
  | txdrEmpty
  | stop
  | transferComplete
  | rxNotEmpty
deriving DecidableEq

/-- `End` -/
inductive EndCondition
  | stop
  | none
deriving DecidableEq

/-- `embedded_hal_async::i2c::Operation` -/
inductive Operation
  | read (buffer : List UInt8)
  | write (bytes : List UInt8)
deriving DecidableEq

/-- The fields of CR2 that are written with START -/
structure Cr2 where
  sadd : ℕ
  rdWrn : Bool
  nbytes : ℕ
  autoend : Bool
deriving DecidableEq

structure Answers where
  startCleared : ℕ → Bool
  waitResult : ℕ → Option I2cError
  received : ℕ → UInt8

/-- The START bit; what was written to CR2 with START, and to TXDR; the number of accesses -/
structure Bus where
  start : Bool
  programmed : List Cr2
  transmitted : List UInt8
  accesses : ℕ
deriving DecidableEq

/-- A function of the driver -/
abbrev I2c := EStateM I2cError Bus

section Driver

variable (a : Answers)

/-- CR2.START is read: the hardware clears it when the start condition and the address have been sent. -/
def readStart : I2c Bool := do
  let s ← get
  let start := s.start && !a.startCleared s.accesses
  set { s with start := start, accesses := s.accesses + 1 }
  return start

/-- CR2 is written with START. -/
def program (cr2 : Cr2) : I2c Unit :=
  modify fun s => { s with start := true, programmed := s.programmed ++ [cr2] }

/-- `prepare_write` and `prepare_read`, with RD_WRN -/
def prepare (rdWrn : Bool) (address len : ℕ) (endCondition : EndCondition) : I2c Unit := do
  if 0x80 ≤ address then throw .invalidAddress
  -- start bit already set
  if ← readStart a then throw .busy
  if 255 < len then throw .maxLength
  program ⟨address <<< 1, rdWrn, len, endCondition = .stop⟩

def prepareWrite (address len : ℕ) (endCondition : EndCondition) : I2c Unit :=
  prepare a false address len endCondition

def prepareRead (address len : ℕ) (endCondition : EndCondition) : I2c Unit :=
  prepare a true address len endCondition

/-- `wait_untill`: each event comes after the address was sent, and an error clears CR2. -/
def waitUntill (_event : I2cEvent) : I2c Unit := do
  let s ← get
  set { s with start := false, accesses := s.accesses + 1 }
  match a.waitResult s.accesses with
  | none => return
  | some e => throw e

def readRxdr : I2c UInt8 := do
  let s ← get
  set { s with accesses := s.accesses + 1 }
  return a.received s.accesses

def writeTxdr (byte : UInt8) : I2c Unit :=
  modify fun s => { s with transmitted := s.transmitted ++ [byte], accesses := s.accesses + 1 }

/-- The end of `inner_read` and `inner_write` -/
def awaitEnd (endCondition : EndCondition) : I2c Unit := do
  if endCondition = .stop then waitUntill a .stop
  else if ← readStart a then waitUntill a .transferComplete

def readBytes : List UInt8 → I2c (List UInt8)
  | [] => return []
  | _ :: data => do
    waitUntill a .rxNotEmpty
    let byte ← readRxdr a
    let data ← readBytes data
    return byte :: data

def innerRead (data : List UInt8) (endCondition : EndCondition) : I2c (List UInt8) := do
  let data ← readBytes a data
  awaitEnd a endCondition
  return data

/-- No wait after the last byte -/
def writeBytes : List UInt8 → I2c Unit
  | [] => return
  | [byte] => writeTxdr byte
  | byte :: data => do
    writeTxdr byte
    waitUntill a .txdrEmpty
    writeBytes data

def innerWrite (data : List UInt8) (endCondition : EndCondition) : I2c Unit := do
  writeBytes a data
  awaitEnd a endCondition

end Driver

namespace Operation

def isRead : Operation → Bool
  | read _ => true
  | write _ => false

def len : Operation → ℕ
  | read buffer => buffer.length
  | write bytes => bytes.length

/-- What the filter of `transaction` keeps -/
def nonempty (op : Operation) : Bool := 0 < op.len

end Operation

/-- The loop of `transaction`, which skips the empty operations; a last one has no other one behind it. The
operations are given back with their buffers. -/
def transactionLoop (a : Answers) (address : ℕ) : List Operation → Bool → Bool → I2c (List Operation)
  | [], _, _ => return []
  | op :: ops, first, wasReading =>
    if op.nonempty then do
      -- stop bit only if this is the last op
      let endCondition := if ops.any Operation.nonempty then EndCondition.none else .stop
      match op with
      | .read data => do
        -- first op or change from write to read
        if first || !wasReading then prepareRead a address data.length endCondition
        let data ← innerRead a data endCondition
        let ops ← transactionLoop a address ops false true
        return .read data :: ops
      | .write data => do
        -- first op or change from read to write
        if first || wasReading then prepareWrite a address data.length endCondition
        innerWrite a data endCondition
        let ops ← transactionLoop a address ops false false
        return .write data :: ops
    else do
      let ops ← transactionLoop a address ops first wasReading
      return op :: ops

/-- `transaction` -/
def transaction (a : Answers) (address : ℕ) (operations : List Operation) : I2c (List Operation) :=
  transactionLoop a address operations true false

/-- The states between transactions, whatever the hardware answers in them -/
inductive Reached : Bus → Prop
  | enabled : Reached ⟨false, [], [], 0⟩
  | transaction {s : Bus} (a : Answers) (address : ℕ) (operations : List Operation) :
    Reached s → Reached (after (transaction a address operations s))

/-! ### What the contract asks for -/

/-- The runs of adjacent non-empty operations of the same direction -/
def runsOf (operations : List Operation) : List (List Operation) :=
  (operations.filter Operation.nonempty).splitBy fun op op' => op.isRead == op'.isRead

/-- The bytes of a run -/
def total (run : List Operation) : ℕ := (run.map Operation.len).sum

/-- One START for each run, with its direction and its bytes, and a STOP behind the last one -/
def startsOf (address : ℕ) : List (List Operation) → List Cr2
  | [] => []
  | run :: runs =>
    ⟨address <<< 1, run.head?.elim false Operation.isRead, total run, runs.isEmpty⟩ ::
      startsOf address runs

/-- A transaction succeeds, and its STARTs are those of its runs. -/
def FollowsContract (a : Answers) (address : ℕ) (operations : List Operation) (s : Bus) : Prop :=
  ∃ operations' s', transaction a address operations s = .ok operations' s' ∧
    s'.programmed = s.programmed ++ startsOf address (runsOf operations)

/-! ### What is issued -/

/-- The STARTs that the loop issues for non-empty operations, behind one of the direction `prev`: only the
first operation of a run is counted. -/
def issued (address : ℕ) : Option Bool → List Operation → List Cr2
  | _, [] => []
  | prev, op :: ops =>
    (if prev = some op.isRead then [] else [⟨address <<< 1, op.isRead, op.len, ops.isEmpty⟩]) ++
      issued address (some op.isRead) ops

section Run

variable {α : Type} {a : Answers} {address : ℕ} {s : Bus}

/-! ### What each function does -/

lemma readStart_eq (a : Answers) (s : Bus) :
    readStart a s = .ok (s.start && !a.startCleared s.accesses)
      { s with
        start := s.start && !a.startCleared s.accesses
        accesses := s.accesses + 1 } := rfl

lemma prepare_eq (a : Answers) (rdWrn : Bool) (address len : ℕ) (endCondition : EndCondition) (s : Bus) :
    prepare a rdWrn address len endCondition s =
      if 0x80 ≤ address then .error .invalidAddress s
      else if s.start && !a.startCleared s.accesses then
        .error .busy { s with start := true, accesses := s.accesses + 1 }
      else if 255 < len then .error .maxLength { s with start := false, accesses := s.accesses + 1 }
      else .ok ()
        { s with
          start := true
          programmed := s.programmed ++ [⟨address <<< 1, rdWrn, len, endCondition = .stop⟩]
          accesses := s.accesses + 1 } := by
  unfold prepare
  by_cases haddr : 0x80 ≤ address
  · rw [if_pos haddr, if_pos haddr]
    rfl
  rw [if_neg haddr, if_neg haddr]
  refine (bind_ok (readStart_eq a s) _).trans ?_
  by_cases hstart : (s.start && !a.startCleared s.accesses) = true
  · rw [if_pos hstart, if_pos hstart, hstart]
    rfl
  rw [if_neg hstart, if_neg hstart, Bool.eq_false_iff.mpr hstart]
  by_cases hlen : 255 < len
  · rw [if_pos hlen]
    simp only [hlen, if_true]
    rfl
  · rw [if_neg hlen]
    simp only [hlen, if_false]
    rfl

lemma waitUntill_eq (a : Answers) (event : I2cEvent) (s : Bus) :
    waitUntill a event s = match a.waitResult s.accesses with
      | none => .ok () { s with start := false, accesses := s.accesses + 1 }
      | some e => .error e { s with start := false, accesses := s.accesses + 1 } := by
  have hrun : waitUntill a event s = (match a.waitResult s.accesses with
    | none => pure ()
    | some e => throw e : I2c Unit) { s with start := false, accesses := s.accesses + 1 } := rfl
  rw [hrun]
  cases a.waitResult s.accesses <;> rfl

/-! ### The START bit between transactions -/

def Clear (s : Bus) : Prop := s.start = false

lemma prepare_clear (rdWrn : Bool) (len : ℕ) (endCondition : EndCondition) :
    Ends Clear (prepare a rdWrn address len endCondition) (fun _ => True) Clear := by
  intro s hs
  rw [prepare_eq, hs, Bool.false_and, if_neg Bool.false_ne_true]
  split_ifs
  · exact hs
  · exact rfl
  · exact trivial

lemma waitUntill_clear (event : I2cEvent) : Ends (fun _ => True) (waitUntill a event) Clear Clear := by
  intro s _
  rw [waitUntill_eq]
  cases a.waitResult s.accesses with
  | none => exact rfl
  | some e => exact rfl

lemma wait_ends (event : I2cEvent) :
    Ends (fun _ => True) (waitUntill a event) (fun _ => True) Clear :=
  (waitUntill_clear event).mono (fun _ h => h) fun _ _ => trivial

lemma readRxdr_ends : Ends (fun _ => True) (readRxdr a) (fun _ => True) Clear := fun _ _ => trivial

lemma writeTxdr_ends (byte : UInt8) : Ends (fun _ => True) (writeTxdr byte) (fun _ => True) Clear :=
  fun _ _ => trivial

lemma readBytes_ends (data : List UInt8) :
    Ends (fun _ => True) (readBytes a data) (fun _ => True) Clear := by
  induction data with
  | nil => exact Ends.pure _
  | cons b data ih =>
    rw [readBytes]
    exact (wait_ends _).bind fun _ => readRxdr_ends.bind fun _ => ih.bind fun _ => Ends.pure _

lemma writeBytes_ends (data : List UInt8) :
    Ends (fun _ => True) (writeBytes a data) (fun _ => True) Clear := by
  induction data using writeBytes.induct with
  | case1 => exact Ends.pure _
  | case2 byte => exact writeTxdr_ends byte
  | case3 byte data hne ih =>
    rw [writeBytes]
    · exact (writeTxdr_ends byte).bind fun _ => (wait_ends _).bind fun _ => ih
    · exact hne

/-- With End::None the START bit is read, and only waited for if it is set. -/
lemma awaitEnd_clear (endCondition : EndCondition) :
    Ends (fun _ => True) (awaitEnd a endCondition) Clear Clear := by
  unfold awaitEnd
  by_cases hstop : endCondition = .stop
  · rw [if_pos hstop]
    exact waitUntill_clear _
  rw [if_neg hstop]
  intro s _
  rw [bind_ok (readStart_eq a s)]
  by_cases hset : (s.start && !a.startCleared s.accesses) = true
  · rw [if_pos hset]
    exact waitUntill_clear _ _ trivial
  · rw [if_neg hset]
    exact Bool.eq_false_iff.mpr hset

lemma innerRead_clear (data : List UInt8) (endCondition : EndCondition) :
    Ends (fun _ => True) (innerRead a data endCondition) Clear Clear :=
  (readBytes_ends data).bind fun _ => (awaitEnd_clear endCondition).bind fun _ => Ends.pure _

lemma innerWrite_clear (data : List UInt8) (endCondition : EndCondition) :
    Ends (fun _ => True) (innerWrite a data endCondition) Clear Clear :=
  (writeBytes_ends data).bind fun _ => awaitEnd_clear endCondition

/-- An operation that may have a START of its own -/
lemma started_clear {rest : I2c α} (hrest : Ends (fun _ => True) rest Clear Clear) (starts rdWrn : Bool)
    (len : ℕ) (endCondition : EndCondition) :
    Ends Clear (if starts then do prepare a rdWrn address len endCondition; rest else rest) Clear Clear := by
  cases starts with
  | false => exact hrest.mono (fun _ _ => trivial) fun _ h => h
  | true => exact (prepare_clear rdWrn len endCondition).bind fun _ => hrest

lemma transactionLoop_clear (operations : List Operation) (first wasReading : Bool) :
    Ends Clear (transactionLoop a address operations first wasReading) Clear Clear := by
  induction operations generalizing first wasReading with
  | nil => exact Ends.pure _
  | cons op ops ih =>
    rw [transactionLoop]
    by_cases hne : op.nonempty = true
    · rw [if_pos hne]
      cases op with
      | read data =>
        exact started_clear
          ((innerRead_clear data _).bind fun _ => (ih false true).bind fun _ => Ends.pure _) _ true _ _
      | write data =>
        exact started_clear
          ((innerWrite_clear data _).bind fun _ => (ih false false).bind fun _ => Ends.pure _) _ false _ _
    · rw [if_neg hne]
      exact (ih first wasReading).bind fun _ => Ends.pure _

/-- Between transactions the START bit is clear. -/
lemma Reached.clear (hs : Reached s) : s.start = false := by
  induction hs with
  | enabled => rfl
  | transaction a address operations _ ih => exact (transactionLoop_clear operations true false).after ih

/-! ### A transaction whose waits succeed -/

/-- Every wait succeeds. -/
def Answers.Succeeds (a : Answers) : Prop := ∀ i, a.waitResult i = none

/-- A program returns and leaves CR2 to the others. -/
def Runs (m : I2c α) : Prop :=
  Total m (fun _ => True) ∧ Keeps (fun s s' => s'.programmed = s.programmed) m

lemma sameProgram : Frame fun s s' : Bus => s'.programmed = s.programmed :=
  ⟨fun _ => rfl, fun h h' => h'.trans h⟩

lemma Runs.bind {β : Type} {m : I2c α} {f : α → I2c β} (hm : Runs m) (hf : ∀ b, Runs (f b)) :
    Runs (m >>= f) :=
  ⟨hm.1.bind fun b _ => (hf b).1, Keeps.bind sameProgram hm.2 fun b => (hf b).2⟩

lemma Runs.pure (b : α) : Runs (pure b : I2c α) := ⟨Total.pure trivial, Keeps.pure sameProgram b⟩

lemma Runs.ok {m : I2c α} (hm : Runs m) (s : Bus) :
    ∃ b s', m s = .ok b s' ∧ s'.programmed = s.programmed := by
  obtain ⟨b, s', hrun, -⟩ := hm.1 s
  have hkeep := hm.2 s
  rw [hrun] at hkeep
  exact ⟨b, s', hrun, hkeep⟩

lemma waitUntill_ok (h : a.Succeeds) (event : I2cEvent) (s : Bus) :
    waitUntill a event s = .ok () { s with start := false, accesses := s.accesses + 1 } := by
  rw [waitUntill_eq, h s.accesses]

lemma waitUntill_runs (h : a.Succeeds) (event : I2cEvent) : Runs (waitUntill a event) := by
  refine ⟨fun s => ⟨_, _, waitUntill_ok h event s, trivial⟩, fun s => ?_⟩
  rw [waitUntill_ok h event s]
  rfl

lemma readRxdr_runs : Runs (readRxdr a) := ⟨fun _ => ⟨_, _, rfl, trivial⟩, fun _ => rfl⟩

lemma writeTxdr_runs (byte : UInt8) : Runs (writeTxdr byte) :=
  ⟨fun _ => ⟨_, _, rfl, trivial⟩, fun _ => rfl⟩

lemma readBytes_runs (h : a.Succeeds) (data : List UInt8) : Runs (readBytes a data) := by
  induction data with
  | nil => exact Runs.pure _
  | cons b data ih =>
    rw [readBytes]
    exact (waitUntill_runs h _).bind fun _ => readRxdr_runs.bind fun _ => ih.bind fun _ => Runs.pure _

lemma writeBytes_runs (h : a.Succeeds) (data : List UInt8) : Runs (writeBytes a data) := by
  induction data using writeBytes.induct with
  | case1 => exact Runs.pure _
  | case2 byte => exact writeTxdr_runs byte
  | case3 byte data hne ih =>
    rw [writeBytes]
    · exact (writeTxdr_runs byte).bind fun _ => (waitUntill_runs h _).bind fun _ => ih
    · exact hne

lemma awaitEnd_runs (h : a.Succeeds) (endCondition : EndCondition) : Runs (awaitEnd a endCondition) := by
  unfold awaitEnd
  have hread : Runs (readStart a) := ⟨fun _ => ⟨_, _, rfl, trivial⟩, fun _ => rfl⟩
  split_ifs
  · exact waitUntill_runs h _
  · refine hread.bind fun start => ?_
    split_ifs
    · exact waitUntill_runs h _
    · exact Runs.pure _

lemma innerRead_runs (h : a.Succeeds) (data : List UInt8) (endCondition : EndCondition) :
    Runs (innerRead a data endCondition) :=
  (readBytes_runs h data).bind fun _ => (awaitEnd_runs h endCondition).bind fun _ => Runs.pure _

lemma innerWrite_runs (h : a.Succeeds) (data : List UInt8) (endCondition : EndCondition) :
    Runs (innerWrite a data endCondition) :=
  (writeBytes_runs h data).bind fun _ => awaitEnd_runs h endCondition

/-- A program returns, and has programmed these STARTs. -/
def Issues (P : Bus → Prop) (cr2s : List Cr2) (m : I2c α) : Prop :=
  ∀ s, P s → ∃ b s', m s = .ok b s' ∧ s'.programmed = s.programmed ++ cr2s

lemma Issues.pure (P : Bus → Prop) (b : α) : Issues P [] (Pure.pure b : I2c α) :=
  fun s _ => ⟨b, s, rfl, (List.append_nil _).symm⟩

lemma Issues.bind_pure {β : Type} {P : Bus → Prop} {cr2s : List Cr2} {m : I2c α} (hm : Issues P cr2s m)
    (f : α → β) : Issues P cr2s (m >>= fun b => (Pure.pure (f b) : I2c β)) := by
  intro s hs
  obtain ⟨b, s', hrun, hprog⟩ := hm s hs
  exact ⟨f b, s', bind_ok hrun _, hprog⟩

/-- The bytes of an operation, whatever the START bit, and then the operations behind it -/
lemma Issues.of_runs {β : Type} {cr2s : List Cr2} {m : I2c α} {f : α → I2c β} (hm : Runs m)
    (hclear : Ends (fun _ => True) m Clear Clear) (hf : ∀ b, Issues Clear cr2s (f b)) :
    Issues (fun _ => True) cr2s (m >>= f) := by
  intro s _
  obtain ⟨b, s', hrun, hprog⟩ := hm.ok s
  obtain ⟨c, s'', hrun', hprog'⟩ := hf b s' (hclear.ok trivial hrun)
  exact ⟨c, s'', (bind_ok hrun f).trans hrun', by rw [hprog', hprog]⟩

lemma prepare_issues (haddr : address < 0x80) {len : ℕ} (hlen : len ≤ 255) (rdWrn : Bool)
    (endCondition : EndCondition) {cr2s : List Cr2} {rest : I2c α}
    (hrest : Issues (fun _ => True) cr2s rest) :
    Issues Clear (⟨address <<< 1, rdWrn, len, endCondition = .stop⟩ :: cr2s)
      (do prepare a rdWrn address len endCondition; rest) := by
  intro s hs
  have hrun := prepare_eq a rdWrn address len endCondition s
  rw [if_neg (by omega), hs, Bool.false_and, if_neg Bool.false_ne_true, if_neg (by omega)] at hrun
  obtain ⟨c, s', hrun', hprog⟩ := hrest
    { s with
      start := true
      programmed := s.programmed ++ [⟨address <<< 1, rdWrn, len, endCondition = .stop⟩]
      accesses := s.accesses + 1 } trivial
  refine ⟨c, s', (bind_ok hrun fun _ => rest).trans hrun', ?_⟩
  rw [hprog, List.append_assoc, List.singleton_append]

/-- With a START of its own or without -/
lemma started_issues (haddr : address < 0x80) {len : ℕ} (hlen : len ≤ 255) (rdWrn : Bool)
    (endCondition : EndCondition) {cr2s : List Cr2} {rest : I2c α}
    (hrest : Issues (fun _ => True) cr2s rest) (starts : Bool) :
    Issues Clear ((if starts then [⟨address <<< 1, rdWrn, len, endCondition = .stop⟩] else []) ++ cr2s)
      (if starts then do prepare a rdWrn address len endCondition; rest else rest) := by
  cases starts with
  | false => exact fun s _ => hrest s trivial
  | true => exact prepare_issues haddr hlen rdWrn endCondition hrest

/-- The END condition is the one of the last operation. -/
lemma endCondition_stop (operations : List Operation) :
    decide ((if operations.any Operation.nonempty then EndCondition.none else .stop) = .stop) =
      (operations.filter Operation.nonempty).isEmpty := by
  by_cases hany : operations.any Operation.nonempty = true
  · rw [if_pos hany]
    obtain ⟨op, hop, hne⟩ := List.any_eq_true.mp hany
    refine (Bool.eq_false_iff.mpr fun hempty => ?_).symm
    exact List.filter_eq_nil_iff.mp (List.isEmpty_iff.mp hempty) op hop hne
  · rw [if_neg hany]
    refine (List.isEmpty_iff.mpr (List.filter_eq_nil_iff.mpr fun op hop hne => ?_)).symm
    exact hany (List.any_eq_true.mpr ⟨op, hop, hne⟩)

lemma transactionLoop_issues (h : a.Succeeds) (haddr : address < 0x80) {operations : List Operation}
    (hlen : ∀ op ∈ operations, op.len ≤ 255) (first wasReading : Bool) :
    Issues Clear
      (issued address (if first then none else some wasReading) (operations.filter Operation.nonempty))
      (transactionLoop a address operations first wasReading) := by
  induction operations generalizing first wasReading with
  | nil => exact Issues.pure _ _
  | cons op ops ih =>
    have hops : ∀ op ∈ ops, op.len ≤ 255 := fun op hop => hlen op (List.mem_cons_of_mem _ hop)
    have hop := hlen op List.mem_cons_self
    rw [transactionLoop]
    by_cases hne : op.nonempty = true
    · rw [if_pos hne, List.filter_cons_of_pos hne, issued, ← endCondition_stop]
      cases op with
      | read data =>
        have hrest (endCondition : EndCondition) := Issues.of_runs (innerRead_runs h data endCondition)
          (innerRead_clear data endCondition) fun data =>
            (ih hops false true).bind_pure fun ops => .read data :: ops
        have hissues (endCondition : EndCondition) :=
          started_issues (a := a) haddr hop true endCondition (hrest endCondition) (first || !wasReading)
        cases first <;> cases wasReading <;> exact hissues _
      | write data =>
        have hrest (endCondition : EndCondition) := Issues.of_runs (innerWrite_runs h data endCondition)
          (innerWrite_clear data endCondition) fun _ =>
            (ih hops false false).bind_pure fun ops => .write data :: ops
        have hissues (endCondition : EndCondition) :=
          started_issues (a := a) haddr hop false endCondition (hrest endCondition) (first || wasReading)
        cases first <;> cases wasReading <;> exact hissues _
    · rw [if_neg hne, List.filter_cons_of_neg hne]
      exact (ih hops first wasReading).bind_pure _

/-! ### Runs and STARTs -/

/-- All but the first operation of a run are left out of the counts. -/
lemma sum_issued_le (address : ℕ) (prev : Option Bool) (ops : List Operation) :
    ((issued address prev ops).map Cr2.nbytes).sum ≤ total ops := by
  induction ops generalizing prev with
  | nil => exact Nat.le_refl 0
  | cons op ops ih =>
    have hrest := ih (some op.isRead)
    rw [issued, List.map_append, List.sum_append, total, List.map_cons, List.sum_cons, ← total]
    split_ifs
    · exact Nat.add_le_add (Nat.zero_le _) hrest
    · exact Nat.add_le_add_left hrest _

/-- The counts add up to all the bytes only if each operation is a run of its own. -/
lemma isChain_of_sum_issued (address : ℕ) (prev : Option Bool) {ops : List Operation}
    (hne : ∀ op ∈ ops, 0 < op.len) (hsum : ((issued address prev ops).map Cr2.nbytes).sum = total ops) :
    (∀ op ∈ ops.head?, prev ≠ some op.isRead) ∧
      ops.IsChain fun op op' => op.isRead ≠ op'.isRead := by
  induction ops generalizing prev with
  | nil => exact ⟨fun op hop => absurd hop (Option.not_mem_none op), List.isChain_nil⟩
  | cons op ops ih =>
    have hle := sum_issued_le address (some op.isRead) ops
    have hpos := hne op List.mem_cons_self
    rw [issued, List.map_append, List.sum_append, total, List.map_cons, List.sum_cons, ← total] at hsum
    by_cases hprev : prev = some op.isRead
    · rw [if_pos hprev, List.map_nil, List.sum_nil] at hsum
      omega
    · rw [if_neg hprev, List.map_singleton, List.sum_singleton] at hsum
      obtain ⟨hhead, hchain⟩ := ih _ (fun op hop => hne op (List.mem_cons_of_mem _ hop))
        (Nat.add_left_cancel hsum)
      refine ⟨fun op' hop' => ?_, List.isChain_cons.mpr ⟨fun op' hop' heq => ?_, hchain⟩⟩
      · cases Option.mem_some_iff.mp hop'
        exact hprev
      · exact hhead op' hop' (congrArg some heq)

lemma sum_startsOf (runs : List (List Operation)) :
    ((startsOf address runs).map Cr2.nbytes).sum = total runs.flatten := by
  induction runs with
  | nil => rfl
  | cons run runs ih =>
    rw [startsOf, List.map_cons, List.sum_cons, ih, total, total, total, List.flatten_cons, List.map_append,
      List.sum_append]

/-- If no direction is repeated, every operation is a run. -/
lemma splitBy_of_isChain {ops : List Operation}
    (hchain : ops.IsChain fun op op' => op.isRead ≠ op'.isRead) :
    (ops.splitBy fun op op' => op.isRead == op'.isRead) = ops.map fun op => [op] := by
  induction ops with
  | nil => rfl
  | cons op ops ih =>
    obtain ⟨hhead, hchain⟩ := List.isChain_cons.mp hchain
    have happend := List.splitBy_append (r := fun op op' : Operation => op.isRead == op'.isRead)
      (l := [op]) (m := ops) fun x hx y hy => by
        cases Option.mem_some_iff.mp hx
        exact beq_eq_false_iff_ne.mpr (hhead y hy)
    rw [List.map_cons, ← ih hchain]
    exact happend

lemma issued_of_isChain {prev : Option Bool} {ops : List Operation}
    (hprev : ∀ op ∈ ops.head?, prev ≠ some op.isRead)
    (hchain : ops.IsChain fun op op' => op.isRead ≠ op'.isRead) :
    issued address prev ops = startsOf address (ops.map fun op => [op]) := by
  induction ops generalizing prev with
  | nil => rfl
  | cons op ops ih =>
    obtain ⟨hhead, hchain⟩ := List.isChain_cons.mp hchain
    rw [issued, if_neg (hprev op rfl),
      ih (fun op' hop' heq => hhead op' hop' (Option.some.inj heq)) hchain, List.map_cons, startsOf,
      List.isEmpty_map]
    rfl

/-- A transaction follows the contract exactly when no two adjacent operations, empty ones left out, have
the same direction. -/
theorem transaction_contract_iff {a : Answers} {address : ℕ} {operations : List Operation} {s : Bus}
    (haddr : address < 0x80) (hruns : ∀ run ∈ runsOf operations, total run ≤ 255) (hwaits : a.Succeeds)
    (hs : Reached s) :
    FollowsContract a address operations s ↔
      (operations.filter Operation.nonempty).IsChain fun op op' => op.isRead ≠ op'.isRead := by
  have hlen : ∀ op ∈ operations, op.len ≤ 255 := by
    intro op hop
    by_cases hne : op.nonempty = true
    · have hmem := List.mem_filter.mpr ⟨hop, hne⟩
      rw [← List.flatten_splitBy (fun op op' : Operation => op.isRead == op'.isRead)
        (operations.filter Operation.nonempty)] at hmem
      obtain ⟨run, hrun, hop⟩ := List.mem_flatten.mp hmem
      exact (List.le_sum_of_mem (List.mem_map_of_mem hop)).trans (hruns run hrun)
    · rw [Operation.nonempty, decide_eq_true_iff] at hne
      omega
  obtain ⟨operations', s', hrun, hprog⟩ :=
    transactionLoop_issues hwaits haddr hlen true false s hs.clear
  constructor
  · rintro ⟨ops, t, hrun', hprog'⟩
    rw [transaction, hrun] at hrun'
    cases hrun'
    have hissued := List.append_cancel_left (hprog.symm.trans hprog')
    refine (isChain_of_sum_issued address none (fun op hop => ?_) ?_).2
    · exact of_decide_eq_true (List.mem_filter.mp hop).2
    · rw [show issued address none _ = _ from hissued, sum_startsOf, runsOf, List.flatten_splitBy]
  · intro hchain
    refine ⟨operations', s', hrun, hprog.trans ?_⟩
    rw [runsOf, splitBy_of_isChain hchain,
      ← issued_of_isChain (fun _ _ => (Option.some_ne_none _).symm) hchain]
    rfl

end Run

/-- Hardware that answers everything -/
def idealAnswers : Answers := ⟨fun _ => true, fun _ => none, fun _ => 0⟩

/-- A write of a register number and a read, with an empty operation between them -/
theorem transaction_contract_write_read :
    FollowsContract idealAnswers 0x21 [.write [7], .write [], .read [0, 0]] ⟨false, [], [], 0⟩ :=
  (transaction_contract_iff (by decide) (by decide) (fun _ => rfl) .enabled).mpr (by decide)

/-- Two writes are one run of two bytes, of which the first one is counted, without a STOP. -/
theorem transaction_merged_writes :
    (∀ run ∈ runsOf [.write [1], .write [2]], total run ≤ 255) ∧ idealAnswers.Succeeds ∧
      Reached ⟨false, [], [], 0⟩ ∧
      ¬FollowsContract idealAnswers 0x21 [.write [1], .write [2]] ⟨false, [], [], 0⟩ := by
  refine ⟨by decide, fun _ => rfl, .enabled, ?_⟩
  rintro ⟨ops, s', hrun, hprog⟩
  have hruns : transaction idealAnswers 0x21 [.write [1], .write [2]] ⟨false, [], [], 0⟩ =
      .ok [.write [1], .write [2]] ⟨false, [⟨0x42, false, 1, false⟩], [1, 2], 5⟩ := rfl
  rw [hruns] at hrun
  cases hrun
  revert hprog
  decide

end SensorLink.Bsp
