import Mathlib.Data.List.Basic
import SensorLink.Lib.Device

/-!
# The flash of `storage/backend/in_memory.rs`

The strict simulation of a NOR flash: only an erased byte can be written, and erasing sets the bytes of
whole erase blocks. The source injects an error into one operation, which corrupts its target; here
each operation has a fate, which may also be the loss of power before, in the middle of, or after it.
An operation that is torn by the loss of power corrupts its target as the injected error does. The
counters of the operations are left out.
-/

namespace SensorLink.Flash

open SensorLink.Lib

/-- The bytes of the flash; only those below its capacity are used. -/
abbrev Mem := ℕ → UInt8

/-- The fate of a write or an erase. -/
inductive Fate
  | ok
  /-- the injected error: the target is corrupted and the error returned -/
  | error
  /-- power is lost, and the target unchanged, corrupted or done -/
  | offBefore
  | offTorn
  | offAfter
deriving DecidableEq, Repr

instance : Inhabited Fate := ⟨.ok⟩

/-- `NorFlashErrorKind` -/
inductive NorFlashErrorKind
  | notAligned
  | outOfBounds
  | other
deriving DecidableEq, Repr

/-- Programs on the flash. -/
abbrev Io (ε α : Type) := Dev Mem Fate ε α

def erased : UInt8 := 0xFF

/-- What is xored to the bytes of a failed operation. -/
def corruption : UInt8 := 0xA5

def writeMem (mem : Mem) (offset : ℕ) (bytes : List UInt8) (corruption : UInt8) : Mem := fun a =>
  if offset ≤ a ∧ a < offset + bytes.length ∧ mem a = erased then
    bytes.getD (a - offset) erased ^^^ corruption
  else mem a

def eraseMem (mem : Mem) (start stop : ℕ) (corruption : UInt8) : Mem := fun a =>
  if start ≤ a ∧ a < stop then erased ^^^ corruption else mem a

def readMem (mem : Mem) (offset n : ℕ) : List UInt8 := (List.range n).map fun i => mem (offset + i)

/-- An operation that leaves `good` in the memory when it is carried out, and `bad` when it fails. -/
def change (good bad : Mem → Mem) : Io NorFlashErrorKind Unit :=
  Dev.act fun fate mem =>
    match fate with
    | .ok => .ok () (good mem)
    | .error => .err .other (bad mem)
    | .offBefore => .off mem
    | .offTorn => .off (bad mem)
    | .offAfter => .off (good mem)

/-- An operation that is refused whatever its fate, unless power is lost. -/
def refuse (kind : NorFlashErrorKind) : Io NorFlashErrorKind Unit :=
  Dev.act fun fate mem =>
    match fate with
    | .ok => .err kind mem
    | .error => .err kind mem
    | .offBefore => .off mem
    | .offTorn => .off mem
    | .offAfter => .off mem

/-- `ReadNorFlash::read` of `n` bytes -/
def read (capacity offset n : ℕ) : Io NorFlashErrorKind (List UInt8) :=
  Dev.read .other fun mem =>
    if capacity < offset + n then .error .outOfBounds else .ok (readMem mem offset n)

/-- `NorFlash::write` -/
def write (capacity offset : ℕ) (bytes : List UInt8) : Io NorFlashErrorKind Unit :=
  if capacity < offset + bytes.length then refuse .outOfBounds
  else change (writeMem · offset bytes 0) (writeMem · offset bytes corruption)

/-- `NorFlash::erase` -/
def erase (eraseSize capacity start stop : ℕ) : Io NorFlashErrorKind Unit :=
  if start % eraseSize ≠ 0 ∨ stop % eraseSize ≠ 0 then refuse .notAligned
  else if capacity < max start stop then refuse .outOfBounds
  else change (eraseMem · start stop 0) (eraseMem · start stop corruption)

/-! ### Bytes of the memory -/

section Bytes

variable {mem mem' : Mem} {a offset n : ℕ} {bytes : List UInt8} {c : UInt8}

lemma writeMem_of_not_mem (h : a < offset ∨ offset + bytes.length ≤ a) :
    writeMem mem offset bytes c a = mem a := by
  unfold writeMem
  rw [if_neg (by omega)]

lemma writeMem_of_ne (h : mem a ≠ erased) : writeMem mem offset bytes c a = mem a := by
  unfold writeMem
  rw [if_neg (fun hc => h hc.2.2)]

lemma writeMem_of_erased (h1 : offset ≤ a) (h2 : a < offset + bytes.length) (h : mem a = erased) :
    writeMem mem offset bytes c a = bytes.getD (a - offset) erased ^^^ c := by
  unfold writeMem
  rw [if_pos ⟨h1, h2, h⟩]

@[simp]
lemma length_readMem : (readMem mem offset n).length = n := by simp [readMem]

lemma readMem_congr (h : ∀ a, offset ≤ a → a < offset + n → mem a = mem' a) :
    readMem mem offset n = readMem mem' offset n := by
  unfold readMem
  refine List.map_congr_left fun i hi => ?_
  rw [List.mem_range] at hi
  exact h _ (by omega) (by omega)

lemma readMem_add (mem : Mem) (offset n k : ℕ) :
    readMem mem offset (n + k) = readMem mem offset n ++ readMem mem (offset + n) k := by
  simp only [readMem, List.range_add, List.map_append, List.map_map, Function.comp_def, Nat.add_assoc]

lemma readMem_eq_replicate {b : UInt8} (h : ∀ a, offset ≤ a → a < offset + n → mem a = b) :
    readMem mem offset n = List.replicate n b := by
  refine List.eq_replicate_iff.mpr ⟨length_readMem, fun x hx => ?_⟩
  obtain ⟨i, hi, rfl⟩ := List.mem_map.mp hx
  rw [List.mem_range] at hi
  exact h _ (by omega) (by omega)

lemma getElem_readMem {i : ℕ} (h : i < (readMem mem offset n).length) :
    (readMem mem offset n)[i] = mem (offset + i) := by
  simp [readMem]

/-- Writing to an erased place is reading it back. -/
lemma readMem_writeMem (h : ∀ a, offset ≤ a → a < offset + bytes.length → mem a = erased) :
    readMem (writeMem mem offset bytes 0) offset bytes.length = bytes := by
  refine List.ext_getElem length_readMem fun i h1 h2 => ?_
  rw [getElem_readMem h1, writeMem_of_erased (by omega) (by omega) (h _ (by omega) (by omega))]
  rw [Nat.add_sub_cancel_left, UInt8.xor_zero]
  simp [h2]

end Bytes

/-! ### What an operation can do -/

/-- The faults that are looked at: injected errors, losses of power, and failed reads. -/
def faults (errors cuts reads : Prop) : Faults Fate where
  fate
    | .ok => True
    | .error => errors
    | .offBefore => cuts
    | .offTorn => cuts
    | .offAfter => cuts
  reads := reads

section Spec

variable {errors cuts reads : Prop} {Q : Unit → Mem → Prop} {E : NorFlashErrorKind → Mem → Prop}
variable {O : Mem → Prop} {mem : Mem}

theorem wp_change {good bad : Mem → Mem} (hok : Q () (good mem))
    (herr : errors → E .other (bad mem)) (hoff : cuts → O mem ∧ O (bad mem) ∧ O (good mem)) :
    Dev.wp (faults errors cuts reads) (change good bad) Q E O mem := by
  refine Dev.wp_act trivial fun fate hfate => ?_
  cases fate with
  | ok => exact hok
  | error => exact herr hfate
  | offBefore => exact (hoff hfate).1
  | offTorn => exact (hoff hfate).2.1
  | offAfter => exact (hoff hfate).2.2

theorem wp_write {capacity offset : ℕ} {bytes : List UInt8}
    (hcap : offset + bytes.length ≤ capacity) (hok : Q () (writeMem mem offset bytes 0))
    (herr : errors → E .other (writeMem mem offset bytes corruption))
    (hoff : cuts → O mem ∧ O (writeMem mem offset bytes corruption) ∧
      O (writeMem mem offset bytes 0)) :
    Dev.wp (faults errors cuts reads) (write capacity offset bytes) Q E O mem := by
  unfold write
  rw [if_neg (by omega)]
  exact wp_change hok herr hoff

theorem wp_erase {eraseSize capacity start stop : ℕ}
    (hstart : start % eraseSize = 0) (hstop : stop % eraseSize = 0)
    (hcap : max start stop ≤ capacity) (hok : Q () (eraseMem mem start stop 0))
    (herr : errors → E .other (eraseMem mem start stop corruption))
    (hoff : cuts → O mem ∧ O (eraseMem mem start stop corruption) ∧ O (eraseMem mem start stop 0)) :
    Dev.wp (faults errors cuts reads) (erase eraseSize capacity start stop) Q E O mem := by
  unfold erase
  rw [if_neg (by simp [hstart, hstop]), if_neg (by omega)]
  exact wp_change hok herr hoff

theorem wp_flash_read {capacity offset n : ℕ} {Q : List UInt8 → Mem → Prop}
    (hcap : offset + n ≤ capacity) (hfault : reads → E .other mem)
    (hok : Q (readMem mem offset n) mem) :
    Dev.wp (faults errors cuts reads) (read capacity offset n) Q E O mem := by
  refine Dev.wp_read hfault ?_
  rw [if_neg (by omega)]
  exact hok

/-- Power may go before a write. -/
lemma canCut_write {capacity offset : ℕ} {bytes : List UInt8} :
    Dev.CanCut (faults errors True reads) (write capacity offset bytes) mem mem := by
  refine ⟨[.offBefore], fun x hx => ?_, ⟨mem, [], []⟩, ?_, rfl⟩
  · obtain rfl := List.mem_singleton.mp hx
    trivial
  · unfold write
    split <;> rfl

end Spec

end SensorLink.Flash
