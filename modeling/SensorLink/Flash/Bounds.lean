import Mathlib.Data.Set.Defs
import SensorLink.Flash.View

/-!
# Which addresses a program touches

`Touches A p P E` follows the program `p`: all its reads, writes and erases are of bytes in `A`, its
results meet `P` and its errors `E`. Such a program runs in the same way whatever the other bytes are,
and leaves them as they are (`Touches.run_patch`). The functions of the block device touch only the
bytes of the block, if its number is in bounds.
-/

namespace SensorLink.Flash

open SensorLink.Lib

/-! ### Programs and addresses -/

inductive Touches (A : Set ℕ) : {ε α : Type} → Io ε α → (α → Prop) → (ε → Prop) → Prop
  | pure {ε α : Type} {P : α → Prop} {E : ε → Prop} {a : α} : P a → Touches A (pure a) P E
  | throw {ε α : Type} {P : α → Prop} {E : ε → Prop} {e : ε} : E e → Touches A (Dev.throw e) P E
  | bind {ε α β : Type} {p : Io ε α} {k : α → Io ε β} {R : α → Prop} {P : β → Prop} {E : ε → Prop} :
    Touches A p R E → (∀ a, R a → Touches A (k a) P E) → Touches A (p >>= k) P E
  | mapErr {ε ε' α : Type} {p : Io ε α} {P : α → Prop} {E : ε' → Prop} {f : ε → ε'} :
    Touches A p P (fun e => E (f e)) → Touches A (Dev.mapErr f p) P E
  | attempt {ε ε' α : Type} {p : Io ε α} {P : Except ε α → Prop} {E : ε' → Prop} :
    Touches A p (fun a => P (.ok a)) (fun e => P (.error e)) → Touches A (Dev.attempt p) P E
  | mono {ε α : Type} {p : Io ε α} {P P' : α → Prop} {E E' : ε → Prop} :
    Touches A p P E → (∀ a, P a → P' a) → (∀ e, E e → E' e) → Touches A p P' E'
  | read {capacity offset n : ℕ} : (∀ a, offset ≤ a → a < offset + n → a ∈ A) →
    Touches A (read capacity offset n) (fun bytes => bytes.length = n) fun _ => True
  | write {capacity offset : ℕ} {bytes : List UInt8} :
    (∀ a, offset ≤ a → a < offset + bytes.length → a ∈ A) →
      Touches A (write capacity offset bytes) (fun _ => True) fun _ => True
  | erase {eraseSize capacity start stop : ℕ} : (∀ a, start ≤ a → a < stop → a ∈ A) →
    Touches A (erase eraseSize capacity start stop) (fun _ => True) fun _ => True

/-- The program only touches bytes in `A`. -/
abbrev TouchesOnly (A : Set ℕ) {ε α : Type} (p : Io ε α) : Prop :=
  Touches A p (fun _ => True) fun _ => True

/-- The memory with the bytes outside of `A` taken from `other` -/
def patch (A : Set ℕ) [DecidablePred (· ∈ A)] (other mem : Mem) : Mem :=
  fun a => if a ∈ A then mem a else other a

namespace Touches

variable {A : Set ℕ} [DecidablePred (· ∈ A)] {ε α : Type} {p : Io ε α} {P : α → Prop} {E : ε → Prop}

lemma patch_of_mem {other mem : Mem} {a : ℕ} (h : a ∈ A) : patch A other mem a = mem a := if_pos h

lemma patch_of_notMem {other mem : Mem} {a : ℕ} (h : a ∉ A) : patch A other mem a = other a := if_neg h

lemma readMem_patch {offset n : ℕ} (h : ∀ a, offset ≤ a → a < offset + n → a ∈ A) (other mem : Mem) :
    readMem (patch A other mem) offset n = readMem mem offset n := by
  apply readMem_congr
  intro a h1 h2
  exact patch_of_mem (h a h1 h2)

lemma writeMem_patch {offset : ℕ} {bytes : List UInt8}
    (h : ∀ a, offset ≤ a → a < offset + bytes.length → a ∈ A) (other mem : Mem) (c : UInt8) :
    writeMem (patch A other mem) offset bytes c = patch A other (writeMem mem offset bytes c) := by
  funext a
  by_cases ha : a ∈ A
  · rw [patch_of_mem ha]
    unfold writeMem
    rw [patch_of_mem ha]
  · rw [patch_of_notMem ha]
    have hout : ¬ (offset ≤ a ∧ a < offset + bytes.length ∧ patch A other mem a = erased) := by
      intro hin
      exact ha (h a hin.1 hin.2.1)
    unfold writeMem
    rw [if_neg hout, patch_of_notMem ha]

lemma eraseMem_patch {start stop : ℕ} (h : ∀ a, start ≤ a → a < stop → a ∈ A) (other mem : Mem)
    (c : UInt8) : eraseMem (patch A other mem) start stop c = patch A other (eraseMem mem start stop c) := by
  funext a
  by_cases ha : a ∈ A
  · rw [patch_of_mem ha]
    unfold eraseMem
    rw [patch_of_mem ha]
  · rw [patch_of_notMem ha]
    have hout : ¬ (start ≤ a ∧ a < stop) := by
      intro hin
      exact ha (h a hin.1 hin.2)
    unfold eraseMem
    rw [if_neg hout, patch_of_notMem ha]

/-- A device with other bytes outside of `A` -/
abbrev patched (A : Set ℕ) [DecidablePred (· ∈ A)] (other : Mem) (d : Device Mem Fate) :
    Device Mem Fate :=
  { d with mem := patch A other d.mem }

/-- What is read has the length of the buffer. -/
lemma length_of_read {capacity offset n : ℕ} {d d' : Device Mem Fate} {bytes : List UInt8}
    (h : (Flash.read capacity offset n).run d = .ok bytes d') : bytes.length = n := by
  refine Dev.wp_run (Q := fun bytes _ => bytes.length = n) (E := fun _ _ => True)
    (O := fun _ => True) ?_ h
  apply Dev.wp_read
  · intro _
    trivial
  · split
    next hread =>
      split at hread
      · cases hread
      · cases hread
        exact length_readMem
    · trivial

omit [DecidablePred (· ∈ A)] in
/-- The results meet `P`, the errors `E`. -/
theorem outcome (h : Touches A p P E) (d : Device Mem Fate) :
    match p.run d with
    | .ok a _ => P a
    | .err e _ => E e
    | .off _ => True := by
  induction h generalizing d with
  | pure ha => exact ha
  | throw he => exact he
  | @bind _ _ _ p k R P E hp hk ihp ihk =>
    have hfirst := ihp d
    simp only [Bind.bind]
    revert hfirst
    cases p.run d with
    | ok a d' => exact fun hR => ihk a hR d'
    | err e d' => exact id
    | off d' => exact id
  | @mapErr _ _ _ p P E f hp ih =>
    have hrun := ih d
    simp only [Dev.mapErr]
    revert hrun
    cases p.run d <;> exact id
  | @attempt _ _ _ p P E hp ih =>
    have hrun := ih d
    simp only [Dev.attempt]
    revert hrun
    cases p.run d <;> exact id
  | @mono _ _ p P P' E E' hp hP hE ih =>
    have hrun := ih d
    revert hrun
    cases p.run d with
    | ok a d' => exact hP a
    | err e d' => exact hE e
    | off d' => exact id
  | @read capacity offset n hA =>
    cases hrun : (Flash.read capacity offset n).run d with
    | ok bytes d' => exact length_of_read hrun
    | err e d' => trivial
    | off d' => trivial
  | @write capacity offset bytes hA => cases (Flash.write capacity offset bytes).run d <;> trivial
  | @erase eraseSize capacity start stop hA =>
    cases (Flash.erase eraseSize capacity start stop).run d <;> trivial

omit [DecidablePred (· ∈ A)] in
lemma result (h : Touches A p P E) {d d' : Device Mem Fate} {a : α} (hrun : p.run d = .ok a d') :
    P a := by
  have hp := h.outcome d
  rw [hrun] at hp
  exact hp

omit [DecidablePred (· ∈ A)] in
lemma subset {B : Set ℕ} (h : Touches A p P E) (hAB : ∀ a ∈ A, a ∈ B) : Touches B p P E := by
  induction h with
  | pure ha => exact .pure ha
  | throw he => exact .throw he
  | bind hp hk ihp ihk => exact .bind ihp ihk
  | mapErr hp ih => exact .mapErr ih
  | attempt hp ih => exact .attempt ih
  | mono hp hP hE ih => exact .mono ih hP hE
  | read hA => exact .read fun a h1 h2 => hAB a (hA a h1 h2)
  | write hA => exact .write fun a h1 h2 => hAB a (hA a h1 h2)
  | erase hA => exact .erase fun a h1 h2 => hAB a (hA a h1 h2)

lemma run_change {good bad : Mem → Mem} (other : Mem)
    (hgood : ∀ mem, good (patch A other mem) = patch A other (good mem))
    (hbad : ∀ mem, bad (patch A other mem) = patch A other (bad mem)) (d : Device Mem Fate) :
    (change good bad).run (patched A other d) = ((change good bad).run d).map (patched A other) := by
  unfold change Dev.act
  simp only
  cases d.plan.headD default <;> simp only [Outcome.map, hgood, hbad]

lemma run_refuse (kind : NorFlashErrorKind) (other : Mem) (d : Device Mem Fate) :
    (refuse kind).run (patched A other d) = ((refuse kind).run d).map (patched A other) := by
  unfold refuse Dev.act
  simp only
  cases d.plan.headD default <;> rfl

lemma ofExcept_patched {ε α : Type} (r : Except ε α) (other : Mem) (d : Device Mem Fate) :
    Dev.ofExcept (patched A other d) r = (Dev.ofExcept d r).map (patched A other) := by
  cases r <;> rfl

/-- **The other bytes play no part and stay as they are.** -/
theorem run_patch (h : Touches A p P E) (other : Mem) (d : Device Mem Fate) :
    p.run (patched A other d) = (p.run d).map (patched A other) := by
  induction h generalizing d with
  | pure ha => rfl
  | throw he => rfl
  | bind hp hk ihp ihk =>
    simp only [Bind.bind, ihp d]
    cases hrun : Dev.run _ d with
    | ok a d' => exact ihk a (hp.result hrun) d'
    | err e d' => rfl
    | off d' => rfl
  | mapErr hp ih =>
    simp only [Dev.mapErr, ih d]
    cases Dev.run _ d <;> rfl
  | attempt hp ih =>
    simp only [Dev.attempt, ih d]
    cases Dev.run _ d <;> rfl
  | mono hp hP hE ih => exact ih d
  | @read capacity offset n hA =>
    obtain ⟨mem, plan, readPlan⟩ := d
    simp only [Flash.read, Dev.read, readMem_patch hA]
    rcases readPlan with _ | ⟨fate, fates⟩
    · exact ofExcept_patched (A := A) _ other _
    · cases fate with
      | true => rfl
      | false => exact ofExcept_patched (A := A) _ other ⟨mem, plan, fates⟩
  | @write capacity offset bytes hA =>
    unfold Flash.write
    split
    · exact run_refuse _ other d
    · exact run_change other (fun mem => writeMem_patch hA other mem 0)
        (fun mem => writeMem_patch hA other mem corruption) d
  | @erase eraseSize capacity start stop hA =>
    unfold Flash.erase
    split
    · exact run_refuse _ other d
    · split
      · exact run_refuse _ other d
      · exact run_change other (fun mem => eraseMem_patch hA other mem 0)
          (fun mem => eraseMem_patch hA other mem corruption) d

lemma patch_self (mem : Mem) : patch A mem mem = mem := by
  funext a
  unfold patch
  split <;> rfl

/-- The other bytes stay as they are, however the program ends. -/
theorem mem_of_notMem (h : Touches A p P E) (d : Device Mem Fate) {a : ℕ} (ha : a ∉ A) :
    (p.run d).dev.mem a = d.mem a := by
  have hrun := h.run_patch d.mem d
  unfold patched at hrun
  rw [patch_self] at hrun
  have hmem : (p.run d).dev.mem = patch A d.mem (p.run d).dev.mem := by
    conv_lhs => rw [hrun]
    cases p.run d <;> rfl
  rw [hmem, patch_of_notMem ha]

/-- What is returned depends on the bytes in `A` only. -/
theorem eval_congr (h : Touches A p P E) {mem mem' : Mem} (hmem : ∀ a ∈ A, mem' a = mem a) :
    p.eval mem' = (p.eval mem).map (patch A mem') := by
  have heq : patch A mem' mem = mem' := by
    funext a
    by_cases ha : a ∈ A
    · rw [patch_of_mem ha, hmem a ha]
    · rw [patch_of_notMem ha]
  have hrun := h.run_patch mem' (.working mem)
  have hdev : patched A mem' (.working mem) = .working mem' := congrArg Device.working heq
  rw [hdev] at hrun
  unfold Dev.eval
  rw [hrun]
  cases p.run (.working mem) <;> rfl

end Touches

/-! ### The functions of the block device -/

namespace BlockDevice

variable {dev : BlockDevice} {A : Set ℕ} {b : ℕ}

/-- The addresses of a block -/
def addresses (dev : BlockDevice) (b : ℕ) : Set ℕ :=
  {a | b * dev.blockSize ≤ a ∧ a < b * dev.blockSize + dev.blockSize}

/-- The header is one of a block that is in bounds, in which its fragments have room. -/
structure InBounds (dev : BlockDevice) (h : BlockHeader) : Prop where
  id_lt : h.id < dev.blocksTotal
  room : h.headersTotalSize + h.fragCount * h.fragSize ≤ dev.blockSize

lemma touches_blockAddrOr {ε : Type} {E : ε → Prop} (e : ε) (hb : b ≤ dev.blocksTotal) :
    Touches A (dev.blockAddrOr e b) (fun addr => addr = b * dev.blockSize) E := by
  unfold blockAddrOr blockAddr
  rw [if_neg (Nat.not_lt.mpr hb)]
  exact .pure rfl

/-- The header of fragment `rel` is in the block. -/
lemma InBounds.header_mem {h : BlockHeader} (hin : InBounds dev h) {rel a : ℕ} (hrel : rel < h.fragCount)
    (h1 : h.id * dev.blockSize + (blockHeaderSize + fragHeaderSize * rel) ≤ a)
    (h2 : a < h.id * dev.blockSize + (blockHeaderSize + fragHeaderSize * rel) + fragHeaderSize) :
    a ∈ addresses dev h.id := by
  have hroom := hin.room
  have hmul : fragHeaderSize * (rel + 1) ≤ h.fragCount * fragHeaderSize := by
    rw [Nat.mul_comm]
    exact Nat.mul_le_mul_right _ hrel
  rw [Nat.mul_succ] at hmul
  unfold BlockHeader.headersTotalSize at hroom
  unfold addresses
  constructor <;> omega

/-- The data of fragment `rel` is in the block. -/
lemma InBounds.data_mem {h : BlockHeader} (hin : InBounds dev h) (offset : ℕ) {rel n a : ℕ}
    (hrel : rel < h.fragCount) (hn : n ≤ h.fragSize - offset)
    (h1 : h.id * dev.blockSize + (h.headersTotalSize + rel * h.fragSize + offset) ≤ a)
    (h2 : a < h.id * dev.blockSize + (h.headersTotalSize + rel * h.fragSize + offset) + n) :
    a ∈ addresses dev h.id := by
  have hroom := hin.room
  have hmul : (rel + 1) * h.fragSize ≤ h.fragCount * h.fragSize := Nat.mul_le_mul_right _ hrel
  rw [Nat.succ_mul] at hmul
  unfold addresses
  constructor <;> omega

/-- All fragments of a header that was read have room in a block. -/
lemma Header.room {h : BlockHeader} (hh : Header dev b h) :
    h.headersTotalSize + h.fragCount * h.fragSize ≤ dev.blockSize := by
  obtain ⟨-, hlast⟩ := hh.layout (i := h.fragCount - 1) (Nat.sub_lt hh.pos Nat.one_pos)
  have hmul : (h.fragCount - 1) * h.fragSize + h.fragSize = h.fragCount * h.fragSize := by
    rw [← Nat.succ_mul, Nat.succ_eq_add_one, Nat.sub_add_cancel hh.pos]
  omega

lemma Header.inBounds {h : BlockHeader} (hh : Header dev b h) (hb : b < dev.blocksTotal) :
    InBounds dev h :=
  ⟨by rw [hh.id]; exact hb, hh.room⟩

lemma touches_headerAt (hb : b ≤ dev.blocksTotal)
    (hA : ∀ a, b * dev.blockSize ≤ a → a < b * dev.blockSize + blockHeaderSize → a ∈ A) :
    Touches A (dev.blockHeader b) (fun r => ∀ h, r = some h → Header dev b h) fun _ => True := by
  unfold blockHeader
  apply Touches.bind (touches_blockAddrOr _ hb)
  rintro _ rfl
  apply Touches.bind (R := fun _ => True)
  · exact .mapErr (.mono (.read hA) (fun _ _ => trivial) fun _ _ => trivial)
  · intro buffer _
    apply Touches.pure
    intro h hh
    exact fromBytes_spec hh

lemma touches_blockHeader (hb : b < dev.blocksTotal) :
    Touches (addresses dev b) (dev.blockHeader b) (fun r => ∀ h, r = some h → Header dev b h)
      fun _ => True := by
  have hsize := dev.header_le
  apply touches_headerAt hb.le
  intro a h1 h2
  exact ⟨h1, by omega⟩

section Fragments

variable {h : BlockHeader} (hin : InBounds dev h)

include hin

lemma touches_tryGetFragmentStatus (fragNo : ℕ) :
    TouchesOnly (addresses dev h.id) (dev.tryGetFragmentStatus h fragNo) := by
  unfold tryGetFragmentStatus
  split
  · exact .pure trivial
  next hrel =>
    apply Touches.bind (touches_blockAddrOr _ hin.id_lt.le)
    rintro _ rfl
    apply Touches.bind (R := fun _ => True)
    · apply Touches.mapErr
      apply Touches.mono (Touches.read _) (fun _ _ => trivial) (fun _ _ => trivial)
      intro a h1 h2
      exact hin.header_mem (by omega) h1 h2
    · intro buffer _
      exact .pure trivial

lemma touches_fragmentStatus (fragNo : ℕ) :
    TouchesOnly (addresses dev h.id) (dev.fragmentStatus h fragNo) := by
  unfold fragmentStatus
  apply Touches.bind (Touches.mapErr (touches_tryGetFragmentStatus hin fragNo))
  intro status _
  cases status with
  | none => exact .throw trivial
  | some status => exact .pure trivial

lemma touches_fragmentStatusPreWrite (fragNo : ℕ) :
    TouchesOnly (addresses dev h.id) (dev.fragmentStatusPreWrite h fragNo) := by
  unfold fragmentStatusPreWrite
  apply Touches.bind (Touches.mapErr (touches_tryGetFragmentStatus hin fragNo))
  intro status _
  cases status with
  | none => exact .throw trivial
  | some status => exact .pure trivial

lemma touches_readRawFragment (fragNo offset resultLen : ℕ) :
    TouchesOnly (addresses dev h.id) (dev.readRawFragment h fragNo offset resultLen) := by
  unfold readRawFragment
  split
  · exact .throw trivial
  next hrel =>
    apply Touches.bind (touches_blockAddrOr _ hin.id_lt.le)
    rintro _ rfl
    apply Touches.mapErr
    apply Touches.mono (Touches.read _) (fun _ _ => trivial) (fun _ _ => trivial)
    intro a h1 h2
    exact hin.data_mem offset (by omega) (Nat.min_le_right _ _) h1 h2

lemma touches_readFragmentAtOffset (fragNo offset resultLen : ℕ) :
    TouchesOnly (addresses dev h.id) (dev.readFragmentAtOffset h fragNo offset resultLen) := by
  unfold readFragmentAtOffset
  apply Touches.bind (touches_fragmentStatus hin fragNo)
  intro status _
  cases status with
  | empty => exact .throw trivial
  | invalid => exact .throw trivial
  | obsolete => exact .throw trivial
  | valid => exact touches_readRawFragment hin fragNo offset resultLen

lemma touches_findValidLoop (rels : List ℕ) :
    TouchesOnly (addresses dev h.id) (dev.findValidLoop h rels) := by
  induction rels with
  | nil => exact .pure trivial
  | cons rel rels ih =>
    unfold findValidLoop
    apply Touches.bind (touches_fragmentStatus hin _)
    intro status _
    split
    · exact .pure trivial
    · exact ih

lemma touches_verifyChunks (fragNo chunkNo : ℕ) (expected : List (List UInt8)) :
    TouchesOnly (addresses dev h.id) (dev.verifyChunks h fragNo chunkNo expected) := by
  induction expected generalizing chunkNo with
  | nil => exact .pure trivial
  | cons chunk expected ih =>
    unfold verifyChunks
    apply Touches.bind (Touches.mapErr (touches_readRawFragment hin fragNo _ _))
    intro readback _
    split
    · exact ih (chunkNo + 1)
    · exact .pure trivial

lemma touches_writeMarker {rel : ℕ} (hrel : rel < h.fragCount) (status : FragmentStatus) :
    TouchesOnly (addresses dev h.id)
      (writeMarker dev (h.id * dev.blockSize + (blockHeaderSize + fragHeaderSize * rel)) status) := by
  have hsize : fragHeaderSize = 3 := rfl
  have hmarker : ∀ (place : ℕ) (marker : UInt8), place < 3 → TouchesOnly (addresses dev h.id)
      (Dev.mapErr FlashWriteError.flash (Flash.write dev.capacity
        (h.id * dev.blockSize + (blockHeaderSize + fragHeaderSize * rel) + place) [marker])) := by
    intro place marker hplace
    apply Touches.mapErr
    apply Touches.write
    intro a h1 h2
    rw [List.length_singleton] at h2
    exact hin.header_mem hrel (by omega) (by omega)
  unfold writeMarker
  cases status with
  | empty => exact .pure trivial
  | invalid => exact hmarker 0 0xD1 (by omega)
  | valid => exact hmarker 1 0xDC (by omega)
  | obsolete => exact hmarker 2 0x55 (by omega)

lemma touches_writeFragment (fragNo : ℕ) (data : List UInt8) :
    TouchesOnly (addresses dev h.id) (dev.writeFragment h fragNo data) := by
  unfold writeFragment
  split
  · exact .throw trivial
  next hlen =>
    apply Touches.bind (touches_blockAddrOr _ hin.id_lt.le)
    rintro _ rfl
    dsimp only
    split
    · exact .throw trivial
    next hrel =>
      have hlt : h.relFragNo fragNo < h.fragCount := by omega
      apply Touches.bind (touches_fragmentStatusPreWrite hin fragNo)
      intro status _
      cases status with
      | invalid => exact .throw trivial
      | obsolete => exact .throw trivial
      | valid => exact .throw trivial
      | empty =>
        apply Touches.bind (touches_writeMarker hin hlt .invalid)
        intro _ _
        apply Touches.bind (R := fun _ => True)
        · apply Touches.mapErr
          apply Touches.write
          intro a h1 h2
          exact hin.data_mem 0 hlt (n := data.length) (by omega) (by omega) (by omega)
        · intro _ _
          apply Touches.bind (touches_verifyChunks hin fragNo 0 _)
          intro verified _
          split
          · exact .throw trivial
          · exact touches_writeMarker hin hlt .valid

lemma touches_deleteFragment (fragNo : ℕ) :
    TouchesOnly (addresses dev h.id) (dev.deleteFragment h fragNo) := by
  unfold deleteFragment
  apply Touches.bind (touches_blockAddrOr _ hin.id_lt.le)
  rintro _ rfl
  dsimp only
  split
  · exact .throw trivial
  next hrel =>
    apply Touches.bind (touches_fragmentStatusPreWrite hin fragNo)
    intro status _
    cases status with
    | invalid => exact .pure trivial
    | obsolete => exact .pure trivial
    | empty => exact touches_writeMarker hin (by omega) .obsolete
    | valid => exact touches_writeMarker hin (by omega) .obsolete

end Fragments

lemma touches_formatBlock (hb : b < dev.blocksTotal)
    (objectId objectVersion fragSize firstFragNo : ℕ) :
    TouchesOnly (addresses dev b)
      (dev.formatBlock b objectId objectVersion fragSize firstFragNo) := by
  have hsize := dev.header_le
  have hheader : blockHeaderSize = 16 := rfl
  have hwrite : ∀ (offset : ℕ) (bytes : List UInt8), offset + bytes.length ≤ 16 →
      TouchesOnly (addresses dev b)
        (Flash.write dev.capacity (b * dev.blockSize + offset) bytes) := by
    intro offset bytes hlen
    apply Touches.write
    intro a h1 h2
    unfold addresses
    constructor <;> omega
  unfold formatBlock
  apply Touches.bind (touches_blockAddrOr _ hb.le)
  rintro _ rfl
  apply Touches.bind (R := fun _ => True) (Touches.attempt (hwrite 2 blockInvalidMarker (by decide)))
  intro _ _
  apply Touches.bind (R := fun _ => True)
  · apply Touches.mapErr
    apply Touches.erase
    intro a h1 h2
    exact ⟨h1, h2⟩
  · intro _ _
    split
    · exact .throw trivial
    next header hnew =>
      have hlen : 4 + (header.asBytes.drop 4).length ≤ 16 := by simp [BlockHeader.asBytes]
      apply Touches.bind (Touches.mapErr (hwrite 4 _ hlen))
      intro _ _
      exact Touches.mapErr (hwrite 0 blockValidMarker (by decide))

/-! ### Operations -/

/-- Headers as they are given out by `block_header`; their fields are private. -/
def Obtained (dev : BlockDevice) : Type :=
  { h : BlockHeader // ∃ blockId d d', (dev.blockHeader blockId).run d = .ok (some h) d' }

lemma Obtained.spec (h : Obtained dev) : h.val.id ≤ dev.blocksTotal ∧
    h.val.headersTotalSize + h.val.fragCount * h.val.fragSize ≤ dev.blockSize := by
  obtain ⟨h, blockId, d, d', hrun⟩ := h
  by_cases hb : dev.blocksTotal < blockId
  · simp only [blockHeader, blockAddrOr, blockAddr, if_pos hb] at hrun
    cases hrun
  · have hle := Nat.le_of_not_lt hb
    have hheader : Header dev blockId h :=
      (touches_headerAt (A := Set.univ) hle fun _ _ _ => trivial).result hrun h rfl
    exact ⟨by rw [hheader.id]; exact hle, hheader.room⟩

/-- The operations of the block device; `read` is `read_fragment_at_offset`. -/
inductive Operation (dev : BlockDevice)
  | blockHeader (blockId : ℕ)
  | fragmentStatus (block : Obtained dev) (fragNo : ℕ)
  | read (block : Obtained dev) (fragNo offset resultLen : ℕ)
  | formatBlock (blockId objectId objectVersion fragSize firstFragNo : ℕ)
  | writeFragment (block : Obtained dev) (fragNo : ℕ) (data : List UInt8)
  | deleteFragment (block : Obtained dev) (fragNo : ℕ)

namespace Operation

def blockId : Operation dev → ℕ
  | blockHeader blockId => blockId
  | fragmentStatus block _ => block.val.id
  | read block _ _ _ => block.val.id
  | formatBlock blockId _ _ _ _ => blockId
  | writeFragment block _ _ => block.val.id
  | deleteFragment block _ => block.val.id

/-- The call without its result; of an error only whether it is `BlockOutOfBounds`. -/
def program : Operation dev → Io Bool Unit
  | blockHeader blockId =>
    Dev.mapErr (fun e => e = .blockOutOfBounds) (do let _ ← dev.blockHeader blockId)
  | fragmentStatus block fragNo =>
    Dev.mapErr (fun e => e = .read .blockOutOfBounds) (do let _ ← dev.fragmentStatus block.val fragNo)
  | read block fragNo offset resultLen =>
    Dev.mapErr (fun e => e = .read .blockOutOfBounds)
      (do let _ ← dev.readFragmentAtOffset block.val fragNo offset resultLen)
  | formatBlock blockId objectId objectVersion fragSize firstFragNo =>
    Dev.mapErr (fun e => e = .write .blockOutOfBounds)
      (dev.formatBlock blockId objectId objectVersion fragSize firstFragNo)
  | writeFragment block fragNo data =>
    Dev.mapErr (fun e => e = .write .blockOutOfBounds) (dev.writeFragment block.val fragNo data)
  | deleteFragment block fragNo =>
    Dev.mapErr (fun e => e = .write .blockOutOfBounds) (dev.deleteFragment block.val fragNo)

/-- Out of bounds the error is returned and the device, with all fates to come, is as before; in bounds
only the bytes of the block are touched. -/
structure Bounded (op : Operation dev) : Prop where
  refused : dev.blocksTotal ≤ op.blockId → ∀ d, op.program.run d = .err true d
  inside : op.blockId < dev.blocksTotal → TouchesOnly (addresses dev op.blockId) op.program

lemma inside (op : Operation dev) (h : op.blockId < dev.blocksTotal) :
    TouchesOnly (addresses dev op.blockId) op.program := by
  have hin : ∀ block : Obtained dev, block.val.id < dev.blocksTotal → InBounds dev block.val := by
    intro block hid
    exact ⟨hid, block.spec.2⟩
  cases op with
  | blockHeader blockId =>
    exact .mapErr (.bind (touches_blockHeader h) fun _ _ => .pure trivial)
  | fragmentStatus block fragNo =>
    exact .mapErr (.bind (touches_fragmentStatus (hin block h) fragNo) fun _ _ => .pure trivial)
  | read block fragNo offset resultLen =>
    exact .mapErr (.bind (touches_readFragmentAtOffset (hin block h) fragNo offset resultLen)
      fun _ _ => .pure trivial)
  | formatBlock blockId objectId objectVersion fragSize firstFragNo =>
    exact .mapErr (touches_formatBlock h objectId objectVersion fragSize firstFragNo)
  | writeFragment block fragNo data => exact .mapErr (touches_writeFragment (hin block h) fragNo data)
  | deleteFragment block fragNo => exact .mapErr (touches_deleteFragment (hin block h) fragNo)

/-- Behind the number of blocks there are no headers, and the other two operations refuse. -/
lemma refused (op : Operation dev) (h : dev.blocksTotal < op.blockId) (d : Device Mem Fate) :
    op.program.run d = .err true d := by
  cases op with
  | blockHeader blockId =>
    have hb : dev.blocksTotal < blockId := h
    simp only [program, BlockDevice.blockHeader, blockAddrOr, blockAddr, if_pos hb]
    rfl
  | formatBlock blockId objectId objectVersion fragSize firstFragNo =>
    have hb : dev.blocksTotal < blockId := h
    simp only [program, BlockDevice.formatBlock, blockAddrOr, blockAddr, if_pos hb]
    rfl
  | fragmentStatus block fragNo => exact absurd h (Nat.not_lt.mpr block.spec.1)
  | read block fragNo offset resultLen => exact absurd h (Nat.not_lt.mpr block.spec.1)
  | writeFragment block fragNo data => exact absurd h (Nat.not_lt.mpr block.spec.1)
  | deleteFragment block fragNo => exact absurd h (Nat.not_lt.mpr block.spec.1)

/-- A device whose next operation fails -/
def failing : Device Mem Fate := ⟨fun _ => erased, [.offBefore], [true]⟩

/-- On a failing device it is not found out that the block behind the last one is out of bounds. -/
lemma run_tryGetFragmentStatus {h : BlockHeader} (hid : h.id = dev.blocksTotal) (fragNo : ℕ) :
    ∃ d, (dev.tryGetFragmentStatus h fragNo).run failing = .ok none d ∨
      (dev.tryGetFragmentStatus h fragNo).run failing = .err (.flash .other) d := by
  have hb : ¬ dev.blocksTotal < h.id := by omega
  unfold tryGetFragmentStatus blockAddrOr blockAddr
  by_cases hrel : h.fragCount ≤ h.relFragNo fragNo
  · rw [if_pos hrel]
    exact ⟨_, .inl rfl⟩
  · rw [if_neg hrel, if_neg hb]
    exact ⟨_, .inr rfl⟩

lemma run_fragmentStatus {h : BlockHeader} (hid : h.id = dev.blocksTotal) (fragNo : ℕ) :
    ∃ d e, (dev.fragmentStatus h fragNo).run failing = .err e d ∧ e ≠ .read .blockOutOfBounds := by
  unfold BlockDevice.fragmentStatus
  obtain ⟨d, hrun | hrun⟩ := run_tryGetFragmentStatus hid fragNo
  · refine ⟨d, .read .fragmentNotFound, ?_, fun hc => by cases hc⟩
    simp only [Bind.bind, Dev.mapErr, hrun]
    rfl
  · refine ⟨d, .flash .other, ?_, fun hc => by cases hc⟩
    simp only [Bind.bind, Dev.mapErr, hrun]
    rfl

lemma run_fragmentStatusPreWrite {h : BlockHeader} (hid : h.id = dev.blocksTotal) (fragNo : ℕ) :
    ∃ d e, (dev.fragmentStatusPreWrite h fragNo).run failing = .err e d ∧
      e ≠ .write .blockOutOfBounds := by
  unfold fragmentStatusPreWrite
  obtain ⟨d, hrun | hrun⟩ := run_tryGetFragmentStatus hid fragNo
  · refine ⟨d, .write .fragmentNotFound, ?_, fun hc => by cases hc⟩
    simp only [Bind.bind, Dev.mapErr, hrun]
    rfl
  · refine ⟨d, .flash .other, ?_, fun hc => by cases hc⟩
    simp only [Bind.bind, Dev.mapErr, hrun]
    rfl

/-- The block with the number of blocks is not refused. -/
lemma not_refused (op : Operation dev) (h : op.blockId = dev.blocksTotal) :
    op.program.run failing ≠ .err true failing := by
  cases op with
  | blockHeader blockId =>
    have hb : ¬ dev.blocksTotal < blockId := Nat.not_lt.mpr (le_of_eq h)
    simp only [program, BlockDevice.blockHeader, blockAddrOr, blockAddr, if_neg hb]
    exact fun hc => by cases hc
  | fragmentStatus block fragNo =>
    obtain ⟨d', e, hrun, hne⟩ := run_fragmentStatus h fragNo
    simp only [program, Bind.bind, Dev.mapErr, hrun, Dev.andThen]
    simp [hne]
  | read block fragNo offset resultLen =>
    obtain ⟨d', e, hrun, hne⟩ := run_fragmentStatus h fragNo
    simp only [program, readFragmentAtOffset, Bind.bind, Dev.mapErr, hrun, Dev.andThen]
    simp [hne]
  | formatBlock blockId objectId objectVersion fragSize firstFragNo =>
    have hb : ¬ dev.blocksTotal < blockId := Nat.not_lt.mpr (le_of_eq h)
    obtain ⟨d', hoff⟩ : ∃ d', (Flash.write dev.capacity (blockId * dev.blockSize + 2)
        blockInvalidMarker).run failing = .off d' := by
      unfold Flash.write
      split
      · exact ⟨_, rfl⟩
      · exact ⟨_, rfl⟩
    simp only [program, BlockDevice.formatBlock, blockAddrOr, blockAddr, if_neg hb, Bind.bind,
      Dev.mapErr, Dev.attempt, Pure.pure, Dev.andThen, hoff]
    exact fun hc => by cases hc
  | writeFragment block fragNo data =>
    have hb : ¬ dev.blocksTotal < block.val.id := Nat.not_lt.mpr (le_of_eq h)
    obtain ⟨d', e, hrun, hne⟩ := run_fragmentStatusPreWrite h fragNo
    simp only [program, BlockDevice.writeFragment, blockAddrOr, blockAddr, if_neg hb]
    split
    · exact fun hc => by cases hc
    · split
      · exact fun hc => by cases hc
      · simp only [Bind.bind, Dev.mapErr, Pure.pure, Dev.andThen, hrun]
        simp [hne]
  | deleteFragment block fragNo =>
    have hb : ¬ dev.blocksTotal < block.val.id := Nat.not_lt.mpr (le_of_eq h)
    obtain ⟨d', e, hrun, hne⟩ := run_fragmentStatusPreWrite h fragNo
    simp only [program, BlockDevice.deleteFragment, blockAddrOr, blockAddr, if_neg hb]
    split
    · exact fun hc => by cases hc
    · simp only [Bind.bind, Dev.mapErr, Pure.pure, Dev.andThen, hrun]
      simp [hne]

/-- **When an operation is bounded**: its block is not the one behind the last one. -/
theorem bounded_iff (op : Operation dev) : op.Bounded ↔ op.blockId ≠ dev.blocksTotal := by
  constructor
  · intro hbounded heq
    exact not_refused op heq (hbounded.refused heq.ge failing)
  · intro hne
    constructor
    · intro hle
      exact refused op (lt_of_le_of_ne hle hne.symm)
    · exact inside op

lemma oddCapacity_header_le : blockHeaderSize ≤ 32 := by decide

lemma oddCapacity_lt : 144 < 2 ^ 32 := by decide

/-- Four blocks, and an area of 16 bytes behind them -/
def oddDevice : BlockDevice := ⟨32, 144, oddCapacity_header_le, oddCapacity_lt⟩

/-- Formatting block 4 of four blocks writes to the area behind them, and ends with an error of the
flash. -/
theorem format_behind_last_block :
    (∃ d, (oddDevice.formatBlock 4 1 0 2 0).run (.working fun _ => erased) =
      .err (.flash .outOfBounds) d ∧ d.mem 130 = 0xBA) ∧
    ¬ (formatBlock 4 1 0 2 0 : Operation oddDevice).Bounded := by
  constructor
  · exact ⟨_, rfl, rfl⟩
  · intro hbounded
    have htotal : (formatBlock 4 1 0 2 0 : Operation oddDevice).blockId = oddDevice.blocksTotal := rfl
    exact not_refused _ htotal (hbounded.refused htotal.ge failing)

end Operation

end BlockDevice

end SensorLink.Flash
