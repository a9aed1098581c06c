import Mathlib.Logic.Function.Basic
import SensorLink.Flash.BlockLayer

/-!
# What is stored in the blocks

`view` is the block device as its users see it: a block is not valid, or it has a header and fragments,
each with a status and data. Addresses end here: what an operation does to the bytes is stated for the
views, and a block or a fragment that was not addressed keeps its view (`view_eq_update`,
`fragAt_congr`).
-/

namespace SensorLink.Flash

open SensorLink.Lib

/-- A fragment: its status, and the bytes of its place. -/
structure Frag where
  status : FragmentStatus
  data : List UInt8
deriving DecidableEq

/-- A valid block. Behind the fragments that fit into the block, `frag` is `Frag.none`. -/
structure Block where
  header : BlockHeader
  frag : ℕ → Frag

def Frag.none : Frag := ⟨.empty, []⟩

/-- An unused fragment. -/
def Frag.fresh (fragSize : ℕ) : Frag := ⟨.empty, List.replicate fragSize erased⟩

/-- A block that was just formatted. -/
def Block.fresh (h : BlockHeader) : Block :=
  ⟨h, fun i => if i < h.fragCount then Frag.fresh h.fragSize else Frag.none⟩

@[simp]
lemma Frag.fresh_status (fragSize : ℕ) : (Frag.fresh fragSize).status = .empty := rfl

def Block.setFrag (b : Block) (i : ℕ) (f : Frag) : Block := { b with frag := Function.update b.frag i f }

@[simp]
lemma Block.setFrag_header (b : Block) (i : ℕ) (f : Frag) : (b.setFrag i f).header = b.header := rfl

lemma Block.setFrag_frag (b : Block) (i : ℕ) (f : Frag) :
    (b.setFrag i f).frag = Function.update b.frag i f := rfl

@[simp]
lemma Block.fresh_header (h : BlockHeader) : (Block.fresh h).header = h := rfl

lemma Block.fresh_frag {h : BlockHeader} {i : ℕ} (hi : i < h.fragCount) :
    (Block.fresh h).frag i = Frag.fresh h.fragSize := if_pos hi

namespace BlockDevice

variable (dev : BlockDevice)

def headerAt (mem : Mem) (b : ℕ) : Option BlockHeader :=
  BlockHeader.fromBytes dev.blockSize b (readMem mem (b * dev.blockSize) blockHeaderSize)

/-- Where the header of a fragment is. -/
def statusAddr (b i : ℕ) : ℕ := b * dev.blockSize + (blockHeaderSize + fragHeaderSize * i)

/-- Where the data of a fragment is. -/
def dataAddr (h : BlockHeader) (b i : ℕ) : ℕ :=
  b * dev.blockSize + (h.headersTotalSize + i * h.fragSize)

def fragAt (mem : Mem) (h : BlockHeader) (b i : ℕ) : Frag :=
  if i < h.fragCount then
    ⟨FragmentStatus.ofHeader (readMem mem (dev.statusAddr b i) fragHeaderSize),
      readMem mem (dev.dataAddr h b i) h.fragSize⟩
  else Frag.none

/-- The contents of a block, none if it is not valid. -/
def view (mem : Mem) (b : ℕ) : Option Block :=
  (dev.headerAt mem b).map fun h => ⟨h, dev.fragAt mem h b⟩

variable {dev} {mem mem' : Mem} {b i j : ℕ} {h : BlockHeader} {v : Block}

/-! ### Headers -/

lemma tryNew_eq_some {blockSize blockId objectId objectVersion fragSize firstFragNo : ℕ}
    (hh : BlockHeader.tryNew blockSize blockId objectId objectVersion fragSize firstFragNo = some h) :
    h = ⟨objectId, fragSize, firstFragNo, objectVersion, blockId,
      calculateFragmentsPerBlock blockSize fragSize⟩ ∧ 0 < h.fragCount := by
  unfold BlockHeader.tryNew at hh
  dsimp only at hh
  split at hh
  · cases hh
  next hne =>
    obtain rfl := Option.some.inj hh
    exact ⟨rfl, Nat.pos_of_ne_zero hne⟩

/-- The header that is read from a valid block. -/
structure Header (dev : BlockDevice) (b : ℕ) (h : BlockHeader) : Prop where
  id : h.id = b
  count : h.fragCount = calculateFragmentsPerBlock dev.blockSize h.fragSize
  pos : 0 < h.fragCount
  first : h.firstFragNo < 2 ^ 32
  version : h.objectVersion < 2 ^ 8

lemma fromBytes_spec {bytes : List UInt8} (hh : BlockHeader.fromBytes dev.blockSize b bytes = some h) :
    Header dev b h := by
  unfold BlockHeader.fromBytes at hh
  split at hh
  · obtain ⟨rfl, hpos⟩ := tryNew_eq_some hh
    refine ⟨rfl, rfl, hpos, ?_, ?_⟩
    · refine lt_of_lt_of_le (ofLeBytes_lt _) ?_
      exact Nat.pow_le_pow_right (by decide) (List.length_take_le _ _)
    · exact UInt8.toNat_lt _
  · cases hh

lemma headerAt_spec (hh : dev.headerAt mem b = some h) : Header dev b h := fromBytes_spec hh

lemma view_header (hv : dev.view mem b = some v) : dev.headerAt mem b = some v.header := by
  obtain ⟨h, hh, rfl⟩ := Option.map_eq_some_iff.mp hv
  exact hh

lemma view_spec (hv : dev.view mem b = some v) : Header dev b v.header :=
  headerAt_spec (view_header hv)

lemma view_frag (hv : dev.view mem b = some v) : v.frag = dev.fragAt mem v.header b := by
  obtain ⟨h, hh, rfl⟩ := Option.map_eq_some_iff.mp hv
  rfl

/-- All fragments of a block lie behind the headers and inside the block. -/
lemma Header.layout (hh : Header dev b h) (hi : i < h.fragCount) :
    h.headersTotalSize = blockHeaderSize + fragHeaderSize * h.fragCount ∧
      h.headersTotalSize + i * h.fragSize + h.fragSize ≤ dev.blockSize := by
  have hle : h.fragCount * (h.fragSize + fragHeaderSize) ≤ dev.blockSize - blockHeaderSize := by
    rw [hh.count]
    exact Nat.div_mul_le_self _ _
  have hmul : (i + 1) * h.fragSize ≤ h.fragCount * h.fragSize := Nat.mul_le_mul_right _ hi
  have hsize := dev.header_le
  rw [Nat.mul_add] at hle
  rw [Nat.add_mul] at hmul
  unfold BlockHeader.headersTotalSize
  rw [Nat.mul_comm fragHeaderSize]
  omega

lemma Header.fragCount_lt (hh : Header dev b h) (hb : b < dev.blocksTotal) : h.fragCount < 2 ^ 32 := by
  have hle : h.fragCount * (h.fragSize + fragHeaderSize) ≤ dev.blockSize - blockHeaderSize := by
    rw [hh.count]
    exact Nat.div_mul_le_self _ _
  have hmul : h.fragCount * 1 ≤ h.fragCount * (h.fragSize + fragHeaderSize) :=
    Nat.mul_le_mul_left _ (by simp only [fragHeaderSize]; omega)
  have hblock : dev.blockSize ≤ dev.capacity := by
    have hmul := Nat.div_mul_le_self dev.capacity dev.blockSize
    have hone : 1 * dev.blockSize ≤ dev.blocksTotal * dev.blockSize :=
      Nat.mul_le_mul_right _ (by omega)
    unfold blocksTotal at hone
    omega
  have := dev.capacity_lt
  omega

/-! ### Blocks -/

lemma addr_le {b' : ℕ} (h : b < b') : b * dev.blockSize + dev.blockSize ≤ b' * dev.blockSize := by
  have := Nat.mul_le_mul_right dev.blockSize (Nat.succ_le_of_lt h)
  rwa [Nat.succ_mul] at this

lemma addr_lt_capacity (hb : b < dev.blocksTotal) :
    b * dev.blockSize + dev.blockSize ≤ dev.capacity :=
  (addr_le hb).trans (Nat.div_mul_le_self _ _)

/-- The bytes of block `b` are the same. -/
def SameBlock (dev : BlockDevice) (b : ℕ) (mem mem' : Mem) : Prop :=
  ∀ a, b * dev.blockSize ≤ a → a < b * dev.blockSize + dev.blockSize → mem' a = mem a

lemma headerAt_congr (hs : ∀ a, b * dev.blockSize ≤ a → a < b * dev.blockSize + blockHeaderSize →
    mem' a = mem a) : dev.headerAt mem' b = dev.headerAt mem b := by
  unfold headerAt
  rw [readMem_congr hs]

lemma fragAt_congr (hi : i < h.fragCount)
    (h1 : ∀ a, dev.statusAddr b i ≤ a → a < dev.statusAddr b i + fragHeaderSize → mem' a = mem a)
    (h2 : ∀ a, dev.dataAddr h b i ≤ a → a < dev.dataAddr h b i + h.fragSize → mem' a = mem a) :
    dev.fragAt mem' h b i = dev.fragAt mem h b i := by
  unfold fragAt
  rw [if_pos hi, if_pos hi, readMem_congr h1, readMem_congr h2]

lemma view_congr (hs : SameBlock dev b mem mem') : dev.view mem' b = dev.view mem b := by
  have hheader : dev.headerAt mem' b = dev.headerAt mem b :=
    headerAt_congr fun a h1 h2 => hs a h1 (by have := dev.header_le; omega)
  unfold view
  rw [hheader]
  cases hh : dev.headerAt mem b with
  | none => rfl
  | some h =>
    have hspec := headerAt_spec hh
    simp only [Option.map_some, Option.some.injEq, Block.mk.injEq, true_and]
    funext i
    by_cases hi : i < h.fragCount
    · obtain ⟨ht, hle⟩ := hspec.layout hi
      refine fragAt_congr hi ?_ ?_ <;> intro a h1 h2 <;>
        simp only [statusAddr, dataAddr, fragHeaderSize] at h1 h2 ht <;>
        exact hs a (by omega) (by omega)
    · simp only [fragAt, if_neg hi]

/-- The bytes outside of block `b` are the same. -/
def OnlyBlock (dev : BlockDevice) (b : ℕ) (mem mem' : Mem) : Prop :=
  ∀ a, (a < b * dev.blockSize ∨ b * dev.blockSize + dev.blockSize ≤ a) → mem' a = mem a

lemma OnlyBlock.trans {mem'' : Mem} (h1 : OnlyBlock dev b mem mem') (h2 : OnlyBlock dev b mem' mem'') :
    OnlyBlock dev b mem mem'' := fun a ha => (h2 a ha).trans (h1 a ha)

/-- Every other block keeps its view. -/
lemma view_eq_update (ho : OnlyBlock dev b mem mem') :
    dev.view mem' = Function.update (dev.view mem) b (dev.view mem' b) := by
  funext c
  by_cases hc : c = b
  · subst hc
    rw [Function.update_self]
  · rw [Function.update_of_ne hc]
    refine view_congr fun a h1 h2 => ho a ?_
    rcases Nat.lt_or_gt_of_ne hc with hlt | hgt
    · have : c * dev.blockSize + dev.blockSize ≤ b * dev.blockSize := addr_le hlt
      omega
    · have : b * dev.blockSize + dev.blockSize ≤ c * dev.blockSize := addr_le hgt
      omega

lemma onlyBlock_writeMem {offset : ℕ} {bytes : List UInt8} {c : UInt8}
    (h1 : b * dev.blockSize ≤ offset)
    (h2 : offset + bytes.length ≤ b * dev.blockSize + dev.blockSize) :
    OnlyBlock dev b mem (writeMem mem offset bytes c) :=
  fun _ ha => writeMem_of_not_mem (by omega)

lemma onlyBlock_eraseMem {c : UInt8} : OnlyBlock dev b mem
    (eraseMem mem (b * dev.blockSize) (b * dev.blockSize + dev.blockSize) c) := by
  intro a ha
  unfold eraseMem
  rw [if_neg (by omega)]

/-- A change inside the place of fragment `i` changes that fragment only. -/
lemma view_setFrag (hv : dev.view mem b = some v) (hi : i < v.header.fragCount)
    (hsame : ∀ a, (a < dev.statusAddr b i ∨ dev.statusAddr b i + fragHeaderSize ≤ a) →
      (a < dev.dataAddr v.header b i ∨ dev.dataAddr v.header b i + v.header.fragSize ≤ a) →
      mem' a = mem a) :
    dev.view mem' = Function.update (dev.view mem) b
      (some (v.setFrag i (dev.fragAt mem' v.header b i))) := by
  have hspec := view_spec hv
  have hheader := view_header hv
  obtain ⟨ht, hle⟩ := hspec.layout hi
  have honly : OnlyBlock dev b mem mem' := by
    intro a ha
    refine hsame a ?_ ?_ <;> simp only [statusAddr, dataAddr, fragHeaderSize] at ht ⊢ <;> omega
  rw [view_eq_update honly]
  congr 1
  have hheader' : dev.headerAt mem' b = some v.header := by
    rw [← hheader]
    refine headerAt_congr fun a h1 h2 => hsame a ?_ ?_ <;>
      simp only [statusAddr, dataAddr] at ht ⊢ <;> omega
  unfold view
  rw [hheader', Option.map_some]
  congr 1
  refine congrArg (Block.mk v.header) ?_
  funext j
  by_cases hj : j = i
  · subst hj
    rw [Function.update_self]
  · rw [Function.update_of_ne hj, view_frag hv]
    by_cases hjc : j < v.header.fragCount
    · obtain ⟨-, hlej⟩ := hspec.layout hjc
      have hdisj : (j + 1) * v.header.fragSize ≤ i * v.header.fragSize ∨
          (i + 1) * v.header.fragSize ≤ j * v.header.fragSize := by
        rcases Nat.lt_or_gt_of_ne hj with hlt | hgt
        · exact Or.inl (Nat.mul_le_mul_right _ hlt)
        · exact Or.inr (Nat.mul_le_mul_right _ hgt)
      simp only [Nat.add_mul, Nat.one_mul] at hdisj
      refine fragAt_congr hjc ?_ ?_ <;> intro a h1 h2 <;>
        simp only [statusAddr, dataAddr, fragHeaderSize] at h1 h2 ht hsame <;>
        exact hsame a (by omega) (by omega)
    · simp only [fragAt, if_neg hjc]

end BlockDevice

end SensorLink.Flash
