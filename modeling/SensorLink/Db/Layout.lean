import SensorLink.Db.Database
import SensorLink.Flash.BlockSpec
import Mathlib.Tactic.Ring

/-!
# Where the fragments of an object are

`Layout` is an object with what the code takes for granted of the objects of a database.
-/

namespace SensorLink.Db

open SensorLink.Lib SensorLink.Flash

/-- At least one data block besides the spare one, all blocks in the flash, and fragments of a positive
size (a `u16`) of which at least one fits into a block. -/
structure Layout (dev : BlockDevice) extends Object where
  id_lt : id < 2 ^ 16
  fragmentSize_pos : 0 < fragmentSize
  fragmentSize_lt : fragmentSize < 2 ^ 16
  two_blocks : blocksStart + 2 ≤ blocksEnd
  blocks_le : blocksEnd ≤ dev.blocksTotal
  fits : 0 < toObject.fragmentsPerBlock dev.blockSize

namespace Layout

variable {dev : BlockDevice} (f : Layout dev)

/-- Fragments in a block -/
abbrev perBlock : ℕ := f.fragmentsPerBlock dev.blockSize

/-- Fragments in the file -/
abbrev count : ℕ := f.fragmentCount dev.blockSize

lemma perBlock_pos : 0 < f.perBlock := f.fits

/-- The number of fragments is not cut off. -/
lemma count_eq : f.count = f.perBlock * (f.blocksEnd - f.blocksStart - 1) ∧ f.count < 2 ^ 30 := by
  have hper : f.perBlock * (f.fragmentSize + 3) ≤ dev.blockSize :=
    (Nat.div_mul_le_self _ _).trans (Nat.sub_le _ _)
  have hfour : f.perBlock * 4 ≤ dev.blockSize :=
    (Nat.mul_le_mul_left _ (by have := f.fragmentSize_pos; omega)).trans hper
  have hblocks : (f.blocksEnd - f.blocksStart - 1) * dev.blockSize + dev.blockSize ≤ dev.capacity :=
    BlockDevice.addr_lt_capacity (by have := f.two_blocks; have := f.blocks_le; omega)
  have hmul : f.perBlock * 4 * (f.blocksEnd - f.blocksStart - 1) ≤
      dev.blockSize * (f.blocksEnd - f.blocksStart - 1) := Nat.mul_le_mul_right _ hfour
  have hcap := dev.capacity_lt
  have hlt : f.perBlock * (f.blocksEnd - f.blocksStart - 1) < 2 ^ 30 := by
    rw [Nat.mul_right_comm, Nat.mul_comm dev.blockSize] at hmul
    omega
  have htwo := f.two_blocks
  have hend : f.blocksEnd < 2 ^ 32 := (f.blocks_le.trans (Nat.div_le_self _ _)).trans_lt dev.capacity_lt
  have hblockCount : f.blockCount = f.blocksEnd - f.blocksStart := wrappingSub_eq (by omega) hend
  have hcount : f.count = f.perBlock * (f.blocksEnd - f.blocksStart - 1) := by
    have hmod : wrappingMul f.perBlock (f.blocksEnd - f.blocksStart - 1) = _ :=
      Nat.mod_eq_of_lt (hlt.trans (by decide))
    unfold count Object.fragmentCount reservedBlocksPerFile
    rw [hblockCount, if_neg (by omega)]
    dsimp only
    rw [hmod]
    exact Nat.min_eq_right (hlt.le.trans (by decide))
  exact ⟨hcount, hcount ▸ hlt⟩

lemma count_pos : 0 < f.count := by
  rw [f.count_eq.1]
  exact Nat.mul_pos f.perBlock_pos (by have := f.two_blocks; omega)

lemma perBlock_le : f.perBlock ≤ f.count := by
  rw [f.count_eq.1]
  exact Nat.le_mul_of_pos_right _ (by have := f.two_blocks; omega)

lemma mod_lt (i : ℕ) : i % f.perBlock < 2 ^ 32 := by
  have h1 := Nat.mod_lt i f.perBlock_pos
  have h2 := f.perBlock_le
  have h3 := f.count_eq.2
  omega

/-- The block of a fragment is a data block. -/
lemma block_lt {i : ℕ} (hi : i < f.count) : f.blocksStart + i / f.perBlock < f.spareBlock := by
  rw [f.count_eq.1] at hi
  have hdiv : i / f.perBlock < f.blocksEnd - f.blocksStart - 1 := Nat.div_lt_of_lt_mul hi
  unfold Object.spareBlock
  generalize i / f.perBlock = q at hdiv ⊢
  omega

lemma spare_lt : f.spareBlock < dev.blocksTotal := by
  have := f.two_blocks
  have := f.blocks_le
  unfold Object.spareBlock
  omega

lemma start_lt_spare : f.blocksStart < f.spareBlock := by
  have := f.two_blocks
  unfold Object.spareBlock
  omega

lemma fragmentSize_mod : f.fragmentSize % 2 ^ 16 = f.fragmentSize := Nat.mod_eq_of_lt f.fragmentSize_lt

/-- The header of a block that is formatted for the object. -/
def header (block version first : ℕ) : BlockHeader :=
  ⟨f.id, f.fragmentSize, first, version, block, f.perBlock⟩

/-- A fragment with the data that was written to it. -/
def written (data : List UInt8) : Frag :=
  ⟨.valid, data ++ List.replicate (f.fragmentSize - data.length) erased⟩

end Layout

/-- `format_block` for the object. -/
lemma wp_formatFor {dev : BlockDevice} {f : Layout dev} {errors cuts reads : Prop} {mem : Mem}
    {Q : Unit → Mem → Prop} {E : Error → Mem → Prop} {O : Mem → Prop} {b version first : ℕ}
    (hb : b < dev.blocksTotal) (hver : version < 2 ^ 8) (hfirst : first < 2 ^ 32)
    (hok : ∀ mem', dev.view mem' = Function.update (dev.view mem) b
      (some (Block.fresh (f.header b version first))) → Q () mem')
    (herr : errors → ∀ mem', dev.view mem' = Function.update (dev.view mem) b none → E .flash mem')
    (hoff : cuts → ∀ mem', (dev.view mem' = dev.view mem ∨
      dev.view mem' = Function.update (dev.view mem) b none ∨
      dev.view mem' = Function.update (dev.view mem) b
        (some (Block.fresh (f.header b version first)))) → O mem') :
    Dev.wp (faults errors cuts reads) (formatFor dev f.toObject b version first) Q E O mem := by
  unfold formatFor
  rw [f.fragmentSize_mod]
  exact Dev.wp_mapErr (BlockDevice.wp_formatBlock hb f.id_lt hver f.fragmentSize_lt hfirst f.fits hok
    herr hoff)

end SensorLink.Db
