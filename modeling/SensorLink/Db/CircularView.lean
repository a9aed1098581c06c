import SensorLink.Db.CircularStore
import SensorLink.Db.Layout

/-!
# Circular buffers by sequence numbers

The fragments of a circular come in chunks of as many as fit into a block: chunk `q` has the sequence
numbers from `q * perBlock` on and goes to data block `q % dataBlocks`. `slot` is the fragment of a
sequence number, none if its block holds another chunk or nothing.
-/

namespace SensorLink.Db

open SensorLink.Lib SensorLink.Flash

/-- A circular with a layout. -/
structure RingBuffer (dev : BlockDevice) extends Circular, Layout dev

namespace RingBuffer

variable {dev : BlockDevice} (c : RingBuffer dev)

/-- The number of data blocks -/
abbrev dataBlocks : ℕ := c.blocksEnd - c.blocksStart - 1

lemma dataBlocks_pos : 0 < c.dataBlocks := by
  have := c.two_blocks
  unfold dataBlocks
  omega

/-- The block of a chunk. -/
def chunkBlock (q : ℕ) : ℕ := c.blocksStart + q % c.dataBlocks

lemma chunkBlock_lt (q : ℕ) : c.chunkBlock q < dev.blocksTotal := by
  have h1 := Nat.mod_lt q c.dataBlocks_pos
  have h2 := c.blocks_le
  unfold chunkBlock dataBlocks at *
  omega

lemma chunkBlock_eq_iff {q q' : ℕ} :
    c.chunkBlock q = c.chunkBlock q' ↔ q % c.dataBlocks = q' % c.dataBlocks := by
  unfold chunkBlock
  omega

/-- `find_block_no_for_seq_no` -/
lemma findBlockNo_eq (n : ℕ) :
    findBlockNoForSeqNo dev c.toCircular n = c.chunkBlock (n / c.perBlock) := by
  have hcount : c.fragmentCount dev.blockSize = c.perBlock * c.dataBlocks := c.count_eq.1
  unfold findBlockNoForSeqNo chunkBlock
  rw [hcount, Nat.mod_mul_right_div_self]

/-- The block holds chunk `q`. -/
structure IsChunk (block : Block) (q : ℕ) : Prop where
  id : block.header.objectId = c.id
  size : block.header.fragSize = c.fragmentSize
  first : block.header.firstFragNo = q * c.perBlock
  last : q * c.perBlock + c.perBlock < 2 ^ 32

variable {c}

lemma IsChunk.inj {block : Block} {q q' : ℕ} (h : c.IsChunk block q) (h' : c.IsChunk block q') :
    q = q' := Nat.eq_of_mul_eq_mul_right c.perBlock_pos (h.first.symm.trans h'.first)

lemma IsChunk.congr {block block' : Block} {q : ℕ} (h : c.IsChunk block q)
    (heq : block'.header = block.header) : c.IsChunk block' q := by
  refine ⟨?_, ?_, ?_, h.last⟩ <;> rw [heq]
  · exact h.id
  · exact h.size
  · exact h.first

lemma IsChunk.setFrag {block : Block} {q : ℕ} (h : c.IsChunk block q) (i : ℕ) (fr : Frag) :
    c.IsChunk (block.setFrag i fr) q := ⟨h.id, h.size, h.first, h.last⟩

lemma isChunk_fresh {q version : ℕ} (hlast : q * c.perBlock + c.perBlock < 2 ^ 32) (b : ℕ) :
    c.IsChunk (Block.fresh (c.header b version (q * c.perBlock))) q := ⟨rfl, rfl, rfl, hlast⟩

variable (c) in
/-- All data blocks hold chunks of the circular. -/
def Own (V : ℕ → Option Block) : Prop :=
  ∀ q block, V (c.chunkBlock q) = some block → ∃ q', c.chunkBlock q' = c.chunkBlock q ∧
    c.IsChunk block q'

instance (block : Block) (q : ℕ) : Decidable (c.IsChunk block q) :=
  decidable_of_iff (block.header.objectId = c.id ∧ block.header.fragSize = c.fragmentSize ∧
      block.header.firstFragNo = q * c.perBlock ∧ q * c.perBlock + c.perBlock < 2 ^ 32)
    ⟨fun ⟨h1, h2, h3, h4⟩ => ⟨h1, h2, h3, h4⟩, fun ⟨h1, h2, h3, h4⟩ => ⟨h1, h2, h3, h4⟩⟩

variable (c) in
/-- The fragment with a sequence number. -/
def slot (V : ℕ → Option Block) (n : ℕ) : Option Frag :=
  match V (c.chunkBlock (n / c.perBlock)) with
  | none => none
  | some block => if c.IsChunk block (n / c.perBlock) then some (block.frag (n % c.perBlock)) else none

/-- A formatted block is a chunk, and the other blocks stay. -/
lemma Own.formatted {V V' : ℕ → Option Block} {q b version : ℕ} (h : c.Own V)
    (hlast : q * c.perBlock + c.perBlock < 2 ^ 32)
    (hv : V' = Function.update V (c.chunkBlock q)
      (some (Block.fresh (c.header b version (q * c.perBlock))))) : c.Own V' := by
  intro q' block hb
  subst hv
  by_cases heq : c.chunkBlock q' = c.chunkBlock q
  · rw [heq, Function.update_self] at hb
    obtain rfl := Option.some.inj hb
    exact ⟨q, heq.symm, isChunk_fresh hlast b⟩
  · rw [Function.update_of_ne heq] at hb
    exact h q' block hb

section Slot

variable {V : ℕ → Option Block} {n k q : ℕ} {block : Block} {fr : Frag}

lemma slot_of_chunk (hv : V (c.chunkBlock (n / c.perBlock)) = some block)
    (hc : c.IsChunk block (n / c.perBlock)) : c.slot V n = some (block.frag (n % c.perBlock)) := by
  unfold slot
  rw [hv]
  exact if_pos hc

lemma slot_eq_some (h : c.slot V n = some fr) : ∃ block,
    V (c.chunkBlock (n / c.perBlock)) = some block ∧ c.IsChunk block (n / c.perBlock) ∧
      fr = block.frag (n % c.perBlock) := by
  unfold slot at h
  cases hv : V (c.chunkBlock (n / c.perBlock)) with
  | none =>
    rw [hv] at h
    cases h
  | some block =>
    rw [hv] at h
    simp only at h
    split at h
    next hc => exact ⟨block, rfl, hc, (Option.some.inj h).symm⟩
    · cases h

lemma slot_congr {V' : ℕ → Option Block}
    (h : V' (c.chunkBlock (n / c.perBlock)) = V (c.chunkBlock (n / c.perBlock))) :
    c.slot V' n = c.slot V n := by
  unfold slot
  rw [h]

lemma slot_eq_none_of_chunk (hv : V (c.chunkBlock (n / c.perBlock)) = some block)
    (hc : c.IsChunk block q) (hne : q ≠ n / c.perBlock) : c.slot V n = none := by
  unfold slot
  rw [hv]
  exact if_neg fun hc' => hne (hc.inj hc')

/-- The quotient and the remainder of a sequence number. -/
lemma div_mod_eq (c : RingBuffer dev) (n : ℕ) : n / c.perBlock * c.perBlock + n % c.perBlock = n :=
  Nat.div_add_mod' n c.perBlock

lemma eq_of_div_mod (hdiv : k / c.perBlock = n / c.perBlock) (hmod : k % c.perBlock = n % c.perBlock) :
    k = n := by
  rw [← c.div_mod_eq k, ← c.div_mod_eq n, hdiv, hmod]

/-- Setting a fragment. -/
lemma slot_setFrag (hv : V (c.chunkBlock (n / c.perBlock)) = some block)
    (hc : c.IsChunk block (n / c.perBlock)) (fr : Frag) (k : ℕ) :
    c.slot (Function.update V (c.chunkBlock (n / c.perBlock))
      (some (block.setFrag (n % c.perBlock) fr))) k = if k = n then some fr else c.slot V k := by
  by_cases hb : c.chunkBlock (k / c.perBlock) = c.chunkBlock (n / c.perBlock)
  · by_cases hq : k / c.perBlock = n / c.perBlock
    · rw [slot_of_chunk (by rw [hq, Function.update_self]) (hq ▸ hc.setFrag _ _), Block.setFrag_frag]
      by_cases hk : k = n
      · rw [if_pos hk, hk, Function.update_self]
      · have hmod : k % c.perBlock ≠ n % c.perBlock := fun hmod => hk (eq_of_div_mod hq hmod)
        rw [if_neg hk, Function.update_of_ne hmod, slot_of_chunk (by rw [hb, hv]) (hq ▸ hc)]
    · have hk : k ≠ n := fun hk => hq (by rw [hk])
      rw [if_neg hk, slot_eq_none_of_chunk (by rw [hb, Function.update_self]) (hc.setFrag _ _)
        (Ne.symm hq), slot_eq_none_of_chunk (by rw [hb, hv]) hc (Ne.symm hq)]
  · have hk : k ≠ n := fun hk => hb (by rw [hk])
    rw [if_neg hk, slot_congr (Function.update_of_ne hb _ _)]

variable (c) in
/-- The view where the fragment of a sequence number is `fr`. -/
def setSlot (V : ℕ → Option Block) (n : ℕ) (fr : Frag) : ℕ → Option Block :=
  match V (c.chunkBlock (n / c.perBlock)) with
  | none => V
  | some block =>
    Function.update V (c.chunkBlock (n / c.perBlock)) (some (block.setFrag (n % c.perBlock) fr))

lemma setSlot_eq (hv : V (c.chunkBlock (n / c.perBlock)) = some block) (fr : Frag) :
    c.setSlot V n fr = Function.update V (c.chunkBlock (n / c.perBlock))
      (some (block.setFrag (n % c.perBlock) fr)) := by
  unfold setSlot
  rw [hv]

/-- Setting a fragment keeps the headers. -/
lemma header_setSlot (V : ℕ → Option Block) (n : ℕ) (fr : Frag) (b : ℕ) :
    (c.setSlot V n fr b).map Block.header = (V b).map Block.header := by
  unfold setSlot
  cases hv : V (c.chunkBlock (n / c.perBlock)) with
  | none => rfl
  | some block =>
    simp only
    by_cases hb : b = c.chunkBlock (n / c.perBlock)
    · rw [hb, Function.update_self, hv]
      rfl
    · rw [Function.update_of_ne hb]

lemma slot_setSlot {fr₀ : Frag} (h : c.slot V n = some fr₀) (fr : Frag) (k : ℕ) :
    c.slot (c.setSlot V n fr) k = if k = n then some fr else c.slot V k := by
  obtain ⟨block, hv, hc, -⟩ := slot_eq_some h
  rw [setSlot_eq hv]
  exact slot_setFrag hv hc fr k

/-- A block that is not valid has no fragments. -/
lemma slot_wiped (q k : ℕ) : c.slot (Function.update V (c.chunkBlock q) none) k =
    if c.chunkBlock (k / c.perBlock) = c.chunkBlock q then none else c.slot V k := by
  by_cases hb : c.chunkBlock (k / c.perBlock) = c.chunkBlock q
  · rw [if_pos hb]
    unfold slot
    rw [hb, Function.update_self]
  · rw [if_neg hb, slot_congr (Function.update_of_ne hb _ _)]

/-- A formatted block has unused fragments. -/
lemma slot_formatted {b version : ℕ} (hlast : q * c.perBlock + c.perBlock < 2 ^ 32) (k : ℕ) :
    c.slot (Function.update V (c.chunkBlock q)
      (some (Block.fresh (c.header b version (q * c.perBlock))))) k =
    if k / c.perBlock = q then some (Frag.fresh c.fragmentSize)
    else if c.chunkBlock (k / c.perBlock) = c.chunkBlock q then none else c.slot V k := by
  by_cases hq : k / c.perBlock = q
  · rw [if_pos hq, slot_of_chunk (by rw [hq, Function.update_self]) (hq ▸ isChunk_fresh hlast b)]
    exact congrArg some (Block.fresh_frag (Nat.mod_lt _ c.perBlock_pos))
  · rw [if_neg hq]
    by_cases hb : c.chunkBlock (k / c.perBlock) = c.chunkBlock q
    · rw [if_pos hb, slot_eq_none_of_chunk (by rw [hb, Function.update_self]) (isChunk_fresh hlast b)
        (Ne.symm hq)]
    · rw [if_neg hb, slot_congr (Function.update_of_ne hb _ _)]

end Slot

end RingBuffer

end SensorLink.Db
