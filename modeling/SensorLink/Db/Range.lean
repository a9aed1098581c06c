import Mathlib.Data.Set.Insert
import SensorLink.Db.Frontier

/-!
# The range in use after a restart

The loops of `find_circular_range` as functions of the view, and what its scan finds when the blocks are
near each other (`scanV_spec`): the first and the last block with data, the first empty one, and the
highest of all.
-/

namespace SensorLink.Db

open SensorLink.Lib SensorLink.Flash RingBuffer

variable {dev : BlockDevice}

/-! ### The search as a function of the view -/

/-- `blockKindLoop` on the first `k` fragments of a block. -/
def kindV (block : Block) : ℕ → BlockKind
  | 0 => .noData
  | k + 1 =>
    match (block.frag k).status with
    | .invalid => kindV block k
    | .valid => .data
    | .obsolete => .noData
    | .empty => if (block.frag 0).status = .empty then .empty else .data

def blockKindV (block : Block) : BlockKind := kindV block block.header.fragCount

def scanV (c : RingBuffer dev) (V : ℕ → Option Block) : List ℕ → Scan → Scan
  | [], scan => scan
  | b :: bs, scan =>
    match V b with
    | none => scanV c V bs scan
    | some block => scanV c V bs (scan.add block.header (blockKindV block))

/-- `searchLoop` from fragment `i` of a block on. -/
def searchV (stops : FragmentStatus → Bool) (block : Block) : ℕ → ℕ → ℕ
  | 0, i => i
  | k + 1, i => if stops (block.frag i).status then i else searchV stops block k (i + 1)

section Wp

variable {c : RingBuffer dev} {errors cuts reads : Prop} {mem : Mem} {O : Mem → Prop}
variable {E : Error → Mem → Prop} {b : ℕ} {block : Block}

lemma wp_blockKindLoop {Q : BlockKind → Mem → Prop} (hb : b < dev.blocksTotal)
    (hv : dev.view mem b = some block) (hfault : reads → E .flash mem) (k offset : ℕ)
    (hk : offset + k = block.header.fragCount) (hok : Q (kindV block k) mem) :
    Dev.wp (faults errors cuts reads) (blockKindLoop dev block.header (List.range' offset k))
      Q E O mem := by
  have hspec := BlockDevice.view_spec hv
  have hcount := hspec.fragCount_lt hb
  have hfirst : block.header.relFragNo block.header.firstFragNo = 0 := by
    rw [BlockHeader.relFragNo, wrappingSub_eq le_rfl hspec.first, Nat.sub_self]
  induction k generalizing offset with
  | zero => exact Dev.wp_pure hok
  | succ k ih =>
    have hrel : block.header.relFragNo (wrappingSub block.header.lastFragment offset) = k := by
      have hone := hspec.first
      unfold BlockHeader.relFragNo BlockHeader.lastFragment wrappingSub wrappingAdd
      omega
    rw [List.range'_succ]
    refine Dev.wp_bind (Dev.wp_mapErr (BlockDevice.wp_fragmentStatus hb hv (by rw [hrel]; omega)
      hfault ?_))
    rw [hrel]
    unfold kindV at hok
    revert hok
    cases (block.frag k).status with
    | invalid => exact fun hok => ih (offset + 1) (by omega) hok
    | valid => exact fun hok => Dev.wp_pure hok
    | obsolete => exact fun hok => Dev.wp_pure hok
    | empty =>
      intro hok
      refine Dev.wp_bind (Dev.wp_mapErr (BlockDevice.wp_fragmentStatus hb hv
        (by rw [hfirst]; exact hspec.pos) hfault ?_))
      rw [hfirst]
      by_cases hst : (block.frag 0).status = .empty
      · simp only [if_pos hst] at hok ⊢
        exact Dev.wp_pure hok
      · simp only [if_neg hst] at hok ⊢
        exact Dev.wp_pure hok

lemma wp_scanLoop {Q : Scan → Mem → Prop} (hown : c.Own (dev.view mem))
    (hfault : reads → E .flash mem) (bs : List ℕ) (scan : Scan)
    (hbs : ∀ b ∈ bs, ∃ q, b = c.chunkBlock q) (hok : Q (scanV c (dev.view mem) bs scan) mem) :
    Dev.wp (faults errors cuts reads) (scanLoop dev c.toCircular bs scan) Q E O mem := by
  induction bs generalizing scan with
  | nil => exact Dev.wp_pure hok
  | cons b bs ih =>
    obtain ⟨q, hq⟩ := hbs b List.mem_cons_self
    have hbs' : ∀ b ∈ bs, ∃ q, b = c.chunkBlock q := fun b hb => hbs b (List.mem_cons_of_mem _ hb)
    have hb : b < dev.blocksTotal := hq ▸ c.chunkBlock_lt q
    refine Dev.wp_bind (Dev.wp_mapErr (BlockDevice.wp_blockHeader hb hfault ?_))
    unfold scanV at hok
    cases hv : dev.view mem b with
    | none =>
      rw [hv] at hok
      exact ih scan hbs' hok
    | some block =>
      rw [hv] at hok
      obtain ⟨q', -, hc⟩ := hown q block (hq ▸ hv)
      simp only [Option.map_some]
      rw [if_neg (by simp [hc.id, hc.size])]
      refine Dev.wp_bind ?_
      unfold blockKind
      rw [List.range_eq_range']
      exact wp_blockKindLoop hb hv hfault _ 0 (Nat.zero_add _) (ih _ hbs' hok)

lemma wp_searchLoop {Q : ℕ → Mem → Prop} {stops : FragmentStatus → Bool} {q : ℕ}
    (hv : dev.view mem b = some block) (hb : b < dev.blocksTotal) (hc : c.IsChunk block q)
    (hfault : reads → E .flash mem) (k i : ℕ) (hi : i + k = c.perBlock)
    (hok : Q (q * c.perBlock + searchV stops block k i) mem) :
    Dev.wp (faults errors cuts reads) (searchLoop dev stops block.header k (q * c.perBlock + i))
      Q E O mem := by
  have hlast := hc.last
  induction k generalizing i with
  | zero => exact Dev.wp_pure hok
  | succ k ih =>
    have hrel : block.header.relFragNo (q * c.perBlock + i) = i := by
      rw [BlockHeader.relFragNo, hc.first, wrappingSub_eq (Nat.le_add_right _ _) (by omega)]
      omega
    have hlt : i < block.header.fragCount := by
      rw [(BlockDevice.view_spec hv).count, hc.size]
      exact (by omega : i < c.perBlock)
    refine Dev.wp_bind (Dev.wp_mapErr (BlockDevice.wp_fragmentStatus hb hv (by rw [hrel]; exact hlt)
      hfault ?_))
    rw [hrel]
    unfold searchV at hok
    by_cases hs : stops (block.frag i).status = true
    · rw [if_pos hs] at hok ⊢
      exact Dev.wp_pure hok
    · rw [if_neg hs] at hok ⊢
      rw [wrappingAdd_eq (by omega), Nat.add_assoc]
      exact ih (i + 1) (by omega) hok

end Wp

/-! ### The lowest and the highest block -/

/-- The header of the lowest block of `S`, none if there is no block. -/
def Lowest (S : Set Block) : Option BlockHeader → Prop
  | none => S = ∅
  | some h => ∃ block ∈ S, block.header = h ∧ ∀ block' ∈ S, h.firstFragNo ≤ block'.header.firstFragNo

/-- The header of the highest block of `S`, none if there is no block. -/
def Highest (S : Set Block) : Option BlockHeader → Prop
  | none => S = ∅
  | some h => ∃ block ∈ S, block.header = h ∧ ∀ block' ∈ S, block'.header.firstFragNo ≤ h.firstFragNo

/-- `fragment_gte` is the order on the first fragments of these blocks. -/
def Near (block block' : Block) : Prop :=
  fragmentGte block.header.firstFragNo block'.header.firstFragNo = true ↔
    block'.header.firstFragNo ≤ block.header.firstFragNo

section Scan

variable {S : Set Block} {o : Option BlockHeader} {block : Block}

lemma lowest_insert (h : Lowest S o) (hnear : ∀ block' ∈ S, Near block block') :
    Lowest (insert block S) (some (Scan.lower block.header o)) := by
  cases o with
  | none =>
    obtain rfl : S = ∅ := h
    exact ⟨block, Set.mem_insert _ _, rfl, fun block' hb => by
      rw [Set.mem_insert_iff, Set.mem_empty_iff_false, or_false] at hb
      rw [hb]
      exact le_rfl⟩
  | some old =>
    obtain ⟨low, hlow, rfl, hmin⟩ := h
    have hgte := hnear low hlow
    unfold Scan.lower
    simp only
    by_cases hge : fragmentGte block.header.firstFragNo low.header.firstFragNo = true
    · rw [if_pos hge]
      refine ⟨low, Set.mem_insert_of_mem _ hlow, rfl, fun block' hb => ?_⟩
      rcases Set.mem_insert_iff.mp hb with rfl | hb
      · exact hgte.mp hge
      · exact hmin block' hb
    · rw [if_neg hge]
      have hlt : block.header.firstFragNo < low.header.firstFragNo :=
        Nat.lt_of_not_le fun hle => hge (hgte.mpr hle)
      refine ⟨block, Set.mem_insert _ _, rfl, fun block' hb => ?_⟩
      rcases Set.mem_insert_iff.mp hb with rfl | hb
      · exact le_rfl
      · exact hlt.le.trans (hmin block' hb)

lemma highest_insert (h : Highest S o) (hnear : ∀ block' ∈ S, Near block block') :
    Highest (insert block S) (some (Scan.higher block.header o)) := by
  cases o with
  | none =>
    obtain rfl : S = ∅ := h
    exact ⟨block, Set.mem_insert _ _, rfl, fun block' hb => by
      rw [Set.mem_insert_iff, Set.mem_empty_iff_false, or_false] at hb
      rw [hb]
      exact le_rfl⟩
  | some old =>
    obtain ⟨high, hhigh, rfl, hmax⟩ := h
    have hgte := hnear high hhigh
    unfold Scan.higher
    simp only
    by_cases hge : fragmentGte block.header.firstFragNo high.header.firstFragNo = true
    · rw [if_pos hge]
      refine ⟨block, Set.mem_insert _ _, rfl, fun block' hb => ?_⟩
      rcases Set.mem_insert_iff.mp hb with rfl | hb
      · exact le_rfl
      · exact (hmax block' hb).trans (hgte.mp hge)
    · rw [if_neg hge]
      have hlt : block.header.firstFragNo < high.header.firstFragNo :=
        Nat.lt_of_not_le fun hle => hge (hgte.mpr hle)
      refine ⟨high, Set.mem_insert_of_mem _ hhigh, rfl, fun block' hb => ?_⟩
      rcases Set.mem_insert_iff.mp hb with rfl | hb
      · exact hlt.le
      · exact hmax block' hb

/-- The blocks of one kind. -/
def ofKind (A : Set Block) (kind : BlockKind) : Set Block := {block ∈ A | blockKindV block = kind}

lemma ofKind_insert (A : Set Block) (block : Block) (kind : BlockKind) :
    ofKind (insert block A) kind =
      if blockKindV block = kind then insert block (ofKind A kind) else ofKind A kind := by
  ext block'
  by_cases hk : blockKindV block = kind
  · rw [if_pos hk]
    simp only [ofKind, Set.mem_ofPred_eq, Set.mem_insert_iff]
    constructor
    · rintro ⟨rfl | hb, hk'⟩
      · exact Or.inl rfl
      · exact Or.inr ⟨hb, hk'⟩
    · rintro (rfl | ⟨hb, hk'⟩)
      · exact ⟨Or.inl rfl, hk⟩
      · exact ⟨Or.inr hb, hk'⟩
  · rw [if_neg hk]
    simp only [ofKind, Set.mem_ofPred_eq, Set.mem_insert_iff]
    constructor
    · rintro ⟨rfl | hb, hk'⟩
      · exact absurd hk' hk
      · exact ⟨hb, hk'⟩
    · rintro ⟨hb, hk'⟩
      exact ⟨Or.inr hb, hk'⟩

/-- What the scan has found in the blocks `A`. -/
structure ScanSpec (A : Set Block) (scan : Scan) : Prop where
  first : Lowest (ofKind A .data) (scan.data.map Prod.fst)
  last : Highest (ofKind A .data) (scan.data.map Prod.snd)
  empty : Lowest (ofKind A .empty) scan.firstEmpty
  highest : Highest A scan.highest

lemma ScanSpec.add {A : Set Block} {scan : Scan} (h : ScanSpec A scan)
    (hnear : ∀ block' ∈ A, Near block block') :
    ScanSpec (insert block A) (scan.add block.header (blockKindV block)) := by
  have hnear' : ∀ kind, ∀ block' ∈ ofKind A kind, Near block block' :=
    fun kind block' hb => hnear block' hb.1
  have hkind := ofKind_insert A block
  unfold Scan.add
  refine ⟨?_, ?_, ?_, highest_insert h.highest hnear⟩
  · by_cases hk : blockKindV block = .data
    · rw [hkind, if_pos hk, if_pos hk]
      exact lowest_insert h.first (hnear' .data)
    · rw [hkind, if_neg hk, if_neg hk]
      exact h.first
  · by_cases hk : blockKindV block = .data
    · rw [hkind, if_pos hk, if_pos hk]
      exact highest_insert h.last (hnear' .data)
    · rw [hkind, if_neg hk, if_neg hk]
      exact h.last
  · by_cases hk : blockKindV block = .empty
    · rw [hkind, if_pos hk, if_pos hk]
      exact lowest_insert h.empty (hnear' .empty)
    · rw [hkind, if_neg hk, if_neg hk]
      exact h.empty

/-- The blocks of the list that are valid. -/
def blocksIn (V : ℕ → Option Block) (bs : List ℕ) : Set Block := {block | ∃ b ∈ bs, V b = some block}

lemma scanV_spec {c : RingBuffer dev} {V : ℕ → Option Block} (bs done : List ℕ) {scan : Scan}
    (h : ScanSpec (blocksIn V done) scan)
    (hnear : ∀ block ∈ blocksIn V (done ++ bs), ∀ block' ∈ blocksIn V (done ++ bs), Near block block') :
    ScanSpec (blocksIn V (done ++ bs)) (scanV c V bs scan) := by
  induction bs generalizing done scan with
  | nil => rwa [List.append_nil]
  | cons b bs ih =>
    rw [List.append_cons] at hnear ⊢
    unfold scanV
    cases hv : V b with
    | none =>
      refine ih (done ++ [b]) ?_ hnear
      have heq : blocksIn V (done ++ [b]) = blocksIn V done := by
        ext block
        simp only [blocksIn, Set.mem_ofPred_eq, List.mem_append, List.mem_singleton]
        constructor
        · rintro ⟨b', hb' | rfl, hv'⟩
          · exact ⟨b', hb', hv'⟩
          · rw [hv] at hv'
            cases hv'
        · rintro ⟨b', hb', hv'⟩
          exact ⟨b', Or.inl hb', hv'⟩
      rw [heq]
      exact h
    | some block =>
      refine ih (done ++ [b]) ?_ hnear
      have heq : blocksIn V (done ++ [b]) = insert block (blocksIn V done) := by
        ext block'
        simp only [blocksIn, Set.mem_ofPred_eq, List.mem_append, List.mem_singleton,
          Set.mem_insert_iff]
        constructor
        · rintro ⟨b', hb' | rfl, hv'⟩
          · exact Or.inr ⟨b', hb', hv'⟩
          · rw [hv] at hv'
            exact Or.inl (Option.some.inj hv').symm
        · rintro (rfl | ⟨b', hb', hv'⟩)
          · exact ⟨b, Or.inr rfl, hv⟩
          · exact ⟨b', Or.inl hb', hv'⟩
      rw [heq]
      refine h.add fun block' hb' => hnear block ?_ block' ?_
      · exact ⟨b, by simp, hv⟩
      · obtain ⟨b', hb', hv'⟩ := hb'
        exact ⟨b', by simp [hb'], hv'⟩

end Scan

end SensorLink.Db
