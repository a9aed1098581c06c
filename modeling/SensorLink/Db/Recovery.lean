import SensorLink.Db.Range

/-!
# What `find_circular_range` finds

The blocks of a circular that was written in order are full up to the frontier and empty behind it, so
the kind of a block says where it lies: `empty` is the block of the frontier, `data` has a valid fragment
or the frontier inside. `RangeSpec` is what this makes of the range.
-/

namespace SensorLink.Db

open SensorLink.Lib SensorLink.Flash RingBuffer

variable {dev : BlockDevice} {c : RingBuffer dev} {V : ℕ → Option Block} {F : ℕ}

/-! ### The kind of a block -/

/-- The last fragment that is not invalid decides. -/
lemma kindV_cases (block : Block) (k : ℕ) :
    (kindV block k = .noData ∧ ∀ i, i < k → (block.frag i).status = .invalid) ∨
    ∃ i, i < k ∧ (∀ j, i < j → j < k → (block.frag j).status = .invalid) ∧
      ((block.frag i).status = .valid ∧ kindV block k = .data ∨
        (block.frag i).status = .obsolete ∧ kindV block k = .noData ∨
        (block.frag i).status = .empty ∧
          kindV block k = if (block.frag 0).status = .empty then .empty else .data) := by
  induction k with
  | zero => exact Or.inl ⟨rfl, fun i hi => absurd hi (Nat.not_lt_zero i)⟩
  | succ k ih =>
    cases hst : (block.frag k).status with
    | invalid =>
      have hkind : kindV block (k + 1) = kindV block k := by
        rw [kindV, hst]
      rw [hkind]
      rcases ih with ⟨hk, hall⟩ | ⟨i, hi, hafter, hcase⟩
      · refine Or.inl ⟨hk, fun i hi => ?_⟩
        rcases Nat.lt_succ_iff_lt_or_eq.mp hi with hi | rfl
        · exact hall i hi
        · exact hst
      · refine Or.inr ⟨i, Nat.lt_succ_of_lt hi, fun j hj hjk => ?_, hcase⟩
        rcases Nat.lt_succ_iff_lt_or_eq.mp hjk with hjk | rfl
        · exact hafter j hj hjk
        · exact hst
    | valid =>
      exact Or.inr ⟨k, Nat.lt_succ_self k, fun j h1 h2 => by omega, Or.inl ⟨hst, by rw [kindV, hst]⟩⟩
    | obsolete =>
      exact Or.inr ⟨k, Nat.lt_succ_self k, fun j h1 h2 => by omega,
        Or.inr (Or.inl ⟨hst, by rw [kindV, hst]⟩)⟩
    | empty =>
      exact Or.inr ⟨k, Nat.lt_succ_self k, fun j h1 h2 => by omega,
        Or.inr (Or.inr ⟨hst, by rw [kindV, hst]⟩)⟩

lemma searchV_spec (stops : FragmentStatus → Bool) (block : Block) (k i : ℕ) :
    i ≤ searchV stops block k i ∧ searchV stops block k i ≤ i + k ∧
    (∀ j, i ≤ j → j < searchV stops block k i → stops (block.frag j).status = false) ∧
    (searchV stops block k i < i + k → stops (block.frag (searchV stops block k i)).status = true) := by
  induction k generalizing i with
  | zero => exact ⟨le_rfl, le_rfl, fun j h1 h2 => by unfold searchV at h2; omega,
      fun h => absurd h (by unfold searchV; omega)⟩
  | succ k ih =>
    unfold searchV
    by_cases hs : stops (block.frag i).status = true
    · rw [if_pos hs]
      exact ⟨le_rfl, by omega, fun j h1 h2 => by omega, fun _ => hs⟩
    · rw [if_neg hs]
      obtain ⟨h1, h2, h3, h4⟩ := ih (i + 1)
      refine ⟨by omega, by omega, fun j hj1 hj2 => ?_, fun hlt => h4 (by omega)⟩
      rcases Nat.eq_or_lt_of_le hj1 with rfl | hj1
      · exact Bool.eq_false_iff.mpr hs
      · exact h3 j hj1 hj2

section Kind

variable {q : ℕ} {block : Block}

/-- A fragment of a chunk by its place. -/
lemma slot_at (hv : V (c.chunkBlock q) = some block) (hc : c.IsChunk block q) {i : ℕ}
    (hi : i < c.perBlock) : c.slot V (q * c.perBlock + i) = some (block.frag i) := by
  have hdiv : (q * c.perBlock + i) / c.perBlock = q := by
    rw [Nat.add_comm, Nat.add_mul_div_right _ _ c.perBlock_pos, Nat.div_eq_of_lt hi, Nat.zero_add]
  have hmod : (q * c.perBlock + i) % c.perBlock = i := by
    rw [Nat.add_comm, Nat.add_mul_mod_self_right, Nat.mod_eq_of_lt hi]
  have hslot := slot_of_chunk (n := q * c.perBlock + i) (hdiv.symm ▸ hv) (hdiv.symm ▸ hc)
  rwa [hmod] at hslot

lemma exists_at {n : ℕ} {fr : Frag} (hfr : c.slot V n = some fr) : ∃ q block i,
    V (c.chunkBlock q) = some block ∧ c.IsChunk block q ∧ i < c.perBlock ∧ n = q * c.perBlock + i ∧
      fr = block.frag i := by
  obtain ⟨block, hv, hc, rfl⟩ := slot_eq_some hfr
  exact ⟨n / c.perBlock, block, n % c.perBlock, hv, hc, Nat.mod_lt _ c.perBlock_pos,
    (c.div_mod_eq n).symm, rfl⟩

lemma fragCount_eq {mem : Mem} {b : ℕ} (hv : dev.view mem b = some block) (hc : c.IsChunk block q) :
    block.header.fragCount = c.perBlock := by
  rw [(BlockDevice.view_spec hv).count, hc.size]
  rfl

/-- A block below the frontier. -/
lemma RingInv.kind_full (h : RingInv c V F) (hv : V (c.chunkBlock q) = some block)
    (hc : c.IsChunk block q) (hfull : q < F / c.perBlock) :
    (kindV block c.perBlock = .data ∧ ∃ i, i < c.perBlock ∧ (block.frag i).status = .valid) ∨
    (kindV block c.perBlock = .noData ∧ ∀ i, i < c.perBlock → (block.frag i).status = .valid →
      ∃ j, i < j ∧ j < c.perBlock ∧ (block.frag j).status = .obsolete) := by
  have hle : q * c.perBlock + c.perBlock ≤ F := by
    have h1 : (q + 1) * c.perBlock ≤ F / c.perBlock * c.perBlock := Nat.mul_le_mul_right _ hfull
    have h2 := c.div_mod_eq F
    rw [Nat.succ_mul] at h1
    omega
  have hused : ∀ i, i < c.perBlock → (block.frag i).status ≠ .empty :=
    fun i hi => h.used _ _ (by omega) (slot_at hv hc hi)
  rcases kindV_cases block c.perBlock with ⟨hk, hall⟩ | ⟨i, hi, hafter, hcase⟩
  · refine Or.inr ⟨hk, fun i hi hst => ?_⟩
    rw [hall i hi] at hst
    cases hst
  · rcases hcase with ⟨hst, hk⟩ | ⟨hst, hk⟩ | ⟨hst, hk⟩
    · exact Or.inl ⟨hk, i, hi, hst⟩
    · refine Or.inr ⟨hk, fun j hj hvalid => ?_⟩
      rcases Nat.lt_trichotomy j i with hlt | rfl | hgt
      · exact ⟨i, hlt, hi, hst⟩
      · rw [hst] at hvalid
        cases hvalid
      · rw [hafter j hgt hj] at hvalid
        cases hvalid
    · exact absurd hst (hused i hi)

/-- The block of the frontier. -/
lemma RingInv.kind_current (h : RingInv c V F) (hv : V (c.chunkBlock (F / c.perBlock)) = some block)
    (hc : c.IsChunk block (F / c.perBlock)) :
    kindV block c.perBlock = if F % c.perBlock = 0 then .empty else .data := by
  have hp := c.perBlock_pos
  have hF := c.div_mod_eq F
  have hmod := Nat.mod_lt F hp
  obtain ⟨k, hk⟩ : ∃ k, c.perBlock = k + 1 := ⟨c.perBlock - 1, by omega⟩
  have hlast : (block.frag k).status = .empty := by
    rw [h.unused _ _ (by omega) (slot_at hv hc (by omega))]
    rfl
  have hkind : kindV block c.perBlock = if (block.frag 0).status = .empty then .empty else .data := by
    rw [hk, kindV, hlast]
  rw [hkind]
  by_cases h0 : F % c.perBlock = 0
  · rw [if_pos h0, if_pos]
    rw [h.unused _ _ (by omega) (slot_at hv hc hp)]
    rfl
  · rw [if_neg h0, if_neg]
    exact h.used _ _ (by omega) (slot_at hv hc hp)

end Kind

/-! ### The blocks of the scan -/

/-- The scan goes over the data blocks. -/
lemma mem_scanned {b : ℕ} :
    b ∈ List.range' c.blocksStart (c.blocksEnd - 1 - c.blocksStart) ↔ ∃ q, b = c.chunkBlock q := by
  have hm := c.dataBlocks_pos
  have heq : c.blocksEnd - 1 - c.blocksStart = c.dataBlocks := by
    unfold dataBlocks
    omega
  rw [List.mem_range'_1, heq]
  unfold chunkBlock
  constructor
  · rintro ⟨h1, h2⟩
    refine ⟨b - c.blocksStart, ?_⟩
    rw [Nat.mod_eq_of_lt (by omega)]
    omega
  · rintro ⟨q, rfl⟩
    have := Nat.mod_lt q hm
    omega

lemma RingInv.near (h : RingInv c V F) {q q' : ℕ} {block block' : Block}
    (hv : V (c.chunkBlock q) = some block) (hv' : V (c.chunkBlock q') = some block') :
    Near block block' := by
  obtain ⟨r, -, hc, h1, h2⟩ := h.chunk q block hv
  obtain ⟨r', -, hc', h1', h2'⟩ := h.chunk q' block' hv'
  have hcount : c.perBlock * c.dataBlocks < 2 ^ 30 := by
    have := c.count_eq.2
    rw [c.count_eq.1] at this
    exact this
  have hlast := hc.last
  have hlast' := hc'.last
  unfold Near fragmentGte maxFragmentsPerObject
  rw [hc.first, hc'.first, decide_eq_true_iff]
  -- the chunks are at most one round apart
  have hround : ∀ {a b : ℕ}, a ≤ b + c.dataBlocks → a * c.perBlock ≤ b * c.perBlock + 2 ^ 30 := by
    intro a b hab
    have hmul := Nat.mul_le_mul_right c.perBlock hab
    rw [Nat.add_mul, Nat.mul_comm c.dataBlocks] at hmul
    omega
  have hr := hround (h1.trans h2')
  have hr' := hround (h1'.trans h2)
  rcases Nat.lt_or_ge (r * c.perBlock) (r' * c.perBlock) with hlt | hge
  · rw [wrappingSub_of_lt hlt (by omega)]
    omega
  · rw [wrappingSub_eq hge (by omega)]
    omega

/-! ### The range -/

/-- The status of the fragment with a sequence number. -/
def status (c : RingBuffer dev) (V : ℕ → Option Block) (n : ℕ) : Option FragmentStatus :=
  (c.slot V n).map Frag.status

lemma status_at {q i : ℕ} {block : Block} (hv : V (c.chunkBlock q) = some block)
    (hc : c.IsChunk block q) (hi : i < c.perBlock) :
    status c V (q * c.perBlock + i) = some (block.frag i).status := by
  rw [status, slot_at hv hc hi]
  rfl

lemma exists_of_status {n : ℕ} {s : FragmentStatus} (h : status c V n = some s) : ∃ q block i,
    V (c.chunkBlock q) = some block ∧ c.IsChunk block q ∧ i < c.perBlock ∧ n = q * c.perBlock + i ∧
      (block.frag i).status = s := by
  obtain ⟨fr, hfr, hst⟩ := Option.map_eq_some_iff.mp h
  obtain ⟨q, block, i, hv, hc, hi, hn, rfl⟩ := exists_at hfr
  exact ⟨q, block, i, hv, hc, hi, hn, hst⟩

lemma RingInv.lt_of_valid (h : RingInv c V F) {n : ℕ} {s : FragmentStatus}
    (hst : status c V n = some s) (hs : s ≠ .empty) : n < F := by
  obtain ⟨fr, hfr, rfl⟩ := Option.map_eq_some_iff.mp hst
  rcases Nat.lt_or_ge n F with hlt | hge
  · exact hlt
  · rw [h.unused n fr hge hfr] at hs
    exact absurd rfl hs

/-- The fragments that are in use after a write. -/
lemma Moved.used {V' : ℕ → Option Block} {F' n : ℕ} {P : Frag → Prop} (h : Moved c V F n P V' F') {k : ℕ}
    {s : FragmentStatus} (hk : status c V' k = some s) (hs : s ≠ .empty) :
    k < F ∧ c.slot V' k = c.slot V k ∨ k = F ∧ n = F ∧ ∃ fr, P fr ∧ c.slot V' k = some fr := by
  have hkF := h.ring.lt_of_valid hk hs
  rcases Nat.lt_or_ge k F with hlt | hge
  · rcases h.slots k hlt with heq | ⟨-, -, hnone, -⟩
    · exact Or.inl ⟨hlt, heq⟩
    · rw [status, hnone] at hk
      cases hk
  · rcases h.frontier with rfl | ⟨rfl, hn, fr, hfr, hslot⟩
    · omega
    · obtain rfl : k = F := by omega
      exact Or.inr ⟨rfl, hn, fr, hfr, hslot⟩

/-- What the range says about a circular with the given frontier. -/
structure RangeSpec (c : RingBuffer dev) (V : ℕ → Option Block) (F : ℕ) (r : CircularRange) : Prop where
  start_le : r.start ≤ r.stop
  stop_le : r.stop ≤ F
  near : F / c.perBlock < r.stop / c.perBlock + c.dataBlocks
  bounds : ∀ n, status c V n = some .valid → r.start ≤ n ∧ n < r.stop ∨
    ∃ e, n < e ∧ status c V e = some .obsolete
  first : r.start = r.stop ∧ r.stop = F ∨ status c V r.start = some .valid
  last : r.stop = F ∨ ∃ d, d < r.stop ∧ status c V d = some .valid

/-- Behind the range nothing is missing up to the frontier. -/
lemma RangeSpec.present {r : CircularRange} (hspec : RangeSpec c V F r) (h : RingInv c V F) {k : ℕ}
    (hk : r.stop ≤ k) (hkF : k < F) : c.slot V k ≠ none :=
  h.slot_ne_none hkF (hspec.near.trans_le (Nat.add_le_add_right (Nat.div_le_div_right hk) _))

section Range

variable {mem : Mem}

/-- The data blocks that are valid. -/
abbrev dataBlocksIn (c : RingBuffer dev) (V : ℕ → Option Block) : Set Block :=
  blocksIn V (List.range' c.blocksStart (c.blocksEnd - 1 - c.blocksStart))

lemma RingInv.exists_chunk (h : RingInv c V F) {block : Block} (hb : block ∈ dataBlocksIn c V) :
    ∃ q, V (c.chunkBlock q) = some block ∧ c.IsChunk block q ∧ q ≤ F / c.perBlock ∧
      F / c.perBlock ≤ q + c.dataBlocks := by
  obtain ⟨b, hb, hv⟩ := hb
  obtain ⟨q, rfl⟩ := mem_scanned.mp hb
  obtain ⟨q', heq, hc, h1, h2⟩ := h.chunk q block hv
  exact ⟨q', heq ▸ hv, hc, h1, h2⟩

lemma mem_dataBlocksIn {q : ℕ} {block : Block} (hv : V (c.chunkBlock q) = some block) :
    block ∈ dataBlocksIn c V := ⟨_, mem_scanned.mpr ⟨q, rfl⟩, hv⟩

lemma blockKindV_eq {q : ℕ} {block : Block} (hv : dev.view mem (c.chunkBlock q) = some block)
    (hc : c.IsChunk block q) : blockKindV block = kindV block c.perBlock := by
  rw [blockKindV, fragCount_eq hv hc]

/-- Without a block that has data, every valid fragment is followed by a deleted one in its block. -/
lemma RingInv.bounds_noData (h : RingInv c (dev.view mem) F)
    (hdata : ofKind (dataBlocksIn c (dev.view mem)) .data = ∅) {n : ℕ}
    (hn : status c (dev.view mem) n = some .valid) :
    ∃ e, n < e ∧ status c (dev.view mem) e = some .obsolete := by
  have hnF := h.lt_of_valid hn (by decide)
  obtain ⟨q, block, i, hv, hc, hi, rfl, hst⟩ := exists_of_status hn
  have hkind : kindV block c.perBlock ≠ .data := by
    intro hk
    have : block ∈ ofKind (dataBlocksIn c (dev.view mem)) .data :=
      ⟨mem_dataBlocksIn hv, (blockKindV_eq hv hc).trans hk⟩
    rw [hdata] at this
    exact this
  have hF := c.div_mod_eq F
  obtain ⟨q', -, hc', hle, -⟩ := h.chunk q block hv
  obtain rfl := hc.inj hc'
  rcases Nat.lt_or_ge q (F / c.perBlock) with hlt | hge
  · rcases h.kind_full hv hc hlt with ⟨hk, -⟩ | ⟨-, hobs⟩
    · exact absurd hk hkind
    · obtain ⟨j, hij, hj, hst'⟩ := hobs i hi hst
      exact ⟨q * c.perBlock + j, by omega, by rw [status_at hv hc hj, hst']⟩
  · obtain rfl : q = F / c.perBlock := le_antisymm hle hge
    rw [h.kind_current hv hc] at hkind
    have h0 : F % c.perBlock = 0 := by
      by_contra h0
      exact hkind (if_neg h0)
    omega

/-- The end of the range in a block with data. -/
lemma RingInv.search_last (h : RingInv c V F) {q : ℕ} {block : Block}
    (hv : V (c.chunkBlock q) = some block) (hc : c.IsChunk block q) (hle : q ≤ F / c.perBlock)
    (hk : kindV block c.perBlock = .data) :
    q = F / c.perBlock ∧ q * c.perBlock + searchV (fun s => s = .empty) block c.perBlock 0 = F ∨
    q < F / c.perBlock ∧
      q * c.perBlock + searchV (fun s => s = .empty) block c.perBlock 0 = q * c.perBlock + c.perBlock ∧
      q * c.perBlock + c.perBlock ≤ F ∧ ∃ i, i < c.perBlock ∧ (block.frag i).status = .valid := by
  obtain ⟨-, hend, hbefore, hat⟩ := searchV_spec (fun s => decide (s = .empty)) block c.perBlock 0
  have hF := c.div_mod_eq F
  have hmod := Nat.mod_lt F c.perBlock_pos
  generalize searchV (fun s => decide (s = .empty)) block c.perBlock 0 = j at hend hbefore hat ⊢
  simp only [decide_eq_true_iff, decide_eq_false_iff_not] at hbefore hat
  rcases Nat.lt_or_ge q (F / c.perBlock) with hlt | hge
  · have hfull : q * c.perBlock + c.perBlock ≤ F := by
      have h1 : (q + 1) * c.perBlock ≤ F / c.perBlock * c.perBlock := Nat.mul_le_mul_right _ hlt
      rw [Nat.succ_mul] at h1
      omega
    have hj : j = c.perBlock := by
      by_contra hne
      have hjlt : j < c.perBlock := by omega
      exact h.used _ _ (by omega) (slot_at hv hc hjlt) (hat (by omega))
    rcases h.kind_full hv hc hlt with ⟨-, hvalid⟩ | ⟨hk', -⟩
    · exact Or.inr ⟨hlt, by rw [hj], hfull, hvalid⟩
    · rw [hk] at hk'
      cases hk'
  · obtain rfl : q = F / c.perBlock := le_antisymm hle hge
    refine Or.inl ⟨rfl, ?_⟩
    rcases Nat.lt_trichotomy j (F % c.perBlock) with hlt | heq | hgt
    · exact absurd (hat (by omega)) (h.used _ _ (by omega) (slot_at hv hc (by omega)))
    · omega
    · refine absurd ?_ (hbefore (F % c.perBlock) (Nat.zero_le _) hgt)
      rw [h.unused _ _ (by omega) (slot_at hv hc hmod)]
      rfl

/-- The start of the range in a block with data. -/
lemma RingInv.search_first (h : RingInv c V F) {q : ℕ} {block : Block}
    (hv : V (c.chunkBlock q) = some block) (hc : c.IsChunk block q) (hle : q ≤ F / c.perBlock)
    (hk : kindV block c.perBlock = .data) :
    (∀ i, (block.frag i).status = .valid →
      searchV (fun s => s = .empty ∨ s = .valid) block c.perBlock 0 ≤ i) ∧
    (q = F / c.perBlock ∧
        q * c.perBlock + searchV (fun s => s = .empty ∨ s = .valid) block c.perBlock 0 = F ∨
      searchV (fun s => s = .empty ∨ s = .valid) block c.perBlock 0 < c.perBlock ∧
      q * c.perBlock + searchV (fun s => s = .empty ∨ s = .valid) block c.perBlock 0 < F ∧
      (block.frag (searchV (fun s => s = .empty ∨ s = .valid) block c.perBlock 0)).status = .valid) := by
  obtain ⟨-, hend, hbefore, hat⟩ := searchV_spec (fun s => decide (s = .empty ∨ s = .valid)) block
    c.perBlock 0
  have hF := c.div_mod_eq F
  have hmod := Nat.mod_lt F c.perBlock_pos
  generalize searchV (fun s => decide (s = .empty ∨ s = .valid)) block c.perBlock 0 = j
    at hend hbefore hat ⊢
  simp only [decide_eq_true_iff, decide_eq_false_iff_not, not_or] at hbefore hat
  have hfirst : ∀ i, (block.frag i).status = .valid → j ≤ i := by
    intro i hst
    by_contra hlt
    exact (hbefore i (Nat.zero_le _) (by omega)).2 hst
  refine ⟨hfirst, ?_⟩
  rcases h.search_last hv hc hle hk with ⟨rfl, -⟩ | ⟨hlt, -, hfull, i, hi, hst⟩
  · -- the frontier stops the search
    have hjle : j ≤ F % c.perBlock := by
      by_contra hgt
      refine (hbefore (F % c.perBlock) (Nat.zero_le _) (by omega)).1 ?_
      rw [h.unused _ _ (by omega) (slot_at hv hc hmod)]
      rfl
    rcases Nat.lt_or_ge j (F % c.perBlock) with hjlt | hjge
    · refine Or.inr ⟨by omega, by omega, (hat (by omega)).resolve_left ?_⟩
      exact h.used _ _ (by omega) (slot_at hv hc (by omega))
    · exact Or.inl ⟨rfl, by omega⟩
  · have hji := hfirst i hst
    refine Or.inr ⟨by omega, by omega, (hat (by omega)).resolve_left ?_⟩
    exact h.used _ _ (by omega) (slot_at hv hc (by omega))

/-- The range between the lowest and the highest block with data. -/
lemma RingInv.rangeSpec_data (h : RingInv c V F) {r w : ℕ} {blockR blockW : Block}
    (hvR : V (c.chunkBlock r) = some blockR) (hcR : c.IsChunk blockR r)
    (hkR : kindV blockR c.perBlock = .data) (hr : r ≤ F / c.perBlock)
    (hvW : V (c.chunkBlock w) = some blockW) (hcW : c.IsChunk blockW w)
    (hkW : kindV blockW c.perBlock = .data) (hw : w ≤ F / c.perBlock)
    (hround : F / c.perBlock ≤ w + c.dataBlocks)
    (hall : ∀ q block, V (c.chunkBlock q) = some block → c.IsChunk block q →
      kindV block c.perBlock = .data → r ≤ q ∧ q ≤ w) :
    RangeSpec c V F
      ⟨r * c.perBlock + searchV (fun s => s = .empty ∨ s = .valid) blockR c.perBlock 0,
        w * c.perBlock + searchV (fun s => s = .empty) blockW c.perBlock 0⟩ := by
  obtain ⟨hmin, hstart⟩ := h.search_first hvR hcR hr hkR
  have hstop := h.search_last hvW hcW hw hkW
  have hrw : r ≤ w := (hall r blockR hvR hcR hkR).2
  have hp := c.perBlock_pos
  have hF := c.div_mod_eq F
  have hmod := Nat.mod_lt F hp
  have hnext : ∀ {a b : ℕ}, a < b → a * c.perBlock + c.perBlock ≤ b * c.perBlock := by
    intro a b hab
    rw [← Nat.succ_mul]
    exact Nat.mul_le_mul_right _ hab
  generalize hj : searchV (fun s => decide (s = .empty ∨ s = .valid)) blockR c.perBlock 0 = j
    at hmin hstart ⊢
  generalize hl : searchV (fun s => decide (s = .empty)) blockW c.perBlock 0 = l at hstop ⊢
  refine ⟨?_, ?_, ?_, fun n hn => ?_, ?_, ?_⟩
  · show r * c.perBlock + j ≤ w * c.perBlock + l
    rcases hstop with ⟨hq, hl⟩ | ⟨hq, hl, -, -⟩
    · rcases hstart with ⟨-, hj⟩ | ⟨-, hj, -⟩ <;> omega
    · rcases hstart with ⟨hq', -⟩ | ⟨hj, -, -⟩
      · omega
      · rcases Nat.eq_or_lt_of_le hrw with rfl | hlt
        · omega
        · have := hnext hlt
          omega
  · show w * c.perBlock + l ≤ F
    rcases hstop with ⟨-, hl⟩ | ⟨-, hl, hfull, -⟩ <;> omega
  · show F / c.perBlock < (w * c.perBlock + l) / c.perBlock + c.dataBlocks
    have hm := c.dataBlocks_pos
    rcases hstop with ⟨-, hl⟩ | ⟨-, hl, -, -⟩
    · rw [hl]
      exact Nat.lt_add_of_pos_right hm
    · rw [hl, ← Nat.succ_mul, Nat.mul_div_cancel _ hp, Nat.succ_eq_add_one]
      exact Nat.lt_of_le_of_lt hround (Nat.add_lt_add_right (Nat.lt_succ_self w) _)
  · have hnF := h.lt_of_valid hn (by decide)
    obtain ⟨q, block, i, hv, hc, hi, rfl, hst⟩ := exists_of_status hn
    obtain ⟨q', -, hc', hle, -⟩ := h.chunk q block hv
    obtain rfl := hc.inj hc'
    by_cases hk : kindV block c.perBlock = .data
    · left
      obtain ⟨hrq, hqw⟩ := hall q block hv hc hk
      constructor
      · show r * c.perBlock + j ≤ q * c.perBlock + i
        rcases Nat.eq_or_lt_of_le hrq with rfl | hlt
        · obtain rfl : blockR = block := Option.some.inj (hvR.symm.trans hv)
          have := hmin i hst
          omega
        · have := hnext hlt
          rcases hstart with ⟨hq, -⟩ | ⟨hj, -, -⟩ <;> omega
      · show q * c.perBlock + i < w * c.perBlock + l
        rcases hstop with ⟨-, hl⟩ | ⟨-, hl, -, -⟩
        · omega
        · rcases Nat.eq_or_lt_of_le hqw with rfl | hlt
          · omega
          · have := hnext hlt
            omega
    · right
      rcases Nat.lt_or_ge q (F / c.perBlock) with hlt | hge
      · rcases h.kind_full hv hc hlt with ⟨hk', -⟩ | ⟨-, hobs⟩
        · exact absurd hk' hk
        · obtain ⟨e, hie, he, hst'⟩ := hobs i hi hst
          exact ⟨q * c.perBlock + e, by omega, by rw [status_at hv hc he, hst']⟩
      · obtain rfl : q = F / c.perBlock := le_antisymm hle hge
        have h0 : F % c.perBlock = 0 := by
          by_contra h0
          exact hk ((h.kind_current hv hc).trans (if_neg h0))
        omega
  · rcases hstart with ⟨hq, hjF⟩ | ⟨hj, -, hst⟩
    · have hl : w * c.perBlock + l = F := by
        rcases hstop with ⟨-, hl⟩ | ⟨hlt, -⟩
        · exact hl
        · omega
      exact Or.inl ⟨hjF.trans hl.symm, hl⟩
    · exact Or.inr (by rw [status_at hvR hcR hj, hst])
  · rcases hstop with ⟨-, hl⟩ | ⟨-, hl, -, i, hi, hst⟩
    · exact Or.inl hl
    · refine Or.inr ⟨w * c.perBlock + i, ?_, by rw [status_at hvW hcW hi, hst]⟩
      show w * c.perBlock + i < w * c.perBlock + l
      omega

/-- An empty range at the frontier. -/
lemma RingInv.rangeSpec_empty (h : RingInv c (dev.view mem) F)
    (hdata : ofKind (dataBlocksIn c (dev.view mem)) .data = ∅) :
    RangeSpec c (dev.view mem) F ⟨F, F⟩ :=
  ⟨le_rfl, le_rfl, Nat.lt_add_of_pos_right c.dataBlocks_pos, fun _ hn => Or.inr (h.bounds_noData hdata hn),
    Or.inl ⟨rfl, rfl⟩, Or.inl rfl⟩

variable {errors cuts reads : Prop} {O : Mem → Prop} {E : Error → Mem → Prop}

lemma wp_search {Q : ℕ → Mem → Prop} {stops : FragmentStatus → Bool} {q : ℕ} {block : Block}
    (hv : dev.view mem (c.chunkBlock q) = some block) (hc : c.IsChunk block q)
    (hfault : reads → E .flash mem)
    (hok : Q (q * c.perBlock + searchV stops block c.perBlock 0) mem) :
    Dev.wp (faults errors cuts reads)
      (searchLoop dev stops block.header block.header.fragCount block.header.firstFragNo) Q E O mem := by
  rw [fragCount_eq hv hc, hc.first]
  exact wp_searchLoop hv (c.chunkBlock_lt q) hc hfault c.perBlock 0 (Nat.zero_add _) hok

/-- Without data the current block, if it is there, is empty. -/
lemma RingInv.mod_eq_zero (h : RingInv c (dev.view mem) F)
    (hdata : ofKind (dataBlocksIn c (dev.view mem)) .data = ∅) : F % c.perBlock = 0 := by
  by_contra h0
  obtain ⟨block, hv, hc⟩ := h.current h0
  have hb : block ∈ ofKind (dataBlocksIn c (dev.view mem)) .data :=
    ⟨mem_dataBlocksIn hv, by rw [blockKindV_eq hv hc, h.kind_current hv hc, if_neg h0]⟩
  rw [hdata] at hb
  exact hb

/-- An empty block is the one of the frontier. -/
lemma RingInv.first_of_empty (h : RingInv c (dev.view mem) F) {block : Block}
    (hb : block ∈ ofKind (dataBlocksIn c (dev.view mem)) .empty) : block.header.firstFragNo = F := by
  obtain ⟨hb, hk⟩ := hb
  obtain ⟨q, hv, hc, hle, -⟩ := h.exists_chunk hb
  rw [blockKindV_eq hv hc] at hk
  rcases Nat.lt_or_ge q (F / c.perBlock) with hlt | hge
  · rcases h.kind_full hv hc hlt with ⟨hk', -⟩ | ⟨hk', -⟩ <;>
      · rw [hk] at hk'
        cases hk'
  · obtain rfl : q = F / c.perBlock := le_antisymm hle hge
    rw [h.kind_current hv hc] at hk
    split at hk
    next h0 =>
      have := c.div_mod_eq F
      rw [hc.first]
      omega
    · cases hk

/-- Without data and without an empty block, the highest block is the one before the frontier. -/
lemma RingInv.highest_eq (h : RingInv c (dev.view mem) F)
    (hdata : ofKind (dataBlocksIn c (dev.view mem)) .data = ∅)
    (hempty : ofKind (dataBlocksIn c (dev.view mem)) .empty = ∅) {block : Block}
    (hb : block ∈ dataBlocksIn c (dev.view mem))
    (hmax : ∀ block' ∈ dataBlocksIn c (dev.view mem),
      block'.header.firstFragNo ≤ block.header.firstFragNo) :
    wrappingAdd block.header.firstFragNo block.header.fragCount = F := by
  obtain ⟨q, hv, hc, hle, hround⟩ := h.exists_chunk hb
  have h0 := h.mod_eq_zero hdata
  have hF := c.div_mod_eq F
  have hlt : q < F / c.perBlock := by
    refine lt_of_le_of_ne hle fun hq => ?_
    subst hq
    have hmem : block ∈ ofKind (dataBlocksIn c (dev.view mem)) .empty :=
      ⟨hb, by rw [blockKindV_eq hv hc, h.kind_current hv hc, if_pos h0]⟩
    rw [hempty] at hmem
    exact hmem
  -- the chunk before the frontier is there, unless its block is the one of the frontier
  have hq : F / c.perBlock ≤ q + 1 := by
    rcases Nat.lt_or_ge c.dataBlocks 2 with hm | hm
    · exact hround.trans (Nat.add_le_add_left (Nat.lt_succ_iff.mp hm) q)
    · obtain ⟨block', hv', hc'⟩ := h.recent (F / c.perBlock - 1)
        (Nat.sub_lt (Nat.zero_lt_of_lt hlt) Nat.one_pos)
        (by generalize F / c.perBlock = a at hlt; omega)
      have hfirst := hmax block' (mem_dataBlocksIn hv')
      rw [hc.first, hc'.first] at hfirst
      exact Nat.sub_le_iff_le_add.mp (Nat.le_of_mul_le_mul_right hfirst c.perBlock_pos)
  have heq : F / c.perBlock = q + 1 := le_antisymm hq hlt
  have hlast := hc.last
  rw [fragCount_eq hv hc, hc.first, wrappingAdd_eq hlast]
  rw [heq, Nat.succ_mul] at hF
  omega

/-- Without any block there is nothing in use; with a single data block, the frontier is lost. -/
lemma RingInv.of_no_blocks (h : RingInv c (dev.view mem) F)
    (hnone : dataBlocksIn c (dev.view mem) = ∅) :
    (∀ q, dev.view mem (c.chunkBlock q) = none) ∧ (F = 0 ∨ c.dataBlocks = 1) := by
  have hv : ∀ q, dev.view mem (c.chunkBlock q) = none := by
    intro q
    cases hv : dev.view mem (c.chunkBlock q) with
    | none => rfl
    | some block =>
      have := mem_dataBlocksIn hv
      rw [hnone] at this
      exact absurd this (Set.notMem_empty block)
  refine ⟨hv, ?_⟩
  have hm := c.dataBlocks_pos
  by_contra hne
  obtain ⟨hF0, hm1⟩ := not_or.mp hne
  have hnot : ∀ q, ¬Has c (dev.view mem) q := by
    rintro q ⟨block, hb, -⟩
    rw [hv q] at hb
    cases hb
  have h0 : F % c.perBlock = 0 := by
    by_contra h0
    exact hnot _ (h.current h0)
  have hpos : 0 < F / c.perBlock := by
    refine Nat.pos_of_ne_zero fun hq => hF0 ?_
    have := c.div_mod_eq F
    rw [hq, Nat.zero_mul] at this
    omega
  exact hnot _ (h.recent (F / c.perBlock - 1) (Nat.sub_lt hpos Nat.one_pos)
    (by generalize F / c.perBlock = a at hpos; omega))

/-- What the scan of the blocks finds -/
lemma RingInv.scanSpec (h : RingInv c (dev.view mem) F) : ScanSpec (dataBlocksIn c (dev.view mem))
    (scanV c (dev.view mem) (List.range' c.blocksStart (c.blocksEnd - 1 - c.blocksStart))
      ⟨none, none, none⟩) := by
  have hnil : blocksIn (dev.view mem) [] = ∅ := by
    ext block
    simp [blocksIn]
  refine scanV_spec _ [] ?_ fun block hb block' hb' => ?_
  · rw [hnil]
    refine ⟨?_, ?_, ?_, rfl⟩ <;>
    · ext block
      simp [ofKind]
  · obtain ⟨q, hv, -⟩ := h.exists_chunk hb
    obtain ⟨q', hv', -⟩ := h.exists_chunk hb'
    exact h.near hv hv'

/-- **`find_circular_range`.** -/
theorem wp_findCircularRange {Q : CircularRange → Mem → Prop} (h : RingInv c (dev.view mem) F)
    (hfault : reads → E .flash mem)
    (hok : ∀ F' r, RingInv c (dev.view mem) F' →
      (F' = F ∨ c.dataBlocks = 1 ∧ F' = 0 ∧ ∀ q, dev.view mem (c.chunkBlock q) = none) →
      RangeSpec c (dev.view mem) F' r → Q r mem) :
    Dev.wp (faults errors cuts reads) (findCircularRange dev c.toCircular) Q E O mem := by
  refine Dev.wp_bind (wp_scanLoop h.own hfault _ _ (fun b hb => mem_scanned.mp hb) ?_)
  have hscan := h.scanSpec
  generalize scanV c (dev.view mem) _ _ = scan at hscan
  obtain ⟨data, firstEmpty, highest⟩ := scan
  obtain ⟨hfirst, hlast, hempty, hhighest⟩ := hscan
  simp only at hfirst hlast hempty hhighest
  unfold rangeOf
  cases data with
  | some blocks =>
    obtain ⟨blockR, ⟨hbR, hkR⟩, hreadR, hmin⟩ := hfirst
    obtain ⟨blockW, ⟨hbW, hkW⟩, hreadW, hmax⟩ := hlast
    obtain ⟨r, hvR, hcR, hr, -⟩ := h.exists_chunk hbR
    obtain ⟨w, hvW, hcW, hw, hround⟩ := h.exists_chunk hbW
    obtain ⟨readBlock, writeBlock⟩ := blocks
    simp only at hreadR hreadW hmin hmax ⊢
    subst hreadR hreadW
    refine Dev.wp_bind (wp_search hvR hcR hfault (Dev.wp_bind (wp_search hvW hcW hfault
      (Dev.wp_pure (hok F _ h (Or.inl rfl) ?_)))))
    refine h.rangeSpec_data hvR hcR ((blockKindV_eq hvR hcR).symm.trans hkR) hr hvW hcW
      ((blockKindV_eq hvW hcW).symm.trans hkW) hw hround fun q block hv hc hk => ?_
    have hmem : block ∈ ofKind (dataBlocksIn c (dev.view mem)) .data :=
      ⟨mem_dataBlocksIn hv, (blockKindV_eq hv hc).trans hk⟩
    have h1 := hmin block hmem
    have h2 := hmax block hmem
    rw [hcR.first, hc.first] at h1
    rw [hcW.first, hc.first] at h2
    exact ⟨Nat.le_of_mul_le_mul_right h1 c.perBlock_pos, Nat.le_of_mul_le_mul_right h2 c.perBlock_pos⟩
  | none =>
    have hdata : ofKind (dataBlocksIn c (dev.view mem)) .data = ∅ := hfirst
    cases firstEmpty with
    | some e =>
      obtain ⟨block, hb, rfl, -⟩ := hempty
      simp only
      rw [h.first_of_empty hb]
      exact Dev.wp_pure (hok F _ h (Or.inl rfl) (h.rangeSpec_empty hdata))
    | none =>
      cases highest with
      | some e =>
        obtain ⟨block, hb, rfl, hmax⟩ := hhighest
        simp only
        rw [h.highest_eq hdata hempty hb hmax]
        exact Dev.wp_pure (hok F _ h (Or.inl rfl) (h.rangeSpec_empty hdata))
      | none =>
        obtain ⟨hnone, hF⟩ := h.of_no_blocks hhighest
        have h0 := ringInv_zero (c := c) hnone
        refine Dev.wp_pure (hok 0 _ h0 ?_ (h0.rangeSpec_empty hdata))
        rcases hF with rfl | hm
        · exact Or.inl rfl
        · exact Or.inr ⟨hm, rfl, hnone⟩

end Range

/-! ### The search only reads -/

section ReadOnly

variable (dev) (c : Circular)

lemma readOnly_blockKind (block : BlockHeader) : Dev.ReadOnly (blockKind dev block) := by
  unfold blockKind
  induction List.range block.fragCount with
  | nil => exact Dev.readOnly_pure _
  | cons offset offsets ih =>
    refine ((BlockDevice.readOnly_fragmentStatus _ _).mapErr _).bind fun status => ?_
    cases status with
    | invalid => exact ih
    | valid => exact Dev.readOnly_pure _
    | obsolete => exact Dev.readOnly_pure _
    | empty =>
      refine ((BlockDevice.readOnly_fragmentStatus _ _).mapErr _).bind fun first => ?_
      split
      · exact Dev.readOnly_pure _
      · exact Dev.readOnly_pure _

lemma readOnly_scanLoop (bs : List ℕ) (scan : Scan) : Dev.ReadOnly (scanLoop dev c bs scan) := by
  induction bs generalizing scan with
  | nil => exact Dev.readOnly_pure scan
  | cons b bs ih =>
    refine ((BlockDevice.readOnly_blockHeader b).mapErr _).bind fun header => ?_
    cases header with
    | none => exact ih scan
    | some block =>
      simp only
      split
      · exact ih scan
      · exact (readOnly_blockKind dev block).bind fun kind => ih _

lemma readOnly_searchLoop (stops : FragmentStatus → Bool) (block : BlockHeader) (k seqNo : ℕ) :
    Dev.ReadOnly (searchLoop dev stops block k seqNo) := by
  induction k generalizing seqNo with
  | zero => exact Dev.readOnly_pure seqNo
  | succ k ih =>
    refine ((BlockDevice.readOnly_fragmentStatus _ _).mapErr _).bind fun status => ?_
    split
    · exact Dev.readOnly_pure seqNo
    · exact ih _

lemma readOnly_findCircularRange : Dev.ReadOnly (findCircularRange dev c) := by
  refine (readOnly_scanLoop dev c _ _).bind fun scan => ?_
  unfold rangeOf
  split
  · exact (readOnly_searchLoop dev _ _ _ _).bind fun _ => (readOnly_searchLoop dev _ _ _ _).bind fun _ =>
      Dev.readOnly_pure _
  · exact Dev.readOnly_pure _
  · exact Dev.readOnly_pure _
  · exact Dev.readOnly_pure _

end ReadOnly

end SensorLink.Db
