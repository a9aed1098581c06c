import Mathlib.Data.Nat.ModEq
import SensorLink.Db.CircularSpec

/-!
# A circular that is written in order

When fragments are written in order, everything below the frontier was tried and everything from it on
is unused. The blocks hold the last chunks; only the block of the frontier may be missing, and then the
frontier is at the start of its chunk. `RingInv` says this, and writing at the frontier and deleting
below it keep it, whatever fails and wherever power is lost.
-/

namespace SensorLink.Db

open SensorLink.Lib SensorLink.Flash RingBuffer

variable {dev : BlockDevice} {c : RingBuffer dev}

/-- The block of chunk `q` holds it. -/
def Has (c : RingBuffer dev) (V : ℕ → Option Block) (q : ℕ) : Prop :=
  ∃ block, V (c.chunkBlock q) = some block ∧ c.IsChunk block q

structure RingInv (c : RingBuffer dev) (V : ℕ → Option Block) (frontier : ℕ) : Prop where
  chunk : ∀ q block, V (c.chunkBlock q) = some block → ∃ q', c.chunkBlock q' = c.chunkBlock q ∧
    c.IsChunk block q' ∧ q' ≤ frontier / c.perBlock ∧ frontier / c.perBlock ≤ q' + c.dataBlocks
  recent : ∀ q, q < frontier / c.perBlock → frontier / c.perBlock < q + c.dataBlocks → Has c V q
  current : frontier % c.perBlock ≠ 0 → Has c V (frontier / c.perBlock)
  used : ∀ n fr, n < frontier → c.slot V n = some fr → fr.status ≠ .empty
  unused : ∀ n fr, frontier ≤ n → c.slot V n = some fr → fr = Frag.fresh c.fragmentSize
  noWrap : frontier < 2 ^ 32

/-- Without any block the frontier is at the start. -/
lemma ringInv_zero {V : ℕ → Option Block} (hv : ∀ q, V (c.chunkBlock q) = none) : RingInv c V 0 := by
  refine ⟨fun q block hb => ?_, fun q hq => ?_, fun hne => absurd (Nat.zero_mod _) hne,
    fun n fr hn => absurd hn (Nat.not_lt_zero n), fun n fr _ hfr => ?_, by decide⟩
  · rw [hv] at hb
    cases hb
  · rw [Nat.zero_div] at hq
    exact absurd hq (Nat.not_lt_zero q)
  · obtain ⟨block, hb, -⟩ := slot_eq_some hfr
    rw [hv] at hb
    cases hb

section Inv

variable {V : ℕ → Option Block} {F : ℕ}

lemma RingInv.own (h : RingInv c V F) : c.Own V := by
  intro q block hv
  obtain ⟨q', hb, hc, -⟩ := h.chunk q block hv
  exact ⟨q', hb, hc⟩

/-- The chunks that are there are the last ones. -/
lemma RingInv.slot_bounds (h : RingInv c V F) {n : ℕ} {fr : Frag} (hfr : c.slot V n = some fr) :
    n / c.perBlock ≤ F / c.perBlock ∧ F / c.perBlock ≤ n / c.perBlock + c.dataBlocks := by
  obtain ⟨block, hv, hc, -⟩ := slot_eq_some hfr
  obtain ⟨q', -, hc', h1, h2⟩ := h.chunk _ block hv
  obtain rfl := hc.inj hc'
  exact ⟨h1, h2⟩

lemma Has.slot {n : ℕ} (h : Has c V (n / c.perBlock)) : c.slot V n ≠ none := by
  obtain ⟨block, hv, hc⟩ := h
  rw [slot_of_chunk hv hc]
  exact Option.some_ne_none _

/-- The fragments of the last chunks below the frontier are there. -/
lemma RingInv.slot_ne_none (h : RingInv c V F) {n : ℕ} (hn : n < F)
    (hb : F / c.perBlock < n / c.perBlock + c.dataBlocks) : c.slot V n ≠ none := by
  rcases Nat.lt_or_ge (n / c.perBlock) (F / c.perBlock) with hlt | hge
  · exact (h.recent _ hlt hb).slot
  · have heq : n / c.perBlock = F / c.perBlock :=
      le_antisymm (Nat.div_le_div_right hn.le) hge
    have hne : F % c.perBlock ≠ 0 := by
      intro h0
      have h1 := c.div_mod_eq n
      have h2 := c.div_mod_eq F
      rw [heq] at h1
      omega
    exact Has.slot (heq ▸ h.current hne)

/-- Different chunks that are less than a round apart go to different blocks. -/
lemma chunkBlock_ne {q q' : ℕ} (h1 : q < q') (h2 : q' < q + c.dataBlocks) :
    c.chunkBlock q ≠ c.chunkBlock q' := by
  intro heq
  have hmod : Nat.ModEq c.dataBlocks q q' := c.chunkBlock_eq_iff.mp heq
  have hdvd := (Nat.modEq_iff_dvd' h1.le).mp hmod
  have := Nat.le_of_dvd (by omega) hdvd
  omega

/-- The fragments that are there are less than a round apart. -/
lemma RingInv.lt_round (h : RingInv c V F) {n k : ℕ} (hn : c.slot V n ≠ none) (hk : c.slot V k ≠ none) :
    k / c.perBlock < n / c.perBlock + c.dataBlocks := by
  obtain ⟨fr, hfr⟩ := Option.ne_none_iff_exists'.mp hn
  obtain ⟨fr', hfr'⟩ := Option.ne_none_iff_exists'.mp hk
  have hle : k / c.perBlock ≤ n / c.perBlock + c.dataBlocks :=
    (h.slot_bounds hfr').1.trans (h.slot_bounds hfr).2
  refine lt_of_le_of_ne hle fun heq => ?_
  -- they would share a block
  have hblock : c.chunkBlock (k / c.perBlock) = c.chunkBlock (n / c.perBlock) := by
    rw [c.chunkBlock_eq_iff, heq, Nat.add_mod_right]
  obtain ⟨block, hv, hc, -⟩ := slot_eq_some hfr
  obtain ⟨block', hv', hc', -⟩ := slot_eq_some hfr'
  rw [hblock, hv, Option.some.injEq] at hv'
  have := hc.inj (hv' ▸ hc')
  have hm := c.dataBlocks_pos
  omega

lemma has_update {q q' : ℕ} {v : Option Block} (hne : c.chunkBlock q ≠ c.chunkBlock q') :
    Has c (Function.update V (c.chunkBlock q') v) q ↔ Has c V q := by
  unfold Has
  rw [Function.update_of_ne hne]

/-! ### Erasing and formatting the block of the frontier -/

lemma RingInv.wiped (h : RingInv c V F) (hneeds : NeedsFormat c V F) :
    RingInv c (Function.update V (c.chunkBlock (F / c.perBlock)) none) F := by
  refine ⟨fun q block hv => ?_, fun q h1 h2 => ?_, fun hne => absurd hneeds.first hne,
    fun n fr hn hfr => ?_, fun n fr hn hfr => ?_, h.noWrap⟩
  · by_cases hb : c.chunkBlock q = c.chunkBlock (F / c.perBlock)
    · rw [hb, Function.update_self] at hv
      cases hv
    · rw [Function.update_of_ne hb] at hv
      exact h.chunk q block hv
  · rw [has_update (chunkBlock_ne h1 h2)]
    exact h.recent q h1 h2
  · rw [slot_wiped] at hfr
    split at hfr
    · cases hfr
    · exact h.used n fr hn hfr
  · rw [slot_wiped] at hfr
    split at hfr
    · cases hfr
    · exact h.unused n fr hn hfr

lemma RingInv.formatted (h : RingInv c V F) (hneeds : NeedsFormat c V F)
    (hlast : F / c.perBlock * c.perBlock + c.perBlock < 2 ^ 32) : RingInv c (formattedV c V F) F := by
  refine ⟨fun q block hv => ?_, fun q h1 h2 => ?_, fun hne => absurd hneeds.first hne,
    fun n fr hn hfr => ?_, fun n fr hn hfr => ?_, h.noWrap⟩
  · by_cases hb : c.chunkBlock q = c.chunkBlock (F / c.perBlock)
    · rw [formattedV, hb, Function.update_self] at hv
      obtain rfl := Option.some.inj hv
      exact ⟨_, hb.symm, isChunk_fresh hlast _, le_rfl, Nat.le_add_right _ _⟩
    · rw [formattedV, Function.update_of_ne hb] at hv
      exact h.chunk q block hv
  · rw [formattedV, has_update (chunkBlock_ne h1 h2)]
    exact h.recent q h1 h2
  · rw [formattedV, slot_formatted hlast] at hfr
    split at hfr
    next hq =>
      have h1 := c.div_mod_eq n
      have h2 := c.div_mod_eq F
      have h3 := hneeds.first
      rw [hq] at h1
      omega
    · split at hfr
      · cases hfr
      · exact h.used n fr hn hfr
  · rw [formattedV, slot_formatted hlast] at hfr
    split at hfr
    · exact (Option.some.inj hfr).symm
    · split at hfr
      · cases hfr
      · exact h.unused n fr hn hfr

/-! ### Setting fragments -/

lemma exists_header {V V' : ℕ → Option Block} {b : ℕ}
    (hh : (V' b).map Block.header = (V b).map Block.header) {block : Block} (hv : V' b = some block) :
    ∃ block', V b = some block' ∧ block'.header = block.header := by
  rw [hv] at hh
  obtain ⟨block', hv', heq⟩ := Option.map_eq_some_iff.mp hh.symm
  exact ⟨block', hv', heq⟩

lemma has_setSlot {n q : ℕ} {fr : Frag} (h : Has c V q) : Has c (c.setSlot V n fr) q := by
  obtain ⟨block, hv, hc⟩ := h
  obtain ⟨block', hv', heq⟩ := exists_header (header_setSlot V n fr _).symm hv
  exact ⟨block', hv', hc.congr heq⟩

lemma RingInv.chunk_setSlot (h : RingInv c V F) {n q : ℕ} {fr : Frag} {block : Block}
    (hv : c.setSlot V n fr (c.chunkBlock q) = some block) : ∃ q', c.chunkBlock q' = c.chunkBlock q ∧
    c.IsChunk block q' ∧ q' ≤ F / c.perBlock ∧ F / c.perBlock ≤ q' + c.dataBlocks := by
  obtain ⟨block', hv', heq⟩ := exists_header (header_setSlot V n fr _) hv
  obtain ⟨q', hb, hc, h1, h2⟩ := h.chunk q block' hv'
  exact ⟨q', hb, hc.congr heq.symm, h1, h2⟩

/-- A fragment below the frontier changes its status. -/
lemma RingInv.setSlot (h : RingInv c V F) {n : ℕ} {fr₀ fr : Frag} (hn : n < F)
    (hslot : c.slot V n = some fr₀) (hfr : fr.status ≠ .empty) : RingInv c (c.setSlot V n fr) F := by
  refine ⟨fun q block hv => h.chunk_setSlot hv, fun q h1 h2 => has_setSlot (h.recent q h1 h2),
    fun hne => has_setSlot (h.current hne), fun k fr' hk hfr' => ?_, fun k fr' hk hfr' => ?_, h.noWrap⟩
  · rw [slot_setSlot hslot] at hfr'
    split at hfr'
    · obtain rfl := Option.some.inj hfr'
      exact hfr
    · exact h.used k fr' hk hfr'
  · rw [slot_setSlot hslot, if_neg (by omega)] at hfr'
    exact h.unused k fr' hk hfr'

/-- The fragment at the frontier is written. -/
lemma RingInv.advance (h : RingInv c V F) {fr₀ fr : Frag} (hslot : c.slot V F = some fr₀)
    (hfr : fr.status ≠ .empty) : RingInv c (c.setSlot V F fr) (F + 1) := by
  have hp := c.perBlock_pos
  have hm := c.dataBlocks_pos
  obtain ⟨block, hv, hc, -⟩ := slot_eq_some hslot
  have hhas : Has c V (F / c.perBlock) := ⟨block, hv, hc⟩
  have h1 := c.div_mod_eq F
  have h2 := c.div_mod_eq (F + 1)
  have hmod := Nat.mod_lt F hp
  have hmod' := Nat.mod_lt (F + 1) hp
  have hle : F / c.perBlock ≤ (F + 1) / c.perBlock := Nat.div_le_div_right (Nat.le_succ F)
  have hge : (F + 1) / c.perBlock ≤ F / c.perBlock + 1 := by
    rw [← Nat.add_div_right F hp]
    exact Nat.div_le_div_right (by omega)
  refine ⟨fun q block' hv' => ?_, fun q hq1 hq2 => ?_, fun hne => ?_, fun k fr' hk hfr' => ?_,
    fun k fr' hk hfr' => ?_, ?_⟩
  · obtain ⟨q', hb, hc', hle', hge'⟩ := h.chunk_setSlot hv'
    refine ⟨q', hb, hc', hle'.trans hle, ?_⟩
    -- the chunk of a round ago is not there any more
    rcases Nat.lt_or_ge (F / c.perBlock) (q' + c.dataBlocks) with hlt | hge''
    · omega
    · have heq : F / c.perBlock = q' + c.dataBlocks := le_antisymm hge' hge''
      have hblock : c.chunkBlock q' = c.chunkBlock (F / c.perBlock) := by
        rw [c.chunkBlock_eq_iff, heq, Nat.add_mod_right]
      have hv'' := hv'
      rw [← hb, hblock, setSlot_eq hv, Function.update_self] at hv''
      obtain rfl := Option.some.inj hv''
      have := hc'.inj (hc.setFrag _ _)
      omega
  · by_cases hq : q = F / c.perBlock
    · exact has_setSlot (hq ▸ hhas)
    · exact has_setSlot (h.recent q (by omega) (by omega))
  · have heq : (F + 1) / c.perBlock = F / c.perBlock := by
      by_contra hne'
      have hnext : (F + 1) / c.perBlock = F / c.perBlock + 1 := by omega
      rw [hnext, Nat.succ_mul] at h2
      omega
    rw [heq]
    exact has_setSlot hhas
  · rw [slot_setSlot hslot] at hfr'
    split at hfr'
    · obtain rfl := Option.some.inj hfr'
      exact hfr
    · exact h.used k fr' (by omega) hfr'
  · rw [slot_setSlot hslot, if_neg (by omega)] at hfr'
    exact h.unused k fr' (by omega) hfr'
  · have := hc.last
    omega

/-! ### Writing at or below the frontier -/

variable {n : ℕ} {P : Frag → Prop} {V' : ℕ → Option Block}

/-- A fragment below the frontier is not written. -/
lemma RingInv.effect_below (h : RingInv c V F) (heff : WriteEffect c V n P V') (hn : n < F)
    (hfr : c.slot V n ≠ none) : V' = V := by
  have hmissing : ¬NeedsFormat c V n := fun hneeds => hfr hneeds.missing
  cases heff with
  | same => rfl
  | wiped hneeds => exact absurd hneeds hmissing
  | formatted hneeds => exact absurd hneeds hmissing
  | filled V₁ fr₁ hV hfresh _ =>
    rcases hV with rfl | ⟨hneeds, -⟩
    · exact absurd (Frag.fresh_status _) (h.used n _ hn hfresh)
    · exact absurd hneeds hmissing

/-- What is erased for the fragment at the frontier is older than everything that stays. -/
lemma RingInv.erased_lt (h : RingInv c V F) (hneeds : NeedsFormat c V F) {k d : ℕ} {fr : Frag}
    (hk : k < F) (hblock : c.chunkBlock (k / c.perBlock) = c.chunkBlock (F / c.perBlock))
    (hd : c.slot V d = some fr)
    (hne : c.chunkBlock (d / c.perBlock) ≠ c.chunkBlock (F / c.perBlock)) : k < d := by
  have hF := c.div_mod_eq F
  have hkdiv := c.div_mod_eq k
  have hddiv := c.div_mod_eq d
  have hkmod := Nat.mod_lt k c.perBlock_pos
  have h0 := hneeds.first
  have hbounds := (h.slot_bounds hd).2
  have hlt : k / c.perBlock < F / c.perBlock := by
    rcases Nat.lt_or_ge (k / c.perBlock) (F / c.perBlock) with hlt | hge
    · exact hlt
    · have := Nat.mul_le_mul_right c.perBlock hge
      omega
  have hround : k / c.perBlock + c.dataBlocks ≤ F / c.perBlock := by
    by_contra hc
    exact chunkBlock_ne hlt (Nat.not_le.mp hc) hblock
  have hle : k / c.perBlock ≤ d / c.perBlock :=
    Nat.le_of_add_le_add_right (hround.trans hbounds)
  have hlt' : k / c.perBlock < d / c.perBlock :=
    lt_of_le_of_ne hle fun heq => hne (by rw [← heq, hblock])
  have hmul := Nat.mul_le_mul_right c.perBlock (Nat.succ_le_of_lt hlt')
  rw [Nat.succ_mul] at hmul
  omega

/-- The fragments below the frontier after erasing or formatting its block. -/
lemma RingInv.slots_formatted (h : RingInv c V F) (hneeds : NeedsFormat c V F)
    (hlast : F / c.perBlock * c.perBlock + c.perBlock < 2 ^ 32)
    (hV' : V' = Function.update V (c.chunkBlock (F / c.perBlock)) none ∨ V' = formattedV c V F) {k : ℕ}
    (hk : k < F) : c.slot V' k = c.slot V k ∨
      c.chunkBlock (k / c.perBlock) = c.chunkBlock (F / c.perBlock) ∧ c.slot V' k = none ∧
        ∀ d fr, c.slot V' d = some fr → k < d := by
  have hF := c.div_mod_eq F
  have h0 := hneeds.first
  have hdiv : ∀ d, d / c.perBlock = F / c.perBlock → F ≤ d := by
    intro d hd
    have := c.div_mod_eq d
    rw [hd] at this
    omega
  by_cases hblock : c.chunkBlock (k / c.perBlock) = c.chunkBlock (F / c.perBlock)
  · right
    have hkne : k / c.perBlock ≠ F / c.perBlock := fun heq => absurd (hdiv k heq) (by omega)
    rcases hV' with rfl | rfl
    · refine ⟨hblock, by rw [slot_wiped, if_pos hblock], fun d fr hd => ?_⟩
      rw [slot_wiped] at hd
      split at hd
      · cases hd
      next hne => exact h.erased_lt hneeds hk hblock hd hne
    · refine ⟨hblock, by rw [formattedV, slot_formatted hlast, if_neg hkne, if_pos hblock],
        fun d fr hd => ?_⟩
      rw [formattedV, slot_formatted hlast] at hd
      split at hd
      next hq => exact hk.trans_le (hdiv d hq)
      · split at hd
        · cases hd
        next hne => exact h.erased_lt hneeds hk hblock hd hne
  · left
    rcases hV' with rfl | rfl
    · rw [slot_wiped, if_neg hblock]
    · rw [formattedV, slot_formatted hlast, if_neg (fun heq => hblock (by rw [heq])), if_neg hblock]

/-- What a write does to a frontier and the fragments below it: the frontier stays or moves past the
fragment, and the fragments below it stay or are the oldest ones and erased. -/
structure Moved (c : RingBuffer dev) (V : ℕ → Option Block) (F n : ℕ) (P : Frag → Prop)
    (V' : ℕ → Option Block) (F' : ℕ) : Prop where
  ring : RingInv c V' F'
  frontier : F' = F ∨ F' = F + 1 ∧ n = F ∧ ∃ fr, P fr ∧ c.slot V' F = some fr
  slots : ∀ k, k < F → c.slot V' k = c.slot V k ∨ (n = F ∧ NeedsFormat c V F) ∧
    c.chunkBlock (k / c.perBlock) = c.chunkBlock (F / c.perBlock) ∧ c.slot V' k = none ∧
      ∀ d fr, c.slot V' d = some fr → k < d

lemma Moved.le {F' : ℕ} (h : Moved c V F n P V' F') : F ≤ F' := by
  rcases h.frontier with rfl | ⟨rfl, -, -⟩ <;> omega

/-- Nothing is missing from the fragment up to the frontier. -/
lemma Moved.present {F' : ℕ} (h : Moved c V F n P V' F')
    (hpresent : ∀ k, n ≤ k → k < F → c.slot V k ≠ none) {k : ℕ} (hk : n ≤ k) (hkF : k < F') :
    c.slot V' k ≠ none := by
  rcases Nat.lt_or_ge k F with hlt | hge
  · rcases h.slots k hlt with heq | ⟨⟨hn, -⟩, -⟩
    · rw [heq]
      exact hpresent k hk hlt
    · omega
  · rcases h.frontier with rfl | ⟨rfl, -, fr, -, hslot⟩
    · omega
    · obtain rfl : k = F := by omega
      rw [hslot]
      exact Option.some_ne_none fr

/-- **A write at or below the frontier**, wherever it stops. -/
theorem RingInv.effect (h : RingInv c V F) (heff : WriteEffect c V n P V')
    (hP : ∀ fr, P fr → fr.status ≠ .empty) (hn : n ≤ F) (hpresent : n < F → c.slot V n ≠ none)
    (hlast : n / c.perBlock * c.perBlock + c.perBlock < 2 ^ 32) : ∃ F', Moved c V F n P V' F' := by
  rcases Nat.lt_or_ge n F with hlt | hge
  · rw [h.effect_below heff hlt (hpresent hlt)]
    exact ⟨F, h, Or.inl rfl, fun k _ => Or.inl rfl⟩
  obtain rfl : n = F := le_antisymm hn hge
  cases heff with
  | same => exact ⟨n, h, Or.inl rfl, fun k _ => Or.inl rfl⟩
  | wiped hneeds =>
    refine ⟨n, h.wiped hneeds, Or.inl rfl, fun k hk => ?_⟩
    exact (h.slots_formatted hneeds hlast (Or.inl rfl) hk).imp_right fun he => ⟨⟨rfl, hneeds⟩, he⟩
  | formatted hneeds =>
    refine ⟨n, h.formatted hneeds hlast, Or.inl rfl, fun k hk => ?_⟩
    exact (h.slots_formatted hneeds hlast (Or.inr rfl) hk).imp_right fun he => ⟨⟨rfl, hneeds⟩, he⟩
  | filled V₁ fr hV hfresh hfr =>
    have hslot : ∀ k, k < n → c.slot (c.setSlot V₁ n fr) k = c.slot V₁ k := by
      intro k hk
      rw [slot_setSlot hfresh, if_neg hk.ne]
    have hfilled : c.slot (c.setSlot V₁ n fr) n = some fr := by
      rw [slot_setSlot hfresh, if_pos rfl]
    have hnew : n + 1 = n ∨ n + 1 = n + 1 ∧ n = n ∧ ∃ fr', P fr' ∧
        c.slot (c.setSlot V₁ n fr) n = some fr' := Or.inr ⟨rfl, rfl, fr, hfr, hfilled⟩
    rcases hV with rfl | ⟨hneeds, rfl⟩
    · exact ⟨n + 1, h.advance hfresh (hP fr hfr), hnew, fun k hk => Or.inl (hslot k hk)⟩
    · refine ⟨n + 1, (h.formatted hneeds hlast).advance hfresh (hP fr hfr), hnew, fun k hk => ?_⟩
      rw [hslot k hk]
      rcases h.slots_formatted hneeds hlast (Or.inr rfl) hk with heq | ⟨hblock, hnone, hold⟩
      · exact Or.inl heq
      · refine Or.inr ⟨⟨rfl, hneeds⟩, hblock, hnone, fun d fr' hd => ?_⟩
        rw [slot_setSlot hfresh] at hd
        split at hd
        next hdn => exact hdn ▸ hk
        · exact hold d fr' hd

end Inv

end SensorLink.Db
