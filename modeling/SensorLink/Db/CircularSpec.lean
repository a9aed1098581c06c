import SensorLink.Db.CircularView

/-!
# What the operations on a circular do

One lemma for each of `find_block_for_seq_no`, `read_circular_fragment_at_offset`,
`delete_circular_fragment` and `write_circular_fragment`, in terms of the fragments of the sequence
numbers.
-/

namespace SensorLink.Db

open SensorLink.Lib SensorLink.Flash RingBuffer

section Spec

variable {dev : BlockDevice} {c : RingBuffer dev} {errors cuts reads : Prop} {mem : Mem} {O : Mem → Prop}
variable {n : ℕ}

theorem wp_findBlockForSeqNo {Q : Option BlockHeader → Mem → Prop} {E : FindFail → Mem → Prop}
    (hown : c.Own (dev.view mem)) (hfault : reads → E (.other .flash) mem)
    (hnone : dev.view mem (c.chunkBlock (n / c.perBlock)) = none → Q none mem)
    (hsome : ∀ block, dev.view mem (c.chunkBlock (n / c.perBlock)) = some block →
      c.IsChunk block (n / c.perBlock) → Q (some block.header) mem)
    (hother : ∀ block q, dev.view mem (c.chunkBlock (n / c.perBlock)) = some block →
      c.IsChunk block q → q ≠ n / c.perBlock → E (.notFound block.header) mem) :
    Dev.wp (faults errors cuts reads) (findBlockForSeqNo dev c.toCircular n) Q E O mem := by
  unfold findBlockForSeqNo
  rw [c.findBlockNo_eq]
  refine Dev.wp_bind (Dev.wp_mapErr (BlockDevice.wp_blockHeader (c.chunkBlock_lt _) hfault ?_))
  cases hv : dev.view mem (c.chunkBlock (n / c.perBlock)) with
  | none => exact Dev.wp_pure (hnone hv)
  | some block =>
    obtain ⟨q, -, hc⟩ := hown _ block hv
    have hlast := hc.last
    have hmod := Nat.mod_lt n c.perBlock_pos
    have hadd : wrappingAdd block.header.firstFragNo (n % c.perBlock) =
        q * c.perBlock + n % c.perBlock := by
      rw [hc.first]
      exact wrappingAdd_eq (by omega)
    simp only [Option.map_some]
    rw [if_neg (not_not.mpr hc.id.symm), if_neg (not_not.mpr hc.size.symm), hadd]
    by_cases hq : q = n / c.perBlock
    · rw [if_neg (not_not.mpr (by rw [hq, c.div_mod_eq]))]
      exact Dev.wp_pure (hsome block hv (hq ▸ hc))
    · have hne : n ≠ q * c.perBlock + n % c.perBlock := by
        intro heq
        refine hq (Nat.eq_of_mul_eq_mul_right c.perBlock_pos ?_)
        have := c.div_mod_eq n
        omega
      rw [if_pos hne]
      exact Dev.wp_throw (hother block q hv hc hq)

/-- The place of the fragment in its block. -/
lemma relFragNo_eq {block : Block} (hv : dev.view mem (c.chunkBlock (n / c.perBlock)) = some block)
    (hc : c.IsChunk block (n / c.perBlock)) :
    block.header.relFragNo n = n % c.perBlock ∧ n % c.perBlock < block.header.fragCount := by
  have hmod := Nat.mod_lt n c.perBlock_pos
  have hn := c.div_mod_eq n
  have hlast := hc.last
  constructor
  · rw [BlockHeader.relFragNo, hc.first, wrappingSub_eq (by omega) (by omega)]
    omega
  · rw [(BlockDevice.view_spec hv).count, hc.size]
    exact hmod

theorem wp_readCircularFragment {len offset : ℕ} {Q : List UInt8 → Mem → Prop}
    {E : Error → Mem → Prop} (hown : c.Own (dev.view mem)) (hoffset : offset ≤ c.fragmentSize)
    (hfault : reads → E .flash mem)
    (hok : ∀ fr, c.slot (dev.view mem) n = some fr → fr.status = .valid →
      Q ((fr.data.drop offset).take len) mem)
    (hbad : (∀ fr, c.slot (dev.view mem) n = some fr → fr.status ≠ .valid) →
      ∀ e, e = .fragmentNotReadable ∨ e = .fragmentNotFound → E e mem) :
    Dev.wp (faults errors cuts reads) (readCircularFragmentAtOffset dev c.toCircular n len offset)
      Q E O mem := by
  refine Dev.wp_bind (Dev.wp_mapErr (wp_findBlockForSeqNo hown hfault (fun hv => ?_)
    (fun block hv hc => ?_) fun block q hv hc hne => ?_))
  · refine Dev.wp_throw (hbad (fun fr hfr => ?_) _ (Or.inl rfl))
    obtain ⟨block, hv', -⟩ := slot_eq_some hfr
    rw [hv] at hv'
    cases hv'
  · obtain ⟨hrel, hlt⟩ := relFragNo_eq hv hc
    have hslot := slot_of_chunk hv hc
    refine Dev.wp_mapErr (BlockDevice.wp_readFragmentAtOffset (c.chunkBlock_lt _) hv hrel hlt
      (by rw [hc.size]; exact hoffset) hfault (fun hst => hok _ hslot hst) fun hst => ?_)
    have hnot : ∀ fr, c.slot (dev.view mem) n = some fr → fr.status ≠ .valid := by
      intro fr hfr
      rw [hslot] at hfr
      obtain rfl := Option.some.inj hfr
      exact hst
    have hbad' := hbad hnot _ (Or.inl rfl)
    revert hst
    cases (block.frag (n % c.perBlock)).status with
    | valid => exact fun hst => absurd rfl hst
    | empty => exact fun _ => hbad'
    | invalid => exact fun _ => hbad'
    | obsolete => exact fun _ => hbad'
  · refine hbad (fun fr hfr => ?_) _ (Or.inr rfl)
    rw [slot_eq_none_of_chunk hv hc hne] at hfr
    cases hfr

section Delete

variable {Q : Unit → Mem → Prop} {E : Error → Mem → Prop}

theorem wp_deleteCircularFragment (hown : c.Own (dev.view mem)) (hfault : reads → E .flash mem)
    (hused : ∀ fr, c.slot (dev.view mem) n = some fr → fr.status ≠ .empty)
    (hgone : (∀ fr, c.slot (dev.view mem) n = some fr → fr.status ≠ .valid) →
      Q () mem ∧ E .fragmentNotFound mem)
    (hok : ∀ fr, c.slot (dev.view mem) n = some fr → fr.status = .valid → ∀ mem',
      dev.view mem' = c.setSlot (dev.view mem) n ⟨.obsolete, fr.data⟩ → Q () mem')
    (herr : errors → ∀ fr, c.slot (dev.view mem) n = some fr → fr.status = .valid → ∀ mem',
      dev.view mem' = c.setSlot (dev.view mem) n ⟨.invalid, fr.data⟩ → E .flash mem')
    (hoff : cuts → ∀ fr, c.slot (dev.view mem) n = some fr → fr.status = .valid → ∀ mem',
      (dev.view mem' = dev.view mem ∨
        dev.view mem' = c.setSlot (dev.view mem) n ⟨.invalid, fr.data⟩ ∨
        dev.view mem' = c.setSlot (dev.view mem) n ⟨.obsolete, fr.data⟩) → O mem') :
    Dev.wp (faults errors cuts reads) (deleteCircularFragment dev c.toCircular n) Q E O mem := by
  refine Dev.wp_bind (Dev.wp_mapErr (wp_findBlockForSeqNo hown hfault (fun hv => ?_)
    (fun block hv hc => ?_) fun block q hv hc hne => ?_))
  · refine Dev.wp_pure (hgone fun fr hfr => ?_).1
    obtain ⟨block, hv', -⟩ := slot_eq_some hfr
    rw [hv] at hv'
    cases hv'
  · obtain ⟨hrel, hlt⟩ := relFragNo_eq hv hc
    have hslot := slot_of_chunk hv hc
    have hset : ∀ fr, c.setSlot (dev.view mem) n fr =
        dev.setView mem (c.chunkBlock (n / c.perBlock)) block (n % c.perBlock) fr :=
      fun fr => setSlot_eq hv fr
    simp only [hset] at hok herr hoff
    refine Dev.wp_mapErr ?_
    by_cases hst : (block.frag (n % c.perBlock)).status = .valid
    · exact BlockDevice.wp_deleteFragment (c.chunkBlock_lt _) hv hrel hlt (Or.inr hst) hfault
        (fun mem' hv' => hok _ hslot hst mem' hv') (fun he mem' hv' => herr he _ hslot hst mem' hv')
        (fun hcut mem' hv' => hoff hcut _ hslot hst mem' hv')
    · have hne := hused _ hslot
      have hdone : (block.frag (n % c.perBlock)).status = .invalid ∨
          (block.frag (n % c.perBlock)).status = .obsolete := by
        revert hst hne
        cases (block.frag (n % c.perBlock)).status <;> simp
      refine BlockDevice.wp_deleteFragment_done (c.chunkBlock_lt _) hv (by rw [hrel]; exact hlt)
        (by rw [hrel]; exact hdone) hfault (hgone fun fr hfr => ?_).1
      rw [hslot] at hfr
      obtain rfl := Option.some.inj hfr
      exact hst
  · refine (hgone fun fr hfr => ?_).2
    rw [slot_eq_none_of_chunk hv hc hne] at hfr
    cases hfr

end Delete

/-! ### Writing -/

section Write

variable {data : List UInt8}

/-- The block of the fragment may be erased: overwriting is allowed, or it has no valid fragment. -/
def Erasable (c : RingBuffer dev) (V : ℕ → Option Block) (n : ℕ) : Prop :=
  c.overwriteOnFull = true ∨ ∀ k fr, c.chunkBlock (k / c.perBlock) = c.chunkBlock (n / c.perBlock) →
    c.slot V k = some fr → fr.status ≠ .valid

/-- The view where the block of the fragment was formatted for its chunk. -/
def formattedV (c : RingBuffer dev) (V : ℕ → Option Block) (n : ℕ) : ℕ → Option Block :=
  Function.update V (c.chunkBlock (n / c.perBlock)) (some (Block.fresh
    (c.header (c.chunkBlock (n / c.perBlock)) 0xFF (n / c.perBlock * c.perBlock))))

/-- The block is formatted before a first fragment is written, unless it holds the chunk already. -/
structure NeedsFormat (c : RingBuffer dev) (V : ℕ → Option Block) (n : ℕ) : Prop where
  first : n % c.perBlock = 0
  missing : c.slot V n = none
  erasable : Erasable c V n

/-- What `write_circular_fragment` can do to the blocks: nothing, erase or format the block of the
fragment, and write the fragment, which is `P` then. -/
inductive WriteEffect (c : RingBuffer dev) (V : ℕ → Option Block) (n : ℕ) (P : Frag → Prop) :
    (ℕ → Option Block) → Prop
  | same : WriteEffect c V n P V
  | wiped : NeedsFormat c V n →
    WriteEffect c V n P (Function.update V (c.chunkBlock (n / c.perBlock)) none)
  | formatted : NeedsFormat c V n → WriteEffect c V n P (formattedV c V n)
  | filled (V' : ℕ → Option Block) (fr : Frag) :
    (V' = V ∨ NeedsFormat c V n ∧ V' = formattedV c V n) →
    c.slot V' n = some (Frag.fresh c.fragmentSize) → P fr → WriteEffect c V n P (c.setSlot V' n fr)

lemma WriteEffect.mono {V V' : ℕ → Option Block} {P P' : Frag → Prop} (h : WriteEffect c V n P V')
    (hP : ∀ fr, P fr → P' fr) : WriteEffect c V n P' V' := by
  cases h with
  | same => exact .same
  | wiped hneeds => exact .wiped hneeds
  | formatted hneeds => exact .formatted hneeds
  | filled V₁ fr hV hfresh hfr => exact .filled V₁ fr hV hfresh (hP fr hfr)

/-- A fragment that was written completely. -/
def Complete (c : RingBuffer dev) (data : List UInt8) (fr : Frag) : Prop :=
  fr = c.written data ∧ data.length ≤ c.fragmentSize

/-- A fragment that was not written completely. -/
def Torn (fr : Frag) : Prop := fr.status = .invalid

variable {Q : Unit → Mem → Prop} {E : Error → Mem → Prop}

/-- A fragment that is there and empty. -/
lemma wp_writeFragment_slot {block : Block}
    (hv : dev.view mem (c.chunkBlock (n / c.perBlock)) = some block)
    (hc : c.IsChunk block (n / c.perBlock))
    (hfresh : c.slot (dev.view mem) n = some (Frag.fresh c.fragmentSize))
    (hok : ∀ mem', data.length ≤ c.fragmentSize →
      dev.view mem' = c.setSlot (dev.view mem) n (c.written data) → Q () mem')
    (hlong : c.fragmentSize < data.length → E .fragmentTooLarge mem)
    (herr : errors ∨ reads → ∀ mem', (dev.view mem' = dev.view mem ∨ ∃ fr, Torn fr ∧
      dev.view mem' = c.setSlot (dev.view mem) n fr) → E .flash mem')
    (hoff : cuts → ∀ mem', (dev.view mem' = dev.view mem ∨ ∃ fr, (Complete c data fr ∨ Torn fr) ∧
      dev.view mem' = c.setSlot (dev.view mem) n fr) → O mem') :
    Dev.wp (faults errors cuts reads)
      (Dev.mapErr Error.ofWrite (dev.writeFragment block.header n data)) Q E O mem := by
  obtain ⟨hrel, hlt⟩ := relFragNo_eq hv hc
  have hset : ∀ fr, dev.setView mem (c.chunkBlock (n / c.perBlock)) block (n % c.perBlock) fr =
      c.setSlot (dev.view mem) n fr := fun fr => (setSlot_eq hv fr).symm
  rw [slot_of_chunk hv hc, Option.some.injEq, ← hc.size] at hfresh
  refine Dev.wp_mapErr ?_
  by_cases hlen : data.length ≤ block.header.fragSize
  · refine BlockDevice.wp_writeFragment (c.chunkBlock_lt _) hv hrel hlt hlen hfresh (fun mem' hv' => ?_)
      (fun he mem' hv' => ?_) (fun hcut mem' hv' => ?_)
    · rw [hset, hc.size] at hv'
      exact hok mem' (hc.size ▸ hlen) hv'
    · refine herr he mem' ?_
      rcases hv' with hv' | ⟨d, hv'⟩
      · exact Or.inl hv'
      · exact Or.inr ⟨⟨.invalid, d⟩, rfl, hv'.trans (hset _)⟩
    · refine hoff hcut mem' ?_
      rcases hv' with hv' | ⟨d, hv'⟩ | hv'
      · exact Or.inl hv'
      · exact Or.inr ⟨⟨.invalid, d⟩, Or.inr rfl, hv'.trans (hset _)⟩
      · rw [hset, hc.size] at hv'
        exact Or.inr ⟨_, Or.inl ⟨rfl, hc.size ▸ hlen⟩, hv'⟩
  · exact BlockDevice.wp_writeFragment_tooLarge (by omega) (hlong (by rw [hc.size] at hlen; omega))

/-- The block to write a fragment to. -/
lemma wp_blockToWrite {Q : Option BlockHeader → Mem → Prop} (hown : c.Own (dev.view mem))
    (hsome : ∀ block, dev.view mem (c.chunkBlock (n / c.perBlock)) = some block →
      c.IsChunk block (n / c.perBlock) → Q (some block.header) mem)
    (hnone : c.slot (dev.view mem) n = none → Erasable c (dev.view mem) n → Q none mem)
    (hfull : c.overwriteOnFull = false → c.slot (dev.view mem) n = none → E .noSpaceAvailable mem)
    (hfault : reads → E .flash mem) :
    Dev.wp (faults errors cuts reads) (blockToWrite dev c.toCircular n) Q E O mem := by
  refine Dev.wp_bind (Dev.wp_attempt (wp_findBlockForSeqNo hown
    (fun hreads => Dev.wp_throw (hfault hreads)) (fun hv => ?_)
    (fun block hv hc => Dev.wp_pure (hsome block hv hc)) fun block q hv hc hne => ?_))
  · have hslot : ∀ k, c.chunkBlock (k / c.perBlock) = c.chunkBlock (n / c.perBlock) →
        c.slot (dev.view mem) k = none := by
      intro k hk
      unfold slot
      rw [hk, hv]
    refine Dev.wp_pure (hnone (hslot n rfl) (Or.inr fun k fr hk hfr => ?_))
    rw [hslot k hk] at hfr
    cases hfr
  · have hslot := slot_eq_none_of_chunk hv hc hne
    simp only
    by_cases hover : c.overwriteOnFull = true
    · rw [if_pos hover]
      exact Dev.wp_pure (hnone hslot (Or.inl hover))
    · rw [if_neg hover]
      refine Dev.wp_bind (Dev.wp_mapErr (BlockDevice.wp_blockFindValidFragment (c.chunkBlock_lt _) hv
        hfault (fun hvalid => ?_) fun i hi hvalid k => ?_))
      · refine Dev.wp_pure (hnone hslot (Or.inr fun k fr hk hfr => ?_))
        obtain ⟨block', hv', hc', rfl⟩ := slot_eq_some hfr
        rw [hk, hv] at hv'
        obtain rfl := Option.some.inj hv'
        refine hvalid _ ?_
        rw [(BlockDevice.view_spec hv).count, hc.size]
        exact Nat.mod_lt _ c.perBlock_pos
      · exact Dev.wp_throw (hfull (Bool.eq_false_iff.mpr hover) hslot)

/-- **`write_circular_fragment`** at a sequence number whose fragment, if its block holds it, is either
unused or not empty. -/
theorem wp_writeCircularFragment (hown : c.Own (dev.view mem))
    (hlast : n / c.perBlock * c.perBlock + c.perBlock < 2 ^ 32)
    (hclean : ∀ fr, c.slot (dev.view mem) n = some fr → fr.status = .empty →
      fr = Frag.fresh c.fragmentSize)
    (hok : ∀ mem' V, (V = dev.view mem ∨ NeedsFormat c (dev.view mem) n ∧
      V = formattedV c (dev.view mem) n) → c.slot V n = some (Frag.fresh c.fragmentSize) →
      data.length ≤ c.fragmentSize → dev.view mem' = c.setSlot V n (c.written data) → Q () mem')
    (hused : ∀ fr, c.slot (dev.view mem) n = some fr → fr.status ≠ .empty →
      ∀ e, e = .fragmentNotWriteable ∨ e = .fragmentTooLarge → E e mem)
    (hnone : c.slot (dev.view mem) n = none → n % c.perBlock ≠ 0 → E .fragmentNotWriteable mem)
    (hfull : c.overwriteOnFull = false → E .noSpaceAvailable mem)
    (hlong : c.fragmentSize < data.length → ∀ mem',
      WriteEffect c (dev.view mem) n Torn (dev.view mem') → E .fragmentTooLarge mem')
    (herr : errors ∨ reads → ∀ mem', WriteEffect c (dev.view mem) n Torn (dev.view mem') → E .flash mem')
    (hoff : cuts → ∀ mem', WriteEffect c (dev.view mem) n (fun fr => Complete c data fr ∨ Torn fr)
      (dev.view mem') → O mem') :
    Dev.wp (faults errors cuts reads) (writeCircularFragment dev c.toCircular n data) Q E O mem := by
  refine Dev.wp_bind (wp_blockToWrite hown (fun block hv hc => ?_) (fun hslot herasable => ?_)
    (fun hover _ => hfull hover) fun hreads => herr (Or.inr hreads) mem .same)
  · have hslot := slot_of_chunk hv hc
    by_cases hst : (block.frag (n % c.perBlock)).status = .empty
    · have hfresh : c.slot (dev.view mem) n = some (Frag.fresh c.fragmentSize) := by
        rw [hslot, hclean _ hslot hst]
      refine wp_writeFragment_slot hv hc hfresh (fun mem' hlen hv' => hok mem' _ (Or.inl rfl) hfresh hlen hv')
        (fun hlen => hlong hlen mem .same) (fun he mem' hv' => ?_) fun hcut mem' hv' => ?_
      · refine herr he mem' ?_
        rcases hv' with hv' | ⟨fr, hfr, hv'⟩
        · rw [hv']
          exact .same
        · rw [hv']
          exact .filled _ fr (Or.inl rfl) hfresh hfr
      · refine hoff hcut mem' ?_
        rcases hv' with hv' | ⟨fr, hfr, hv'⟩
        · rw [hv']
          exact .same
        · rw [hv']
          exact .filled _ fr (Or.inl rfl) hfresh hfr
    · obtain ⟨hrel, hlt⟩ := relFragNo_eq hv hc
      have hbad := hused _ hslot hst
      refine Dev.wp_mapErr ?_
      by_cases hlen : data.length ≤ block.header.fragSize
      · refine BlockDevice.wp_writeFragment_used (c.chunkBlock_lt _) hv (by rw [hrel]; exact hlt) hlen
          (by rw [hrel]; exact hst) (fun hreads => herr (Or.inr hreads) mem .same) ?_
        rw [hrel]
        have hbad' := hbad _ (Or.inl rfl)
        revert hst
        cases (block.frag (n % c.perBlock)).status with
        | empty => exact fun hst => absurd rfl hst
        | valid => exact fun _ => hbad'
        | invalid => exact fun _ => hbad'
        | obsolete => exact fun _ => hbad'
      · exact BlockDevice.wp_writeFragment_tooLarge (by omega) (hbad _ (Or.inr rfl))
  · simp only
    by_cases hfirst : n % c.perBlock = 0
    · have hneeds : NeedsFormat c (dev.view mem) n := ⟨hfirst, hslot, herasable⟩
      have hn : n / c.perBlock * c.perBlock = n := by
        have := c.div_mod_eq n
        omega
      have hformat : Function.update (dev.view mem) (findBlockNoForSeqNo dev c.toCircular n)
          (some (Block.fresh (c.header (findBlockNoForSeqNo dev c.toCircular n) 0xFF n))) =
          formattedV c (dev.view mem) n := by
        rw [c.findBlockNo_eq, formattedV, hn]
      rw [if_neg (not_not.mpr hfirst)]
      refine Dev.wp_bind (wp_formatFor (f := c.toLayout) (by rw [c.findBlockNo_eq]; exact c.chunkBlock_lt _)
        (by decide) (by omega) (fun mem₁ hv₁ => ?_) (fun he mem' hv' => ?_) fun hcut mem' hv' => ?_)
      · -- the second attempt finds the formatted block
        have hv₁' := hv₁.trans hformat
        have hblock : dev.view mem₁ (c.chunkBlock (n / c.perBlock)) = some (Block.fresh
            (c.header (c.chunkBlock (n / c.perBlock)) 0xFF (n / c.perBlock * c.perBlock))) := by
          rw [hv₁', formattedV, Function.update_self]
        have hchunk : c.IsChunk (Block.fresh (c.header (c.chunkBlock (n / c.perBlock)) 0xFF
            (n / c.perBlock * c.perBlock))) (n / c.perBlock) := isChunk_fresh hlast _
        have hfresh : c.slot (dev.view mem₁) n = some (Frag.fresh c.fragmentSize) := by
          rw [slot_of_chunk hblock hchunk]
          exact congrArg some (Block.fresh_frag (Nat.mod_lt _ c.perBlock_pos))
        have hown₁ : c.Own (dev.view mem₁) := hown.formatted hlast hv₁'
        refine Dev.wp_bind (wp_blockToWrite hown₁ (fun block hv hc => ?_) (fun hc => ?_) (fun _ hc => ?_)
          fun hreads => ?_)
        · refine wp_writeFragment_slot hv hc hfresh (fun mem' hlen hv' => ?_) (fun hlen => ?_)
            (fun he mem' hv' => ?_) fun hcut mem' hv' => ?_
          · exact hok mem' _ (Or.inr ⟨hneeds, hv₁'⟩) hfresh hlen hv'
          · refine hlong hlen mem₁ ?_
            rw [hv₁']
            exact .formatted hneeds
          · refine herr he mem' ?_
            rcases hv' with hv' | ⟨fr, hfr, hv'⟩
            · rw [hv', hv₁']
              exact .formatted hneeds
            · rw [hv']
              exact .filled _ fr (Or.inr ⟨hneeds, hv₁'⟩) hfresh hfr
          · refine hoff hcut mem' ?_
            rcases hv' with hv' | ⟨fr, hfr, hv'⟩
            · rw [hv', hv₁']
              exact .formatted hneeds
            · rw [hv']
              exact .filled _ fr (Or.inr ⟨hneeds, hv₁'⟩) hfresh hfr
        · rw [hfresh] at hc
          cases hc
        · rw [hfresh] at hc
          cases hc
        · refine herr (Or.inr hreads) mem₁ ?_
          rw [hv₁']
          exact .formatted hneeds
      · refine herr (Or.inl he) mem' ?_
        rw [hv', c.findBlockNo_eq]
        exact .wiped hneeds
      · refine hoff hcut mem' ?_
        rcases hv' with hv' | hv' | hv'
        · rw [hv']
          exact .same
        · rw [hv', c.findBlockNo_eq]
          exact .wiped hneeds
        · rw [hv', hformat]
          exact .formatted hneeds
    · rw [if_pos hfirst]
      exact Dev.wp_throw (hnone hslot hfirst)

end Write

end Spec

end SensorLink.Db
