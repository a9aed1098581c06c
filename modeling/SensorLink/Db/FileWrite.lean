import SensorLink.Db.FileView

/-!
# What writing a file does to its blocks

One lemma for each of `lock`, `delete_object`, `delete`, `prepare_writeable_block`,
`write_file_fragment`, the loop of `write_file`, and `unlock`, on a device that may lose power. An index
is `Blank` for a version when it can be written with it, and it `Holds` what was written to it.
-/

namespace SensorLink.Db

open SensorLink.Lib SensorLink.Flash

namespace File

variable {dev : BlockDevice} (f : File dev)

abbrev blockOf (i : ℕ) : ℕ := f.blocksStart + i / f.perBlock

lemma blockOf_lt_total {i : ℕ} (hi : i < f.count) : f.blockOf i < dev.blocksTotal :=
  (f.block_lt hi).trans f.spare_lt

lemma blockOf_ne_spare {i : ℕ} (hi : i < f.count) : f.blockOf i ≠ f.spareBlock :=
  (f.block_lt hi).ne

end File

section Spec

variable {dev : BlockDevice} {f : File dev} {cuts : Prop} {mem : Mem} {O : Mem → Prop}
variable {E : Error → Mem → Prop} {Q : Unit → Mem → Prop}

/-! ### The lock -/

/-- The lock was taken: the spare block is not valid, or its first fragment is not empty. -/
def LockedFrom (f : File dev) (V V' : ℕ → Option Block) : Prop :=
  (V f.spareBlock = none ∧ V' = V) ∨ ∃ spare fr, V f.spareBlock = some spare ∧
    fr.status ≠ .empty ∧ V' = Function.update V f.spareBlock (some (spare.setFrag 0 fr))

theorem wp_lock (hok : ∀ mem', LockedFrom f (dev.view mem) (dev.view mem') → Q () mem')
    (hoff : cuts → ∀ mem', (dev.view mem' = dev.view mem ∨
      LockedFrom f (dev.view mem) (dev.view mem')) → O mem') :
    Dev.wp (faults False cuts False) (lock dev f.toObject) Q E O mem := by
  refine Dev.wp_bind (Dev.wp_mapErr (BlockDevice.wp_blockHeader f.spare_lt False.elim ?_))
  cases hv : dev.view mem f.spareBlock with
  | none => exact Dev.wp_pure (hok _ (Or.inl ⟨hv, rfl⟩))
  | some spare =>
    have hspec := BlockDevice.view_spec hv
    have hrel : spare.header.relFragNo spare.header.firstFragNo = 0 := by
      rw [BlockHeader.relFragNo, wrappingSub_eq le_rfl hspec.first, Nat.sub_self]
    have hset : ∀ mem' st d, st ≠ .empty →
        dev.view mem' = dev.setView mem f.spareBlock spare 0 ⟨st, d⟩ →
        LockedFrom f (dev.view mem) (dev.view mem') :=
      fun mem' st d hst hv' => Or.inr ⟨spare, ⟨st, d⟩, hv, hst, hv'⟩
    refine Dev.wp_mapErr ?_
    by_cases hst : (spare.frag 0).status = .empty ∨ (spare.frag 0).status = .valid
    · refine BlockDevice.wp_deleteFragment f.spare_lt hv hrel hspec.pos hst False.elim ?_ False.elim ?_
      · exact fun mem' hv' => hok _ (hset _ _ _ (by decide) hv')
      · rintro hcut mem' (hv' | hv' | hv')
        · exact hoff hcut _ (Or.inl hv')
        · exact hoff hcut _ (Or.inr (hset _ _ _ (by decide) hv'))
        · exact hoff hcut _ (Or.inr (hset _ _ _ (by decide) hv'))
    · have hdone : (spare.frag 0).status = .invalid ∨ (spare.frag 0).status = .obsolete := by
        revert hst
        cases (spare.frag 0).status <;> simp
      refine BlockDevice.wp_deleteFragment_done f.spare_lt hv (by rw [hrel]; exact hspec.pos)
        (by rw [hrel]; exact hdone) False.elim (hok _ (Or.inr ⟨spare, spare.frag 0, hv, ?_, ?_⟩))
      · exact fun hc => hst (Or.inl hc)
      · rw [Block.setFrag, Function.update_eq_self, ← hv, Function.update_eq_self]

/-! ### Deleting -/

/-- The version and the erase count that `delete_object` finds. -/
def lastV (V : ℕ → Option Block) (f : File dev) : ℕ × ℕ :=
  lastVersion f.count
    [.ok ((V f.blocksStart).map Block.header), .ok ((V f.spareBlock).map Block.header)]

/-- The version that `delete_object` chooses. -/
def versionV (V : ℕ → Option Block) (f : File dev) : ℕ := nextVersion (lastV V f).1 0xFF

lemma versionV_lt (V : ℕ → Option Block) (f : File dev) : versionV V f < 2 ^ 8 :=
  Nat.mod_lt _ (by decide)

/-- The first block after the soft delete. -/
def firstV (V : ℕ → Option Block) (f : File dev) : Block :=
  Block.fresh (f.header f.blocksStart (versionV V f)
    (nextFirstFragNo dev f.toObject f.blocksStart (lastV V f).2))

/-- The spare block after the soft delete. -/
def spareV (V : ℕ → Option Block) (f : File dev) : Block :=
  Block.fresh (f.header f.spareBlock (versionV V f) (nextFirstFragNo dev f.toObject f.spareBlock 0))

/-- The blocks after the soft delete. -/
def deletedV (V : ℕ → Option Block) (f : File dev) : ℕ → Option Block :=
  Function.update (Function.update V f.blocksStart (some (firstV V f))) f.spareBlock
    (some (spareV V f))

theorem wp_deleteObject (hok : ∀ mem', dev.view mem' = deletedV (dev.view mem) f → Q () mem')
    (hoff : cuts → ∀ mem', (∃ first, dev.view mem' =
        Function.update (dev.view mem) f.blocksStart first) ∨
      (dev.view mem' f.spareBlock = none) ∨ dev.view mem' = deletedV (dev.view mem) f → O mem') :
    Dev.wp (faults False cuts False) (deleteObject dev f.toObject .softVersion) Q E O mem := by
  have hstart := f.start_lt_spare.trans f.spare_lt
  unfold deleteObject
  rw [if_neg f.count_pos.ne']
  refine Dev.wp_bind (Dev.wp_attempt (BlockDevice.wp_blockHeader hstart False.elim ?_))
  refine Dev.wp_bind (Dev.wp_attempt (BlockDevice.wp_blockHeader f.spare_lt False.elim ?_))
  refine Dev.wp_bind (wp_formatFor hstart (versionV_lt _ f) (wrappingAdd_lt _ _) ?_ False.elim ?_)
  · intro mem₁ hv₁
    refine wp_formatFor f.spare_lt (versionV_lt _ f) (wrappingAdd_lt _ _) ?_ False.elim ?_
    · intro mem' hv'
      refine hok mem' ?_
      rw [hv', hv₁]
      rfl
    · rintro hcut mem' (hv' | hv' | hv')
      · exact hoff hcut _ (Or.inl ⟨_, hv'.trans hv₁⟩)
      · exact hoff hcut _ (Or.inr (Or.inl (by rw [hv', Function.update_self])))
      · refine hoff hcut _ (Or.inr (Or.inr ?_))
        rw [hv', hv₁]
        rfl
  · rintro hcut mem' (hv' | hv' | hv')
    · exact hoff hcut _ (Or.inl ⟨dev.view mem f.blocksStart, by rw [hv', Function.update_eq_self]⟩)
    · exact hoff hcut _ (Or.inl ⟨_, hv'⟩)
    · exact hoff hcut _ (Or.inl ⟨_, hv'⟩)

/-- A file is unlocked when its spare block was just formatted. -/
lemma fileHandleV_of_fresh {V : ℕ → Option Block} {version first : ℕ}
    (hv : V f.spareBlock = some (Block.fresh (f.header f.spareBlock version first))) :
    fileHandleV V f = .ok version := by
  have hstatus : ((Block.fresh (f.header f.spareBlock version first)).frag 0).status = .empty := by
    rw [Block.fresh_frag f.perBlock_pos]
    rfl
  have hid : ¬ f.id ≠ (f.header f.spareBlock version first).objectId := fun hc => hc rfl
  unfold fileHandleV lockStatusV
  rw [hv]
  simp only [Block.fresh_header, if_neg hid, hstatus, ne_eq, not_true_eq_false, if_false]
  rfl

lemma fileHandleV_deletedV (V : ℕ → Option Block) (f : File dev) :
    fileHandleV (deletedV V f) f = .ok (versionV V f) :=
  fileHandleV_of_fresh (Function.update_self ..)

theorem wp_delete {Q : ℕ → Mem → Prop}
    (hok : ∀ mem', dev.view mem' = deletedV (dev.view mem) f → Q (versionV (dev.view mem) f) mem')
    (hoff : cuts → ∀ mem', (∃ first, dev.view mem' =
        Function.update (dev.view mem) f.blocksStart first) ∨
      (dev.view mem' f.spareBlock = none) ∨ dev.view mem' = deletedV (dev.view mem) f → O mem') :
    Dev.wp (faults False cuts False) (delete dev f.toObject) Q E O mem := by
  refine Dev.wp_bind (wp_deleteObject (fun mem' hv' => wp_fileHandle False.elim ?_) hoff)
  rw [hv', fileHandleV_deletedV]
  exact hok mem' hv'

/-! ### Preparing a block -/

/-- The block that `prepare_writeable_block` leaves: the present one, or a fresh one. -/
def preparedV (V : ℕ → Option Block) (f : File dev) (b version : ℕ) : Block :=
  match V b with
  | some block =>
    if isWriteable f.toObject version block.header then block
    else Block.fresh (f.header b version (wrappingAdd (wrappingMul b f.perBlock)
      (wrappingMul (wrappingAdd (block.header.firstFragNo / max f.count 1) 1) (max f.count 1))))
  | none => Block.fresh (f.header b version (wrappingAdd (wrappingMul b f.perBlock)
      (wrappingMul (wrappingAdd 0 1) (max f.count 1))))

lemma preparedV_cases (V : ℕ → Option Block) (f : File dev) (b version : ℕ) :
    (∃ block, V b = some block ∧ block.header.fragSize = f.fragmentSize ∧
      block.header.objectVersion = version ∧ preparedV V f b version = block) ∨
    ((∀ block, V b = some block → isWriteable f.toObject version block.header = false) ∧
      ∃ first < 2 ^ 32, preparedV V f b version = Block.fresh (f.header b version first)) := by
  unfold preparedV
  cases hv : V b with
  | none => exact Or.inr ⟨fun block hb => (by cases hb), _, wrappingAdd_lt _ _, rfl⟩
  | some block =>
    simp only
    by_cases hw : isWriteable f.toObject version block.header
    · have hw' := hw
      simp only [isWriteable, decide_eq_true_eq] at hw'
      exact Or.inl ⟨block, rfl, hw'.1.symm, hw'.2, if_pos hw⟩
    · rw [if_neg hw]
      refine Or.inr ⟨fun block' hb => ?_, _, wrappingAdd_lt _ _, rfl⟩
      obtain rfl := Option.some.inj hb
      exact Bool.eq_false_iff.mpr hw

/-- A prepared block has the format of the file and the version of the handle. -/
lemma preparedV_header (V : ℕ → Option Block) (f : File dev) (b version : ℕ) :
    (preparedV V f b version).header.fragSize = f.fragmentSize ∧
      (preparedV V f b version).header.objectVersion = version := by
  rcases preparedV_cases V f b version with ⟨block, -, hfs, hver, heq⟩ | ⟨-, first, -, heq⟩
  · rw [heq]
    exact ⟨hfs, hver⟩
  · rw [heq]
    exact ⟨rfl, rfl⟩

lemma wp_formatWriteableBlock {b version eraseCount : ℕ} {Q : BlockHeader → Mem → Prop}
    (hb : b < dev.blocksTotal) (hver : version < 2 ^ 8) {first : ℕ}
    (hfirst : first = wrappingAdd (wrappingMul b f.perBlock)
      (wrappingMul (wrappingAdd eraseCount 1) (max f.count 1)))
    (hok : ∀ mem', dev.view mem' = Function.update (dev.view mem) b
      (some (Block.fresh (f.header b version first))) → Q (f.header b version first) mem')
    (hoff : cuts → ∀ mem', (dev.view mem' = dev.view mem ∨
      dev.view mem' = Function.update (dev.view mem) b none ∨
      dev.view mem' = Function.update (dev.view mem) b
        (some (Block.fresh (f.header b version first)))) → O mem') :
    Dev.wp (faults False cuts False) (formatWriteableBlock dev f.toObject b version eraseCount)
      Q E O mem := by
  subst hfirst
  refine Dev.wp_bind (wp_formatFor hb hver (wrappingAdd_lt _ _) (fun mem' hv' => ?_) False.elim hoff)
  refine Dev.wp_bind (Dev.wp_mapErr (BlockDevice.wp_blockHeader hb False.elim ?_))
  have hb' := congrFun hv' b
  rw [Function.update_self] at hb'
  rw [hb']
  simp only [Option.map_some, Block.fresh_header]
  rw [if_pos (by simp [isWriteable, Layout.header])]
  exact Dev.wp_pure (hok mem' hv')

theorem wp_prepareWriteableBlock {b version : ℕ} {Q : BlockHeader → Mem → Prop}
    (hb : b < dev.blocksTotal) (hver : version < 2 ^ 8)
    (hok : ∀ mem', dev.view mem' = Function.update (dev.view mem) b
      (some (preparedV (dev.view mem) f b version)) →
      Q (preparedV (dev.view mem) f b version).header mem')
    (hoff : cuts → ∀ mem', (dev.view mem' = dev.view mem ∨
      dev.view mem' = Function.update (dev.view mem) b none ∨
      dev.view mem' = Function.update (dev.view mem) b
        (some (preparedV (dev.view mem) f b version))) → O mem') :
    Dev.wp (faults False cuts False) (prepareWriteableBlock dev f.toObject b version) Q E O mem := by
  refine Dev.wp_bind (Dev.wp_mapErr (BlockDevice.wp_blockHeader hb False.elim ?_))
  unfold preparedV at hok hoff
  cases hv : dev.view mem b with
  | none =>
    rw [hv] at hok hoff
    exact wp_formatWriteableBlock hb hver rfl hok hoff
  | some block =>
    rw [hv] at hok hoff
    simp only [Option.map_some] at hok hoff ⊢
    by_cases hw : isWriteable f.toObject version block.header
    · rw [if_pos hw] at hok ⊢
      exact Dev.wp_pure (hok mem (by rw [← hv, Function.update_eq_self]))
    · rw [if_neg hw] at hok hoff ⊢
      exact wp_formatWriteableBlock hb hver rfl hok hoff

/-! ### Writing a fragment -/

/-- The blocks where fragment `i` was written with a handle of the given version. -/
def writtenV (V : ℕ → Option Block) (f : File dev) (version i : ℕ) (data : List UInt8) :
    ℕ → Option Block :=
  Function.update V (f.blockOf i)
    (some ((preparedV V f (f.blockOf i) version).setFrag (i % f.perBlock) (f.written data)))

/-- What `write_file_fragment` asks for to write: room in the file and in the fragment, and a fragment
that is not used. -/
structure Writeable (V : ℕ → Option Block) (f : File dev) (version i : ℕ) (data : List UInt8) :
    Prop where
  index : i < f.count
  room : data.length ≤ maxCapacityRemaining f.toObject i
  fits : data.length ≤ f.fragmentSize
  empty : ((preparedV V f (f.blockOf i) version).frag (i % f.perBlock)).status = .empty

theorem wp_writeFileFragment {version i : ℕ} {data : List UInt8} (hver : version < 2 ^ 8)
    (hclean : i < f.count →
      ((preparedV (dev.view mem) f (f.blockOf i) version).frag (i % f.perBlock)).status = .empty →
      (preparedV (dev.view mem) f (f.blockOf i) version).frag (i % f.perBlock) =
        Frag.fresh f.fragmentSize)
    (hok : Writeable (dev.view mem) f version i data → ∀ mem',
      dev.view mem' = writtenV (dev.view mem) f version i data → Q () mem')
    (hroom : ¬ (i < f.count ∧ data.length ≤ maxCapacityRemaining f.toObject i) → ∀ e, E e mem)
    (hbad : i < f.count → data.length ≤ maxCapacityRemaining f.toObject i →
      ¬ Writeable (dev.view mem) f version i data → ∀ e mem', dev.view mem' =
        Function.update (dev.view mem) (f.blockOf i)
          (some (preparedV (dev.view mem) f (f.blockOf i) version)) → E e mem')
    (hoff : cuts → ∀ mem', (dev.view mem' = dev.view mem ∨
      (∃ v, dev.view mem' = Function.update (dev.view mem) (f.blockOf i) v ∧
        ∀ block, v = some block → block = preparedV (dev.view mem) f (f.blockOf i) version ∨
          ∃ d, block = (preparedV (dev.view mem) f (f.blockOf i) version).setFrag (i % f.perBlock)
            ⟨.invalid, d⟩) ∨
      dev.view mem' = writtenV (dev.view mem) f version i data) → O mem') :
    Dev.wp (faults False cuts False) (writeFileFragment dev f.toObject version i data) Q E O mem := by
  unfold writeFileFragment blockNoOf
  by_cases hi : f.count ≤ i
  · rw [if_pos hi]
    exact Dev.wp_throw (hroom (fun h => by have := h.1; omega) _)
  rw [if_neg hi]
  by_cases hlong : maxCapacityRemaining f.toObject i < data.length
  · rw [if_pos hlong]
    exact Dev.wp_throw (hroom (fun h => by have := h.2; omega) _)
  rw [if_neg hlong]
  have hi' : i < f.count := by omega
  have hlong' : data.length ≤ maxCapacityRemaining f.toObject i := by omega
  have hb := f.blockOf_lt_total hi'
  refine Dev.wp_bind (wp_prepareWriteableBlock hb hver (fun mem₁ hv₁ => ?_) fun hcut mem' hv' => ?_)
  · obtain ⟨hfs, -⟩ := preparedV_header (dev.view mem) f (f.blockOf i) version
    have hv₂ := congrFun hv₁ (f.blockOf i)
    rw [Function.update_self] at hv₂
    -- what is set in the block after it was prepared
    have hset : ∀ mem' fr, dev.view mem' = dev.setView mem₁ (f.blockOf i)
        (preparedV (dev.view mem) f (f.blockOf i) version) (i % f.perBlock) fr →
        dev.view mem' = Function.update (dev.view mem) (f.blockOf i)
          (some ((preparedV (dev.view mem) f (f.blockOf i) version).setFrag (i % f.perBlock) fr)) := by
      intro mem' fr hv'
      rw [hv', BlockDevice.setView, hv₁, Function.update_idem]
    generalize hp : preparedV (dev.view mem) f (f.blockOf i) version = p at *
    have hspec := BlockDevice.view_spec hv₂
    have hrel : p.header.relFragNo (wrappingAdd p.header.firstFragNo (i % f.perBlock)) =
        i % f.perBlock := wrappingSub_wrappingAdd hspec.first (f.mod_lt i)
    have hlt : i % f.perBlock < p.header.fragCount := by
      rw [hspec.count, hfs]
      exact Nat.mod_lt _ f.perBlock_pos
    refine Dev.wp_mapErr ?_
    by_cases hlen : f.fragmentSize < data.length
    · have hbad' := hbad hi' hlong' (fun hw => by have := hw.fits; omega)
      exact BlockDevice.wp_writeFragment_tooLarge (by omega) (hbad' _ _ hv₁)
    have hlen' : data.length ≤ p.header.fragSize := by omega
    by_cases hst : (p.frag (i % f.perBlock)).status = .empty
    · refine BlockDevice.wp_writeFragment hb hv₂ hrel hlt hlen' (by rw [hclean hi' hst, hfs])
        (fun mem' hv' => ?_) (fun h => (h.elim id id).elim) (fun hcut mem' hv' => hoff hcut mem' ?_)
      · refine hok ⟨hi', hlong', by omega, by rw [hp]; exact hst⟩ mem' ?_
        rw [writtenV, hp, hset _ _ hv', Layout.written, hfs]
      · rcases hv' with hv' | ⟨d, hv'⟩ | hv'
        · refine Or.inr (Or.inl ⟨_, hv'.trans hv₁, fun block hbl => Or.inl ?_⟩)
          exact (Option.some.inj hbl).symm
        · refine Or.inr (Or.inl ⟨_, hset _ _ hv', fun block hbl => Or.inr ⟨d, ?_⟩⟩)
          exact (Option.some.inj hbl).symm
        · refine Or.inr (Or.inr ?_)
          rw [writtenV, hp, hset _ _ hv', Layout.written, hfs]
    · have hbad' := hbad hi' hlong' (fun hw => hst (by have := hw.empty; rwa [hp] at this))
      exact BlockDevice.wp_writeFragment_used hb hv₂ (by rw [hrel]; exact hlt) hlen'
        (by rw [hrel]; exact hst) False.elim (hbad' _ _ hv₁)
  · refine hoff hcut mem' ?_
    rcases hv' with hv' | hv' | hv'
    · exact Or.inl hv'
    · exact Or.inr (Or.inl ⟨_, hv', fun block hbl => by cases hbl⟩)
    · refine Or.inr (Or.inl ⟨_, hv', fun block hbl => Or.inl ?_⟩)
      exact (Option.some.inj hbl).symm

/-! ### Fragments that are free, and fragments that were written -/

/-- Fragment `i` can be written with a handle of the version: its block is not valid, has another
version, or has the format of the file and the fragment is unused. -/
def Blank (V : ℕ → Option Block) (f : File dev) (version i : ℕ) : Prop :=
  ∀ block, V (f.blockOf i) = some block → block.header.objectVersion = version →
    block.header.fragSize = f.fragmentSize ∧ block.frag (i % f.perBlock) = Frag.fresh f.fragmentSize

/-- Fragment `i` holds the data, in a block of the version. -/
def Holds (V : ℕ → Option Block) (f : File dev) (version i : ℕ) (data : List UInt8) : Prop :=
  ∃ block, V (f.blockOf i) = some block ∧ block.header.objectVersion = version ∧
    block.header.fragSize = f.fragmentSize ∧ block.frag (i % f.perBlock) = f.written data

section Slots

variable {V : ℕ → Option Block} {version i j : ℕ} {data data' : List UInt8}

lemma Blank.prepared (h : Blank V f version i) :
    (preparedV V f (f.blockOf i) version).frag (i % f.perBlock) = Frag.fresh f.fragmentSize := by
  rcases preparedV_cases V f (f.blockOf i) version with
    ⟨block, hv, hfs, hver, heq⟩ | ⟨-, first, -, heq⟩
  · rw [heq]
    exact (h block hv hver).2
  · rw [heq]
    exact Block.fresh_frag (Nat.mod_lt _ f.perBlock_pos)

/-- Other fragments of the block have another place in it. -/
lemma mod_ne_of_blockOf_eq (hne : j ≠ i) (hb : f.blockOf j = f.blockOf i) :
    j % f.perBlock ≠ i % f.perBlock := by
  intro hmod
  have hdiv : j / f.perBlock = i / f.perBlock := Nat.add_left_cancel hb
  exact hne (by rw [← Nat.div_add_mod j f.perBlock, ← Nat.div_add_mod i f.perBlock, hdiv, hmod])

lemma writtenV_of_ne (hb : f.blockOf j ≠ f.blockOf i) :
    writtenV V f version i data (f.blockOf j) = V (f.blockOf j) := Function.update_of_ne hb _ _

lemma holds_writtenV : Holds (writtenV V f version i data) f version i data := by
  obtain ⟨hfs, hver⟩ := preparedV_header V f (f.blockOf i) version
  refine ⟨_, Function.update_self .., hver, hfs, ?_⟩
  rw [Block.setFrag_frag, Function.update_self]

lemma Holds.writtenV (h : Holds V f version j data') (hne : j ≠ i) :
    Holds (writtenV V f version i data) f version j data' := by
  obtain ⟨block, hv, hver, hfs, hfrag⟩ := h
  by_cases hb : f.blockOf j = f.blockOf i
  · have hprep : preparedV V f (f.blockOf i) version = block := by
      unfold preparedV
      rw [← hb, hv]
      simp only
      rw [if_pos (by simp [isWriteable, hver, hfs])]
    refine ⟨block.setFrag (i % f.perBlock) (f.written data), ?_, hver, hfs, ?_⟩
    · unfold Db.writtenV
      rw [hb, Function.update_self, hprep]
    · rw [Block.setFrag_frag, Function.update_of_ne (mod_ne_of_blockOf_eq hne hb), hfrag]
  · exact ⟨block, by rw [writtenV_of_ne hb, hv], hver, hfs, hfrag⟩

/-- Preparing a block with whatever version. -/
lemma Blank.prepare {version' : ℕ} (h : Blank V f version j) :
    Blank (Function.update V (f.blockOf i) (some (preparedV V f (f.blockOf i) version'))) f version
      j := by
  intro block hv hver
  by_cases hb : f.blockOf j = f.blockOf i
  · rw [hb, Function.update_self] at hv
    obtain rfl := Option.some.inj hv
    rcases preparedV_cases V f (f.blockOf i) version' with
      ⟨block, hblock, -, -, heq⟩ | ⟨-, first, -, heq⟩
    · rw [heq] at hver ⊢
      exact h block (by rw [hb, hblock]) hver
    · rw [heq]
      exact ⟨rfl, Block.fresh_frag (Nat.mod_lt _ f.perBlock_pos)⟩
  · rw [Function.update_of_ne hb] at hv
    exact h block hv hver

lemma Blank.writtenV {version' : ℕ} (h : Blank V f version j) (hne : j ≠ i) :
    Blank (writtenV V f version' i data) f version j := by
  intro block hv hver
  by_cases hb : f.blockOf j = f.blockOf i
  · rw [hb] at hv
    unfold Db.writtenV at hv
    rw [Function.update_self] at hv
    obtain rfl := Option.some.inj hv
    have hprep : Blank (Function.update V (f.blockOf i)
        (some (preparedV V f (f.blockOf i) version'))) f version j := h.prepare
    rw [Block.setFrag_frag, Function.update_of_ne (mod_ne_of_blockOf_eq hne hb)]
    exact hprep (preparedV V f (f.blockOf i) version') (by rw [hb, Function.update_self]) hver
  · rw [writtenV_of_ne hb] at hv
    exact h block hv hver

lemma Blank.writeable (h : Blank V f version i) (hi : i < f.count)
    (hroom : data.length ≤ maxCapacityRemaining f.toObject i) (hfits : data.length ≤ f.fragmentSize) :
    Writeable V f version i data :=
  ⟨hi, hroom, hfits, by rw [h.prepared]; rfl⟩

end Slots

/-! ### The loop of `write_file` -/

/-- The blocks after the loop. -/
def loopV (f : File dev) (version : ℕ) : ℕ → List (List UInt8) → (ℕ → Option Block) → ℕ → Option Block
  | _, [], V => V
  | i, chunk :: chunks, V => loopV f version (i + 1) chunks (writtenV V f version i chunk)

/-- The chunks fit into the file from fragment `i` on. -/
def ChunksFit (f : File dev) : ℕ → List (List UInt8) → Prop
  | _, [] => True
  | i, chunk :: chunks => i < f.count ∧ chunk.length ≤ maxCapacityRemaining f.toObject i ∧
    chunk.length ≤ f.fragmentSize ∧ ChunksFit f (i + 1) chunks

/-- Without faults, the loop writes all chunks to blank fragments. -/
theorem wp_writeFileLoop {version : ℕ} (hver : version < 2 ^ 8) (i : ℕ) (cs : List (List UInt8))
    (mem : Mem) (hfit : ChunksFit f i cs)
    (hblank : ∀ j, i ≤ j → j < f.count → Blank (dev.view mem) f version j)
    (hok : ∀ mem', dev.view mem' = loopV f version i cs (dev.view mem) → Q () mem') :
    Dev.wp (faults False False False) (writeFileLoop dev f.toObject version i cs) Q E O mem := by
  induction cs generalizing i mem with
  | nil => exact Dev.wp_pure (hok mem rfl)
  | cons chunk cs ih =>
    obtain ⟨hi, hroom, hlen, hfit⟩ := hfit
    have hi' : ¬ f.count ≤ i := by omega
    unfold writeFileLoop
    rw [if_neg hi']
    have hi₀ := hblank i le_rfl hi
    have hw := hi₀.writeable hi hroom hlen
    refine Dev.wp_bind (wp_writeFileFragment hver (fun _ _ => hi₀.prepared)
      (fun _ mem₁ hv₁ => ?_) (fun hc => absurd ⟨hi, hroom⟩ hc) (fun _ _ hc => absurd hw hc) False.elim)
    refine ih (i + 1) mem₁ hfit (fun j hj hjc => ?_) (fun mem' hv' => hok mem' ?_)
    · rw [hv₁]
      exact (hblank j (by omega) hjc).writtenV (by omega)
    · rw [hv', hv₁, loopV]

section Loop

variable {V : ℕ → Option Block} {version : ℕ}

lemma Holds.loopV {j : ℕ} {data : List UInt8} (i : ℕ) (cs : List (List UInt8))
    (h : Holds V f version j data) (hj : j < i) : Holds (loopV f version i cs V) f version j data := by
  induction cs generalizing i V with
  | nil => exact h
  | cons chunk cs ih => exact ih (i + 1) (h.writtenV (by omega)) (by omega)

/-- After the loop the fragments hold the chunks. -/
lemma holds_loopV (i : ℕ) (cs : List (List UInt8)) {k : ℕ} {data : List UInt8}
    (hk : cs[k]? = some data) : Holds (loopV f version i cs V) f version (i + k) data := by
  induction cs generalizing i k V with
  | nil => simp at hk
  | cons chunk cs ih =>
    cases k with
    | zero =>
      obtain rfl : chunk = data := by simpa using hk
      exact holds_writtenV.loopV (i + 1) cs (by omega)
    | succ k =>
      rw [List.getElem?_cons_succ] at hk
      rw [show i + (k + 1) = i + 1 + k by omega]
      exact ih (i + 1) hk

/-- After the loop the fragments behind the chunks are blank. -/
lemma blank_loopV (i : ℕ) (cs : List (List UInt8)) {j : ℕ} (h : Blank V f version j)
    (hj : i + cs.length ≤ j) : Blank (loopV f version i cs V) f version j := by
  induction cs generalizing i V with
  | nil => exact h
  | cons chunk cs ih =>
    rw [List.length_cons] at hj
    exact ih (i + 1) (h.writtenV (by omega)) (by omega)

/-- The loop only changes blocks of the fragments. -/
lemma loopV_of_ne {b : ℕ} (i : ℕ) (cs : List (List UInt8))
    (hb : ∀ j, i ≤ j → j < i + cs.length → b ≠ f.blockOf j) : loopV f version i cs V b = V b := by
  induction cs generalizing i V with
  | nil => rfl
  | cons chunk cs ih =>
    rw [List.length_cons] at hb
    rw [loopV, ih (i + 1) fun j h1 h2 => hb j (by omega) (by omega), writtenV,
      Function.update_of_ne (hb i le_rfl (by omega))]

/-- The blocks of the fragments have the version of the handle. -/
lemma version_loopV {b : ℕ} (i : ℕ) (cs : List (List UInt8))
    (hb : (∀ block, V b = some block → block.header.objectVersion = version) ∨
      ∃ j, i ≤ j ∧ j < i + cs.length ∧ b = f.blockOf j) :
    ∀ block, loopV f version i cs V b = some block → block.header.objectVersion = version := by
  induction cs generalizing i V with
  | nil =>
    rcases hb with hb | ⟨j, h1, h2, -⟩
    · exact hb
    · rw [List.length_nil] at h2
      omega
  | cons chunk cs ih =>
    refine ih (i + 1) ?_
    by_cases hbi : b = f.blockOf i
    · refine Or.inl fun block hv => ?_
      rw [hbi, writtenV, Function.update_self] at hv
      obtain rfl := Option.some.inj hv
      exact (preparedV_header V f (f.blockOf i) version).2
    · rcases hb with hb | ⟨j, h1, h2, hj⟩
      · refine Or.inl fun block hv => hb block ?_
        rwa [writtenV, Function.update_of_ne hbi] at hv
      · rw [List.length_cons] at h2
        have hne : j ≠ i := fun hc => hbi (hc ▸ hj)
        exact Or.inr ⟨j, by omega, by omega, hj⟩

end Loop

lemma ChunksFit.lt_count {i : ℕ} {cs : List (List UInt8)} (h : ChunksFit f i cs) {j : ℕ} (h1 : i ≤ j)
    (h2 : j < i + cs.length) : j < f.count := by
  induction cs generalizing i with
  | nil =>
    rw [List.length_nil] at h2
    omega
  | cons chunk cs ih =>
    rw [List.length_cons] at h2
    by_cases hji : j = i
    · exact hji ▸ h.1
    · exact ih h.2.2.2 (by omega) (by omega)

/-- Contents that fit into the file from fragment `i` on. -/
lemma chunksFit_chunks (f : File dev) (i : ℕ) (data : List UInt8)
    (h : i * f.fragmentSize + data.length ≤ f.capacity) :
    ChunksFit f i (chunks f.fragmentSize data) := by
  induction hn : data.length using Nat.strong_induction_on generalizing i data with
  | _ n ih =>
    by_cases hnil : data = []
    · rw [hnil, chunks_nil]
      trivial
    have hpos := List.length_pos_iff.mpr hnil
    have hfs := f.fragmentSize_pos
    have hcap := f.capacity_lt
    rw [chunks_cons hfs hnil]
    refine ⟨f.lt_count_of_mul_lt (by omega), ?_, List.length_take_le _ _, ?_⟩
    · rw [maxCapacityRemaining, wrappingSub_eq (by omega) hcap, List.length_take]
      omega
    · by_cases hlast : data.length ≤ f.fragmentSize
      · rw [List.drop_of_length_le hlast, chunks_nil]
        trivial
      · refine ih (data.drop f.fragmentSize).length (by rw [List.length_drop]; omega) (i + 1) _ ?_ rfl
        rw [List.length_drop, Nat.succ_mul]
        omega

/-! ### Writing the whole file -/

lemma wp_unlock {version v : ℕ} (hv : fileHandleV (dev.view mem) f = .ok v) (hok : Q () mem) :
    Dev.wp (faults False cuts False) (unlock dev f.toObject version) Q E O mem := by
  refine Dev.wp_bind (Dev.wp_attempt (wp_lockStatus False.elim ?_))
  unfold fileHandleV at hv
  split at hv
  · cases hv
  · cases hv
  next version' heq =>
    rw [heq, returns_ok]
    exact Dev.wp_pure hok

/-- The lock does not change headers. -/
lemma LockedFrom.header {V V' : ℕ → Option Block} (h : LockedFrom f V V') (b : ℕ) :
    (V' b).map Block.header = (V b).map Block.header := by
  rcases h with ⟨-, rfl⟩ | ⟨spare, fr, hv, -, rfl⟩
  · rfl
  · by_cases hb : b = f.spareBlock
    · rw [hb, Function.update_self, hv]
      rfl
    · rw [Function.update_of_ne hb]

lemma LockedFrom.of_ne {V V' : ℕ → Option Block} (h : LockedFrom f V V') {b : ℕ}
    (hb : b ≠ f.spareBlock) : V' b = V b := by
  rcases h with ⟨-, rfl⟩ | ⟨spare, fr, -, -, rfl⟩
  · rfl
  · exact Function.update_of_ne hb _ _

/-- The soft delete replaces the block that the lock changed. -/
lemma LockedFrom.deletedV {V V' : ℕ → Option Block} (h : LockedFrom f V V') :
    deletedV V' f = deletedV V f ∧ versionV V' f = versionV V f := by
  have hlast : lastV V' f = lastV V f := by
    unfold lastV
    rw [h.header, h.header]
  have hver : versionV V' f = versionV V f := by
    unfold versionV
    rw [hlast]
  refine ⟨?_, hver⟩
  have hfirst : firstV V' f = firstV V f := by
    unfold firstV
    rw [hver, hlast]
  have hspare : spareV V' f = spareV V f := by
    unfold spareV
    rw [hver]
  funext b
  unfold Db.deletedV
  rw [hfirst, hspare]
  by_cases hb : b = f.spareBlock
  · rw [hb, Function.update_self, Function.update_self]
  · rw [Function.update_of_ne hb, Function.update_of_ne hb]
    by_cases hb' : b = f.blocksStart
    · rw [hb', Function.update_self, Function.update_self]
    · rw [Function.update_of_ne hb', Function.update_of_ne hb', h.of_ne hb]

/-- No block behind the first one has the version that `delete_object` chooses. -/
def NoClash (V : ℕ → Option Block) (f : File dev) : Prop :=
  ∀ b block, f.blocksStart < b → b < f.spareBlock → V b = some block →
    block.header.objectVersion ≠ versionV V f

lemma blank_deletedV {V : ℕ → Option Block} (h : NoClash V f) {j : ℕ} (hj : j < f.count) :
    Blank (deletedV V f) f (versionV V f) j := by
  intro block hv hver
  unfold deletedV at hv
  rw [Function.update_of_ne (f.blockOf_ne_spare hj)] at hv
  by_cases hfirst : f.blockOf j = f.blocksStart
  · rw [hfirst, Function.update_self] at hv
    obtain rfl := Option.some.inj hv
    exact ⟨rfl, Block.fresh_frag (Nat.mod_lt _ f.perBlock_pos)⟩
  · rw [Function.update_of_ne hfirst] at hv
    exact absurd hver (h _ block (lt_of_le_of_ne (Nat.le_add_right _ _) (Ne.symm hfirst))
      (f.block_lt hj) hv)

/-- The blocks after a complete `write_file`. -/
def doneV (V : ℕ → Option Block) (f : File dev) (data : List UInt8) : ℕ → Option Block :=
  loopV f (versionV V f) 0 (chunks f.fragmentSize data) (deletedV V f)

lemma doneV_spare (V : ℕ → Option Block) (f : File dev) {data : List UInt8}
    (hlen : data.length ≤ f.capacity) : doneV V f data f.spareBlock = some (spareV V f) := by
  unfold doneV
  have hfit := chunksFit_chunks f 0 data (by omega)
  rw [loopV_of_ne 0 _ fun j h1 h2 => (f.blockOf_ne_spare (hfit.lt_count h1 h2)).symm]
  exact Function.update_self ..

/-- **`write_file` without faults** writes contents that fit, unless the version clashes. -/
theorem wp_writeFile {data : List UInt8} (hlen : data.length ≤ f.capacity)
    (hclash : NoClash (dev.view mem) f)
    (hok : ∀ mem', dev.view mem' = doneV (dev.view mem) f data → Q () mem') :
    Dev.wp (faults False False False) (writeFile dev f.toObject data) Q E O mem := by
  have hfit := chunksFit_chunks f 0 data (by omega)
  have hlen' : ¬ f.capacity < data.length := by omega
  unfold writeFile
  rw [if_neg hlen']
  refine Dev.wp_bind (wp_lock (fun mem₁ hv₁ => ?_) False.elim)
  obtain ⟨hdel, hver⟩ := hv₁.deletedV
  refine Dev.wp_bind (wp_delete (fun mem₂ hv₂ => ?_) False.elim)
  rw [hver]
  rw [hdel] at hv₂
  refine Dev.wp_bind (wp_writeFileLoop (versionV_lt _ f) 0 _ mem₂ hfit (fun j _ hj => ?_)
    fun mem₃ hv₃ => ?_)
  · rw [hv₂]
    exact blank_deletedV hclash hj
  · rw [hv₂] at hv₃
    have hspare := (congrFun hv₃ f.spareBlock).trans (doneV_spare _ f hlen)
    exact wp_unlock (fileHandleV_of_fresh hspare) (hok mem₃ hv₃)

end Spec

end SensorLink.Db
