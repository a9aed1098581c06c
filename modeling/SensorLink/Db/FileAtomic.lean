import SensorLink.Db.FileRead
import SensorLink.Lib.Reach

/-!
# Losing power in `write_file`

The soft delete of `write_file` formats the spare block, and with it releases the lock, before the
fragments are written. So a reader sees the new contents grow fragment by fragment, and `write_file` is
atomic for contents of at most one fragment and for no others.
-/

namespace SensorLink.Db

open SensorLink.Lib SensorLink.Flash

variable {dev : BlockDevice}

/-! ### Reachable states -/

/-- What may happen to the flash: the operations of the file, and whatever changes other blocks. -/
inductive FileOp
  | writeFile (bytes : List UInt8)
  | writeFileFragment (version fragmentIndex : ℕ) (bytes : List UInt8)
  | delete
  | other (mem : Mem)

/-- An operation with the fates of its flash operations. -/
structure FileStep where
  op : FileOp
  plan : List Fate
  readPlan : List Bool

def FileStep.exec (f : File dev) (mem : Mem) (s : FileStep) : Mem :=
  let d : Device Mem Fate := ⟨mem, s.plan, s.readPlan⟩
  match s.op with
  | .writeFile bytes => ((Db.writeFile dev f.toObject bytes).run d).dev.mem
  | .writeFileFragment version i bytes =>
    ((Db.writeFileFragment dev f.toObject version i bytes).run d).dev.mem
  | .delete => ((Db.delete dev f.toObject).run d).dev.mem
  | .other mem' => mem'

def FileStep.Allowed (f : File dev) (mem : Mem) (s : FileStep) : Prop :=
  match s.op with
  | .writeFile _ => True
  | .writeFileFragment version _ _ => version < 2 ^ 8
  | .delete => True
  | .other mem' =>
    ∀ b, f.blocksStart ≤ b → b < f.blocksEnd → BlockDevice.SameBlock dev b mem mem'

/-- The states that the flash can get into from an erased one. -/
def Reachable (f : File dev) (mem : Mem) : Prop :=
  Reach (FileStep.exec f) (FileStep.Allowed f) (fun _ => erased) mem

/-! ### Atomicity -/

/-- Wherever power is lost in `write_file`, the file that is read then cannot be read, is empty, is the
one from before the call, or is the one from after the complete call. -/
def CrashAtomic (f : File dev) (data : List UInt8) : Prop :=
  ∀ mem, Reachable f mem → ∀ mem',
    Dev.CanCut (faults False True False) (writeFile dev f.toObject data) mem mem' → ∀ len,
      (∃ e, readBack f mem' len = some (.error e)) ∨ readBack f mem' len = some (.ok []) ∨
      readBack f mem' len = readBack f mem len ∨
      readBack f mem' len = readBack f ((writeFile dev f.toObject data).eval mem).dev len

section Atomic

variable {f : File dev} {V : ℕ → Option Block} {mem : Mem} {data : List UInt8}

/-- Nothing is read of the file. -/
def NoData (f : File dev) (V : ℕ → Option Block) : Prop :=
  ∀ len, (∃ e, readFileV V f len = .error e) ∨ readFileV V f len = .ok []

/-- While the file is locked, there is no handle for it. -/
lemma noData_of_locked (h : ∀ spare, V f.spareBlock = some spare → (spare.frag 0).status ≠ .empty) :
    NoData f V := by
  intro len
  refine Or.inl ?_
  unfold readFileV fileHandleV lockStatusV
  cases hv : V f.spareBlock with
  | none => exact ⟨_, rfl⟩
  | some spare =>
    simp only [if_pos (h spare hv)]
    by_cases hid : f.id ≠ spare.header.objectId
    · rw [if_pos hid]
      exact ⟨_, rfl⟩
    · rw [if_neg hid]
      exact ⟨_, rfl⟩

/-- Without a valid first fragment, nothing is read. -/
lemma noData_of_first (h : ∀ block, V f.blocksStart = some block → (block.frag 0).status ≠ .valid) :
    NoData f V := by
  intro len
  unfold readFileV
  cases fileHandleV V f with
  | error e => exact Or.inl ⟨e, rfl⟩
  | ok version =>
    simp only
    cases chunkLengths f.fragmentSize (min len f.capacity) with
    | nil => exact Or.inr rfl
    | cons chunk chunks =>
      refine Or.inl ?_
      have hpos : ¬ f.count ≤ 0 := by have := f.count_pos; omega
      have hread : ∃ e, readFragmentV V f version 0 chunk = .error e := by
        unfold readFragmentV
        rw [if_neg hpos, Nat.zero_div, Nat.zero_mod, Nat.add_zero]
        cases hv : V f.blocksStart with
        | none => exact ⟨_, rfl⟩
        | some block =>
          simp only [if_pos (h block hv)]
          split
          · exact ⟨_, rfl⟩
          · split <;> exact ⟨_, rfl⟩
      obtain ⟨e, hread⟩ := hread
      have hchunk : ∃ e, readChunkV V f version 0 chunk [] = .error e := by
        unfold readChunkV
        rw [hread]
        cases e <;> exact ⟨_, rfl⟩
      obtain ⟨e, hchunk⟩ := hchunk
      refine ⟨e, ?_⟩
      unfold readLoopV
      rw [if_neg hpos, hchunk]

lemma LockedFrom.spare {V' : ℕ → Option Block} (h : LockedFrom f V V') {spare : Block}
    (hspare : V' f.spareBlock = some spare) : (spare.frag 0).status ≠ .empty := by
  rcases h with ⟨hv, rfl⟩ | ⟨spare', fr, hv, hst, rfl⟩
  · rw [hv] at hspare
    cases hspare
  · rw [Function.update_self] at hspare
    obtain rfl := Option.some.inj hspare
    rw [Block.setFrag_frag, Function.update_self]
    exact hst

lemma noData_deletedV (V : ℕ → Option Block) (f : File dev) : NoData f (deletedV V f) := by
  refine noData_of_first fun block hv => ?_
  unfold deletedV at hv
  rw [Function.update_of_ne f.start_lt_spare.ne, Function.update_self] at hv
  obtain rfl := Option.some.inj hv
  rw [firstV, Block.fresh_frag f.perBlock_pos]
  simp

/-- The first fragment of a file that was just deleted. -/
lemma preparedV_deletedV (V : ℕ → Option Block) (f : File dev) :
    preparedV (deletedV V f) f (f.blockOf 0) (versionV V f) = firstV V f := by
  have hv : deletedV V f (f.blockOf 0) = some (firstV V f) := by
    unfold deletedV File.blockOf
    rw [Nat.zero_div, Nat.add_zero, Function.update_of_ne f.start_lt_spare.ne, Function.update_self]
  unfold preparedV
  rw [hv]
  simp only
  rw [if_pos (by simp [isWriteable, firstV, Layout.header])]

/-- Contents of at most one fragment: the lock, the delete and the one fragment. -/
theorem wp_writeFile_single {cuts : Prop} (hcap : data.length ≤ f.capacity)
    (hlen : data.length ≤ f.fragmentSize) :
    Dev.wp (faults False cuts False) (writeFile dev f.toObject data)
      (fun _ mem' => dev.view mem' = doneV (dev.view mem) f data) (fun _ _ => False)
      (fun mem' => cuts ∧ (dev.view mem' = dev.view mem ∨ NoData f (dev.view mem') ∨
        dev.view mem' = doneV (dev.view mem) f data)) mem := by
  have hcap' : ¬ f.capacity < data.length := by omega
  unfold writeFile
  rw [if_neg hcap']
  refine Dev.wp_bind (wp_lock (fun mem₁ hv₁ => ?_) fun hcut mem' hv' => ⟨hcut, ?_⟩)
  swap
  · rcases hv' with hv' | hv'
    · exact Or.inl hv'
    · exact Or.inr (Or.inl (noData_of_locked fun _ => hv'.spare))
  obtain ⟨hdel, hver⟩ := hv₁.deletedV
  refine Dev.wp_bind (wp_delete (fun mem₂ hv₂ => ?_) fun hcut mem' hv' => ⟨hcut, Or.inr (Or.inl ?_)⟩)
  swap
  · -- the lock is still there until the spare block is formatted
    rcases hv' with ⟨first, hv'⟩ | hv' | hv'
    · refine noData_of_locked fun spare hspare => ?_
      rw [hv', Function.update_of_ne f.start_lt_spare.ne'] at hspare
      exact hv₁.spare hspare
    · refine noData_of_locked fun spare hspare => ?_
      rw [hv'] at hspare
      cases hspare
    · rw [hv']
      exact noData_deletedV _ f
  rw [hver]
  rw [hdel] at hv₂
  have hunlock : ∀ mem₃, dev.view mem₃ = doneV (dev.view mem) f data →
      Dev.wp (faults False cuts False) (unlock dev f.toObject (versionV (dev.view mem) f))
      (fun _ mem' => dev.view mem' = doneV (dev.view mem) f data) (fun _ _ => False)
      (fun mem' => cuts ∧ (dev.view mem' = dev.view mem ∨ NoData f (dev.view mem') ∨
        dev.view mem' = doneV (dev.view mem) f data)) mem₃ := by
    intro mem₃ hv₃
    have hspare := (congrFun hv₃ f.spareBlock).trans (doneV_spare _ f hcap)
    exact wp_unlock (fileHandleV_of_fresh hspare) hv₃
  by_cases hne : data = []
  · subst hne
    exact Dev.wp_bind (Dev.wp_pure (hunlock mem₂ hv₂))
  have hchunks := chunks_single f.fragmentSize_pos hlen hne
  have hdone : doneV (dev.view mem) f data =
      writtenV (deletedV (dev.view mem) f) f (versionV (dev.view mem) f) 0 data := by
    rw [doneV, hchunks]
    rfl
  have hprep := preparedV_deletedV (dev.view mem) f
  have hfresh : (firstV (dev.view mem) f).frag (0 % f.perBlock) = Frag.fresh f.fragmentSize := by
    rw [Nat.zero_mod]
    exact Block.fresh_frag f.perBlock_pos
  have hcount : ¬ f.count ≤ 0 := by have := f.count_pos; omega
  have hroom : data.length ≤ maxCapacityRemaining f.toObject 0 := by
    rw [maxCapacityRemaining, Nat.zero_mul, wrappingSub_eq (Nat.zero_le _) f.capacity_lt]
    exact hcap
  rw [hchunks]
  unfold writeFileLoop
  rw [if_neg hcount]
  refine Dev.wp_bind (Dev.wp_bind (wp_writeFileFragment (versionV_lt _ f) ?_ ?_
    (fun hc => absurd ⟨f.count_pos, hroom⟩ hc) ?_ ?_))
  · rw [hv₂, hprep]
    exact fun _ _ => hfresh
  · intro _ mem₃ hv₃
    refine Dev.wp_pure (hunlock mem₃ ?_)
    rw [hv₃, hv₂, hdone]
  · intro _ _ hbad
    refine absurd ⟨f.count_pos, hroom, hlen, ?_⟩ hbad
    rw [hv₂, hprep, hfresh]
    rfl
  · intro hcut mem' hv'
    refine ⟨hcut, Or.inr ?_⟩
    rw [hv₂, hprep] at hv'
    rcases hv' with hv' | ⟨v, hv', hblock⟩ | hv'
    · rw [hv']
      exact Or.inl (noData_deletedV _ f)
    · refine Or.inl (noData_of_first fun block hv => ?_)
      have hfirst : f.blockOf 0 = f.blocksStart := by rw [File.blockOf, Nat.zero_div, Nat.add_zero]
      rw [hv', hfirst, Function.update_self] at hv
      rw [Nat.zero_mod] at hblock hfresh
      rcases hblock block hv with rfl | ⟨d, rfl⟩
      · rw [hfresh]
        simp
      · rw [Block.setFrag_frag, Function.update_self]
        simp
    · exact Or.inr (hv'.trans hdone.symm)

/-- Contents of at most one fragment are written atomically, from whatever state. -/
theorem crashAtomic_of_le (hcap : data.length ≤ f.capacity) (hlen : data.length ≤ f.fragmentSize) :
    CrashAtomic f data := by
  intro mem _ mem' hcut len
  obtain ⟨-, hcut⟩ := Dev.CanCut.of_wp (wp_writeFile_single hcap hlen) hcut
  have heval := Dev.wp_eval (wp_writeFile_single hcap hlen :
    Dev.wp (faults False False False) (writeFile dev f.toObject data) _ _ _ mem)
  simp only [readBack_eq]
  rcases hcut with hv' | hv' | hv'
  · rw [hv']
    exact Or.inr (Or.inr (Or.inl rfl))
  · rcases hv' len with ⟨e, he⟩ | hnil
    · exact Or.inl ⟨e, by rw [he]⟩
    · exact Or.inr (Or.inl (by rw [hnil]))
  · refine Or.inr (Or.inr (Or.inr ?_))
    rw [hv']
    revert heval
    cases (writeFile dev f.toObject data).eval mem with
    | ok a m => exact fun heval => by rw [Outcome.dev, heval]
    | err e m => exact False.elim
    | off m => exact fun h => h.1.elim

/-! ### Contents of several fragments -/

/-- Power may go before a fragment is written. -/
lemma canCut_writeFileFragment {version i : ℕ}
    (hw : Writeable (dev.view mem) f version i data) :
    Dev.CanCut (faults False True False) (writeFileFragment dev f.toObject version i data) mem mem := by
  have hi : ¬ f.fragmentCount dev.blockSize ≤ i := Nat.not_le.mpr hw.index
  have hroom : ¬ maxCapacityRemaining f.toObject i < data.length := by have := hw.room; omega
  have hb := f.blockOf_lt_total hw.index
  have hempty := hw.empty
  have hheader : Dev.wp (faults False False False) (Dev.mapErr Error.ofFlash
      (dev.blockHeader (f.blockOf i))) (fun h mem' => h =
        (dev.view mem (f.blockOf i)).map Block.header ∧ mem' = mem) (fun _ _ => False)
      (fun _ => False) mem :=
    Dev.wp_mapErr (BlockDevice.wp_blockHeader hb False.elim ⟨rfl, rfl⟩)
  obtain ⟨h, mem', heval, rfl, rfl⟩ := Dev.exists_eval hheader
  have hformat : ∀ eraseCount, Dev.CanCut (faults False True False)
      (formatWriteableBlock dev f.toObject (f.blockOf i) version eraseCount) mem' mem' :=
    fun eraseCount => Dev.CanCut.bind_left (Dev.CanCut.mapErr (BlockDevice.canCut_formatBlock hb))
  unfold writeFileFragment blockNoOf
  rw [if_neg hi, if_neg hroom]
  cases hv : dev.view mem' (f.blockOf i) with
  | none =>
    refine Dev.CanCut.bind_left (Dev.CanCut.bind_right trivial heval ?_)
    rw [hv]
    exact hformat 0
  | some block =>
    by_cases hwr : isWriteable f.toObject version block.header
    · have hprep : preparedV (dev.view mem') f (f.blockOf i) version = block := by
        unfold preparedV
        rw [hv]
        exact if_pos hwr
      have hspec := BlockDevice.view_spec hv
      obtain ⟨hfs, -⟩ := preparedV_header (dev.view mem') f (f.blockOf i) version
      rw [hprep] at hfs hempty
      have hprepare : Dev.wp (faults False False False)
          (prepareWriteableBlock dev f.toObject (f.blockOf i) version)
          (fun h m => h = block.header ∧ m = mem') (fun _ _ => False) (fun _ => False) mem' := by
        refine Dev.wp_bind (Dev.wp_mapErr (BlockDevice.wp_blockHeader hb False.elim ?_))
        rw [hv]
        simp only [Option.map_some]
        rw [if_pos hwr]
        exact Dev.wp_pure ⟨rfl, rfl⟩
      obtain ⟨h, mem₁, hprepared, rfl, rfl⟩ := Dev.exists_eval hprepare
      have hrel : block.header.relFragNo (wrappingAdd block.header.firstFragNo (i % f.perBlock)) =
          i % f.perBlock := wrappingSub_wrappingAdd hspec.first (f.mod_lt i)
      refine Dev.CanCut.bind_right trivial hprepared (Dev.CanCut.mapErr ?_)
      refine BlockDevice.canCut_writeFragment hb hv ?_ (by rw [hfs]; exact hw.fits) ?_
      · rw [hrel, hspec.count, hfs]
        exact Nat.mod_lt _ f.perBlock_pos
      · rw [hrel]
        exact hempty
    · refine Dev.CanCut.bind_left (Dev.CanCut.bind_right trivial heval ?_)
      rw [hv]
      simp only [Option.map_some]
      rw [if_neg hwr]
      exact hformat _

/-- **The cut behind the first fragment.** From an erased flash, power is lost before the second
fragment is written. -/
theorem exists_cut (hcap : data.length ≤ f.capacity) (hlen : f.fragmentSize < data.length) :
    ∃ mem', Dev.CanCut (faults False True False) (writeFile dev f.toObject data)
      (fun _ => erased) mem' ∧
      dev.view mem' = writtenV (deletedV (fun _ => none) f) f (versionV (fun _ => none) f) 0
        (data.take f.fragmentSize) := by
  have hverased := BlockDevice.view_erased dev
  have hfs := f.fragmentSize_pos
  have hclash : NoClash (fun _ => none) f := fun b block _ _ hv => by cases hv
  -- the lock, the delete and the first fragment, without faults
  have hlock : Dev.wp (faults False False False) (lock dev f.toObject)
      (fun _ mem' => LockedFrom f (fun _ => none) (dev.view mem')) (fun _ _ => False)
      (fun _ => False) (fun _ => erased) :=
    wp_lock (fun mem' hv' => by rwa [hverased] at hv') False.elim
  obtain ⟨_, mem₁, heval₁, hv₁⟩ := Dev.exists_eval hlock
  obtain ⟨hdel, hver⟩ := hv₁.deletedV
  have hdelete : Dev.wp (faults False False False) (delete dev f.toObject)
      (fun version mem' => version = versionV (fun _ => none) f ∧
        dev.view mem' = deletedV (fun _ => none) f) (fun _ _ => False) (fun _ => False) mem₁ :=
    wp_delete (fun mem' hv' => ⟨hver, hv'.trans hdel⟩) False.elim
  obtain ⟨version, mem₂, heval₂, hversion, hv₂⟩ := Dev.exists_eval hdelete
  rw [hversion] at heval₂
  have hfit := chunksFit_chunks f 0 data (by omega)
  have hne : data ≠ [] := by
    rintro rfl
    simp at hlen
  have hne' : data.drop f.fragmentSize ≠ [] := by
    rw [ne_eq, List.drop_eq_nil_iff]
    omega
  have hblank : ∀ j < f.count, Blank (dev.view mem₂) f (versionV (fun _ => none) f) j := by
    intro j hj
    rw [hv₂]
    exact blank_deletedV hclash hj
  rw [chunks_cons hfs hne, chunks_cons hfs hne'] at hfit
  obtain ⟨hi₀, hroom₀, hlen₀, hi₁, hroom₁, hlen₁, -⟩ := hfit
  have hwrite : Dev.wp (faults False False False) (writeFileFragment dev f.toObject
      (versionV (fun _ => none) f) 0 (data.take f.fragmentSize)) (fun _ mem' => dev.view mem' =
        writtenV (deletedV (fun _ => none) f) f (versionV (fun _ => none) f) 0
          (data.take f.fragmentSize)) (fun _ _ => False) (fun _ => False) mem₂ := by
    refine wp_writeFileFragment (versionV_lt _ f) (fun _ _ => (hblank 0 hi₀).prepared)
      (fun _ mem' hv' => ?_) (fun hc => absurd ⟨hi₀, hroom₀⟩ hc)
      (fun _ _ hc => absurd ((hblank 0 hi₀).writeable hi₀ hroom₀ hlen₀) hc) False.elim
    rw [hv', hv₂]
  obtain ⟨_, mem₃, heval₃, hv₃⟩ := Dev.exists_eval hwrite
  refine ⟨mem₃, ?_, hv₃⟩
  -- power goes before the second fragment
  have hblank₁ : Blank (dev.view mem₃) f (versionV (fun _ => none) f) 1 := by
    rw [hv₃, ← hv₂]
    exact (hblank 1 hi₁).writtenV (by decide)
  unfold writeFile
  rw [if_neg (Nat.not_lt.mpr hcap), chunks_cons hfs hne, chunks_cons hfs hne']
  refine Dev.CanCut.bind_right trivial heval₁ (Dev.CanCut.bind_right trivial heval₂
    (Dev.CanCut.bind_left ?_))
  unfold writeFileLoop
  rw [if_neg (Nat.not_le.mpr hi₀)]
  refine Dev.CanCut.bind_right trivial heval₃ ?_
  unfold writeFileLoop
  rw [if_neg (Nat.not_le.mpr hi₁)]
  exact Dev.CanCut.bind_left (canCut_writeFileFragment (hblank₁.writeable hi₁ hroom₁ hlen₁))

/-- What is read behind the cut: the first fragment, since it is left as if it were the file. -/
lemma readBack_cut (hcap : data.length ≤ f.capacity) (hlen : f.fragmentSize < data.length)
    (hv : dev.view mem = writtenV (deletedV (fun _ => none) f) f (versionV (fun _ => none) f) 0
      (data.take f.fragmentSize)) :
    readBack f mem data.length = some (.ok (data.take f.fragmentSize)) := by
  have hclash : NoClash (fun _ => none) f := fun b block _ _ hv => by cases hv
  have hfull : (data.take f.fragmentSize).length = f.fragmentSize := by
    rw [List.length_take]
    omega
  have hne : data.take f.fragmentSize ≠ [] := by
    rw [← List.length_pos_iff, hfull]
    exact f.fragmentSize_pos
  have hdone : dev.view mem = doneV (fun _ => none) f (data.take f.fragmentSize) := by
    rw [hv, doneV, chunks_single f.fragmentSize_pos hfull.le hne]
    rfl
  have hread := readFileV_doneV hclash (by omega) hdone data.length
  rw [readsBack, if_neg fun hc => hne hc.1, f.padded_full hfull,
    List.take_of_length_le (by omega)] at hread
  rw [readBack_eq, hread]

/-- What is read after the complete call is longer. -/
lemma readBack_done (hcap : data.length ≤ f.capacity) (hlen : f.fragmentSize < data.length)
    (hv : dev.view mem = doneV (fun _ => none) f data) :
    readBack f mem data.length ≠ some (.ok (data.take f.fragmentSize)) := by
  have hclash : NoClash (fun _ => none) f := fun b block _ _ hv => by cases hv
  have hne : data ≠ [] := by
    rintro rfl
    simp at hlen
  have hread := readFileV_doneV hclash hcap hv data.length
  rw [readsBack, if_neg fun hc => hne hc.1, Nat.min_eq_left hcap, f.take_padded] at hread
  rw [readBack_eq, hread]
  intro hc
  have hlength := congrArg List.length (Except.ok.inj (Option.some.inj hc))
  rw [List.length_take] at hlength
  omega

theorem not_crashAtomic_of_lt (hcap : data.length ≤ f.capacity) (hlen : f.fragmentSize < data.length) :
    ¬ CrashAtomic f data := by
  intro h
  obtain ⟨mem', hcut, hv⟩ := exists_cut hcap hlen
  have hverased := BlockDevice.view_erased dev
  have hclash : NoClash (dev.view fun _ => erased) f := by
    rw [hverased]
    exact fun b block _ _ hv => by cases hv
  have hwrite : Dev.wp (faults False False False) (writeFile dev f.toObject data)
      (fun _ mem' => dev.view mem' = doneV (fun _ => none) f data) (fun _ _ => False)
      (fun _ => False) (fun _ => erased) :=
    wp_writeFile hcap hclash fun mem' hv' => by rwa [hverased] at hv'
  obtain ⟨_, done, heval, hdone⟩ := Dev.exists_eval hwrite
  have hread := readBack_cut hcap hlen hv
  have hne : data.take f.fragmentSize ≠ [] := by
    rw [ne_eq, List.take_eq_nil_iff]
    rintro (h0 | rfl)
    · exact f.fragmentSize_pos.ne' h0
    · simp at hlen
  rcases h _ .start mem' hcut data.length with ⟨e, he⟩ | hnil | hbefore | hafter
  · rw [hread] at he
    cases he
  · rw [hread] at hnil
    exact hne (Except.ok.inj (Option.some.inj hnil))
  · rw [hread, readBack_eq, hverased] at hbefore
    cases hbefore
  · rw [hread, heval] at hafter
    exact readBack_done hcap hlen hdone hafter.symm

/-- **`write_file` is atomic exactly for contents of at most one fragment.** -/
theorem crashAtomic_iff (f : File dev) (data : List UInt8) (hcap : data.length ≤ f.capacity) :
    CrashAtomic f data ↔ data.length ≤ f.fragmentSize := by
  constructor
  · intro h
    by_contra hlen
    exact not_crashAtomic_of_lt hcap (by omega) h
  · exact crashAtomic_of_le hcap

end Atomic

/-! ### Two fragments -/

def sampleDevice : BlockDevice := smallDevice

/-- A file of two data blocks with three fragments of two bytes each. -/
def sampleFile : File sampleDevice where
  id := 1
  fragmentSize := 2
  blocksStart := 0
  blocksEnd := 3
  capacity := 12
  id_lt := by decide
  fragmentSize_pos := by decide
  fragmentSize_lt := by decide
  two_blocks := by decide
  blocks_le := by decide
  fits := by decide
  capacity_le := by decide

theorem crashAtomic_iff_sample : [7, 8].length ≤ sampleFile.capacity ∧
    (CrashAtomic sampleFile [7, 8] ↔ [7, 8].length ≤ sampleFile.fragmentSize) :=
  ⟨by decide, crashAtomic_iff sampleFile [7, 8] (by decide)⟩

/-- Three bytes are written to an erased flash, and power is lost when the first fragment has been
marked as valid: two bytes are read back, where nothing was read before and three after the complete
call. -/
theorem two_of_three_bytes : ¬ CrashAtomic sampleFile [1, 2, 3] := by
  intro h
  have hplan : ∀ x ∈ List.replicate 10 Fate.ok ++ [Fate.offAfter], (faults False True False).fate x := by
    intro x hx
    rcases List.mem_append.mp hx with hx | hx
    · rw [List.eq_of_mem_replicate hx]
      trivial
    · rw [List.mem_singleton.mp hx]
      trivial
  have hoff := Outcome.eq_off (o := (writeFile sampleDevice sampleFile.toObject [1, 2, 3]).run
    ⟨fun _ => erased, List.replicate 10 Fate.ok ++ [Fate.offAfter], []⟩) (by decide +kernel)
  rcases h _ .start _ ⟨_, hplan, _, hoff, rfl⟩ 3 with ⟨e, he⟩ | hnil | hbefore | hafter
  · revert he
    cases e <;> decide +kernel
  · revert hnil
    decide +kernel
  · revert hbefore
    decide +kernel
  · revert hafter
    decide +kernel

end SensorLink.Db
