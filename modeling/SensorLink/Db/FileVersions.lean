import SensorLink.Db.FileAtomic

/-!
# Versions of a file

The soft delete leaves the data blocks behind the first one alone: what they hold is out of reach
because they have an older version. `delete_object` compares the version that it finds with the unused
second entry of its array, which stays `0xFF`, so the versions run from 0 to 127 and start over: a block
that was last formatted 128 deletes ago has the version of the new handle, and its fragments come back.
-/

namespace SensorLink.Db

open SensorLink.Lib SensorLink.Flash

/-! ### The versions that are chosen -/

/-- The version after `k % 128` is `(k + 1) % 128`. -/
lemma nextVersion_mod (k : ℕ) : nextVersion (k % 128) 0xFF = (k + 1) % 128 := by
  have hlt : k % 128 < 128 := Nat.mod_lt _ (by decide)
  have hmax : max (k % 128) 0xFF = 0xFF := by omega
  have hmin : min (k % 128) 0xFF = k % 128 := by omega
  unfold nextVersion
  dsimp only
  rw [hmax, hmin]
  by_cases h : 128 < 0xFF - k % 128
  · rw [if_pos h]
    omega
  · rw [if_neg h]
    omega

section World

variable {dev : BlockDevice}

/-- A file on a working device, with the versions of the handles in the order in which they were given
out. Beside it, for each block the number of the handle that formatted it last, and the fragments that
were written since the last delete. -/
structure FileWorld where
  mem : Mem
  handles : List ℕ
  formatter : ℕ → Option ℕ
  written : List ℕ

namespace FileWorld

/-- An erased flash. -/
def start : FileWorld := ⟨fun _ => erased, [], fun _ => none, []⟩

end FileWorld

/-- The calls. A fragment is written with one of the handles, which may be an old one. -/
inductive FileCall
  | delete
  | writeFile (bytes : List UInt8)
  | writeFileFragment (handle fragmentIndex : ℕ) (bytes : List UInt8)

/-- Whether `write_file_fragment` formats the block of the fragment. -/
def formats (f : File dev) (mem : Mem) (version i : ℕ) (bytes : List UInt8) : Bool :=
  i < f.count ∧ bytes.length ≤ maxCapacityRemaining f.toObject i ∧
    (dev.view mem (f.blockOf i)).any (isWriteable f.toObject version ·.header) = false

/-- The blocks that `write_file` formats: the first one and those of the chunks. -/
def writeFormats (f : File dev) (bytes : List UInt8) (b : ℕ) : Prop :=
  b = f.blocksStart ∨ ∃ j < (chunks f.fragmentSize bytes).length, b = f.blockOf j

instance (f : File dev) (bytes : List UInt8) : DecidablePred (writeFormats f bytes) :=
  fun _ => inferInstanceAs (Decidable (_ ∨ _))

namespace FileWorld

variable (f : File dev)

def exec (s : FileWorld) : FileCall → FileWorld
  | .delete =>
    match (Db.delete dev f.toObject).eval s.mem with
    | .ok version mem =>
      ⟨mem, s.handles ++ [version], Function.update s.formatter f.blocksStart (some s.handles.length),
        []⟩
    | o => { s with mem := o.dev }
  | .writeFile bytes =>
    match (Db.writeFile dev f.toObject bytes).eval s.mem with
    | .ok _ mem =>
      ⟨mem, s.handles ++ (match (fileHandle dev f.toObject).eval mem with
          | .ok version _ => [version]
          | _ => []),
        fun b => if writeFormats f bytes b then some s.handles.length else s.formatter b,
        List.range (chunks f.fragmentSize bytes).length⟩
    | o => { s with mem := o.dev }
  | .writeFileFragment handle i bytes =>
    match s.handles[handle]? with
    | none => s
    | some version =>
      let formatter := if formats f s.mem version i bytes then
        Function.update s.formatter (f.blockOf i) (some handle) else s.formatter
      match (Db.writeFileFragment dev f.toObject version i bytes).eval s.mem with
      | .ok _ mem => ⟨mem, s.handles, formatter, i :: s.written⟩
      | o => { s with mem := o.dev, formatter := formatter }

/-- The calls that can be made: contents that fit, and a handle that was given out. -/
def Issued (s : FileWorld) : FileCall → Prop
  | .delete => True
  | .writeFile bytes => bytes.length ≤ f.capacity
  | .writeFileFragment handle _ _ => handle < s.handles.length

/-- Behind the first block, no block was last formatted with a handle that is a multiple of 128 deletes
older than the next one. -/
def Apart (s : FileWorld) : Prop :=
  ∀ b n, f.blocksStart < b → b < f.spareBlock → s.formatter b = some n →
    (s.handles.length - n) % 128 ≠ 0

/-- The calls that can be made, where a delete, also the one in `write_file`, finds the blocks apart. -/
def Guard (s : FileWorld) : FileCall → Prop
  | .delete => Apart f s
  | .writeFile bytes => bytes.length ≤ f.capacity ∧ Apart f s
  | .writeFileFragment handle _ _ => handle < s.handles.length

end FileWorld

/-- Reading a fragment with a new handle. -/
def readNew (f : File dev) (i len : ℕ) : Io Error (List UInt8) := do
  let version ← fileHandle dev f.toObject
  readFileFragment dev f.toObject version i len

/-- What was not written since the last delete cannot be read, contents that fit can be written, and
the version of a delete is not that of a block it leaves alone; both for calls that meet `G`. -/
structure NoResurrection (G : FileWorld → FileCall → Prop) (f : File dev) (s : FileWorld) : Prop where
  unreadable : ∀ i < f.count, i ∉ s.written → ∀ len, ∃ e mem, (readNew f i len).eval s.mem = .err e mem
  writes : ∀ bytes, G s (.writeFile bytes) → ∃ mem, (writeFile dev f.toObject bytes).eval s.mem =
    .ok () mem
  version : G s .delete → ∃ version mem, (delete dev f.toObject).eval s.mem = .ok version mem ∧
    ∀ b block, f.blocksStart < b → b < f.spareBlock → dev.view s.mem b = some block →
      block.header.objectVersion ≠ version

/-! ### The handles and the spare block -/

/-- The handles have the versions 0 to 127 over and over, and the spare block has that of the last. -/
structure SpareInv (f : File dev) (s : FileWorld) : Prop where
  handles : ∀ k version, s.handles[k]? = some version → version = k % 128
  erased : s.handles = [] → ∀ b, f.blocksStart ≤ b → b ≤ f.spareBlock → dev.view s.mem b = none
  spare : s.handles ≠ [] → ∃ first, dev.view s.mem f.spareBlock =
    some (Block.fresh (f.header f.spareBlock ((s.handles.length - 1) % 128) first))

section Steps

variable {f : File dev} {s : FileWorld}

lemma versionV_eq (h : SpareInv f s) : versionV (dev.view s.mem) f = s.handles.length % 128 := by
  unfold versionV lastV lastVersion
  by_cases hnil : s.handles = []
  · have hnone := h.erased hnil
    rw [hnone _ le_rfl f.start_lt_spare.le, hnone _ f.start_lt_spare.le le_rfl, hnil]
    simp only [List.foldl_cons, List.foldl_nil, Option.map_none, List.length_nil]
    decide
  · obtain ⟨first, hspare⟩ := h.spare hnil
    have hpos := List.length_pos_iff.mpr hnil
    rw [hspare]
    simp only [List.foldl_cons, List.foldl_nil, Option.map_some, Block.fresh_header, Layout.header]
    rw [nextVersion_mod, Nat.sub_add_cancel hpos]

lemma exists_delete (h : SpareInv f s) : ∃ mem,
    (delete dev f.toObject).eval s.mem = .ok (s.handles.length % 128) mem ∧
      dev.view mem = deletedV (dev.view s.mem) f := by
  have hdelete : Dev.wp (faults False False False) (delete dev f.toObject)
      (fun version mem => version = s.handles.length % 128 ∧
        dev.view mem = deletedV (dev.view s.mem) f) (fun _ _ => False) (fun _ => False) s.mem :=
    wp_delete (fun mem hv => ⟨versionV_eq h, hv⟩) False.elim
  obtain ⟨version, mem, heval, hversion, hv⟩ := Dev.exists_eval hdelete
  exact ⟨mem, by rw [heval, hversion], hv⟩

lemma exec_delete (h : SpareInv f s) : ∃ mem, s.exec f .delete =
    ⟨mem, s.handles ++ [s.handles.length % 128],
      Function.update s.formatter f.blocksStart (some s.handles.length), []⟩ ∧
    dev.view mem = deletedV (dev.view s.mem) f := by
  obtain ⟨mem, heval, hv⟩ := exists_delete h
  refine ⟨mem, ?_, hv⟩
  unfold FileWorld.exec
  rw [heval]

/-- One more handle, and a spare block with its version. -/
lemma SpareInv.append (h : SpareInv f s) {mem : Mem} {formatter : ℕ → Option ℕ} {written : List ℕ}
    (hv : dev.view mem f.spareBlock = some (spareV (dev.view s.mem) f)) :
    SpareInv f ⟨mem, s.handles ++ [s.handles.length % 128], formatter, written⟩ := by
  have hspare : spareV (dev.view s.mem) f = Block.fresh (f.header f.spareBlock
      (((s.handles ++ [s.handles.length % 128]).length - 1) % 128)
      (nextFirstFragNo dev f.toObject f.spareBlock 0)) := by
    rw [spareV, versionV_eq h, List.length_append, List.length_singleton, Nat.add_sub_cancel]
  refine ⟨fun k version hk => ?_, fun hnil => ?_, fun _ => ⟨_, hv.trans (congrArg some hspare)⟩⟩
  · rcases Nat.lt_or_ge k s.handles.length with hlt | hge
    · rw [List.getElem?_append_left hlt] at hk
      exact h.handles k version hk
    · rw [List.getElem?_append_right hge] at hk
      obtain ⟨hk0, rfl⟩ : k - s.handles.length = 0 ∧ s.handles.length % 128 = version := by
        rcases hd : k - s.handles.length with _ | d
        · rw [hd] at hk
          exact ⟨rfl, by simpa using hk⟩
        · rw [hd] at hk
          simp at hk
      rw [show k = s.handles.length by omega]
  · simp at hnil

/-! ### The data blocks -/

/-- A block with the format of the file whose empty fragments are unused. -/
structure Tidy (f : File dev) (block : Block) : Prop where
  fragSize : block.header.fragSize = f.fragmentSize
  clean : ∀ i < f.perBlock, (block.frag i).status = .empty → block.frag i = Frag.fresh f.fragmentSize

/-- All data blocks are tidy. -/
def AllTidy (f : File dev) (V : ℕ → Option Block) : Prop :=
  ∀ b block, f.blocksStart ≤ b → b < f.spareBlock → V b = some block → Tidy f block

/-- The versions of the data blocks are those of the handles that formatted them. -/
def Formatted (f : File dev) (V : ℕ → Option Block) (formatter : ℕ → Option ℕ) : Prop :=
  ∀ b block, f.blocksStart ≤ b → b < f.spareBlock → V b = some block →
    ∃ n, formatter b = some n ∧ block.header.objectVersion = n % 128

structure FileInv (f : File dev) (s : FileWorld) : Prop extends SpareInv f s where
  tidy : AllTidy f (dev.view s.mem)
  formatted : Formatted f (dev.view s.mem) s.formatter
  blank : ∀ i < f.count, i ∉ s.written →
    Blank (dev.view s.mem) f ((s.handles.length - 1) % 128) i

lemma tidy_fresh (f : File dev) (b version first : ℕ) :
    Tidy f (Block.fresh (f.header b version first)) :=
  ⟨rfl, fun _ hi _ => Block.fresh_frag hi⟩

lemma noClash_of_apart (h : FileInv f s) (ha : s.Apart f) : NoClash (dev.view s.mem) f := by
  intro b block h1 h2 hv hver
  obtain ⟨n, hn, hmod⟩ := h.formatted b block h1.le h2 hv
  have hne := ha b n h1 h2 hn
  rw [versionV_eq h.toSpareInv] at hver
  omega

section Views

variable {V : ℕ → Option Block} {formatter : ℕ → Option ℕ}

lemma AllTidy.update (h : AllTidy f V) {b : ℕ} {block : Block} (hb : Tidy f block) :
    AllTidy f (Function.update V b (some block)) := by
  intro b' block' h1 h2 hv
  by_cases heq : b' = b
  · rw [heq, Function.update_self] at hv
    obtain rfl := Option.some.inj hv
    exact hb
  · rw [Function.update_of_ne heq] at hv
    exact h b' block' h1 h2 hv

lemma AllTidy.deletedV (h : AllTidy f V) : AllTidy f (deletedV V f) :=
  (h.update (tidy_fresh f _ _ _)).update (tidy_fresh f _ _ _)

lemma AllTidy.preparedV (h : AllTidy f V) {i version : ℕ} (hi : i < f.count) :
    Tidy f (preparedV V f (f.blockOf i) version) := by
  rcases preparedV_cases V f (f.blockOf i) version with
    ⟨block, hv, -, -, heq⟩ | ⟨-, first, -, heq⟩
  · rw [heq]
    exact h _ block (Nat.le_add_right _ _) (f.block_lt hi) hv
  · rw [heq]
    exact tidy_fresh f _ _ _

lemma AllTidy.writtenV (h : AllTidy f V) {i version : ℕ} {data : List UInt8} (hi : i < f.count) :
    AllTidy f (writtenV V f version i data) := by
  obtain ⟨hfs, hclean⟩ := (h.preparedV hi : Tidy f (Db.preparedV V f (f.blockOf i) version))
  refine h.update ⟨hfs, fun j hj hst => ?_⟩
  by_cases heq : j = i % f.perBlock
  · rw [Block.setFrag_frag, heq, Function.update_self] at hst
    cases hst
  · rw [Block.setFrag_frag, Function.update_of_ne heq] at hst ⊢
    exact hclean j hj hst

lemma AllTidy.loopV (h : AllTidy f V) (version i : ℕ) (cs : List (List UInt8))
    (hfit : ChunksFit f i cs) : AllTidy f (loopV f version i cs V) := by
  induction cs generalizing i V with
  | nil => exact h
  | cons chunk cs ih => exact ih (h.writtenV hfit.1) (i + 1) hfit.2.2.2

lemma Formatted.update (h : Formatted f V formatter) {b n : ℕ} {block : Block}
    (hb : block.header.objectVersion = n % 128) :
    Formatted f (Function.update V b (some block)) (Function.update formatter b (some n)) := by
  intro b' block' h1 h2 hv
  by_cases heq : b' = b
  · rw [heq, Function.update_self] at hv
    obtain rfl := Option.some.inj hv
    exact ⟨n, by rw [heq, Function.update_self], hb⟩
  · rw [Function.update_of_ne heq] at hv ⊢
    exact h b' block' h1 h2 hv

/-- The spare block is not a data block. -/
lemma Formatted.update_spare (h : Formatted f V formatter) (v : Option Block) :
    Formatted f (Function.update V f.spareBlock v) formatter := by
  intro b block h1 h2 hv
  rw [Function.update_of_ne h2.ne] at hv
  exact h b block h1 h2 hv

lemma Formatted.setFrag {b i : ℕ} {block : Block} {fr : Frag}
    (h : Formatted f (Function.update V b (some block)) formatter) :
    Formatted f (Function.update V b (some (block.setFrag i fr))) formatter := by
  intro b' block' h1 h2 hv
  by_cases heq : b' = b
  · rw [heq, Function.update_self] at hv
    obtain rfl := Option.some.inj hv
    exact h b' block h1 h2 (by rw [heq, Function.update_self])
  · rw [Function.update_of_ne heq] at hv
    exact h b' block' h1 h2 (by rw [Function.update_of_ne heq, hv])

end Views

/-- The block of a fragment after it was prepared with a handle. -/
lemma Formatted.prepare {mem : Mem} {formatter : ℕ → Option ℕ} {handle i : ℕ} {data : List UInt8}
    (h : Formatted f (dev.view mem) formatter) (hi : i < f.count)
    (hroom : data.length ≤ maxCapacityRemaining f.toObject i) :
    Formatted f (Function.update (dev.view mem) (f.blockOf i)
        (some (preparedV (dev.view mem) f (f.blockOf i) (handle % 128))))
      (if formats f mem (handle % 128) i data then
        Function.update formatter (f.blockOf i) (some handle) else formatter) := by
  rcases preparedV_cases (dev.view mem) f (f.blockOf i) (handle % 128) with
    ⟨block, hv, hfs, hver, heq⟩ | ⟨hnot, first, -, heq⟩
  · have hformats : ¬ formats f mem (handle % 128) i data := by
      simp [formats, hv, isWriteable, hfs, hver]
    rw [if_neg hformats, heq, ← hv, Function.update_eq_self]
    exact h
  · have hany : (dev.view mem (f.blockOf i)).any
        (isWriteable f.toObject (handle % 128) ·.header) = false := by
      cases hv : dev.view mem (f.blockOf i) with
      | none => rfl
      | some block => exact hnot block hv
    have hformats : formats f mem (handle % 128) i data := by
      simp [formats, hi, hroom, hany]
    rw [if_pos hformats, heq]
    exact h.update rfl

/-! ### Steps -/

lemma inv_delete (h : FileInv f s) (ha : s.Apart f) : FileInv f (s.exec f .delete) := by
  obtain ⟨mem, hexec, hv⟩ := exec_delete h.toSpareInv
  have hver := versionV_eq h.toSpareInv
  rw [hexec]
  refine ⟨h.toSpareInv.append (by rw [hv]; exact Function.update_self ..), ?_, ?_, fun i hi _ => ?_⟩
  · rw [hv]
    exact h.tidy.deletedV
  · rw [hv]
    exact (h.formatted.update hver).update_spare _
  · have hblank := blank_deletedV (noClash_of_apart h ha) hi
    rw [hver] at hblank
    rw [hv]
    simpa using hblank

/-- What `write_file` does without faults. -/
lemma exists_writeFile (h : FileInv f s) (ha : s.Apart f) {bytes : List UInt8}
    (hlen : bytes.length ≤ f.capacity) : ∃ mem,
    (writeFile dev f.toObject bytes).eval s.mem = .ok () mem ∧
      dev.view mem = doneV (dev.view s.mem) f bytes := by
  have hwrite : Dev.wp (faults False False False) (writeFile dev f.toObject bytes)
      (fun _ mem => dev.view mem = doneV (dev.view s.mem) f bytes) (fun _ _ => False)
      (fun _ => False) s.mem :=
    wp_writeFile hlen (noClash_of_apart h ha) fun mem hv => hv
  obtain ⟨_, mem, heval, hv⟩ := Dev.exists_eval hwrite
  exact ⟨mem, heval, hv⟩

lemma eval_fileHandle {mem : Mem} {version : ℕ} (hv : fileHandleV (dev.view mem) f = .ok version) :
    (fileHandle dev f.toObject).eval mem = .ok version mem := by
  have hhandle : Dev.wp (faults False False False) (fileHandle dev f.toObject)
      (fun v mem' => v = version ∧ mem' = mem) (fun _ _ => False) (fun _ => False) mem := by
    refine wp_fileHandle False.elim ?_
    rw [hv]
    exact ⟨rfl, rfl⟩
  obtain ⟨v, mem', heval, rfl, rfl⟩ := Dev.exists_eval hhandle
  exact heval

/-- The versions of the data blocks after `write_file`. -/
lemma Formatted.doneV (h : FileInv f s) (bytes : List UInt8) :
    Formatted f (doneV (dev.view s.mem) f bytes)
      (fun b => if writeFormats f bytes b then some s.handles.length else s.formatter b) := by
  intro b block h1 h2 hv
  have hver := versionV_eq h.toSpareInv
  dsimp only
  by_cases hw : writeFormats f bytes b
  · refine ⟨s.handles.length, by rw [if_pos hw], ?_⟩
    rw [← hver]
    refine version_loopV 0 _ ?_ block hv
    rcases hw with rfl | ⟨j, hj, rfl⟩
    · refine Or.inl fun block hv => ?_
      rw [deletedV, Function.update_of_ne f.start_lt_spare.ne, Function.update_self] at hv
      obtain rfl := Option.some.inj hv
      rfl
    · exact Or.inr ⟨j, Nat.zero_le _, by omega, rfl⟩
  · rw [if_neg hw]
    refine h.formatted b block h1 h2 ?_
    rw [Db.doneV, loopV_of_ne 0 _ fun j _ hj hb => hw (Or.inr ⟨j, by omega, hb⟩), deletedV,
      Function.update_of_ne h2.ne, Function.update_of_ne fun hb => hw (Or.inl hb)] at hv
    exact hv

lemma exec_writeFile (h : FileInv f s) (ha : s.Apart f) {bytes : List UInt8}
    (hlen : bytes.length ≤ f.capacity) : ∃ mem, s.exec f (.writeFile bytes) =
      ⟨mem, s.handles ++ [s.handles.length % 128],
        fun b => if writeFormats f bytes b then some s.handles.length else s.formatter b,
        List.range (chunks f.fragmentSize bytes).length⟩ ∧
      dev.view mem = doneV (dev.view s.mem) f bytes := by
  obtain ⟨mem, heval, hv⟩ := exists_writeFile h ha hlen
  have hver := versionV_eq h.toSpareInv
  have hspare := (congrFun hv f.spareBlock).trans (doneV_spare _ f hlen)
  have hhandle := eval_fileHandle (fileHandleV_of_fresh hspare)
  refine ⟨mem, ?_, hv⟩
  simp only [FileWorld.exec, heval, hhandle, hver]

lemma inv_writeFile (h : FileInv f s) (ha : s.Apart f) {bytes : List UInt8}
    (hlen : bytes.length ≤ f.capacity) : FileInv f (s.exec f (.writeFile bytes)) := by
  obtain ⟨mem, hexec, hv⟩ := exec_writeFile h ha hlen
  have hver := versionV_eq h.toSpareInv
  have hfit := chunksFit_chunks f 0 bytes (by omega)
  have hspare := (congrFun hv f.spareBlock).trans (doneV_spare _ f hlen)
  rw [hexec]
  refine ⟨h.toSpareInv.append hspare, ?_, ?_, fun i hi hnot => ?_⟩
  · rw [hv]
    exact h.tidy.deletedV.loopV _ 0 _ hfit
  · rw [hv]
    exact Formatted.doneV h bytes
  · have hblank := blank_loopV 0 (chunks f.fragmentSize bytes)
      (blank_deletedV (noClash_of_apart h ha) hi) (by rw [List.mem_range] at hnot; omega)
    rw [hver] at hblank
    rw [hv, Db.doneV, hver]
    simpa using hblank

/-- The blocks that a fragment is not written to keep what is known of them. -/
lemma SpareInv.of_view (h : SpareInv f s) (hne : s.handles ≠ []) {mem : Mem}
    {formatter : ℕ → Option ℕ} {written : List ℕ}
    (hv : dev.view mem f.spareBlock = dev.view s.mem f.spareBlock) :
    SpareInv f ⟨mem, s.handles, formatter, written⟩ :=
  ⟨h.handles, fun hnil => absurd hnil hne, fun _ => by rw [hv]; exact h.spare hne⟩

lemma inv_writeFileFragment (h : FileInv f s) {handle i : ℕ} {bytes : List UInt8}
    (hn : handle < s.handles.length) : FileInv f (s.exec f (.writeFileFragment handle i bytes)) := by
  have hne : s.handles ≠ [] := List.ne_nil_of_length_pos (by omega)
  have hget : s.handles[handle]? = some (handle % 128) := by
    rw [List.getElem?_eq_getElem hn]
    exact congrArg some (h.handles handle _ (List.getElem?_eq_getElem hn))
  have hlt : handle % 128 < 2 ^ 8 := (Nat.mod_lt _ (by decide)).trans (by decide)
  -- the world after the call, by its outcome
  have hwrite : Dev.wp (faults False False False) (writeFileFragment dev f.toObject (handle % 128) i
      bytes) (fun _ mem => FileInv f ⟨mem, s.handles, if formats f s.mem (handle % 128) i bytes then
        Function.update s.formatter (f.blockOf i) (some handle) else s.formatter, i :: s.written⟩)
      (fun _ mem => FileInv f ⟨mem, s.handles, if formats f s.mem (handle % 128) i bytes then
        Function.update s.formatter (f.blockOf i) (some handle) else s.formatter, s.written⟩)
      (fun _ => False) s.mem := by
    refine wp_writeFileFragment hlt ?_ ?_ ?_ ?_ False.elim
    · exact fun hi => (h.tidy.preparedV hi).clean _ (Nat.mod_lt _ f.perBlock_pos)
    · intro hw mem hv
      have hspare : dev.view mem f.spareBlock = dev.view s.mem f.spareBlock := by
        rw [hv, writtenV, Function.update_of_ne (f.blockOf_ne_spare hw.index).symm]
      refine ⟨h.toSpareInv.of_view hne hspare, ?_, ?_, fun j hj hnot => ?_⟩
      · rw [hv]
        exact h.tidy.writtenV hw.index
      · rw [hv]
        exact (h.formatted.prepare hw.index hw.room).setFrag
      · rw [List.mem_cons, not_or] at hnot
        rw [hv]
        exact (h.blank j hj hnot.2).writtenV hnot.1
    · intro hc _
      have hformats : ¬ formats f s.mem (handle % 128) i bytes := by
        simp only [formats, decide_eq_true_eq]
        exact fun hf => hc ⟨hf.1, hf.2.1⟩
      rw [if_neg hformats]
      exact ⟨h.toSpareInv.of_view hne rfl, h.tidy, h.formatted, h.blank⟩
    · intro hi hroom _ _ mem hv
      have hspare : dev.view mem f.spareBlock = dev.view s.mem f.spareBlock := by
        rw [hv, Function.update_of_ne (f.blockOf_ne_spare hi).symm]
      refine ⟨h.toSpareInv.of_view hne hspare, ?_, ?_, fun j hj hnot => ?_⟩
      · rw [hv]
        exact h.tidy.update (h.tidy.preparedV hi)
      · rw [hv]
        exact h.formatted.prepare hi hroom
      · rw [hv]
        exact (h.blank j hj hnot).prepare
  have heval := Dev.wp_eval hwrite
  simp only [FileWorld.exec, hget]
  revert heval
  cases (writeFileFragment dev f.toObject (handle % 128) i bytes).eval s.mem with
  | ok a mem => exact id
  | err e mem => exact id
  | off mem => exact False.elim

lemma inv_exec {call : FileCall} (h : FileInv f s) (hg : s.Guard f call) :
    FileInv f (s.exec f call) := by
  cases call with
  | delete => exact inv_delete h hg
  | writeFile bytes => exact inv_writeFile h hg.2 hg.1
  | writeFileFragment handle i bytes => exact inv_writeFileFragment h hg

lemma inv_start (f : File dev) : FileInv f FileWorld.start := by
  have hv : ∀ b, dev.view FileWorld.start.mem b = none := fun b => congrFun (BlockDevice.view_erased dev) b
  refine ⟨⟨fun k version hk => ?_, fun _ b _ _ => hv b, fun hne => absurd rfl hne⟩, ?_, ?_, ?_⟩
  · simp [FileWorld.start] at hk
  · intro b block _ _ hb
    rw [hv] at hb
    cases hb
  · intro b block _ _ hb
    rw [hv] at hb
    cases hb
  · intro i _ _ block hb
    rw [hv] at hb
    cases hb

theorem fileInv_of_reach (h : Reach (FileWorld.exec f) (FileWorld.Guard f) FileWorld.start s) :
    FileInv f s :=
  h.invariant (inv_start f) fun _ _ hs hg => inv_exec hs hg

/-! ### What readers and writers see -/

/-- The handle that a reader gets has the version of the last delete. -/
lemma SpareInv.fileHandleV (h : SpareInv f s) (hne : s.handles ≠ []) :
    fileHandleV (dev.view s.mem) f = .ok ((s.handles.length - 1) % 128) := by
  obtain ⟨first, hspare⟩ := h.spare hne
  exact fileHandleV_of_fresh hspare

lemma readNew_blank (h : FileInv f s) {i : ℕ} (hi : i < f.count) (hnot : i ∉ s.written) (len : ℕ) :
    ∃ e mem, (readNew f i len).eval s.mem = .err e mem := by
  have hread : Dev.wp (faults False False False) (readNew f i len) (fun _ _ => False)
      (fun _ _ => True) (fun _ => False) s.mem := by
    refine Dev.wp_bind (wp_fileHandle False.elim ?_)
    by_cases hnil : s.handles = []
    · have hspare := h.erased hnil _ f.start_lt_spare.le le_rfl
      unfold Db.fileHandleV lockStatusV
      rw [hspare]
      trivial
    · rw [h.fileHandleV hnil, returns_ok]
      refine wp_readFileFragment False.elim ?_
      rw [readFragmentV_of_blank hi (h.blank i hi hnot)]
      trivial
  have heval := Dev.wp_eval hread
  revert heval
  cases (readNew f i len).eval s.mem with
  | ok a mem => exact False.elim
  | err e mem => exact fun _ => ⟨e, mem, rfl⟩
  | off mem => exact False.elim

/-- **Nothing comes back as long as deletes find the blocks apart.** -/
theorem noResurrection_of_reach (f : File dev) (s : FileWorld)
    (h : Reach (FileWorld.exec f) (FileWorld.Guard f) FileWorld.start s) :
    NoResurrection (FileWorld.Guard f) f s := by
  have hinv := fileInv_of_reach h
  refine ⟨fun i hi hnot len => readNew_blank hinv hi hnot len, fun bytes hg => ?_, fun ha => ?_⟩
  · obtain ⟨mem, heval, -⟩ := exists_writeFile hinv hg.2 hg.1
    exact ⟨mem, heval⟩
  · obtain ⟨mem, heval, -⟩ := exists_delete hinv.toSpareInv
    refine ⟨_, mem, heval, fun b block h1 h2 hv => ?_⟩
    rw [← versionV_eq hinv.toSpareInv]
    exact noClash_of_apart hinv ha b block h1 h2 hv

/-! ### The 129th version -/

/-- What any number of deletes does: the blocks behind the first one stay. -/
lemma deletes_spec (h : SpareInv f s) (k : ℕ) {t : FileWorld}
    (ht : (List.replicate k FileCall.delete).foldl (FileWorld.exec f) s = t) :
    SpareInv f t ∧ t.handles.length = s.handles.length + k ∧ (0 < k → t.written = []) ∧
      ∀ b, f.blocksStart < b → b < f.spareBlock → dev.view t.mem b = dev.view s.mem b := by
  induction k generalizing t with
  | zero =>
    obtain rfl : s = t := ht
    exact ⟨h, rfl, fun hc => absurd hc (lt_irrefl 0), fun _ _ _ => rfl⟩
  | succ k ih =>
    obtain ⟨hinv, hlen, -, hsame⟩ := ih rfl
    obtain ⟨mem, hexec, hv⟩ := exec_delete hinv
    rw [List.replicate_succ', List.foldl_append, List.foldl_cons, List.foldl_nil, hexec] at ht
    subst ht
    refine ⟨hinv.append (by rw [hv]; exact Function.update_self ..), ?_, fun _ => rfl,
      fun b h1 h2 => ?_⟩
    · rw [List.length_append, hlen]
      rfl
    · rw [hv, deletedV, Function.update_of_ne h2.ne, Function.update_of_ne h1.ne', hsame b h1 h2]

/-- After 128 deletes, a fragment behind the first block is back. -/
lemma readNew_after_deletes (h : SpareInv f s) (hne : s.handles ≠ []) {i : ℕ} {data : List UInt8}
    (hi : i < f.count) (hb : f.blocksStart < f.blockOf i)
    (hholds : Holds (dev.view s.mem) f ((s.handles.length - 1) % 128) i data) (len : ℕ)
    {t : FileWorld} (ht : (List.replicate 128 FileCall.delete).foldl (FileWorld.exec f) s = t) :
    ∃ bytes mem, (readNew f i len).eval t.mem = .ok bytes mem := by
  obtain ⟨hinv, hlen, -, hsame⟩ := deletes_spec h 128 ht
  have hpos := List.length_pos_iff.mpr hne
  have hnet : t.handles ≠ [] := List.ne_nil_of_length_pos (by omega)
  have hmod : (t.handles.length - 1) % 128 = (s.handles.length - 1) % 128 := by omega
  have hholds' : Holds (dev.view t.mem) f ((t.handles.length - 1) % 128) i data := by
    obtain ⟨block, hv, hrest⟩ := hholds
    rw [hmod]
    exact ⟨block, by rw [hsame _ hb (f.block_lt hi), hv], hrest⟩
  have hread : Dev.wp (faults False False False) (readNew f i len) (fun _ _ => True)
      (fun _ _ => False) (fun _ => False) t.mem := by
    refine Dev.wp_bind (wp_fileHandle False.elim ?_)
    rw [hinv.fileHandleV hnet, returns_ok]
    refine wp_readFileFragment False.elim ?_
    rw [readFragmentV_of_holds hi hholds']
    trivial
  obtain ⟨bytes, mem, heval, -⟩ := Dev.exists_eval hread
  exact ⟨bytes, mem, heval⟩

end Steps

end World

/-- The sample file after a delete, where fragment 3 in the second block was then written. -/
def sampleWorld : FileWorld :=
  (FileWorld.start.exec sampleFile .delete).exec sampleFile (.writeFileFragment 0 3 [9])

lemma handles_sample : 0 < (FileWorld.start.exec sampleFile .delete).handles.length := by
  decide +kernel

lemma apart_start : FileWorld.start.Apart sampleFile := fun _ _ _ _ hn => by cases hn

theorem noResurrection_sample :
    Reach (FileWorld.exec sampleFile) (FileWorld.Guard sampleFile) FileWorld.start sampleWorld ∧
      NoResurrection (FileWorld.Guard sampleFile) sampleFile sampleWorld := by
  have hreach : Reach (FileWorld.exec sampleFile) (FileWorld.Guard sampleFile) FileWorld.start
      sampleWorld :=
    .step (FileCall.writeFileFragment 0 3 [9]) (.step FileCall.delete .start apart_start) handles_sample
  exact ⟨hreach, noResurrection_of_reach sampleFile sampleWorld hreach⟩

/-- **The fragment is back after 128 more deletes.** -/
theorem fragment_comes_back : ¬ ∀ s,
    Reach (FileWorld.exec sampleFile) (FileWorld.Issued sampleFile) FileWorld.start s →
      NoResurrection (FileWorld.Issued sampleFile) sampleFile s := by
  intro h
  have hreach : Reach (FileWorld.exec sampleFile) (FileWorld.Issued sampleFile) FileWorld.start
      sampleWorld :=
    .step (FileCall.writeFileFragment 0 3 [9]) (.step FileCall.delete .start trivial) handles_sample
  have hdeletes : Reach.Guarded (FileWorld.exec sampleFile) (FileWorld.Issued sampleFile) sampleWorld
      (List.replicate 128 .delete) := by
    generalize sampleWorld = s
    induction 128 generalizing s with
    | zero => trivial
    | succ k ih => exact ⟨trivial, ih _⟩
  have hinv : SpareInv sampleFile sampleWorld :=
    (inv_writeFileFragment (inv_delete (inv_start sampleFile) apart_start) handles_sample).toSpareInv
  have hlen : sampleWorld.handles.length = 1 := by decide +kernel
  have hview : (sampleDevice.view sampleWorld.mem 1).map
      (fun b => (b.header.objectVersion, b.header.fragSize, b.frag 0)) =
      some (0, 2, sampleFile.written [9]) := by decide +kernel
  obtain ⟨block, hv, hblock⟩ := Option.map_eq_some_iff.mp hview
  have hholds : Holds (sampleDevice.view sampleWorld.mem) sampleFile
      ((sampleWorld.handles.length - 1) % 128) 3 [9] := by
    simp only [Prod.mk.injEq] at hblock
    rw [hlen]
    exact ⟨block, hv, hblock⟩
  have hne : sampleWorld.handles ≠ [] := List.ne_nil_of_length_pos (by omega)
  obtain ⟨-, -, hwritten, -⟩ := deletes_spec hinv 128 rfl
  obtain ⟨bytes, mem, hread⟩ := readNew_after_deletes hinv hne (by decide) (by decide) hholds 2 rfl
  obtain ⟨e, mem', herr⟩ := (h _ (Reach.run _ hreach hdeletes)).unreadable 3 (by decide)
    (by rw [hwritten (by decide)]; exact List.not_mem_nil) 2
  rw [hread] at herr
  cases herr

end SensorLink.Db
