import SensorLink.Db.CircularView
import SensorLink.Db.FileStore
import SensorLink.Flash.Bounds

/-!
# Objects do not disturb each other

All functions of the file store and of the circular store touch only the blocks of their object
(`Layout.region`), whatever is in them. So an object whose blocks are others keeps the views of its
blocks (`view_of_disjoint`), and what is read from it (`eval_of_disjoint`).
-/

namespace SensorLink.Db

open SensorLink.Lib SensorLink.Flash

variable {dev : BlockDevice}

namespace Layout

/-- The addresses of the blocks of an object -/
def region (o : Layout dev) : Set ℕ :=
  {a | o.blocksStart * dev.blockSize ≤ a ∧ a < o.blocksEnd * dev.blockSize}

instance (o : Layout dev) : DecidablePred (· ∈ o.region) :=
  fun _ => inferInstanceAs (Decidable (_ ∧ _))

/-- No block belongs to both. -/
def Disjoint (o o' : Layout dev) : Prop :=
  o.blocksEnd ≤ o'.blocksStart ∨ o'.blocksEnd ≤ o.blocksStart

lemma Disjoint.symm {o o' : Layout dev} (h : o.Disjoint o') : o'.Disjoint o := Or.symm h

variable {o : Layout dev} {b : ℕ}

lemma addresses_subset (h1 : o.blocksStart ≤ b) (h2 : b < o.blocksEnd) :
    ∀ a ∈ dev.addresses b, a ∈ o.region := by
  intro a ha
  have hstart : o.blocksStart * dev.blockSize ≤ b * dev.blockSize := Nat.mul_le_mul_right _ h1
  have hend : (b + 1) * dev.blockSize ≤ o.blocksEnd * dev.blockSize := Nat.mul_le_mul_right _ h2
  rw [Nat.succ_mul] at hend
  exact ⟨hstart.trans ha.1, ha.2.trans_le hend⟩

lemma Disjoint.notMem {o' : Layout dev} (h : o.Disjoint o') {a : ℕ} (ha : a ∈ o.region) :
    a ∉ o'.region := by
  intro ha'
  rcases h with h | h
  · have hmul := Nat.mul_le_mul_right dev.blockSize h
    exact absurd (ha.2.trans_le (hmul.trans ha'.1)) (lt_irrefl a)
  · have hmul := Nat.mul_le_mul_right dev.blockSize h
    exact absurd (ha'.2.trans_le (hmul.trans ha.1)) (lt_irrefl a)

section Disjoint

variable {o' : Layout dev} {ε α : Type} {p : Io ε α} {P : α → Prop} {E : ε → Prop} {mem : Mem}

/-- The memory of another object after a program. -/
lemma mem_of_disjoint (h : o.Disjoint o') (hp : Touches o.region p P E) (mem : Mem) :
    ∀ a ∈ o'.region, (p.eval mem).dev a = mem a := by
  intro a ha
  have hmem := hp.mem_of_notMem (.working mem) (h.symm.notMem ha)
  unfold Dev.eval
  revert hmem
  cases p.run (.working mem) <;> exact id

theorem view_of_disjoint (h : o.Disjoint o') (hp : Touches o.region p P E) (h1 : o'.blocksStart ≤ b)
    (h2 : b < o'.blocksEnd) : dev.view (p.eval mem).dev b = dev.view mem b := by
  apply BlockDevice.view_congr
  intro a ha1 ha2
  exact mem_of_disjoint h hp mem a (addresses_subset h1 h2 a ⟨ha1, ha2⟩)

end Disjoint

end Layout

/-- What a program returns on a working device, none if it does not return. -/
def returned {ε α : Type} (p : Io ε α) (mem : Mem) : Option (Except ε α) :=
  match p.eval mem with
  | .ok a _ => some (.ok a)
  | .err e _ => some (.error e)
  | .off _ => none

/-- What is returned depends on the bytes that are touched. -/
lemma returned_congr {A : Set ℕ} [DecidablePred (· ∈ A)] {ε α : Type} {p : Io ε α} {P : α → Prop}
    {E : ε → Prop} (h : Touches A p P E) {mem mem' : Mem} (hmem : ∀ a ∈ A, mem' a = mem a) :
    returned p mem' = returned p mem := by
  unfold returned
  rw [h.eval_congr hmem]
  cases p.eval mem <;> rfl

/-! ### Blocks of an object -/

section Blocks

variable {o : Layout dev} {b : ℕ} {h : BlockHeader}

/-- The header of a block of the object -/
structure Within (o : Layout dev) (h : BlockHeader) : Prop extends BlockDevice.InBounds dev h where
  start_le : o.blocksStart ≤ h.id
  lt_end : h.id < o.blocksEnd

lemma Within.touches {ε α : Type} {p : Io ε α} (hh : Within o h)
    (hp : TouchesOnly (dev.addresses h.id) p) : TouchesOnly o.region p :=
  hp.subset (Layout.addresses_subset hh.start_le hh.lt_end)

lemma touches_header (h1 : o.blocksStart ≤ b) (h2 : b < o.blocksEnd) :
    Touches o.region (dev.blockHeader b) (fun r => ∀ h, r = some h → Within o h) fun _ => True := by
  have hb : b < dev.blocksTotal := h2.trans_le o.blocks_le
  have hheader := (BlockDevice.touches_blockHeader hb).subset (Layout.addresses_subset h1 h2)
  refine hheader.mono ?_ fun _ _ => trivial
  intro r hr h hsome
  have hspec := hr h hsome
  refine ⟨hspec.inBounds hb, ?_, ?_⟩
  · rw [hspec.id]
    exact h1
  · rw [hspec.id]
    exact h2

lemma touches_formatFor (h1 : o.blocksStart ≤ b) (h2 : b < o.blocksEnd) (version first : ℕ) :
    TouchesOnly o.region (formatFor dev o.toObject b version first) := by
  have hb : b < dev.blocksTotal := h2.trans_le o.blocks_le
  unfold formatFor
  apply Touches.mapErr
  exact (BlockDevice.touches_formatBlock hb _ _ _ _).subset (Layout.addresses_subset h1 h2)

lemma start_lt_end (o : Layout dev) : o.blocksStart < o.blocksEnd := by
  have := o.two_blocks
  omega

lemma spare_lt_end (o : Layout dev) : o.spareBlock < o.blocksEnd := by
  have := o.two_blocks
  unfold Object.spareBlock
  omega

lemma touches_spareHeader (o : Layout dev) : Touches o.region (dev.blockHeader o.spareBlock)
    (fun r => ∀ h, r = some h → Within o h) fun _ => True :=
  touches_header o.start_lt_spare.le (spare_lt_end o)

end Blocks

/-! ### Files -/

section Files

variable (o : Layout dev)

lemma touches_lockStatus : TouchesOnly o.region (lockStatus dev o.toObject) := by
  unfold lockStatus
  apply Touches.bind (Touches.mapErr (touches_spareHeader o))
  intro r hr
  cases r with
  | none => exact .pure trivial
  | some spare =>
    dsimp only
    split
    · exact .throw trivial
    · have hw := hr spare rfl
      apply Touches.bind
        (Touches.mapErr (hw.touches (BlockDevice.touches_fragmentStatus hw.toInBounds _)))
      intro status _
      split
      · exact .pure trivial
      · exact .pure trivial

lemma touches_lock : TouchesOnly o.region (lock dev o.toObject) := by
  unfold lock
  apply Touches.bind (Touches.mapErr (touches_spareHeader o))
  intro r hr
  cases r with
  | none => exact .pure trivial
  | some spare =>
    have hw := hr spare rfl
    exact .mapErr (hw.touches (BlockDevice.touches_deleteFragment hw.toInBounds _))

lemma touches_unlock (version : ℕ) : TouchesOnly o.region (unlock dev o.toObject version) := by
  unfold unlock
  apply Touches.bind (R := fun _ => True) (Touches.attempt (touches_lockStatus o))
  intro status _
  split
  · exact .pure trivial
  · exact touches_formatFor o.start_lt_spare.le (spare_lt_end o) _ _

lemma touches_deleteObject : TouchesOnly o.region (deleteObject dev o.toObject .softVersion) := by
  unfold deleteObject
  split
  · exact .throw trivial
  · apply Touches.bind (R := fun _ => True)
    · apply Touches.attempt
      exact (touches_header le_rfl (start_lt_end o)).mono (fun _ _ => trivial) fun _ _ => trivial
    · intro _ _
      apply Touches.bind (R := fun _ => True)
      · apply Touches.attempt
        exact (touches_spareHeader o).mono (fun _ _ => trivial) fun _ _ => trivial
      · intro _ _
        dsimp only
        unfold deleteSoft
        apply Touches.bind (touches_formatFor le_rfl (start_lt_end o) _ _)
        intro _ _
        exact touches_formatFor o.start_lt_spare.le (spare_lt_end o) _ _

lemma touches_fileHandle : TouchesOnly o.region (fileHandle dev o.toObject) := by
  unfold fileHandle
  apply Touches.bind (touches_lockStatus o)
  intro status _
  cases status with
  | unlocked version => exact .pure trivial
  | locked => exact .throw trivial

lemma touches_delete : TouchesOnly o.region (delete dev o.toObject) := by
  unfold delete
  apply Touches.bind (touches_deleteObject o)
  intro _ _
  exact touches_fileHandle o

variable {o} in
/-- The block of a fragment. -/
lemma blockNoOf_lt {i : ℕ} (hi : ¬ o.fragmentCount dev.blockSize ≤ i) :
    o.blocksStart ≤ blockNoOf dev o.toObject i ∧ blockNoOf dev o.toObject i < o.blocksEnd :=
  ⟨Nat.le_add_right _ _, (o.block_lt (Nat.lt_of_not_le hi)).trans (spare_lt_end o)⟩

lemma touches_readFileFragment (version i len : ℕ) :
    TouchesOnly o.region (readFileFragment dev o.toObject version i len) := by
  unfold readFileFragment
  split
  · exact .throw trivial
  next hi =>
    obtain ⟨h1, h2⟩ := blockNoOf_lt hi
    apply Touches.bind (Touches.mapErr (touches_header h1 h2))
    intro r hr
    cases r with
    | none => exact .throw trivial
    | some block =>
      have hw := hr block rfl
      dsimp only
      split
      · exact .throw trivial
      · exact .mapErr (hw.touches (BlockDevice.touches_readFragmentAtOffset hw.toInBounds _ _ _))

lemma touches_readFileChunk (version i chunk : ℕ) (bytes : List UInt8) :
    TouchesOnly o.region (readFileChunk dev o.toObject version i chunk bytes) := by
  unfold readFileChunk
  apply Touches.bind (R := fun _ => True)
    (Touches.attempt (touches_readFileFragment o version i chunk))
  intro r _
  split
  · split
    · exact .pure trivial
    · exact .throw trivial
  · exact .throw trivial
  · exact .pure trivial

lemma touches_readFileLoop (version i : ℕ) (lens : List ℕ) (bytes : List UInt8) :
    TouchesOnly o.region (readFileLoop dev o.toObject version i lens bytes) := by
  induction lens generalizing i bytes with
  | nil => exact .pure trivial
  | cons chunk lens ih =>
    unfold readFileLoop
    split
    · exact .pure trivial
    · apply Touches.bind (touches_readFileChunk o version i chunk bytes)
      intro chunkRead _
      split
      · exact .pure trivial
      · exact ih (i + 1) (bytes ++ chunkRead)

lemma touches_readFile (len : ℕ) : TouchesOnly o.region (readFile dev o.toObject len) := by
  unfold readFile
  apply Touches.bind (touches_fileHandle o)
  intro version _
  exact touches_readFileLoop o version 0 _ _

variable {o} in
lemma touches_formatWriteableBlock {b : ℕ} (h1 : o.blocksStart ≤ b) (h2 : b < o.blocksEnd)
    (version eraseCount : ℕ) :
    Touches o.region (formatWriteableBlock dev o.toObject b version eraseCount) (Within o)
      fun _ => True := by
  unfold formatWriteableBlock
  apply Touches.bind (touches_formatFor h1 h2 _ _)
  intro _ _
  apply Touches.bind (Touches.mapErr (touches_header h1 h2))
  intro r hr
  cases r with
  | none => exact .throw trivial
  | some block =>
    dsimp only
    split
    · exact .pure (hr block rfl)
    · exact .throw trivial

variable {o} in
lemma touches_prepareWriteableBlock {b : ℕ} (h1 : o.blocksStart ≤ b) (h2 : b < o.blocksEnd)
    (version : ℕ) :
    Touches o.region (prepareWriteableBlock dev o.toObject b version) (Within o) fun _ => True := by
  unfold prepareWriteableBlock
  apply Touches.bind (Touches.mapErr (touches_header h1 h2))
  intro r hr
  cases r with
  | none => exact touches_formatWriteableBlock h1 h2 version 0
  | some block =>
    dsimp only
    split
    · exact .pure (hr block rfl)
    · exact touches_formatWriteableBlock h1 h2 version _

lemma touches_writeFileFragment (version i : ℕ) (bytes : List UInt8) :
    TouchesOnly o.region (writeFileFragment dev o.toObject version i bytes) := by
  unfold writeFileFragment
  split
  · exact .throw trivial
  next hi =>
    obtain ⟨h1, h2⟩ := blockNoOf_lt hi
    split
    · exact .throw trivial
    · apply Touches.bind (touches_prepareWriteableBlock h1 h2 version)
      intro block hw
      exact .mapErr (hw.touches (BlockDevice.touches_writeFragment hw.toInBounds _ _))

lemma touches_writeFileLoop (version i : ℕ) (chunks : List (List UInt8)) :
    TouchesOnly o.region (writeFileLoop dev o.toObject version i chunks) := by
  induction chunks generalizing i with
  | nil => exact .pure trivial
  | cons chunk chunks ih =>
    unfold writeFileLoop
    split
    · exact .throw trivial
    · apply Touches.bind (touches_writeFileFragment o version i chunk)
      intro _ _
      exact ih (i + 1)

lemma touches_writeFile (bytes : List UInt8) :
    TouchesOnly o.region (writeFile dev o.toObject bytes) := by
  unfold writeFile
  split
  · exact .throw trivial
  · apply Touches.bind (touches_lock o)
    intro _ _
    apply Touches.bind (touches_delete o)
    intro version _
    apply Touches.bind (touches_writeFileLoop o version 0 _)
    intro _ _
    exact touches_unlock o version

end Files

/-! ### Circular buffers -/

section Circulars

variable (c : RingBuffer dev)

/-- The block that a search ends at, also one that does not fit. -/
def FoundWithin (c : RingBuffer dev) : FindFail → Prop
  | .notFound block => Within c.toLayout block
  | .corrupt block => Within c.toLayout block
  | .other _ => True

lemma blockNo_lt (n : ℕ) : c.blocksStart ≤ findBlockNoForSeqNo dev c.toCircular n ∧
    findBlockNoForSeqNo dev c.toCircular n < c.blocksEnd := by
  rw [c.findBlockNo_eq]
  have hmod := Nat.mod_lt (n / c.perBlock) c.dataBlocks_pos
  unfold RingBuffer.chunkBlock RingBuffer.dataBlocks at *
  constructor
  · exact Nat.le_add_right _ _
  · omega

lemma touches_findBlockForSeqNo (n : ℕ) :
    Touches c.toLayout.region (findBlockForSeqNo dev c.toCircular n)
      (fun r => ∀ block, r = some block → Within c.toLayout block) (FoundWithin c) := by
  obtain ⟨h1, h2⟩ := blockNo_lt c n
  have hheader : Touches c.toLayout.region (dev.blockHeader (findBlockNoForSeqNo dev c.toCircular n))
      (fun r => ∀ block, r = some block → Within c.toLayout block) fun _ => True :=
    touches_header h1 h2
  unfold findBlockForSeqNo
  apply Touches.bind (Touches.mapErr (hheader.mono (fun _ hr => hr) fun _ _ => trivial))
  intro r hr
  cases r with
  | none => exact .pure nofun
  | some block =>
    have hw := hr block rfl
    dsimp only
    split
    · exact .throw hw
    split
    · exact .throw hw
    split
    · exact .throw hw
    · apply Touches.pure
      intro block' heq
      obtain rfl := Option.some.inj heq
      exact hw

lemma touches_readCircularFragmentAtOffset (n len offset : ℕ) :
    TouchesOnly c.toLayout.region (readCircularFragmentAtOffset dev c.toCircular n len offset) := by
  unfold readCircularFragmentAtOffset
  apply Touches.bind (Touches.mapErr ((touches_findBlockForSeqNo c n).mono (fun _ hr => hr)
    fun _ _ => trivial))
  intro r hr
  cases r with
  | none => exact .throw trivial
  | some block =>
    have hw := hr block rfl
    exact .mapErr (hw.touches (BlockDevice.touches_readFragmentAtOffset hw.toInBounds _ _ _))

/-! The range in use -/

lemma touches_blockKindLoop {block : BlockHeader} (hw : Within c.toLayout block) (offsets : List ℕ) :
    TouchesOnly c.toLayout.region (blockKindLoop dev block offsets) := by
  induction offsets with
  | nil => exact .pure trivial
  | cons offset offsets ih =>
    unfold blockKindLoop
    apply Touches.bind
      (Touches.mapErr (hw.touches (BlockDevice.touches_fragmentStatus hw.toInBounds _)))
    intro status _
    cases status with
    | invalid => exact ih
    | valid => exact .pure trivial
    | obsolete => exact .pure trivial
    | empty =>
      apply Touches.bind
        (Touches.mapErr (hw.touches (BlockDevice.touches_fragmentStatus hw.toInBounds _)))
      intro first _
      split
      · exact .pure trivial
      · exact .pure trivial

/-- The blocks found so far are blocks of the circular. -/
structure ScanWithin (c : RingBuffer dev) (scan : Scan) : Prop where
  data : ∀ read write, scan.data = some (read, write) → Within c.toLayout read ∧ Within c.toLayout write
  firstEmpty : ∀ block, scan.firstEmpty = some block → Within c.toLayout block

variable {c} in
lemma ScanWithin.add {scan : Scan} {block : BlockHeader} (h : ScanWithin c scan)
    (hw : Within c.toLayout block) (kind : BlockKind) : ScanWithin c (scan.add block kind) := by
  have hlower : ∀ old : Option BlockHeader, (∀ b, old = some b → Within c.toLayout b) →
      Within c.toLayout (Scan.lower block old) := by
    intro old hold
    unfold Scan.lower
    cases old with
    | none => exact hw
    | some b =>
      dsimp only
      split
      · exact hold b rfl
      · exact hw
  have hhigher : ∀ old : Option BlockHeader, (∀ b, old = some b → Within c.toLayout b) →
      Within c.toLayout (Scan.higher block old) := by
    intro old hold
    unfold Scan.higher
    cases old with
    | none => exact hw
    | some b =>
      dsimp only
      split
      · exact hw
      · exact hold b rfl
  constructor
  · intro read write hdata
    unfold Scan.add at hdata
    dsimp only at hdata
    split at hdata
    · obtain ⟨rfl, rfl⟩ := Prod.mk.inj (Option.some.inj hdata)
      constructor
      · apply hlower
        intro b hb
        obtain ⟨old, hold, rfl⟩ := Option.map_eq_some_iff.mp hb
        exact (h.data old.1 old.2 hold).1
      · apply hhigher
        intro b hb
        obtain ⟨old, hold, rfl⟩ := Option.map_eq_some_iff.mp hb
        exact (h.data old.1 old.2 hold).2
    · exact h.data read write hdata
  · intro b hb
    unfold Scan.add at hb
    dsimp only at hb
    split at hb
    · obtain rfl := Option.some.inj hb
      exact hlower _ h.firstEmpty
    · exact h.firstEmpty b hb

lemma touches_scanLoop (blockIds : List ℕ) (hids : ∀ b ∈ blockIds, c.blocksStart ≤ b ∧ b < c.blocksEnd)
    (scan : Scan) (hscan : ScanWithin c scan) :
    Touches c.toLayout.region (scanLoop dev c.toCircular blockIds scan) (ScanWithin c)
      fun _ => True := by
  induction blockIds generalizing scan with
  | nil => exact .pure hscan
  | cons b blockIds ih =>
    obtain ⟨h1, h2⟩ := hids b List.mem_cons_self
    have hids' : ∀ b ∈ blockIds, c.blocksStart ≤ b ∧ b < c.blocksEnd := by
      intro b' hb'
      exact hids b' (List.mem_cons_of_mem b hb')
    have hheader : Touches c.toLayout.region (dev.blockHeader b)
        (fun r => ∀ block, r = some block → Within c.toLayout block) fun _ => True :=
      touches_header h1 h2
    unfold scanLoop
    apply Touches.bind (Touches.mapErr hheader)
    intro r hr
    cases r with
    | none => exact ih hids' scan hscan
    | some block =>
      have hw := hr block rfl
      dsimp only
      split
      · exact ih hids' scan hscan
      · apply Touches.bind (touches_blockKindLoop c hw _)
        intro kind _
        exact ih hids' _ (hscan.add hw kind)

lemma touches_searchLoop {block : BlockHeader} (hw : Within c.toLayout block)
    (stops : FragmentStatus → Bool) (k seqNo : ℕ) :
    TouchesOnly c.toLayout.region (searchLoop dev stops block k seqNo) := by
  induction k generalizing seqNo with
  | zero => exact .pure trivial
  | succ k ih =>
    unfold searchLoop
    apply Touches.bind
      (Touches.mapErr (hw.touches (BlockDevice.touches_fragmentStatus hw.toInBounds _)))
    intro status _
    split
    · exact .pure trivial
    · exact ih _

lemma touches_findCircularRange :
    TouchesOnly c.toLayout.region (findCircularRange dev c.toCircular) := by
  unfold findCircularRange
  have hnone : ScanWithin c ⟨none, none, none⟩ := by
    constructor
    · intro read write hdata
      cases hdata
    · intro block hempty
      cases hempty
  apply Touches.bind (touches_scanLoop c _ _ _ hnone)
  · intro scan hscan
    unfold rangeOf
    split
    next read write hdata =>
      obtain ⟨hread, hwrite⟩ := hscan.data read write hdata
      apply Touches.bind (touches_searchLoop c hread _ _ _)
      intro first _
      apply Touches.bind (touches_searchLoop c hwrite _ _ _)
      intro last _
      exact .pure trivial
    · exact .pure trivial
    · exact .pure trivial
    · exact .pure trivial
  · intro b hb
    rw [List.mem_range'_1] at hb
    omega

/-! Writing and deleting -/

lemma touches_blockToWrite (n : ℕ) : Touches c.toLayout.region (blockToWrite dev c.toCircular n)
    (fun r => ∀ block, r = some block → Within c.toLayout block) fun _ => True := by
  unfold blockToWrite
  apply Touches.bind (R := fun r => match r with
    | .ok r => ∀ block, r = some block → Within c.toLayout block
    | .error e => FoundWithin c e) (Touches.attempt (touches_findBlockForSeqNo c n))
  intro r hr
  cases r with
  | ok block => exact .pure hr
  | error e =>
    cases e with
    | other e => exact .throw trivial
    | corrupt block =>
      dsimp only
      split
      · exact .pure nofun
      · exact .throw trivial
    | notFound block =>
      have hw : Within c.toLayout block := hr
      dsimp only
      split
      · exact .pure nofun
      · apply Touches.bind
          (Touches.mapErr (hw.touches (BlockDevice.touches_findValidLoop hw.toInBounds _)))
        intro found _
        cases found with
        | none => exact .pure nofun
        | some fragNo => exact .throw trivial

lemma touches_writeCircularFragment (n : ℕ) (bytes : List UInt8) :
    TouchesOnly c.toLayout.region (writeCircularFragment dev c.toCircular n bytes) := by
  have hwrite : ∀ block, Within c.toLayout block → TouchesOnly c.toLayout.region
      (Dev.mapErr Error.ofWrite (dev.writeFragment block n bytes)) := by
    intro block hw
    exact .mapErr (hw.touches (BlockDevice.touches_writeFragment hw.toInBounds _ _))
  unfold writeCircularFragment
  apply Touches.bind (touches_blockToWrite c n)
  intro r hr
  cases r with
  | some block => exact hwrite block (hr block rfl)
  | none =>
    dsimp only
    split
    · exact .throw trivial
    · obtain ⟨h1, h2⟩ := blockNo_lt c n
      have hformat : TouchesOnly c.toLayout.region (formatFor dev c.toObject
          (findBlockNoForSeqNo dev c.toCircular n) 0xFF n) := touches_formatFor h1 h2 _ _
      apply Touches.bind hformat
      intro _ _
      unfold writeFormatted
      apply Touches.bind (touches_blockToWrite c n)
      intro r hr
      cases r with
      | some block => exact hwrite block (hr block rfl)
      | none => exact .throw trivial

lemma touches_deleteCircularFragment (n : ℕ) :
    TouchesOnly c.toLayout.region (deleteCircularFragment dev c.toCircular n) := by
  unfold deleteCircularFragment
  apply Touches.bind (Touches.mapErr ((touches_findBlockForSeqNo c n).mono (fun _ hr => hr)
    fun _ _ => trivial))
  intro r hr
  cases r with
  | none => exact .pure trivial
  | some block =>
    have hw := hr block rfl
    exact .mapErr (hw.touches (BlockDevice.touches_deleteFragment hw.toInBounds _))

end Circulars

end SensorLink.Db
