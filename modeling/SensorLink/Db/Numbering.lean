import SensorLink.Db.FileVersions
import SensorLink.Db.Region

/-!
# How fragments are numbered, and what is counted with it

A block that is formatted gets fragment numbers from
`block * fragments_per_block + (erase_count + 1) * fragment_count` on, and how often it was formatted
before is taken from its present first number, divided by the number of fragments of the object. The
first summand is not taken off before, so each format of a block counts for more than one as soon as
the block is `fragment_count` fragments from the start of the flash; and the soft delete numbers the
spare block as if it was never formatted. So the counts are wrong after the first delete.
-/

namespace SensorLink.Db

open SensorLink.Lib SensorLink.Flash

section Counting

variable {dev : BlockDevice}

/-- A file on a working device, and for each block how often it was formatted for the file. -/
structure CountedWorld where
  file : FileWorld
  formatted : ℕ → ℕ

/-- One more. -/
def bump (formatted : ℕ → ℕ) (b : ℕ) : ℕ → ℕ := Function.update formatted b (formatted b + 1)

/-- The blocks that the soft delete formats. -/
def bumpDeleted (f : File dev) (formatted : ℕ → ℕ) : ℕ → ℕ :=
  bump (bump formatted f.blocksStart) f.spareBlock

/-- The block that `write_file_fragment` may format. -/
def bumpFragment (f : File dev) (mem : Mem) (version i : ℕ) (bytes : List UInt8)
    (formatted : ℕ → ℕ) : ℕ → ℕ :=
  if formats f mem version i bytes then bump formatted (f.blockOf i) else formatted

/-- The blocks that the loop of `write_file` formats, until a fragment cannot be written. -/
def bumpLoop (f : File dev) (version : ℕ) : ℕ → List (List UInt8) → Mem → (ℕ → ℕ) → ℕ → ℕ
  | _, [], _, formatted => formatted
  | i, chunk :: chunks, mem, formatted =>
    let formatted := bumpFragment f mem version i chunk formatted
    match (writeFileFragment dev f.toObject version i chunk).eval mem with
    | .ok _ mem => bumpLoop f version (i + 1) chunks mem formatted
    | _ => formatted

namespace CountedWorld

/-- An erased flash. -/
def start : CountedWorld := ⟨FileWorld.start, fun _ => 0⟩

def exec (f : File dev) (s : CountedWorld) (call : FileCall) : CountedWorld where
  file := s.file.exec f call
  formatted := match call with
    | .delete => bumpDeleted f s.formatted
    | .writeFile bytes =>
      if f.capacity < bytes.length then s.formatted
      else match (do lock dev f.toObject; Db.delete dev f.toObject : Io Error ℕ).eval s.file.mem with
        | .ok version mem =>
          bumpLoop f version 0 (chunks f.fragmentSize bytes) mem (bumpDeleted f s.formatted)
        | _ => bumpDeleted f s.formatted
    | .writeFileFragment handle i bytes =>
      match s.file.handles[handle]? with
      | none => s.formatted
      | some version => bumpFragment f s.file.mem version i bytes s.formatted

end CountedWorld

/-- `erase_count`: what is taken for the number of times that a block was formatted. -/
def eraseCountOf (f : File dev) (mem : Mem) (b : ℕ) : ℕ :=
  match dev.headerAt mem b with
  | none => 0
  | some header => header.firstFragNo / f.count

/-- The numbers of the next formats and of all fragments stay below `2 ^ 32`, and the erase counts of
the blocks are right. -/
structure Numbered (f : File dev) (s : CountedWorld) : Prop where
  product : ∀ b, f.blocksStart ≤ b → b < f.blocksEnd →
    (eraseCountOf f s.file.mem b + 1) * f.count < 2 ^ 32
  sum : ∀ b header, f.blocksStart ≤ b → b < f.blocksEnd → dev.headerAt s.file.mem b = some header →
    ∀ fragmentInBlock < f.perBlock, header.firstFragNo + fragmentInBlock < 2 ^ 32
  counts : ∀ b header, f.blocksStart ≤ b → b < f.blocksEnd →
    dev.headerAt s.file.mem b = some header → eraseCountOf f s.file.mem b = s.formatted b

/-- The calls that format the first and the spare block. -/
def Rewrites (f : File dev) : FileCall → Prop
  | .delete => True
  | .writeFile bytes => bytes.length ≤ f.capacity
  | .writeFileFragment _ _ _ => False

/-! ### The spare block -/

variable {f : File dev}

/-- The first number of the spare block, which is that of a block that was formatted before. -/
lemma spare_first (f : File dev) : nextFirstFragNo dev f.toObject f.spareBlock 0 =
    f.spareBlock * f.perBlock + f.count ∧ f.count ≤ f.spareBlock * f.perBlock ∧
    f.spareBlock * f.perBlock + 2 * f.count < 2 ^ 32 := by
  obtain ⟨hcount, hlt⟩ := f.count_eq
  have hper : f.perBlock * 4 ≤ dev.blockSize := by
    have hsize : f.perBlock * (f.fragmentSize + 3) ≤ dev.blockSize :=
      (Nat.div_mul_le_self _ _).trans (Nat.sub_le _ _)
    exact (Nat.mul_le_mul_left _ (by have := f.fragmentSize_pos; omega)).trans hsize
  have hle : f.count ≤ f.spareBlock * f.perBlock := by
    rw [hcount, Nat.mul_comm]
    apply Nat.mul_le_mul_right
    unfold Object.spareBlock
    omega
  have haddr : f.spareBlock * dev.blockSize + dev.blockSize ≤ dev.capacity :=
    BlockDevice.addr_lt_capacity f.spare_lt
  have hmul : f.spareBlock * (f.perBlock * 4) ≤ f.spareBlock * dev.blockSize :=
    Nat.mul_le_mul_left _ hper
  have hcap := dev.capacity_lt
  rw [← Nat.mul_assoc] at hmul
  refine ⟨?_, hle, by omega⟩
  have hone : wrappingAdd 0 1 = 1 := rfl
  have hspare : wrappingMul f.spareBlock f.perBlock = f.spareBlock * f.perBlock :=
    Nat.mod_eq_of_lt (by omega)
  have htotal : wrappingMul 1 f.count = f.count := by
    unfold wrappingMul
    rw [Nat.one_mul]
    exact Nat.mod_eq_of_lt (by omega)
  unfold nextFirstFragNo
  rw [hone, hspare, htotal]
  exact wrappingAdd_eq (by omega)

/-- After a delete the erase count of the spare block is at least two. -/
lemma two_le_eraseCountOf {mem : Mem} {V : ℕ → Option Block}
    (hv : dev.view mem f.spareBlock = some (spareV V f)) :
    ∃ header, dev.headerAt mem f.spareBlock = some header ∧ 2 ≤ eraseCountOf f mem f.spareBlock := by
  have hheader := BlockDevice.view_header hv
  refine ⟨_, hheader, ?_⟩
  obtain ⟨hfirst, hle, -⟩ := spare_first f
  unfold eraseCountOf
  rw [hheader]
  have hnumber : (spareV V f).header.firstFragNo = f.spareBlock * f.perBlock + f.count := hfirst
  dsimp only
  rw [hnumber, Nat.add_div_right _ f.count_pos]
  have hdiv := Nat.div_pos hle f.count_pos
  omega

lemma bumpFragment_spare {mem : Mem} {version i : ℕ} {bytes : List UInt8} {formatted : ℕ → ℕ} :
    bumpFragment f mem version i bytes formatted f.spareBlock = formatted f.spareBlock := by
  unfold bumpFragment
  split
  next hformats =>
    simp only [formats, decide_eq_true_eq] at hformats
    exact Function.update_of_ne (f.blockOf_ne_spare hformats.1).symm _ _
  · rfl

/-- Writing fragments does not format the spare block. -/
lemma bumpLoop_spare (version i : ℕ) (chunks : List (List UInt8)) (mem : Mem) (formatted : ℕ → ℕ) :
    bumpLoop f version i chunks mem formatted f.spareBlock = formatted f.spareBlock := by
  induction chunks generalizing i mem formatted with
  | nil => rfl
  | cons chunk chunks ih =>
    unfold bumpLoop
    cases (writeFileFragment dev f.toObject version i chunk).eval mem with
    | ok _ mem' =>
      dsimp only
      rw [ih, bumpFragment_spare]
    | err e mem' => exact bumpFragment_spare
    | off mem' => exact bumpFragment_spare

lemma bumpDeleted_spare (f : File dev) : bumpDeleted f (fun _ => 0) f.spareBlock = 1 := by
  unfold bumpDeleted bump
  rw [Function.update_self, Function.update_of_ne f.start_lt_spare.ne']

/-- **The first rewrite** leaves a wrong count. -/
lemma not_numbered_rewritten {call : FileCall} (h : Rewrites f call) :
    ¬ Numbered f (CountedWorld.start.exec f call) := by
  intro hn
  have hcount : (CountedWorld.start.exec f call).formatted f.spareBlock = 1 := by
    cases call with
    | delete => exact bumpDeleted_spare f
    | writeFile bytes =>
      have hlen : ¬ f.capacity < bytes.length := Nat.not_lt.mpr h
      simp only [CountedWorld.exec, if_neg hlen]
      cases (do lock dev f.toObject; Db.delete dev f.toObject : Io Error ℕ).eval
          CountedWorld.start.file.mem with
      | ok version mem =>
        dsimp only
        rw [bumpLoop_spare]
        exact bumpDeleted_spare f
      | err e mem => exact bumpDeleted_spare f
      | off mem => exact bumpDeleted_spare f
    | writeFileFragment handle i bytes => exact h.elim
  have hspare : ∃ V, dev.view (CountedWorld.start.exec f call).file.mem f.spareBlock =
      some (spareV V f) := by
    cases call with
    | delete =>
      obtain ⟨mem, hexec, hv⟩ := exec_delete (inv_start f).toSpareInv
      refine ⟨dev.view FileWorld.start.mem, ?_⟩
      simp only [CountedWorld.exec, CountedWorld.start, hexec, hv]
      exact Function.update_self ..
    | writeFile bytes =>
      have ha : FileWorld.start.Apart f := fun _ _ _ _ hn => by cases hn
      obtain ⟨mem, hexec, hv⟩ := exec_writeFile (inv_start f) ha h
      refine ⟨dev.view FileWorld.start.mem, ?_⟩
      simp only [CountedWorld.exec, CountedWorld.start, hexec, hv]
      exact doneV_spare _ f h
    | writeFileFragment handle i bytes => exact h.elim
  obtain ⟨V, hv⟩ := hspare
  obtain ⟨header, hheader, htwo⟩ := two_le_eraseCountOf hv
  have hright := hn.counts f.spareBlock header f.start_lt_spare.le (spare_lt_end f.toLayout) hheader
  omega

/-- Without a handle nothing is written. -/
lemma exec_start_of_not_rewrites {call : FileCall} (h : ¬ Rewrites f call) :
    CountedWorld.start.exec f call = CountedWorld.start := by
  cases call with
  | delete => exact absurd trivial h
  | writeFile bytes =>
    have hlen : f.capacity < bytes.length := Nat.lt_of_not_le h
    have hfile : FileWorld.start.exec f (.writeFile bytes) = FileWorld.start := by
      have heval : (Db.writeFile dev f.toObject bytes).eval FileWorld.start.mem =
          .err .noSpaceAvailable FileWorld.start.mem := by
        unfold Db.writeFile
        rw [if_pos hlen]
        rfl
      simp only [FileWorld.exec, heval, Outcome.dev]
    simp only [CountedWorld.exec, if_pos hlen, CountedWorld.start, hfile]
  | writeFileFragment handle i bytes => rfl

lemma numbered_start (f : File dev) : Numbered f CountedWorld.start := by
  have hnone : ∀ b, dev.headerAt CountedWorld.start.file.mem b = none := by
    intro b
    have hv : dev.view CountedWorld.start.file.mem b = none := congrFun (BlockDevice.view_erased dev) b
    exact Option.map_eq_none_iff.mp hv
  constructor
  · intro b _ _
    have hlt := f.count_eq.2
    unfold eraseCountOf
    rw [hnone]
    dsimp only
    omega
  · intro b header _ _ hheader
    rw [hnone] at hheader
    cases hheader
  · intro b header _ _ hheader
    rw [hnone] at hheader
    cases hheader

/-- **The numbers are right in every state of a run exactly if nothing is ever formatted in it.** -/
theorem numbered_iff (f : File dev) (calls : List FileCall) :
    (∀ run, run <+: calls → Numbered f (run.foldl (CountedWorld.exec f) .start)) ↔
      ∀ call ∈ calls, ¬ Rewrites f call := by
  induction calls with
  | nil =>
    constructor
    · intro _ call hcall
      cases hcall
    · intro _ run hrun
      rw [List.prefix_nil.mp hrun]
      exact numbered_start f
  | cons call calls ih =>
    by_cases hcall : Rewrites f call
    · constructor
      · intro h
        exact absurd (h [call] ⟨calls, rfl⟩) (not_numbered_rewritten hcall)
      · intro h
        exact absurd hcall (h call List.mem_cons_self)
    · have hquiet := exec_start_of_not_rewrites hcall
      constructor
      · intro h
        have hrest : ∀ call' ∈ calls, ¬ Rewrites f call' := by
          rw [← ih]
          intro run hrun
          have hnumbered := h (call :: run) (List.prefix_cons_inj call |>.mpr hrun)
          rw [List.foldl_cons, hquiet] at hnumbered
          exact hnumbered
        intro call' hmem
        rcases List.mem_cons.mp hmem with rfl | hmem
        · exact hcall
        · exact hrest call' hmem
      · intro h run hrun
        cases run with
        | nil => exact numbered_start f
        | cons call' run =>
          obtain ⟨rfl, hrun'⟩ := List.cons_prefix_cons.mp hrun
          rw [List.foldl_cons, hquiet]
          exact ih.mpr (fun call'' hmem => h call'' (List.mem_cons_of_mem _ hmem)) run hrun'

end Counting

/-- Deleting the sample file once: the spare block, formatted once, has the number 12 of six fragments,
so two times by its header. -/
theorem spare_counted_twice :
    (CountedWorld.start.exec sampleFile .delete).formatted sampleFile.spareBlock = 1 ∧
      eraseCountOf sampleFile (CountedWorld.start.exec sampleFile .delete).file.mem
        sampleFile.spareBlock = 2 ∧
      ¬ Numbered sampleFile (CountedWorld.start.exec sampleFile .delete) :=
  ⟨by decide +kernel, by decide +kernel, not_numbered_rewritten trivial⟩

end SensorLink.Db
