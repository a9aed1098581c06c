import SensorLink.Db.FileStore
import SensorLink.Db.Layout
import SensorLink.Flash.BlockSpec

/-!
# Files as their readers see them

What `lock_status`, `file_handle`, `read_file_fragment` and `read_file` return is a function of the view
of the blocks: `lockStatusV`, `readFragmentV` and `readFileV` are these functions, and the `wp` lemmas
say that the code computes them and changes nothing.
-/

namespace SensorLink.Db

open SensorLink.Lib SensorLink.Flash

/-- A file has no more capacity than fragments. -/
structure File (dev : BlockDevice) extends Layout dev where
  capacity_le : capacity ≤ toObject.fragmentCount dev.blockSize * fragmentSize

namespace File

variable {dev : BlockDevice} (f : File dev)

/-- Fragments with data of the file are below the number of fragments. -/
lemma lt_count_of_mul_lt {i : ℕ} (h : i * f.fragmentSize < f.capacity) : i < f.count :=
  Nat.lt_of_mul_lt_mul_right (h.trans_le f.capacity_le)

lemma capacity_lt : f.capacity < 2 ^ 32 := by
  have hper : f.perBlock * (f.fragmentSize + 3) ≤ dev.blockSize :=
    (Nat.div_mul_le_self _ _).trans (Nat.sub_le _ _)
  have hblocks : (f.blocksEnd - f.blocksStart - 1) * dev.blockSize + dev.blockSize ≤ dev.capacity :=
    BlockDevice.addr_lt_capacity (by have := f.two_blocks; have := f.blocks_le; omega)
  have hcap := dev.capacity_lt
  calc f.capacity ≤ f.count * f.fragmentSize := f.capacity_le
    _ = (f.blocksEnd - f.blocksStart - 1) * (f.perBlock * f.fragmentSize) := by
      rw [f.count_eq.1]
      ring
    _ ≤ (f.blocksEnd - f.blocksStart - 1) * dev.blockSize :=
      Nat.mul_le_mul_left _ ((Nat.mul_le_mul_left _ (Nat.le_add_right _ 3)).trans hper)
    _ < 2 ^ 32 := by omega

end File

/-! ### What readers see -/

section View

variable {dev : BlockDevice} (V : ℕ → Option Block) (f : File dev)

def lockStatusV : Except Error LockStatus :=
  match V f.spareBlock with
  | none => .ok .locked
  | some spare =>
    if f.id ≠ spare.header.objectId then .error .corrupt
    else if (spare.frag 0).status ≠ .empty then .ok .locked
    else .ok (.unlocked spare.header.objectVersion)

def fileHandleV : Except Error ℕ :=
  match lockStatusV V f with
  | .error e => .error e
  | .ok .locked => .error .fileNotReadable
  | .ok (.unlocked version) => .ok version

def readFragmentV (version i len : ℕ) : Except Error (List UInt8) :=
  if f.count ≤ i then .error .noSpaceAvailable
  else match V (f.blocksStart + i / f.perBlock) with
    | none => .error .fragmentNotReadable
    | some block =>
      if block.header.objectVersion ≠ version then .error .fragmentNotReadable
      else if block.header.fragCount ≤ i % f.perBlock then .error .fragmentNotFound
      else if (block.frag (i % f.perBlock)).status ≠ .valid then .error .fragmentNotReadable
      else .ok ((block.frag (i % f.perBlock)).data.take
        (min len (maxCapacityRemaining f.toObject i)))

def readChunkV (version i chunk : ℕ) (bytes : List UInt8) : Except Error (List UInt8) :=
  match readFragmentV V f version i chunk with
  | .error .fragmentNotReadable => if 0 < bytes.length then .ok [] else .error .fileNotReadable
  | .error e => .error e
  | .ok chunkRead => .ok chunkRead

def readLoopV (version : ℕ) : ℕ → List ℕ → List UInt8 → Except Error (List UInt8)
  | _, [], bytes => .ok bytes
  | i, chunk :: chunks, bytes =>
    if f.count ≤ i then .ok bytes
    else match readChunkV V f version i chunk bytes with
      | .error e => .error e
      | .ok chunkRead =>
        if chunkRead.length ≠ chunk then .ok (bytes ++ chunkRead)
        else readLoopV version (i + 1) chunks (bytes ++ chunkRead)

def readFileV (len : ℕ) : Except Error (List UInt8) :=
  match fileHandleV V f with
  | .error e => .error e
  | .ok version => readLoopV V f version 0 (chunkLengths f.fragmentSize (min len f.capacity)) []

end View

section Spec

variable {dev : BlockDevice} {f : File dev} {errors cuts reads : Prop} {mem : Mem} {O : Mem → Prop}
variable {E : Error → Mem → Prop}

/-- The end of a program that returns `r` and changes nothing. -/
def Returns {α : Type} (r : Except Error α) (Q : α → Mem → Prop) (E : Error → Mem → Prop)
    (mem : Mem) : Prop :=
  match r with
  | .ok a => Q a mem
  | .error e => E e mem

@[simp]
lemma returns_ok {α : Type} {a : α} {Q : α → Mem → Prop} : Returns (.ok a) Q E mem = Q a mem := rfl

@[simp]
lemma returns_error {α : Type} {e : Error} {Q : α → Mem → Prop} :
    Returns (.error e) Q E mem = E e mem := rfl

theorem wp_lockStatus {Q : LockStatus → Mem → Prop} (hfault : reads → E .flash mem)
    (h : Returns (lockStatusV (dev.view mem) f) Q E mem) :
    Dev.wp (faults errors cuts reads) (lockStatus dev f.toObject) Q E O mem := by
  refine Dev.wp_bind (Dev.wp_mapErr (BlockDevice.wp_blockHeader f.spare_lt hfault ?_))
  unfold lockStatusV at h
  cases hv : dev.view mem f.spareBlock with
  | none =>
    rw [hv] at h
    exact Dev.wp_pure h
  | some spare =>
    have hspec := BlockDevice.view_spec hv
    have hrel : spare.header.relFragNo spare.header.firstFragNo = 0 := by
      rw [BlockHeader.relFragNo, wrappingSub_eq le_rfl hspec.first, Nat.sub_self]
    rw [hv] at h
    simp only [Option.map_some] at h ⊢
    by_cases hid : f.id ≠ spare.header.objectId
    · rw [if_pos hid] at h ⊢
      exact Dev.wp_throw h
    · rw [if_neg hid] at h ⊢
      refine Dev.wp_bind (Dev.wp_mapErr (BlockDevice.wp_fragmentStatus f.spare_lt hv
        (by rw [hrel]; exact hspec.pos) hfault ?_))
      rw [hrel]
      split at h
      next hst =>
        rw [if_pos hst]
        exact Dev.wp_pure h
      next hst =>
        rw [if_neg hst]
        exact Dev.wp_pure h

theorem wp_fileHandle {Q : ℕ → Mem → Prop} (hfault : reads → E .flash mem)
    (h : Returns (fileHandleV (dev.view mem) f) Q E mem) :
    Dev.wp (faults errors cuts reads) (fileHandle dev f.toObject) Q E O mem := by
  refine Dev.wp_bind (wp_lockStatus hfault ?_)
  unfold fileHandleV at h
  cases hl : lockStatusV (dev.view mem) f with
  | error e =>
    rw [hl] at h
    exact h
  | ok status =>
    rw [hl] at h
    rw [returns_ok]
    cases status with
    | unlocked version => exact Dev.wp_pure h
    | locked => exact Dev.wp_throw h

theorem wp_readFileFragment {version i len : ℕ} {Q : List UInt8 → Mem → Prop}
    (hfault : reads → E .flash mem)
    (h : Returns (readFragmentV (dev.view mem) f version i len) Q E mem) :
    Dev.wp (faults errors cuts reads) (readFileFragment dev f.toObject version i len) Q E O mem := by
  unfold readFileFragment blockNoOf
  unfold readFragmentV at h
  by_cases hi : f.count ≤ i
  · rw [if_pos hi] at h ⊢
    exact Dev.wp_throw h
  · rw [if_neg hi] at h ⊢
    have hblock : f.blocksStart + i / f.perBlock < dev.blocksTotal :=
      (f.block_lt (by omega)).trans f.spare_lt
    refine Dev.wp_bind (Dev.wp_mapErr (BlockDevice.wp_blockHeader hblock hfault ?_))
    cases hv : dev.view mem (f.blocksStart + i / f.perBlock) with
    | none =>
      rw [hv] at h
      exact Dev.wp_throw h
    | some block =>
      rw [hv] at h
      simp only [Option.map_some] at h ⊢
      by_cases hver : block.header.objectVersion ≠ version
      · rw [if_pos hver] at h ⊢
        exact Dev.wp_throw h
      · rw [if_neg hver] at h ⊢
        have hspec := BlockDevice.view_spec hv
        have hrel : block.header.relFragNo (wrappingAdd block.header.firstFragNo
            (i % f.perBlock)) = i % f.perBlock :=
          wrappingSub_wrappingAdd hspec.first (f.mod_lt i)
        refine Dev.wp_mapErr ?_
        by_cases hlt : block.header.fragCount ≤ i % f.perBlock
        · rw [if_pos hlt] at h
          exact BlockDevice.wp_readFragment_notFound (by rw [hrel]; exact hlt) h
        · rw [if_neg hlt] at h
          refine BlockDevice.wp_readFragmentAtOffset hblock hv hrel (by omega) (Nat.zero_le _) hfault
            (fun hst => ?_) (fun hst => ?_)
          · rwa [if_neg (by simp [hst])] at h
          · rw [if_pos hst, returns_error] at h
            revert hst
            cases (block.frag (i % f.perBlock)).status with
            | valid => exact fun hst => absurd rfl hst
            | empty => exact fun _ => h
            | invalid => exact fun _ => h
            | obsolete => exact fun _ => h

lemma wp_readFileChunk {version i chunk : ℕ} {bytes : List UInt8} {Q : List UInt8 → Mem → Prop}
    (hfault : reads → E .flash mem)
    (h : Returns (readChunkV (dev.view mem) f version i chunk bytes) Q E mem) :
    Dev.wp (faults errors cuts reads) (readFileChunk dev f.toObject version i chunk bytes)
      Q E O mem := by
  refine Dev.wp_bind (Dev.wp_attempt (wp_readFileFragment (fun hr => Dev.wp_throw (hfault hr)) ?_))
  unfold readChunkV at h
  cases hr : readFragmentV (dev.view mem) f version i chunk with
  | ok chunkRead =>
    rw [hr] at h
    rw [returns_ok]
    exact Dev.wp_pure h
  | error e =>
    rw [hr] at h
    rw [returns_error]
    by_cases he : e = .fragmentNotReadable
    · subst he
      simp only at h ⊢
      split at h
      next hpos =>
        rw [if_pos hpos]
        exact Dev.wp_pure h
      next hpos =>
        rw [if_neg hpos]
        exact Dev.wp_throw h
    · cases e
      all_goals first | exact absurd rfl he | exact Dev.wp_throw h

theorem wp_readFileLoop {version : ℕ} {Q : List UInt8 → Mem → Prop} (hfault : reads → E .flash mem)
    (i : ℕ) (lens : List ℕ) (bytes : List UInt8)
    (h : Returns (readLoopV (dev.view mem) f version i lens bytes) Q E mem) :
    Dev.wp (faults errors cuts reads) (readFileLoop dev f.toObject version i lens bytes) Q E O mem := by
  induction lens generalizing i bytes with
  | nil => exact Dev.wp_pure h
  | cons chunk lens ih =>
    unfold readFileLoop
    unfold readLoopV at h
    by_cases hi : f.count ≤ i
    · rw [if_pos hi] at h ⊢
      exact Dev.wp_pure h
    · rw [if_neg hi] at h ⊢
      refine Dev.wp_bind (wp_readFileChunk hfault ?_)
      cases hr : readChunkV (dev.view mem) f version i chunk bytes with
      | error e =>
        rw [hr] at h
        exact h
      | ok chunkRead =>
        rw [hr] at h
        rw [returns_ok]
        simp only at h
        split at h
        next hne =>
          rw [if_pos hne]
          exact Dev.wp_pure h
        next hne =>
          rw [if_neg hne]
          exact ih _ _ h

theorem wp_readFile {len : ℕ} {Q : List UInt8 → Mem → Prop} (hfault : reads → E .flash mem)
    (h : Returns (readFileV (dev.view mem) f len) Q E mem) :
    Dev.wp (faults errors cuts reads) (readFile dev f.toObject len) Q E O mem := by
  refine Dev.wp_bind (wp_fileHandle hfault ?_)
  unfold readFileV at h
  cases hl : fileHandleV (dev.view mem) f with
  | error e =>
    rw [hl] at h
    exact h
  | ok version =>
    rw [hl] at h
    exact wp_readFileLoop hfault _ _ _ h

/-- What `read_file` returns on a working device. -/
def readBack (f : File dev) (mem : Mem) (len : ℕ) : Option (Except Error (List UInt8)) :=
  match (readFile dev f.toObject len).eval mem with
  | .ok bytes _ => some (.ok bytes)
  | .err e _ => some (.error e)
  | .off _ => none

lemma readBack_eq (f : File dev) (mem : Mem) (len : ℕ) :
    readBack f mem len = some (readFileV (dev.view mem) f len) := by
  have hwp : Dev.wp (faults False False False) (readFile dev f.toObject len)
      (fun bytes _ => readFileV (dev.view mem) f len = .ok bytes)
      (fun e _ => readFileV (dev.view mem) f len = .error e) (fun _ => False) mem := by
    refine wp_readFile (fun h => h.elim) ?_
    cases readFileV (dev.view mem) f len <;> rfl
  have heval := Dev.wp_eval hwp
  unfold readBack
  revert heval
  cases (readFile dev f.toObject len).eval mem with
  | ok bytes m => exact fun heval => by rw [heval]
  | err e m => exact fun heval => by rw [heval]
  | off m => exact False.elim

end Spec

end SensorLink.Db
