import SensorLink.Db.FileWrite

/-!
# Reading a file that was written

`write_file` leaves the contents, filled up with erased bytes to the end of the last fragment, and blank
fragments behind them. `read_file` returns as much of that as fits into the buffer (`readFileV_doneV`).
-/

namespace SensorLink.Db

open SensorLink.Lib SensorLink.Flash

/-! ### Contents -/

namespace File

variable {dev : BlockDevice} (f : File dev)

/-- Erased bytes between the contents and the end of their last fragment -/
def padding (bytes : List UInt8) : ℕ :=
  (f.fragmentSize - bytes.length % f.fragmentSize) % f.fragmentSize

/-- The contents up to the end of their last fragment -/
def padded (bytes : List UInt8) : List UInt8 := bytes ++ List.replicate (f.padding bytes) erased

lemma padded_nil : f.padded [] = [] := by
  simp [padded, padding]

lemma take_padded (bytes : List UInt8) : (f.padded bytes).take bytes.length = bytes :=
  List.take_left

/-- A full fragment -/
lemma padded_full {bytes : List UInt8} (h : bytes.length = f.fragmentSize) : f.padded bytes = bytes := by
  simp [padded, padding, h]

/-- The first fragment, and the contents behind it. -/
lemma padded_cons {bytes : List UInt8} (hne : bytes ≠ []) :
    f.padded bytes = (f.written (bytes.take f.fragmentSize)).data ++
      f.padded (bytes.drop f.fragmentSize) := by
  have hfs := f.fragmentSize_pos
  have hpos := List.length_pos_iff.mpr hne
  unfold padded padding Layout.written
  dsimp only
  rw [List.length_take, List.length_drop]
  rcases Nat.lt_or_ge f.fragmentSize bytes.length with hlt | hle
  · have hmod : (bytes.length - f.fragmentSize) % f.fragmentSize =
        bytes.length % f.fragmentSize := (Nat.mod_eq_sub_mod hlt.le).symm
    rw [hmod, Nat.min_eq_left hlt.le, Nat.sub_self, List.replicate_zero, List.append_nil,
      ← List.append_assoc, List.take_append_drop]
  · have hzero : bytes.length - f.fragmentSize = 0 := by omega
    have hpad : (f.fragmentSize - bytes.length % f.fragmentSize) % f.fragmentSize =
        f.fragmentSize - bytes.length := by
      rcases hle.lt_or_eq with hlt | heq
      · rw [Nat.mod_eq_of_lt hlt]
        exact Nat.mod_eq_of_lt (by omega)
      · rw [heq, Nat.mod_self, Nat.sub_zero, Nat.mod_self, Nat.sub_self]
    rw [hzero, Nat.zero_mod, Nat.sub_zero, Nat.mod_self, hpad, Nat.min_eq_right hle,
      List.take_of_length_le hle, List.drop_of_length_le hle]
    simp

end File

/-! ### Fragments -/

section Reading

variable {dev : BlockDevice} {f : File dev} {mem : Mem} {data : List UInt8}

/-- Contents of one fragment. -/
lemma chunks_single {n : ℕ} (hn : 0 < n) (hlen : data.length ≤ n) (hne : data ≠ []) :
    chunks n data = [data] := by
  rw [chunks_cons hn hne, List.take_of_length_le hlen, List.drop_of_length_le hlen, chunks_nil]

lemma readFragmentV_of_holds {version i len : ℕ} (hi : i < f.count)
    (h : Holds (dev.view mem) f version i data) :
    readFragmentV (dev.view mem) f version i len =
      .ok ((f.written data).data.take (min len (maxCapacityRemaining f.toObject i))) := by
  obtain ⟨block, hv, hver, hfs, hfrag⟩ := h
  have hlt : ¬ block.header.fragCount ≤ i % f.perBlock := by
    rw [(BlockDevice.view_spec hv).count, hfs]
    exact Nat.not_le.mpr (Nat.mod_lt _ f.perBlock_pos)
  have hvalid : ¬ (f.written data).status ≠ .valid := fun hc => hc rfl
  unfold readFragmentV
  rw [if_neg (Nat.not_le.mpr hi), hv]
  simp only [hver, ne_eq, not_true_eq_false, if_false, if_neg hlt, hfrag]
  rw [if_neg hvalid]

lemma readFragmentV_of_blank {version i len : ℕ} (hi : i < f.count)
    (h : Blank (dev.view mem) f version i) :
    readFragmentV (dev.view mem) f version i len = .error .fragmentNotReadable := by
  unfold readFragmentV
  rw [if_neg (Nat.not_le.mpr hi)]
  cases hv : dev.view mem (f.blockOf i) with
  | none => rfl
  | some block =>
    simp only
    by_cases hver : block.header.objectVersion ≠ version
    · rw [if_pos hver]
    · obtain ⟨hfs, hfrag⟩ := h block hv (not_not.mp hver)
      have hlt : ¬ block.header.fragCount ≤ i % f.perBlock := by
        rw [(BlockDevice.view_spec hv).count, hfs]
        exact Nat.not_le.mpr (Nat.mod_lt _ f.perBlock_pos)
      rw [if_neg hver, if_neg hlt, hfrag, if_pos (by simp)]

lemma chunkLengths_cons {n len : ℕ} (hn : 0 < n) (hlen : 0 < len) :
    chunkLengths n len = min n len :: chunkLengths n (len - n) := by
  have hne : List.replicate len () ≠ [] := by
    rw [ne_eq, List.replicate_eq_nil_iff]
    omega
  unfold chunkLengths
  rw [chunks_cons hn hne, List.map_cons, List.length_take, List.length_replicate,
    List.drop_replicate]

/-- A step of `read_file` over a written fragment. -/
lemma readLoopV_of_holds {version i chunk : ℕ} {lens : List ℕ} {bytes : List UInt8} (hi : i < f.count)
    (h : Holds (dev.view mem) f version i data) (hfits : data.length ≤ f.fragmentSize)
    (hchunk : chunk ≤ f.fragmentSize) (hroom : chunk ≤ maxCapacityRemaining f.toObject i) :
    readLoopV (dev.view mem) f version i (chunk :: lens) bytes =
      readLoopV (dev.view mem) f version (i + 1) lens
        (bytes ++ (f.written data).data.take chunk) := by
  have hread : readChunkV (dev.view mem) f version i chunk bytes =
      .ok ((f.written data).data.take chunk) := by
    unfold readChunkV
    rw [readFragmentV_of_holds hi h, Nat.min_eq_left hroom]
  have hlen : ¬ ((f.written data).data.take chunk).length ≠ chunk := by
    simp only [Layout.written, List.length_take, List.length_append, List.length_replicate]
    omega
  conv_lhs => unfold readLoopV
  rw [if_neg (Nat.not_le.mpr hi), hread]
  simp only [if_neg hlen]

/-! ### The loop -/

/-- The loop of `read_file` over the fragments that hold the contents and the blank ones behind. -/
lemma readLoopV_padded {version len : ℕ} (i : ℕ) (data bytes : List UInt8)
    (hroom : i * f.fragmentSize + len ≤ f.capacity) (hne : data ≠ [] ∨ bytes ≠ [] ∨ len = 0)
    (hholds : ∀ k d, (chunks f.fragmentSize data)[k]? = some d →
      Holds (dev.view mem) f version (i + k) d)
    (hblank : ∀ j < f.count, i + (chunks f.fragmentSize data).length ≤ j →
      Blank (dev.view mem) f version j) :
    readLoopV (dev.view mem) f version i (chunkLengths f.fragmentSize len) bytes =
      .ok (bytes ++ (f.padded data).take len) := by
  have hfs := f.fragmentSize_pos
  have hcap := f.capacity_lt
  induction hn : len using Nat.strong_induction_on generalizing len i data bytes with
  | _ n ih =>
    subst hn
    rcases Nat.eq_zero_or_pos len with rfl | hlen
    · rw [List.take_zero, List.append_nil]
      rfl
    have hi : i < f.count := f.lt_count_of_mul_lt (by omega)
    have hremaining : maxCapacityRemaining f.toObject i = f.capacity - i * f.fragmentSize :=
      wrappingSub_eq (by omega) hcap
    rw [chunkLengths_cons hfs hlen]
    by_cases hdata : data = []
    · -- an empty fragment ends the loop
      subst hdata
      have hpos : 0 < bytes.length := by
        rcases hne with hne | hne | hne
        · exact absurd rfl hne
        · exact List.length_pos_iff.mpr hne
        · omega
      have hchunk : readChunkV (dev.view mem) f version i (min f.fragmentSize len) bytes = .ok [] := by
        unfold readChunkV
        rw [readFragmentV_of_blank hi (hblank i hi (by simp))]
        exact if_pos hpos
      have hshort : ([] : List UInt8).length ≠ min f.fragmentSize len := by
        rw [List.length_nil]
        omega
      unfold readLoopV
      rw [if_neg (Nat.not_le.mpr hi), hchunk, f.padded_nil, List.take_nil]
      simp only [if_pos hshort]
    · rw [chunks_cons hfs hdata] at hholds hblank
      have hwritten : (f.written (data.take f.fragmentSize)).data.length = f.fragmentSize := by
        simp only [Layout.written, List.length_append, List.length_take, List.length_replicate]
        omega
      have hfirst := hholds 0 _ rfl
      rw [readLoopV_of_holds hi hfirst (List.length_take_le _ _) (Nat.min_le_left _ _)
        (by omega)]
      have hnext : bytes ++ (f.written (data.take f.fragmentSize)).data.take (min f.fragmentSize len) ≠
          [] := by
        apply List.ne_nil_of_length_pos
        rw [List.length_append, List.length_take, hwritten]
        omega
      have hroom' : (i + 1) * f.fragmentSize + (len - f.fragmentSize) ≤ f.capacity ∨
          len - f.fragmentSize = 0 := by
        rw [Nat.succ_mul]
        omega
      rw [f.padded_cons hdata, List.take_append, hwritten, ← List.append_assoc]
      have htake : (f.written (data.take f.fragmentSize)).data.take (min f.fragmentSize len) =
          (f.written (data.take f.fragmentSize)).data.take len := by
        rw [Nat.min_comm, ← List.take_take, List.take_of_length_le hwritten.le]
      rw [htake] at hnext ⊢
      rcases hroom' with hroom' | hzero
      · refine ih (len - f.fragmentSize) (by omega) (i + 1) _ _ hroom' (Or.inr (Or.inl hnext)) ?_ ?_ rfl
        · intro k d hk
          rw [show i + 1 + k = i + (k + 1) by omega]
          exact hholds (k + 1) d hk
        · intro j hj hle
          exact hblank j hj (by rw [List.length_cons]; omega)
      · rw [hzero, List.take_zero, List.append_nil]
        rfl

/-- Nothing can be read of a file without contents. -/
lemma readLoopV_blank {version len : ℕ} (hlen : 0 < len)
    (hblank : Blank (dev.view mem) f version 0) :
    readLoopV (dev.view mem) f version 0 (chunkLengths f.fragmentSize len) [] =
      .error .fileNotReadable := by
  have hi : 0 < f.count := f.count_pos
  have hchunk : readChunkV (dev.view mem) f version 0 (min f.fragmentSize len) [] =
      .error .fileNotReadable := by
    unfold readChunkV
    rw [readFragmentV_of_blank hi hblank]
    exact if_neg (lt_irrefl 0)
  rw [chunkLengths_cons f.fragmentSize_pos hlen]
  unfold readLoopV
  rw [if_neg (Nat.not_le.mpr hi), hchunk]

/-- What is read back of contents that were just written. -/
def readsBack (f : File dev) (bytes : List UInt8) (len : ℕ) : Except Error (List UInt8) :=
  if bytes = [] ∧ 0 < min len f.capacity then .error .fileNotReadable
  else .ok ((f.padded bytes).take (min len f.capacity))

/-- `read_file` after `write_file`. -/
lemma readFileV_doneV {V : ℕ → Option Block} {bytes : List UInt8} (hclash : NoClash V f)
    (hlen : bytes.length ≤ f.capacity) (hv : dev.view mem = doneV V f bytes) (len : ℕ) :
    readFileV (dev.view mem) f len = readsBack f bytes len := by
  have hhandle : fileHandleV (dev.view mem) f = .ok (versionV V f) :=
    fileHandleV_of_fresh ((congrFun hv f.spareBlock).trans (doneV_spare _ f hlen))
  have hholds : ∀ k d, (chunks f.fragmentSize bytes)[k]? = some d →
      Holds (dev.view mem) f (versionV V f) (0 + k) d := by
    intro k d hk
    rw [hv]
    exact holds_loopV 0 _ hk
  have hblank : ∀ j < f.count, 0 + (chunks f.fragmentSize bytes).length ≤ j →
      Blank (dev.view mem) f (versionV V f) j := by
    intro j hj hle
    rw [hv]
    exact blank_loopV 0 _ (blank_deletedV hclash hj) hle
  unfold readFileV readsBack
  rw [hhandle]
  dsimp only
  split
  next hempty =>
    obtain ⟨rfl, hpos⟩ := hempty
    exact readLoopV_blank hpos (hblank 0 f.count_pos le_rfl)
  next hempty =>
    have hne : bytes ≠ [] ∨ ([] : List UInt8) ≠ [] ∨ min len f.capacity = 0 := by
      rw [not_and_or] at hempty
      rcases hempty with hempty | hempty
      · exact Or.inl hempty
      · exact Or.inr (Or.inr (by omega))
    rw [readLoopV_padded 0 bytes [] (by omega) hne hholds hblank, List.nil_append]

end Reading

end SensorLink.Db
