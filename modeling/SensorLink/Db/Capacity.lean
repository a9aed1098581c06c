import SensorLink.Db.FileAtomic

/-!
# Objects that override their capacity

`read_file_fragment` and `write_file_fragment` check the index of a fragment against the number of
fragments in the blocks of the object, and the length of the buffer against what is left of its
capacity behind the fragments in front. A capacity that ends in front of the last fragment leaves
less than nothing for it, and the difference wraps.
-/

namespace SensorLink.Db

open SensorLink.Lib SensorLink.Flash

section Bounds

variable (dev : BlockDevice) (o : Object)

/-- Byte `k` of fragment `index` is in front of the end of the object. -/
def InCapacity (index k : ℕ) : Prop := index * o.fragmentSize + k < o.capacity

/-- What is left of the capacity is never below zero, and a call that succeeds only touches bytes within
the capacity, whatever the device does. -/
structure CapacityRespected : Prop where
  noUnderflow : ∀ index < o.fragmentCount dev.blockSize, index * o.fragmentSize ≤ o.capacity
  reads : ∀ version index len d bytes d',
    (readFileFragment dev o version index len).run d = .ok bytes d' →
      ∀ k < bytes.length, InCapacity o index k
  writes : ∀ version index bytes d d',
    (writeFileFragment dev o version index bytes).run d = .ok () d' →
      ∀ k < bytes.length, InCapacity o index k

end Bounds

variable {dev : BlockDevice} {o : Object}

/-! ### What a successful call was given -/

/-- A read returns no more than its buffer holds. -/
lemma wp_readFragment_length (block : BlockHeader) (fragNo len : ℕ) (mem : Mem) :
    Dev.wp (Dev.allFaults Fate) (dev.readFragment block fragNo len) (fun bytes _ => bytes.length ≤ len)
      (fun _ _ => True) (fun _ => True) mem := by
  unfold BlockDevice.readFragment BlockDevice.readFragmentAtOffset
  apply Dev.wp_seq (R := fun _ _ => True)
  · exact Dev.wp_allFaults (fun _ _ => trivial) (fun _ _ => trivial) (fun _ => trivial)
  · intro status mem' _
    split
    · exact Dev.wp_throw trivial
    · exact Dev.wp_throw trivial
    · exact Dev.wp_throw trivial
    · unfold BlockDevice.readRawFragment
      split
      · exact Dev.wp_throw trivial
      · apply Dev.wp_seq (R := fun _ _ => True)
        · exact Dev.wp_allFaults (fun _ _ => trivial) (fun _ _ => trivial) (fun _ => trivial)
        · intro blockAddr mem'' _
          apply Dev.wp_mapErr
          apply Dev.wp_read
          · intro _
            trivial
          · split
            next hread =>
              split at hread
              · cases hread
              · cases hread
                rw [length_readMem]
                exact Nat.min_le_left _ _
            · trivial

lemma readFileFragment_ok {version index len : ℕ} {d d' : Device Mem Fate} {bytes : List UInt8}
    (h : (readFileFragment dev o version index len).run d = .ok bytes d') :
    index < o.fragmentCount dev.blockSize ∧ bytes.length ≤ maxCapacityRemaining o index := by
  unfold readFileFragment at h
  split at h
  · cases h
  next hindex =>
    refine ⟨by omega, ?_⟩
    refine Dev.wp_run (Q := fun bytes _ => bytes.length ≤ maxCapacityRemaining o index)
      (E := fun _ _ => True) (O := fun _ => True) ?_ h
    apply Dev.wp_seq (R := fun _ _ => True)
    · exact Dev.wp_allFaults (fun _ _ => trivial) (fun _ _ => trivial) (fun _ => trivial)
    · intro header mem' _
      split
      · exact Dev.wp_throw trivial
      · split
        · exact Dev.wp_throw trivial
        · apply Dev.wp_mapErr
          refine Dev.wp_mono (wp_readFragment_length _ _ _ mem') ?_ (fun _ _ => id) (fun _ => id)
          intro bytes _ hlen
          exact hlen.trans (Nat.min_le_right _ _)

lemma writeFileFragment_ok {version index : ℕ} {bytes : List UInt8} {d d' : Device Mem Fate}
    (h : (writeFileFragment dev o version index bytes).run d = .ok () d') :
    index < o.fragmentCount dev.blockSize ∧ bytes.length ≤ maxCapacityRemaining o index := by
  unfold writeFileFragment at h
  split at h
  · cases h
  next hindex =>
    split at h
    · cases h
    next hroom => exact ⟨by omega, by omega⟩

/-- Where the difference does not wrap, it leaves only bytes within the capacity. -/
lemma inCapacity_of_room {index k : ℕ} (hcap : o.capacity < 2 ^ 32)
    (hle : index * o.fragmentSize ≤ o.capacity) (hk : k < maxCapacityRemaining o index) :
    InCapacity o index k := by
  unfold maxCapacityRemaining at hk
  rw [wrappingSub_eq hle hcap] at hk
  unfold InCapacity
  omega

/-! ### Behind the capacity -/

/-- What is left for a fragment behind the capacity has wrapped. -/
lemma one_le_room {f : File dev} {index : ℕ} (hindex : index < f.count)
    (hbehind : f.capacity < index * f.fragmentSize) : 1 ≤ maxCapacityRemaining f.toObject index := by
  have hfull : f.count * f.fragmentSize < 2 ^ 32 :=
    (⟨{ f.toLayout with capacity := f.count * f.fragmentSize }, le_rfl⟩ : File dev).capacity_lt
  have hlt : index * f.fragmentSize < 2 ^ 32 :=
    (Nat.mul_le_mul_right _ hindex.le).trans_lt hfull
  unfold maxCapacityRemaining
  rw [wrappingSub_of_lt hbehind hlt]
  omega

/-- **Bytes behind the capacity**: a fragment of a file that starts there can be written, on an erased
flash. -/
theorem exists_write_behind (f : File dev) {index : ℕ} (hindex : index < f.count)
    (hbehind : f.capacity < index * f.fragmentSize) :
    ∃ mem', (writeFileFragment dev f.toObject 0 index [0]).eval (fun _ => erased) = .ok () mem' ∧
      ¬ InCapacity f.toObject index 0 := by
  have hblank : Blank (dev.view fun _ => erased) f 0 index := by
    intro block hv
    rw [BlockDevice.view_erased] at hv
    cases hv
  have hwriteable : Writeable (dev.view fun _ => erased) f 0 index [0] :=
    hblank.writeable hindex (one_le_room hindex hbehind) f.fragmentSize_pos
  obtain ⟨_, mem', heval, -⟩ := Dev.exists_eval (Q := fun _ _ => True)
    (@wp_writeFileFragment _ f False _ _ _ _ 0 index [0] (by decide) (fun _ _ => hblank.prepared)
      (fun _ _ _ => trivial) (fun hno => absurd ⟨hindex, one_le_room hindex hbehind⟩ hno)
      (fun _ _ hno => absurd hwriteable hno) False.elim)
  refine ⟨mem', heval, ?_⟩
  unfold InCapacity
  omega

/-- **When the capacity is respected**: the last fragment starts within it. -/
theorem capacityRespected_iff (dev : BlockDevice) (o : Object) (hcap : o.capacity < 2 ^ 32) :
    CapacityRespected dev o ↔ (o.fragmentCount dev.blockSize - 1) * o.fragmentSize ≤ o.capacity := by
  constructor
  · intro h
    cases hcount : o.fragmentCount dev.blockSize with
    | zero => simp
    | succ last =>
      exact h.noUnderflow last (by omega)
  · intro hlast
    have hle : ∀ index < o.fragmentCount dev.blockSize, index * o.fragmentSize ≤ o.capacity := by
      intro index hindex
      have hmul : index * o.fragmentSize ≤ (o.fragmentCount dev.blockSize - 1) * o.fragmentSize :=
        Nat.mul_le_mul_right _ (by omega)
      exact hmul.trans hlast
    refine ⟨hle, ?_, ?_⟩
    · intro version index len d bytes d' hrun k hk
      obtain ⟨hindex, hroom⟩ := readFileFragment_ok hrun
      exact inCapacity_of_room hcap (hle index hindex) (by omega)
    · intro version index bytes d d' hrun k hk
      obtain ⟨hindex, hroom⟩ := writeFileFragment_ok hrun
      exact inCapacity_of_room hcap (hle index hindex) (by omega)

/-- A file of six fragments of two bytes whose capacity ends in the second one -/
def shortFile : File sampleDevice :=
  { sampleFile with
    capacity := 3
    capacity_le := (show 3 ≤ sampleFile.capacity by decide).trans sampleFile.capacity_le }

/-- The same with a capacity that ends in the last fragment -/
theorem capacityRespected_iff_sample :
    CapacityRespected sampleDevice { shortFile.toObject with capacity := 11 } :=
  (capacityRespected_iff sampleDevice { shortFile.toObject with capacity := 11 } (by decide)).mpr
    (by decide)

/-- Fragment 3 is written three bytes behind the capacity of three, and is read back. -/
theorem write_behind_capacity :
    (∃ mem' mem'', (writeFileFragment sampleDevice shortFile.toObject 0 3 [7]).eval (fun _ => erased) =
      .ok () mem' ∧
      (readFileFragment sampleDevice shortFile.toObject 0 3 1).eval mem' = .ok [7] mem'') ∧
    ¬ CapacityRespected sampleDevice shortFile.toObject := by
  constructor
  · exact ⟨_, _, rfl, rfl⟩
  · intro h
    have hle := h.noUnderflow 3 (by decide)
    revert hle
    decide

end SensorLink.Db
