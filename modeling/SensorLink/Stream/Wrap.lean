import SensorLink.Peek.Wrap
import SensorLink.Stream.World

/-!
# Sequence numbers at the wrap

What it would take for the numbers to wrap like any others, for a circular and the number that it starts
with. No circular meets it: `MAX_PEEKS` does not divide `2 ^ 32`, so the search for a reader overflows
once the reads come to the last number (`wrapsSafely_never`). The writes and the recovery are safe as long as
the last block ends before the wrap (`writes_before_wrap`).
-/

namespace SensorLink.Stream

open SensorLink.Lib SensorLink.Flash SensorLink.Db RingBuffer

variable {dev : BlockDevice}

section Sums

variable (dev : BlockDevice) (c : Circular)

/-- The sums `seq_no + 1` of a search in a block, before they wrap -/
def searchSums (stops : FragmentStatus → Bool) (block : BlockHeader) : ℕ → ℕ → Io Error (List ℕ)
  | 0, _ => pure []
  | k + 1, seqNo => do
    let status ← Dev.mapErr Error.ofRead (dev.fragmentStatus block seqNo)
    if stops status then pure []
    else do
      let sums ← searchSums stops block k (wrappingAdd seqNo 1)
      pure ((seqNo + 1) :: sums)

/-- Those of `find_circular_range` -/
def rangeSums : Io Error (List ℕ) := do
  let scan ← scanLoop dev c (List.range' c.blocksStart (c.blocksEnd - 1 - c.blocksStart))
    ⟨none, none, none⟩
  match scan.data with
  | none => pure []
  | some (readBlock, writeBlock) => do
    let first ← searchSums dev (fun s => s = .empty ∨ s = .valid) readBlock readBlock.fragCount
      readBlock.firstFragNo
    let last ← searchSums dev (fun s => s = .empty) writeBlock writeBlock.fragCount
      writeBlock.firstFragNo
    pure (first ++ last)

end Sums

variable (c : RingBuffer dev)

/-- The sums of the range recovery on a flash -/
def recoverySums (mem : Mem) : Option (List ℕ) :=
  match (rangeSums dev c.toCircular).eval mem with
  | .ok sums _ => some sums
  | _ => none

/-- The flash after the items were written in order from `n` on, none if a write is refused -/
def writeInOrder : ℕ → List (List UInt8) → Mem → Option Mem
  | _, [], mem => some mem
  | n, item :: items, mem =>
    match (writeCircularFragment dev c.toCircular n item).eval mem with
    | .ok _ mem => writeInOrder (wrappingAdd n 1) items mem
    | _ => none

/-- The peeks of a queue that starts with `n`: no sum of the search overflows, and the sequence number
of each slot belongs to it. -/
def PeeksWrap (n : ℕ) : Prop :=
  ∀ w, Reach Peek.World.exec (fun _ op => op.InRun) (Peek.startAt maxPeeks c.count c.perBlock n) w →
    ∀ q ∈ w.queue.emptyVisits, q.slotSum < 2 ^ 32 ∧ Peek.slotOf maxPeeks (q.slotSeqNo q.slotIndex) =
      q.slotIndex

/-- The items that are written in order from the block of `n` on, on a flash that was not used, are all
accepted; the last one can be read and deleted; and no sum of the range recovery overflows. -/
def WritesWrap (n : ℕ) : Prop :=
  ∀ mem, (∀ q, dev.view mem (c.chunkBlock q) = none) → ∀ items : List (List UInt8), ∀ item,
    (∀ i ∈ items ++ [item], i.length ≤ c.fragmentSize) →
    let last := wrappingAdd (n / c.perBlock * c.perBlock) items.length
    ∃ mem', writeInOrder c (n / c.perBlock * c.perBlock) (items ++ [item]) mem = some mem' ∧
      (readCircularFragment dev c.toCircular last item.length).eval mem' = .ok item mem' ∧
      (∃ mem'', (deleteCircularFragment dev c.toCircular last).eval mem' = .ok () mem'') ∧
      ∃ sums, recoverySums c mem' = some sums ∧ ∀ sum ∈ sums, sum < 2 ^ 32

/-- The sequence numbers from `n` on wrap like any others. -/
structure WrapsSafely (n : ℕ) : Prop where
  peeks : PeeksWrap c n
  writes : c.overwriteOnFull = true → WritesWrap c n

/-! ### Before the wrap -/

section Before

variable {c : RingBuffer dev} {mem : Mem} {F : ℕ}

/-- A write at the frontier of a circular that may overwrite -/
lemma write_frontier (h : RingInv c (dev.view mem) F) (hover : c.overwriteOnFull = true)
    (hlast : F / c.perBlock * c.perBlock + c.perBlock < 2 ^ 32) {item : List UInt8}
    (hfit : item.length ≤ c.fragmentSize) : ∃ mem',
    (writeCircularFragment dev c.toCircular F item).eval mem = .ok () mem' ∧
      RingInv c (dev.view mem') (F + 1) ∧ c.slot (dev.view mem') F = some (c.written item) := by
  have hwp : Dev.wp (faults False False False) (writeCircularFragment dev c.toCircular F item)
      (fun _ mem' => RingInv c (dev.view mem') (F + 1) ∧ c.slot (dev.view mem') F = some (c.written item))
      (fun _ _ => False) (fun _ => False) mem := by
    refine wp_writeCircularFragment h.own hlast (fun fr hfr _ => h.unused F fr le_rfl hfr)
      (fun mem' V hV hfresh _ hv => ?_) (fun fr hfr hst _ _ => ?_) (fun hnone hne => ?_) (fun hfull => ?_)
      (fun hlong => absurd hfit (Nat.not_le.mpr hlong)) (fun he => by simp at he) False.elim
    · have hslot : c.slot (dev.view mem') F = some (c.written item) := by
        rw [hv, slot_setSlot hfresh, if_pos rfl]
      have heff : WriteEffect c (dev.view mem) F (fun fr => fr = c.written item) (dev.view mem') := by
        rw [hv]
        exact .filled V _ hV hfresh rfl
      have hvalid : ∀ fr, fr = c.written item → fr.status ≠ .empty := by
        rintro fr rfl
        exact (by decide : FragmentStatus.valid ≠ .empty)
      obtain ⟨F', hmoved⟩ := h.effect heff hvalid le_rfl (fun hlt => absurd hlt (lt_irrefl F)) hlast
      rcases hmoved.frontier with rfl | ⟨rfl, -⟩
      · -- an unused fragment is empty
        exact absurd (congrArg Frag.status (hmoved.ring.unused F' _ le_rfl hslot))
          (by decide : FragmentStatus.valid ≠ .empty)
      · exact ⟨hmoved.ring, hslot⟩
    · rw [h.unused F fr le_rfl hfr] at hst
      exact hst (Frag.fresh_status _)
    · exact (h.current hne).slot hnone
    · rw [hover] at hfull
      cases hfull
  obtain ⟨⟨⟩, mem', heval, hpost⟩ := Dev.exists_eval hwp
  exact ⟨mem', heval, hpost⟩

/-- The items are all written, and the frontier is behind the last one. -/
lemma writeInOrder_frontier (hover : c.overwriteOnFull = true) (items : List (List UInt8))
    (item : List UInt8) (h : RingInv c (dev.view mem) F)
    (hfit : ∀ i ∈ items ++ [item], i.length ≤ c.fragmentSize)
    (hlast : F + items.length + c.perBlock < 2 ^ 32) : ∃ mem',
    writeInOrder c F (items ++ [item]) mem = some mem' ∧
      RingInv c (dev.view mem') (F + items.length + 1) ∧
      c.slot (dev.view mem') (F + items.length) = some (c.written item) := by
  induction items generalizing F mem with
  | nil =>
    have hstart : F / c.perBlock * c.perBlock ≤ F := Nat.div_mul_le_self F c.perBlock
    rw [List.length_nil, Nat.add_zero] at hlast ⊢
    obtain ⟨mem', heval, hring, hslot⟩ := write_frontier h hover (by omega) (hfit item (by simp))
    refine ⟨mem', ?_, hring, hslot⟩
    simp only [List.nil_append, writeInOrder, heval]
  | cons first items ih =>
    have hstart : F / c.perBlock * c.perBlock ≤ F := Nat.div_mul_le_self F c.perBlock
    rw [List.length_cons] at hlast ⊢
    obtain ⟨mem₁, heval, hring, -⟩ := write_frontier h hover (by omega) (hfit first (by simp))
    obtain ⟨mem', hwrite, hring', hslot⟩ := ih hring
      (fun i hi => hfit i (List.mem_cons_of_mem _ hi)) (by omega)
    have hnext : wrappingAdd F 1 = F + 1 := wrappingAdd_eq (by have := c.perBlock_pos; omega)
    have hsum : F + 1 + items.length = F + (items.length + 1) := by omega
    rw [hsum] at hring' hslot
    refine ⟨mem', ?_, hring', hslot⟩
    simp only [List.cons_append, writeInOrder, heval, hnext]
    exact hwrite

/-- The sums of a search in a block that ends before the wrap -/
lemma wp_searchSums {stops : FragmentStatus → Bool} {b q : ℕ} {block : Block}
    (hv : dev.view mem b = some block) (hb : b < dev.blocksTotal) (hc : c.IsChunk block q) (k i : ℕ)
    (hi : i + k = c.perBlock) :
    Dev.wp (faults False False False) (searchSums dev stops block.header k (q * c.perBlock + i))
      (fun sums mem' => mem' = mem ∧ ∀ sum ∈ sums, sum < 2 ^ 32) (fun _ _ => False) (fun _ => False) mem := by
  have hlast := hc.last
  induction k generalizing i with
  | zero => exact Dev.wp_pure ⟨rfl, by simp⟩
  | succ k ih =>
    have hrel : block.header.relFragNo (q * c.perBlock + i) = i := by
      rw [BlockHeader.relFragNo, hc.first, wrappingSub_eq (Nat.le_add_right _ _) (by omega)]
      omega
    have hlt : i < block.header.fragCount := by
      rw [(BlockDevice.view_spec hv).count, hc.size]
      exact (by omega : i < c.perBlock)
    refine Dev.wp_bind (Dev.wp_mapErr (BlockDevice.wp_fragmentStatus hb hv (by rw [hrel]; exact hlt)
      False.elim ?_))
    split
    · exact Dev.wp_pure ⟨rfl, by simp⟩
    · rw [wrappingAdd_eq (by omega), Nat.add_assoc]
      refine Dev.wp_bind (Dev.wp_mono (ih (i + 1) (by omega)) ?_ (fun _ _ => id) fun _ => id)
      rintro sums mem' ⟨rfl, hsums⟩
      refine Dev.wp_pure ⟨rfl, fun sum hsum => ?_⟩
      rcases List.mem_cons.mp hsum with rfl | hsum
      · omega
      · exact hsums sum hsum

/-- No sum of the recovery overflows while all blocks end before the wrap. -/
lemma recoverySums_lt (h : RingInv c (dev.view mem) F) :
    ∃ sums, recoverySums c mem = some sums ∧ ∀ sum ∈ sums, sum < 2 ^ 32 := by
  have hsearch : ∀ {stops : FragmentStatus → Bool} {block : Block},
      block ∈ ofKind (dataBlocksIn c (dev.view mem)) .data →
      Dev.wp (faults False False False)
        (searchSums dev stops block.header block.header.fragCount block.header.firstFragNo)
        (fun sums mem' => mem' = mem ∧ ∀ sum ∈ sums, sum < 2 ^ 32) (fun _ _ => False) (fun _ => False)
        mem := by
    intro stops block hblock
    obtain ⟨q, hv, hc, -⟩ := h.exists_chunk hblock.1
    rw [fragCount_eq hv hc, hc.first]
    exact wp_searchSums hv (c.chunkBlock_lt q) hc c.perBlock 0 (Nat.zero_add _)
  have hwp : Dev.wp (faults False False False) (rangeSums dev c.toCircular)
      (fun sums _ => ∀ sum ∈ sums, sum < 2 ^ 32) (fun _ _ => False) (fun _ => False) mem := by
    refine Dev.wp_bind (wp_scanLoop h.own False.elim _ _ (fun b hb => mem_scanned.mp hb) ?_)
    have hscan := h.scanSpec
    generalize scanV c (dev.view mem) _ _ = scan at hscan
    cases hdata : scan.data with
    | none => exact Dev.wp_pure (by simp)
    | some blocks =>
      obtain ⟨readBlock, writeBlock⟩ := blocks
      have hfirst := hscan.first
      have hlast := hscan.last
      rw [hdata] at hfirst hlast
      obtain ⟨blockR, hR, rfl, -⟩ := hfirst
      obtain ⟨blockW, hW, rfl, -⟩ := hlast
      refine Dev.wp_bind (Dev.wp_mono (hsearch hR) ?_ (fun _ _ => id) fun _ => id)
      rintro first mem' ⟨rfl, hfirst⟩
      refine Dev.wp_bind (Dev.wp_mono (hsearch hW) ?_ (fun _ _ => id) fun _ => id)
      rintro last mem' ⟨rfl, hlast⟩
      refine Dev.wp_pure fun sum hsum => ?_
      rcases List.mem_append.mp hsum with hsum | hsum
      · exact hfirst sum hsum
      · exact hlast sum hsum
  obtain ⟨sums, mem', heval, hsums⟩ := Dev.exists_eval hwp
  refine ⟨sums, ?_, hsums⟩
  rw [recoverySums, heval]

/-- **Before the wrap the writes and the recovery are safe.** The items that are written in order on a flash
that was not used are all accepted as long as the last block ends before the wrap; the last one can be read and
deleted; and no sum of the range recovery overflows. -/
theorem writes_before_wrap (hover : c.overwriteOnFull = true)
    (hv : ∀ q, dev.view mem (c.chunkBlock q) = none) (items : List (List UInt8)) (item : List UInt8)
    (hfit : ∀ i ∈ items ++ [item], i.length ≤ c.fragmentSize) (hlast : items.length + c.perBlock < 2 ^ 32) :
    ∃ mem', writeInOrder c 0 (items ++ [item]) mem = some mem' ∧
      (readCircularFragment dev c.toCircular items.length item.length).eval mem' = .ok item mem' ∧
      (∃ mem'', (deleteCircularFragment dev c.toCircular items.length).eval mem' = .ok () mem'') ∧
      ∃ sums, recoverySums c mem' = some sums ∧ ∀ sum ∈ sums, sum < 2 ^ 32 := by
  obtain ⟨mem', hwrite, hring, hslot⟩ := writeInOrder_frontier hover items item (ringInv_zero hv) hfit
    (by omega)
  rw [Nat.zero_add] at hring hslot
  refine ⟨mem', hwrite, ?_, ?_, recoverySums_lt hring⟩
  · have hread : Dev.wp (faults False False False)
        (readCircularFragment dev c.toCircular items.length item.length)
        (fun bytes mem'' => bytes = item ∧ mem'' = mem') (fun _ _ => False) (fun _ => False) mem' := by
      refine wp_readCircularFragment hring.own (Nat.zero_le _) False.elim (fun fr hfr _ => ?_) fun hbad _ _ => ?_
      · rw [hslot] at hfr
        cases hfr
        exact ⟨List.take_left, rfl⟩
      · exact hbad _ hslot rfl
    obtain ⟨bytes, mem'', heval, rfl, rfl⟩ := Dev.exists_eval hread
    exact heval
  · have hdelete : Dev.wp (faults False False False) (deleteCircularFragment dev c.toCircular items.length)
        (fun _ _ => True) (fun _ _ => False) (fun _ => False) mem' := by
      refine wp_deleteCircularFragment hring.own False.elim (fun fr hfr => ?_) (fun hgone => ?_)
        (fun _ _ _ _ _ => trivial) False.elim False.elim
      · rw [hslot] at hfr
        cases hfr
        exact (by decide : FragmentStatus.valid ≠ .empty)
      · exact absurd rfl (hgone _ hslot)
    obtain ⟨⟨⟩, mem'', heval, -⟩ := Dev.exists_eval hdelete
    exact ⟨mem'', heval⟩

end Before

/-- **No circular's numbers wrap safely**, whatever number it starts with. -/
theorem wrapsSafely_never (n : UInt32) : ¬WrapsSafely c n.toNat := by
  intro h
  obtain ⟨w, hreach, q, hq, hsum⟩ := Peek.slotSum_overflows (M := maxPeeks) (by decide) (by decide)
    c.perBlock_pos c.perBlock_le n.toNat_lt
  exact absurd (h.peeks w hreach q hq).1 (Nat.not_lt.mpr hsum)

/-- The queue reads three items, and then the last one before the wrap. -/
def lastReads : List Peek.Op :=
  Peek.readOne ++ Peek.readOne ++ Peek.readOne ++ [.enqueue, .peekNext]

instance : ∀ op : Peek.Op, Decidable op.InRun
  | .reinit _ => isFalse id
  | .enqueue | .peekNext | .confirm _ | .drop _ | .waitConfirmation | .isDrained => isTrue trivial

/-- The sum for slot 1 overflows, and what is left of it is the number of slot 0. When the last number
was written, the range recovery overflows. And of the two items around the wrap only one can be peeked
at a time, while anywhere else both can. -/
theorem wrap_fails :
    let start n := Peek.startAt maxPeeks (streamRing true).count (streamRing true).perBlock n
    (((lastReads.foldl Peek.World.exec (start (2 ^ 32 - 4))).queue.emptyVisits).map fun q =>
      (q.slotIndex.val, q.slotSum - 2 ^ 32, (Peek.slotOf maxPeeks (q.slotSeqNo q.slotIndex)).val)) =
        [(1, 0, 0), (2, 1, 1), (3, 2, 2), (4, 3, 3)] ∧
    ((writeInOrder (streamRing true) (2 ^ 32 - 4) [[0], [1], [2], [3]] fun _ => erased).bind
      (recoverySums (streamRing true))) = some [2 ^ 32 - 1, 2 ^ 32] ∧
    (([Peek.Op.enqueue, .enqueue, .peekNext].foldl Peek.World.exec
      (start (2 ^ 32 - 1))).queue.peekNext.1 = .error .busy ∧
     ([Peek.Op.enqueue, .enqueue, .peekNext].foldl Peek.World.exec (start 0)).queue.peekNext.1 = .ok 1) ∧
    ¬WrapsSafely (streamRing true) (2 ^ 32 - 4) := by
  refine ⟨by decide +kernel, by decide +kernel, ⟨by decide +kernel, by decide +kernel⟩, fun h => ?_⟩
  have hreach : Reach Peek.World.exec (fun _ op => op.InRun)
      (Peek.startAt maxPeeks (streamRing true).count (streamRing true).perBlock (2 ^ 32 - 4))
      (lastReads.foldl Peek.World.exec
        (Peek.startAt maxPeeks (streamRing true).count (streamRing true).perBlock (2 ^ 32 - 4))) :=
    Reach.run lastReads Reach.start (by decide +kernel)
  have hoverflow : ¬∀ q ∈ (lastReads.foldl Peek.World.exec (Peek.startAt maxPeeks
      (streamRing true).count (streamRing true).perBlock (2 ^ 32 - 4))).queue.emptyVisits,
      q.slotSum < 2 ^ 32 := by decide +kernel
  exact hoverflow fun q hq => (h.peeks _ hreach q hq).1

end SensorLink.Stream
