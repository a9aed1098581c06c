import SensorLink.Flash.View

/-!
# What the operations of the block layer do to the view

One lemma for each operation: the result it has and the view it leaves when it ends, when it fails and
when power is lost in it. The faults are those of `faults errors cuts reads`. `format_block` leaves the
block as it was, not valid, or formatted; `write_fragment` leaves the fragment as it was, invalid, or
valid with the data; `delete_fragment` leaves it as it was, invalid, or obsolete.
-/

namespace SensorLink.Flash

open SensorLink.Lib

namespace BlockDevice

variable {dev : BlockDevice} {errors cuts reads : Prop} {mem : Mem} {b : ℕ} {v : Block} {fragNo : ℕ}

section Address

variable {ε : Type} {Q : ℕ → Mem → Prop} {E : ε → Mem → Prop} {O : Mem → Prop}

lemma wp_blockAddrOr {e : ε} (hb : b < dev.blocksTotal) (h : Q (b * dev.blockSize) mem) :
    Dev.wp (faults errors cuts reads) (dev.blockAddrOr e b) Q E O mem := by
  unfold blockAddrOr blockAddr
  rw [if_neg (by omega)]
  exact Dev.wp_pure h

end Address

/-! ### Reading -/

section Read

variable {O : Mem → Prop}

theorem wp_blockHeader {Q : Option BlockHeader → Mem → Prop} {E : FlashError → Mem → Prop}
    (hb : b < dev.blocksTotal) (hfault : reads → E (.flash .other) mem)
    (hok : Q ((dev.view mem b).map Block.header) mem) :
    Dev.wp (faults errors cuts reads) (dev.blockHeader b) Q E O mem := by
  have hcap := addr_lt_capacity hb
  have hle := dev.header_le
  refine Dev.wp_bind (wp_blockAddrOr hb (Dev.wp_bind (Dev.wp_mapErr (wp_flash_read (by omega) hfault
    (Dev.wp_pure ?_)))))
  have hview : (dev.view mem b).map Block.header = dev.headerAt mem b := by
    simp [view, Function.comp_def]
  rwa [hview] at hok

lemma wp_tryGetFragmentStatus {Q : Option FragmentStatus → Mem → Prop} {E : FlashError → Mem → Prop}
    (hb : b < dev.blocksTotal) (hv : dev.view mem b = some v)
    (hi : v.header.relFragNo fragNo < v.header.fragCount) (hfault : reads → E (.flash .other) mem)
    (hok : Q (some (v.frag (v.header.relFragNo fragNo)).status) mem) :
    Dev.wp (faults errors cuts reads) (dev.tryGetFragmentStatus v.header fragNo) Q E O mem := by
  have hspec := view_spec hv
  obtain ⟨ht, hle⟩ := hspec.layout hi
  have hcap := addr_lt_capacity hb
  unfold tryGetFragmentStatus
  rw [if_neg (by omega), hspec.id]
  simp only [fragHeaderSize] at ht
  refine Dev.wp_bind (wp_blockAddrOr hb (Dev.wp_bind (Dev.wp_mapErr (wp_flash_read
    (by simp only [fragHeaderSize]; omega) hfault (Dev.wp_pure ?_)))))
  rw [view_frag hv, fragAt, if_pos hi] at hok
  exact hok

theorem wp_fragmentStatus {Q : FragmentStatus → Mem → Prop} {E : FlashReadError → Mem → Prop}
    (hb : b < dev.blocksTotal) (hv : dev.view mem b = some v)
    (hi : v.header.relFragNo fragNo < v.header.fragCount) (hfault : reads → E (.flash .other) mem)
    (hok : Q (v.frag (v.header.relFragNo fragNo)).status mem) :
    Dev.wp (faults errors cuts reads) (dev.fragmentStatus v.header fragNo) Q E O mem :=
  Dev.wp_bind (Dev.wp_mapErr (wp_tryGetFragmentStatus hb hv hi hfault (Dev.wp_pure hok)))

lemma wp_fragmentStatusPreWrite {Q : FragmentStatus → Mem → Prop} {E : FlashWriteError → Mem → Prop}
    (hb : b < dev.blocksTotal) (hv : dev.view mem b = some v)
    (hi : v.header.relFragNo fragNo < v.header.fragCount) (hfault : reads → E (.flash .other) mem)
    (hok : Q (v.frag (v.header.relFragNo fragNo)).status mem) :
    Dev.wp (faults errors cuts reads) (dev.fragmentStatusPreWrite v.header fragNo) Q E O mem :=
  Dev.wp_bind (Dev.wp_mapErr (wp_tryGetFragmentStatus hb hv hi hfault (Dev.wp_pure hok)))

lemma readMem_drop_take (mem : Mem) (a n offset len : ℕ) :
    ((readMem mem a n).drop offset).take len = readMem mem (a + offset) (min len (n - offset)) := by
  refine List.ext_getElem (by simp) fun i h1 h2 => ?_
  rw [List.getElem_take, List.getElem_drop, getElem_readMem, getElem_readMem]
  congr 1
  omega

lemma wp_readRawFragment {Q : List UInt8 → Mem → Prop} {E : FlashReadError → Mem → Prop}
    {offset len : ℕ} (hb : b < dev.blocksTotal) (hv : dev.view mem b = some v)
    (hi : v.header.relFragNo fragNo < v.header.fragCount) (hoffset : offset ≤ v.header.fragSize)
    (hfault : reads → E (.flash .other) mem)
    (hok : Q (((v.frag (v.header.relFragNo fragNo)).data.drop offset).take len) mem) :
    Dev.wp (faults errors cuts reads) (dev.readRawFragment v.header fragNo offset len) Q E O mem := by
  have hspec := view_spec hv
  obtain ⟨-, hle⟩ := hspec.layout hi
  have hcap := addr_lt_capacity hb
  unfold readRawFragment
  rw [if_neg (by omega), hspec.id]
  refine Dev.wp_bind (wp_blockAddrOr hb (Dev.wp_mapErr (wp_flash_read (by omega) hfault ?_)))
  rw [view_frag hv, fragAt, if_pos hi] at hok
  simp only [readMem_drop_take, dataAddr, Nat.add_assoc] at hok ⊢
  exact hok

/-- A fragment number that is not in the block. -/
theorem wp_readFragment_notFound {Q : List UInt8 → Mem → Prop} {E : FlashReadError → Mem → Prop}
    {h : BlockHeader} {offset len : ℕ} (hi : h.fragCount ≤ h.relFragNo fragNo)
    (hbad : E (.read .fragmentNotFound) mem) :
    Dev.wp (faults errors cuts reads) (dev.readFragmentAtOffset h fragNo offset len) Q E O mem := by
  refine Dev.wp_bind (Dev.wp_bind (Dev.wp_mapErr ?_))
  unfold tryGetFragmentStatus
  rw [if_pos hi]
  exact Dev.wp_pure (Dev.wp_throw hbad)

/-- The errors of reading a fragment that is not valid. -/
def unreadable : FragmentStatus → FlashReadErrorKind
  | .empty => .fragmentEmpty
  | .invalid => .fragmentInvalid
  | .obsolete => .fragmentObsolete
  | .valid => .flash

theorem wp_readFragmentAtOffset {Q : List UInt8 → Mem → Prop} {E : FlashReadError → Mem → Prop}
    {i offset len : ℕ} (hb : b < dev.blocksTotal) (hv : dev.view mem b = some v)
    (hrel : v.header.relFragNo fragNo = i) (hi : i < v.header.fragCount)
    (hoffset : offset ≤ v.header.fragSize) (hfault : reads → E (.flash .other) mem)
    (hok : (v.frag i).status = .valid → Q (((v.frag i).data.drop offset).take len) mem)
    (hbad : (v.frag i).status ≠ .valid → E (.read (unreadable (v.frag i).status)) mem) :
    Dev.wp (faults errors cuts reads) (dev.readFragmentAtOffset v.header fragNo offset len)
      Q E O mem := by
  subst hrel
  refine Dev.wp_bind (wp_fragmentStatus hb hv hi hfault ?_)
  cases hst : (v.frag (v.header.relFragNo fragNo)).status with
  | valid => exact wp_readRawFragment hb hv hi hoffset hfault (hok hst)
  | empty => exact Dev.wp_throw (by have := hbad (by simp [hst]); rwa [hst] at this)
  | invalid => exact Dev.wp_throw (by have := hbad (by simp [hst]); rwa [hst] at this)
  | obsolete => exact Dev.wp_throw (by have := hbad (by simp [hst]); rwa [hst] at this)

/-- The readback finds the data that is stored. -/
lemma wp_findValidLoop {Q : Option ℕ → Mem → Prop} {E : FlashReadError → Mem → Prop}
    (hb : b < dev.blocksTotal) (hv : dev.view mem b = some v) (rels : List ℕ)
    (hrels : ∀ i ∈ rels, i < v.header.fragCount) (hfault : reads → E (.flash .other) mem)
    (hnone : (∀ i ∈ rels, (v.frag i).status ≠ .valid) → Q none mem)
    (hsome : ∀ i ∈ rels, (v.frag i).status = .valid → ∀ n, Q (some n) mem) :
    Dev.wp (faults errors cuts reads) (dev.findValidLoop v.header rels) Q E O mem := by
  induction rels with
  | nil => exact Dev.wp_pure (hnone fun i hi => absurd hi List.not_mem_nil)
  | cons rel rels ih =>
    have hspec := view_spec hv
    have hlt := hrels rel List.mem_cons_self
    have hle := hspec.fragCount_lt hb
    have hrel : v.header.relFragNo (wrappingAdd v.header.firstFragNo rel) = rel :=
      wrappingSub_wrappingAdd hspec.first (by omega)
    refine Dev.wp_bind (wp_fragmentStatus hb hv (by rw [hrel]; exact hlt) hfault ?_)
    rw [hrel]
    by_cases hst : (v.frag rel).status = .valid
    · rw [if_pos hst]
      exact Dev.wp_pure (hsome rel List.mem_cons_self hst _)
    · rw [if_neg hst]
      refine ih (fun i hi => hrels i (List.mem_cons_of_mem _ hi)) (fun h => hnone ?_)
        (fun i hi => hsome i (List.mem_cons_of_mem _ hi))
      exact List.forall_mem_cons.mpr ⟨hst, h⟩

theorem wp_blockFindValidFragment {Q : Option ℕ → Mem → Prop} {E : FlashReadError → Mem → Prop}
    (hb : b < dev.blocksTotal) (hv : dev.view mem b = some v) (hfault : reads → E (.flash .other) mem)
    (hnone : (∀ i < v.header.fragCount, (v.frag i).status ≠ .valid) → Q none mem)
    (hsome : ∀ i < v.header.fragCount, (v.frag i).status = .valid → ∀ n, Q (some n) mem) :
    Dev.wp (faults errors cuts reads) (dev.blockFindValidFragment v.header) Q E O mem := by
  refine wp_findValidLoop hb hv _ ?_ hfault ?_ ?_
  · exact fun i hi => List.mem_range.mp hi
  · exact fun h => hnone fun i hi => h i (List.mem_range.mpr hi)
  · exact fun i hi => hsome i (List.mem_range.mp hi)

lemma wp_verifyFragment {Q : Bool → Mem → Prop} {E : FlashWriteError → Mem → Prop}
    {data : List UInt8} (hb : b < dev.blocksTotal) (hv : dev.view mem b = some v)
    (hi : v.header.relFragNo fragNo < v.header.fragCount) (hlen : data.length ≤ v.header.fragSize)
    (hdata : (v.frag (v.header.relFragNo fragNo)).data.take data.length = data)
    (hfault : reads → E (.flash .other) mem) (hok : Q true mem) :
    Dev.wp (faults errors cuts reads) (dev.verifyFragment v.header fragNo data) Q E O mem := by
  unfold verifyFragment
  -- the chunks from `k` on, which are those of the data behind the first `k` chunks
  suffices hchunks : ∀ n k, data.length ≤ n + k * verifyChunkSize →
      Dev.wp (faults errors cuts reads) (dev.verifyChunks v.header fragNo k
        (chunks verifyChunkSize (data.drop (k * verifyChunkSize)))) Q E O mem by
    simpa using hchunks data.length 0 (by omega)
  have hpos : 0 < verifyChunkSize := by decide
  intro n
  induction n with
  | zero =>
    intro k hk
    rw [List.drop_of_length_le (by omega)]
    exact Dev.wp_pure hok
  | succ n ih =>
    intro k hk
    by_cases hnil : data.drop (k * verifyChunkSize) = []
    · rw [hnil]
      exact Dev.wp_pure hok
    · have hlt : k * verifyChunkSize < data.length := by
        by_contra hc
        exact hnil (List.drop_of_length_le (by omega))
      rw [chunks_cons hpos hnil, verifyChunks]
      have hread : (((v.frag (v.header.relFragNo fragNo)).data.drop (k * verifyChunkSize)).take
          ((data.drop (k * verifyChunkSize)).take verifyChunkSize).length) =
          (data.drop (k * verifyChunkSize)).take verifyChunkSize := by
        conv_rhs => rw [← hdata]
        rw [List.drop_take, List.take_take]
        congr 1
        simp only [List.length_take, List.length_drop]
      refine Dev.wp_bind (Dev.wp_mapErr (wp_readRawFragment hb hv hi (by omega) hfault ?_))
      rw [hread, if_pos rfl, List.drop_drop]
      rw [show k * verifyChunkSize + verifyChunkSize = (k + 1) * verifyChunkSize by
        rw [Nat.add_mul, Nat.one_mul]]
      exact ih (k + 1) (by rw [Nat.add_mul]; omega)

end Read

/-! ### Fragments -/

section Fragment

variable {Q : Unit → Mem → Prop} {E : FlashWriteError → Mem → Prop} {O : Mem → Prop}

lemma readMem_three (mem : Mem) (a : ℕ) : readMem mem a fragHeaderSize =
    [mem a, mem (a + 1), mem (a + 2)] := rfl

lemma fragAt_eq {h : BlockHeader} {i : ℕ} (hi : i < h.fragCount) :
    dev.fragAt mem h b i = ⟨FragmentStatus.ofHeader [mem (dev.statusAddr b i),
      mem (dev.statusAddr b i + 1), mem (dev.statusAddr b i + 2)],
      readMem mem (dev.dataAddr h b i) h.fragSize⟩ := by
  unfold fragAt
  rw [if_pos hi, readMem_three]

/-- Writing one erased byte. -/
lemma writeMem_single {a : ℕ} {x c : UInt8} (h : mem a = erased) :
    writeMem mem a [x] c = Function.update mem a (x ^^^ c) := by
  funext a'
  by_cases ha : a' = a
  · subst ha
    rw [Function.update_self, writeMem_of_erased le_rfl (by simp) h]
    simp
  · rw [Function.update_of_ne ha, writeMem_of_not_mem (by simp only [List.length_singleton]; omega)]

/-- The places of the header and the data of a fragment do not meet. -/
lemma statusAddr_lt_dataAddr (hv : dev.view mem b = some v) {i : ℕ} (hi : i < v.header.fragCount) :
    dev.statusAddr b i + 2 < dev.dataAddr v.header b i := by
  obtain ⟨ht, -⟩ := (view_spec hv).layout hi
  simp only [statusAddr, dataAddr, fragHeaderSize] at ht ⊢
  omega

/-- The bytes of a fragment header that reads as empty or valid. -/
lemma status_bytes {s : FragmentStatus} (hv : dev.view mem b = some v) {i : ℕ}
    (hi : i < v.header.fragCount) (hs : (v.frag i).status = s) :
    FragmentStatus.ofHeader [mem (dev.statusAddr b i), mem (dev.statusAddr b i + 1),
      mem (dev.statusAddr b i + 2)] = s := by
  rw [← hs, view_frag hv, fragAt_eq hi]

lemma ofHeader_eq_empty {x y z : UInt8} (h : FragmentStatus.ofHeader [x, y, z] = .empty) :
    x = erased ∧ y = erased ∧ z = erased := by
  unfold FragmentStatus.ofHeader at h
  split at h
  next heq => simpa [erased] using heq
  · split at h
    · cases h
    · split at h <;> cases h

lemma ofHeader_eq_valid {x y z : UInt8} (h : FragmentStatus.ofHeader [x, y, z] = .valid) :
    x = 0xD1 ∧ y = 0xDC ∧ z = erased := by
  unfold FragmentStatus.ofHeader at h
  split at h
  · cases h
  · split at h
    next heq => simpa [erased] using heq
    · split at h <;> cases h

/-- The view where fragment `i` of block `b` is `f`. -/
def setView (dev : BlockDevice) (mem : Mem) (b : ℕ) (v : Block) (i : ℕ) (f : Frag) :
    ℕ → Option Block :=
  Function.update (dev.view mem) b (some (v.setFrag i f))

lemma setView_setView {mem' : Mem} {i : ℕ} {f g : Frag} (h : dev.view mem' = dev.setView mem b v i f) :
    dev.setView mem' b (v.setFrag i f) i g = dev.setView mem b v i g := by
  simp only [setView, h, Function.update_idem, Block.setFrag]

/-- Setting one byte of the header of a fragment. -/
lemma view_status_update (hv : dev.view mem b = some v) {i k : ℕ} (hi : i < v.header.fragCount)
    (hk : k < fragHeaderSize) (x : UInt8) :
    dev.view (Function.update mem (dev.statusAddr b i + k) x) = dev.setView mem b v i
      ⟨FragmentStatus.ofHeader ([mem (dev.statusAddr b i), mem (dev.statusAddr b i + 1),
        mem (dev.statusAddr b i + 2)].set k x), (v.frag i).data⟩ := by
  have hlt := statusAddr_lt_dataAddr hv hi
  simp only [fragHeaderSize] at hk
  rw [view_setFrag hv hi (fun a h1 h2 => Function.update_of_ne
    (by simp only [fragHeaderSize] at h1; omega) _ _), setView]
  congr 3
  have hdata : readMem (Function.update mem (dev.statusAddr b i + k) x) (dev.dataAddr v.header b i)
      v.header.fragSize = (v.frag i).data := by
    rw [view_frag hv, fragAt, if_pos hi]
    exact readMem_congr fun a h1 h2 => Function.update_of_ne (by omega) _ _
  rw [fragAt_eq hi, hdata]
  congr 2
  obtain rfl | rfl | rfl : k = 0 ∨ k = 1 ∨ k = 2 := by omega
  all_goals simp

/-- A marker is one byte, which is written completely or wrongly. -/
lemma wp_writeMarker {s : FragmentStatus} {i k : ℕ} {x : UInt8} (hb : b < dev.blocksTotal)
    (hv : dev.view mem b = some v) (hi : i < v.header.fragCount) (hs : s.asByte = some (k, x))
    (hk : k < fragHeaderSize) (herased : mem (dev.statusAddr b i + k) = erased)
    (hok : Q () (Function.update mem (dev.statusAddr b i + k) x))
    (herr : errors → E (.flash .other)
      (Function.update mem (dev.statusAddr b i + k) (x ^^^ corruption)))
    (hoff : cuts → O mem ∧ O (Function.update mem (dev.statusAddr b i + k) (x ^^^ corruption)) ∧
      O (Function.update mem (dev.statusAddr b i + k) x)) :
    Dev.wp (faults errors cuts reads) (dev.writeMarker (dev.statusAddr b i) s) Q E O mem := by
  obtain ⟨ht, hle⟩ := (view_spec hv).layout hi
  have hcap := addr_lt_capacity hb
  have hgood := writeMem_single (x := x) (c := 0) herased
  rw [UInt8.xor_zero] at hgood
  rw [← hgood] at hok hoff
  rw [← writeMem_single herased] at herr hoff
  unfold writeMarker
  simp only [hs]
  refine Dev.wp_mapErr (wp_write ?_ hok herr hoff)
  simp only [fragHeaderSize] at hk ht
  simp only [statusAddr, fragHeaderSize, List.length_singleton]
  omega

theorem wp_deleteFragment_done (hb : b < dev.blocksTotal) (hv : dev.view mem b = some v)
    (hi : v.header.relFragNo fragNo < v.header.fragCount)
    (hst : (v.frag (v.header.relFragNo fragNo)).status = .invalid ∨
      (v.frag (v.header.relFragNo fragNo)).status = .obsolete)
    (hfault : reads → E (.flash .other) mem) (hok : Q () mem) :
    Dev.wp (faults errors cuts reads) (dev.deleteFragment v.header fragNo) Q E O mem := by
  unfold deleteFragment
  rw [(view_spec hv).id]
  refine Dev.wp_bind (wp_blockAddrOr hb ?_)
  rw [if_neg (by omega)]
  refine Dev.wp_bind (wp_fragmentStatusPreWrite hb hv hi hfault ?_)
  rcases hst with hst | hst <;> rw [hst] <;> exact Dev.wp_pure hok

theorem wp_deleteFragment {i : ℕ} (hb : b < dev.blocksTotal) (hv : dev.view mem b = some v)
    (hrel : v.header.relFragNo fragNo = i) (hi : i < v.header.fragCount)
    (hst : (v.frag i).status = .empty ∨ (v.frag i).status = .valid)
    (hfault : reads → E (.flash .other) mem)
    (hok : ∀ mem', dev.view mem' = dev.setView mem b v i ⟨.obsolete, (v.frag i).data⟩ → Q () mem')
    (herr : errors → ∀ mem', dev.view mem' = dev.setView mem b v i ⟨.invalid, (v.frag i).data⟩ →
      E (.flash .other) mem')
    (hoff : cuts → ∀ mem', (dev.view mem' = dev.view mem ∨
      dev.view mem' = dev.setView mem b v i ⟨.invalid, (v.frag i).data⟩ ∨
      dev.view mem' = dev.setView mem b v i ⟨.obsolete, (v.frag i).data⟩) → O mem') :
    Dev.wp (faults errors cuts reads) (dev.deleteFragment v.header fragNo) Q E O mem := by
  have hview := fun x => view_status_update hv hi (show 2 < fragHeaderSize by decide) x
  -- the marker byte is erased, and with the marker or without it the header reads so
  obtain ⟨herased, hgood, hbad⟩ : mem (dev.statusAddr b i + 2) = erased ∧
      dev.view (Function.update mem (dev.statusAddr b i + 2) 0x55) =
        dev.setView mem b v i ⟨.obsolete, (v.frag i).data⟩ ∧
      dev.view (Function.update mem (dev.statusAddr b i + 2) (0x55 ^^^ corruption)) =
        dev.setView mem b v i ⟨.invalid, (v.frag i).data⟩ := by
    rcases hst with hst | hst
    · obtain ⟨h0, h1, h2⟩ := ofHeader_eq_empty (status_bytes hv hi hst)
      rw [hview, hview, h0, h1, h2]
      exact ⟨rfl, rfl, rfl⟩
    · obtain ⟨h0, h1, h2⟩ := ofHeader_eq_valid (status_bytes hv hi hst)
      rw [hview, hview, h0, h1, h2]
      exact ⟨rfl, rfl, rfl⟩
  have hmark : Dev.wp (faults errors cuts reads) (dev.writeMarker (dev.statusAddr b i) .obsolete)
      Q E O mem :=
    wp_writeMarker hb hv hi rfl (by decide) herased (hok _ hgood) (fun he => herr he _ hbad)
      (fun hc => ⟨hoff hc _ (Or.inl rfl), hoff hc _ (Or.inr (Or.inl hbad)),
        hoff hc _ (Or.inr (Or.inr hgood))⟩)
  unfold deleteFragment
  rw [(view_spec hv).id]
  refine Dev.wp_bind (wp_blockAddrOr hb ?_)
  simp only [hrel]
  rw [if_neg (by omega)]
  refine Dev.wp_bind (wp_fragmentStatusPreWrite hb hv (by omega) hfault ?_)
  rw [hrel]
  rcases hst with hst | hst <;> rw [hst] <;> exact hmark

/-- The errors of writing a fragment that is not empty. -/
def unwriteable : FragmentStatus → FlashWriteErrorKind
  | .invalid => .fragmentInvalid
  | .obsolete => .fragmentObsolete
  | .valid => .fragmentExists
  | .empty => .flash

theorem wp_writeFragment_tooLarge {h : BlockHeader} {data : List UInt8}
    (hlen : h.fragSize < data.length) (hbad : E (.write .fragmentTooLarge) mem) :
    Dev.wp (faults errors cuts reads) (dev.writeFragment h fragNo data) Q E O mem := by
  unfold writeFragment
  rw [if_pos hlen]
  exact Dev.wp_throw hbad

theorem wp_writeFragment_used {data : List UInt8} (hb : b < dev.blocksTotal)
    (hv : dev.view mem b = some v) (hi : v.header.relFragNo fragNo < v.header.fragCount)
    (hlen : data.length ≤ v.header.fragSize)
    (hst : (v.frag (v.header.relFragNo fragNo)).status ≠ .empty)
    (hfault : reads → E (.flash .other) mem)
    (hbad : E (.write (unwriteable (v.frag (v.header.relFragNo fragNo)).status)) mem) :
    Dev.wp (faults errors cuts reads) (dev.writeFragment v.header fragNo data) Q E O mem := by
  unfold writeFragment
  rw [if_neg (by omega), (view_spec hv).id]
  refine Dev.wp_bind (wp_blockAddrOr hb ?_)
  rw [if_neg (by omega)]
  refine Dev.wp_bind (wp_fragmentStatusPreWrite hb hv hi hfault ?_)
  revert hst hbad
  cases (v.frag (v.header.relFragNo fragNo)).status with
  | empty => exact fun hst _ => absurd rfl hst
  | invalid => exact fun _ hbad => Dev.wp_throw hbad
  | valid => exact fun _ hbad => Dev.wp_throw hbad
  | obsolete => exact fun _ hbad => Dev.wp_throw hbad

/-- The bytes of a place that was erased before data was written to it. -/
lemma readMem_written {a n : ℕ} {data : List UInt8} (hlen : data.length ≤ n)
    (he : ∀ x, a ≤ x → x < a + n → mem x = erased) :
    readMem (writeMem mem a data 0) a n = data ++ List.replicate (n - data.length) erased := by
  conv_lhs => rw [← Nat.add_sub_of_le hlen, readMem_add]
  rw [readMem_writeMem fun x h1 h2 => he x h1 (by omega)]
  congr 1
  refine readMem_eq_replicate fun x h1 h2 => ?_
  rw [writeMem_of_not_mem (by omega)]
  exact he x (by omega) (by omega)

lemma eq_erased_of_readMem {a n : ℕ} (h : readMem mem a n = List.replicate n erased) :
    ∀ x, a ≤ x → x < a + n → mem x = erased := by
  intro x h1 h2
  have hlt : x - a < (readMem mem a n).length := by rw [length_readMem]; omega
  have := getElem_readMem hlt
  rw [List.getElem_of_eq h hlt, List.getElem_replicate] at this
  rw [this]
  congr 1
  omega

/-- Writing an unused fragment. -/
theorem wp_writeFragment {i : ℕ} {data : List UInt8} (hb : b < dev.blocksTotal)
    (hv : dev.view mem b = some v) (hrel : v.header.relFragNo fragNo = i)
    (hi : i < v.header.fragCount) (hlen : data.length ≤ v.header.fragSize)
    (hfresh : v.frag i = Frag.fresh v.header.fragSize)
    (hok : ∀ mem', dev.view mem' = dev.setView mem b v i
      ⟨.valid, data ++ List.replicate (v.header.fragSize - data.length) erased⟩ → Q () mem')
    (herr : errors ∨ reads → ∀ mem', (dev.view mem' = dev.view mem ∨
      ∃ d, dev.view mem' = dev.setView mem b v i ⟨.invalid, d⟩) → E (.flash .other) mem')
    (hoff : cuts → ∀ mem', (dev.view mem' = dev.view mem ∨
      (∃ d, dev.view mem' = dev.setView mem b v i ⟨.invalid, d⟩) ∨
      dev.view mem' = dev.setView mem b v i
        ⟨.valid, data ++ List.replicate (v.header.fragSize - data.length) erased⟩) → O mem') :
    Dev.wp (faults errors cuts reads) (dev.writeFragment v.header fragNo data) Q E O mem := by
  have hspec := view_spec hv
  obtain ⟨ht, hle⟩ := hspec.layout hi
  have hcap := addr_lt_capacity hb
  have hlt := statusAddr_lt_dataAddr hv hi
  have hst : (v.frag i).status = .empty := by rw [hfresh]; rfl
  obtain ⟨h0, h1, h2⟩ := ofHeader_eq_empty (status_bytes hv hi hst)
  have hdata : ∀ x, dev.dataAddr v.header b i ≤ x →
      x < dev.dataAddr v.header b i + v.header.fragSize → mem x = erased := by
    refine eq_erased_of_readMem ?_
    have := congrArg Frag.data hfresh
    rwa [view_frag hv, fragAt, if_pos hi] at this
  -- after the marker, with or without data: the fragment reads as invalid
  have hwritten : ∀ m, (∀ a, (a < dev.dataAddr v.header b i ∨
      dev.dataAddr v.header b i + v.header.fragSize ≤ a) →
      m a = Function.update mem (dev.statusAddr b i) 0xD1 a) →
      dev.view m = dev.setView mem b v i
        ⟨.invalid, readMem m (dev.dataAddr v.header b i) v.header.fragSize⟩ := by
    intro m hm
    rw [view_setFrag hv hi (fun a ha hb => by
      rw [hm a hb, Function.update_of_ne (by simp only [fragHeaderSize] at ha; omega)]), setView,
      fragAt_eq hi, hm _ (by omega), hm _ (by omega), hm _ (by omega), Function.update_self,
      Function.update_of_ne (by omega), Function.update_of_ne (by omega), h1, h2]
    rfl
  unfold writeFragment
  rw [if_neg (by omega), hspec.id]
  refine Dev.wp_bind (wp_blockAddrOr hb ?_)
  simp only [hrel]
  rw [if_neg (by omega)]
  refine Dev.wp_bind (wp_fragmentStatusPreWrite hb hv (by omega)
    (fun hr => herr (Or.inr hr) _ (Or.inl rfl)) ?_)
  rw [hrel, hst]
  dsimp only
  -- 1. the marker of an incomplete fragment
  set m1 := Function.update mem (dev.statusAddr b i) 0xD1 with hm1def
  have hm1 : ∀ c, dev.view (writeMem m1 (dev.dataAddr v.header b i) data c) = dev.setView mem b v i
      ⟨.invalid, readMem (writeMem m1 (dev.dataAddr v.header b i) data c)
        (dev.dataAddr v.header b i) v.header.fragSize⟩ :=
    fun c => hwritten _ fun a ha => writeMem_of_not_mem (by omega)
  have hinv := hwritten m1 fun a _ => rfl
  refine Dev.wp_bind (wp_writeMarker hb hv hi (k := 0) rfl (by decide) h0 ?_ (fun he => ?_)
    (fun hc => ⟨hoff hc _ (Or.inl rfl), ?_, hoff hc _ (Or.inr (Or.inl ⟨_, hinv⟩))⟩))
  rotate_left
  · refine herr (Or.inl he) _ (Or.inr ⟨(v.frag i).data, ?_⟩)
    rw [view_status_update hv hi (by decide), h0, h1, h2]
    rfl
  · refine hoff hc _ (Or.inr (Or.inl ⟨(v.frag i).data, ?_⟩))
    rw [view_status_update hv hi (by decide), h0, h1, h2]
    rfl
  -- 2. the data
  refine Dev.wp_bind (Dev.wp_mapErr (wp_write ?_ ?_ (fun he => herr (Or.inl he) _ (Or.inr ⟨_, hm1 _⟩))
    (fun hc => ⟨hoff hc _ (Or.inr (Or.inl ⟨_, hinv⟩)), hoff hc _ (Or.inr (Or.inl ⟨_, hm1 _⟩)),
      hoff hc _ (Or.inr (Or.inl ⟨_, hm1 _⟩))⟩)))
  · omega
  change Dev.wp _ _ _ _ _ (writeMem m1 (dev.dataAddr v.header b i) data 0)
  set m2 := writeMem m1 (dev.dataAddr v.header b i) data 0 with hm2def
  have hm1of : ∀ a, a ≠ dev.statusAddr b i → m1 a = mem a := fun a ha => Function.update_of_ne ha _ _
  have hread : readMem m2 (dev.dataAddr v.header b i) v.header.fragSize =
      data ++ List.replicate (v.header.fragSize - data.length) erased :=
    readMem_written hlen fun x h1 h2 => (hm1of x (by omega)).trans (hdata x h1 h2)
  have hview2 := hm1 0
  rw [← hm2def, hread] at hview2
  have hv2 := congrFun hview2 b
  rw [setView, Function.update_self] at hv2
  set v2 := v.setFrag i ⟨.invalid, data ++ List.replicate (v.header.fragSize - data.length) erased⟩
    with hv2def
  have hfrag2 : v2.frag i =
      ⟨.invalid, data ++ List.replicate (v.header.fragSize - data.length) erased⟩ := by
    rw [hv2def, Block.setFrag_frag, Function.update_self]
  -- 3. the readback
  refine Dev.wp_bind (wp_verifyFragment (v := v2) hb hv2 (hrel ▸ hi) hlen ?_
    (fun hr => herr (Or.inr hr) _ (Or.inr ⟨_, hview2⟩)) ?_)
  · rw [show v2.header.relFragNo fragNo = i from hrel, hfrag2]
    exact List.take_left
  -- 4. the marker of a valid fragment
  have hmem2 : m2 (dev.statusAddr b i) = 0xD1 ∧ m2 (dev.statusAddr b i + 1) = erased ∧
      m2 (dev.statusAddr b i + 2) = erased := by
    refine ⟨?_, ?_, ?_⟩ <;> rw [hm2def, writeMem_of_not_mem (by omega)]
    · exact Function.update_self _ _ _
    · rw [hm1of _ (by omega), h1]
    · rw [hm1of _ (by omega), h2]
  have hmark : ∀ x, dev.view (Function.update m2 (dev.statusAddr b i + 1) x) =
      dev.setView mem b v i ⟨FragmentStatus.ofHeader [0xD1, x, erased],
        data ++ List.replicate (v.header.fragSize - data.length) erased⟩ := by
    intro x
    rw [view_status_update hv2 hi (by decide), setView_setView hview2, hmem2.1, hmem2.2.1, hmem2.2.2,
      hfrag2]
    rfl
  simp only [Bool.not_true, Bool.false_eq_true, if_false]
  exact wp_writeMarker hb hv2 hi (k := 1) rfl (by decide) hmem2.2.1 (hok _ (hmark _))
    (fun he => herr (Or.inl he) _ (Or.inr ⟨_, hmark _⟩))
    (fun hc => ⟨hoff hc _ (Or.inr (Or.inl ⟨_, hview2⟩)), hoff hc _ (Or.inr (Or.inl ⟨_, hmark _⟩)),
      hoff hc _ (Or.inr (Or.inr (hmark _)))⟩)

end Fragment

/-! ### Formatting -/

section Format

variable {Q : Unit → Mem → Prop} {E : FlashWriteError → Mem → Prop} {O : Mem → Prop}

/-- A block is not valid without the first byte of its marker, or with the third one written. -/
lemma view_eq_none (h : mem (b * dev.blockSize) ≠ 0x90 ∨ mem (b * dev.blockSize + 2) ≠ erased) :
    dev.view mem b = none := by
  have hinvalid : blockValid ((readMem mem (b * dev.blockSize) blockHeaderSize).take 4) = false := by
    have hbytes : (readMem mem (b * dev.blockSize) blockHeaderSize).take 4 =
        [mem (b * dev.blockSize), mem (b * dev.blockSize + 1), mem (b * dev.blockSize + 2),
          mem (b * dev.blockSize + 3)] := rfl
    rw [hbytes, blockValid, beq_eq_false_iff_ne]
    intro hc
    simp only [List.cons.injEq, and_true] at hc
    rcases h with h | h
    · exact h hc.1
    · exact h hc.2.2.1
  unfold view headerAt BlockHeader.fromBytes
  rw [if_neg (by rw [hinvalid]; decide)]
  rfl

lemma view_erased (dev : BlockDevice) : dev.view (fun _ => erased) = fun _ => none := by
  funext b
  exact view_eq_none (Or.inl (by decide))

lemma view_eq_update_none {mem' : Mem} (ho : OnlyBlock dev b mem mem') (hn : dev.view mem' b = none) :
    dev.view mem' = Function.update (dev.view mem) b none := by
  rw [view_eq_update ho, hn]

/-- The header of a block whose header and marker were written. -/
lemma fromBytes_asBytes {h : BlockHeader} {blockSize : ℕ} (hid : h.objectId < 2 ^ 16)
    (hver : h.objectVersion < 2 ^ 8) (hfs : h.fragSize < 2 ^ 16) (hfirst : h.firstFragNo < 2 ^ 32)
    (hcount : h.fragCount = calculateFragmentsPerBlock blockSize h.fragSize) (hpos : 0 < h.fragCount) :
    BlockHeader.fromBytes blockSize h.id ([0x90, 0x0D, 0xFF, 0xFF] ++ h.asBytes.drop 4) = some h := by
  have h1 : ofLeBytes (leBytes 2 h.objectId) = h.objectId := by
    rw [ofLeBytes_leBytes]
    exact Nat.mod_eq_of_lt hid
  have h2 : ofLeBytes (leBytes 2 h.fragSize) = h.fragSize := by
    rw [ofLeBytes_leBytes]
    exact Nat.mod_eq_of_lt hfs
  have h3 : ofLeBytes (leBytes 4 h.firstFragNo) = h.firstFragNo := by
    rw [ofLeBytes_leBytes]
    exact Nat.mod_eq_of_lt hfirst
  have h4 : (UInt8.ofNat h.objectVersion).toNat = h.objectVersion :=
    UInt8.toNat_ofNat_of_lt' hver
  have hparse : BlockHeader.fromBytes blockSize h.id ([0x90, 0x0D, 0xFF, 0xFF] ++ h.asBytes.drop 4) =
      BlockHeader.tryNew blockSize h.id (ofLeBytes (leBytes 2 h.objectId))
        (UInt8.ofNat h.objectVersion).toNat (ofLeBytes (leBytes 2 h.fragSize))
        (ofLeBytes (leBytes 4 h.firstFragNo)) := by
    unfold BlockHeader.fromBytes
    exact if_pos rfl
  rw [hparse, h1, h2, h3, h4, BlockHeader.tryNew, ← hcount]
  exact if_neg hpos.ne'

/-- The bytes of a block after a format that was carried out. -/
lemma view_formatted {h : BlockHeader} {mem' : Mem} (hid : h.objectId < 2 ^ 16)
    (hver : h.objectVersion < 2 ^ 8) (hfs : h.fragSize < 2 ^ 16) (hfirst : h.firstFragNo < 2 ^ 32)
    (hcount : h.fragCount = calculateFragmentsPerBlock dev.blockSize h.fragSize)
    (hpos : 0 < h.fragCount) (hb : h.id = b)
    (hhead : readMem mem' (b * dev.blockSize) blockHeaderSize =
      [0x90, 0x0D, 0xFF, 0xFF] ++ h.asBytes.drop 4)
    (hrest : ∀ a, b * dev.blockSize + blockHeaderSize ≤ a → a < b * dev.blockSize + dev.blockSize →
      mem' a = erased) :
    dev.view mem' b = some (Block.fresh h) := by
  have hheader : dev.headerAt mem' b = some h := by
    unfold headerAt
    rw [hhead, ← hb]
    exact fromBytes_asBytes hid hver hfs hfirst hcount hpos
  have hspec := headerAt_spec hheader
  unfold view
  rw [hheader]
  refine congrArg some (congrArg (Block.mk h) ?_)
  funext i
  by_cases hi : i < h.fragCount
  · obtain ⟨ht, hle⟩ := hspec.layout hi
    simp only [fragHeaderSize] at ht
    have hs : ∀ k, k < 3 → mem' (dev.statusAddr b i + k) = erased := by
      intro k hk
      refine hrest _ ?_ ?_ <;> simp only [statusAddr, fragHeaderSize] <;> omega
    have hd : readMem mem' (dev.dataAddr h b i) h.fragSize = List.replicate h.fragSize erased := by
      refine readMem_eq_replicate fun a h1 h2 => ?_
      simp only [dataAddr] at h1 h2
      exact hrest a (by omega) (by omega)
    rw [fragAt_eq hi, if_pos hi, hd, show mem' (dev.statusAddr b i) = erased from hs 0 (by decide),
      hs 1 (by decide), hs 2 (by decide)]
    rfl
  · rw [fragAt, if_neg hi, if_neg hi]

/-- Steps 1. and 2. of a format: before the block is erased it is not valid any more. -/
lemma wp_formatBlock_erase {objectId version fragSize first : ℕ} (hb : b < dev.blocksTotal)
    (hsame : cuts → O mem)
    (hnone : ∀ m, OnlyBlock dev b mem m → dev.view m b = none →
      (errors → E (.flash .other) m) ∧ (cuts → O m))
    (hrest : ∀ m, OnlyBlock dev b mem m →
      (∀ a, b * dev.blockSize ≤ a → a < b * dev.blockSize + dev.blockSize → m a = erased) →
      Dev.wp (faults errors cuts reads)
        (match BlockHeader.tryNew dev.blockSize b objectId version fragSize first with
        | none => Dev.throw (.write .fragmentTooLarge)
        | some header => do
          Dev.mapErr .flash (write dev.capacity (b * dev.blockSize + 4) (header.asBytes.drop 4))
          Dev.mapErr .flash (write dev.capacity (b * dev.blockSize) blockValidMarker)) Q E O m) :
    Dev.wp (faults errors cuts reads) (dev.formatBlock b objectId version fragSize first) Q E O mem := by
  have hcap := addr_lt_capacity hb
  have hle := dev.header_le
  simp only [blockHeaderSize] at hle
  -- 2. from a state in which the block is not valid
  have herase : ∀ m, OnlyBlock dev b mem m → dev.view m b = none →
      Dev.wp (faults errors cuts reads) (do
        Dev.mapErr FlashWriteError.flash (erase dev.blockSize dev.capacity (b * dev.blockSize)
          (b * dev.blockSize + dev.blockSize))
        match BlockHeader.tryNew dev.blockSize b objectId version fragSize first with
        | none => Dev.throw (.write .fragmentTooLarge)
        | some header => do
          Dev.mapErr .flash (write dev.capacity (b * dev.blockSize + 4) (header.asBytes.drop 4))
          Dev.mapErr .flash (write dev.capacity (b * dev.blockSize) blockValidMarker)) Q E O m := by
    intro m ho hn
    set m1 := eraseMem m (b * dev.blockSize) (b * dev.blockSize + dev.blockSize) 0 with hm1
    have hm1e : ∀ a, b * dev.blockSize ≤ a → a < b * dev.blockSize + dev.blockSize →
        m1 a = erased := by
      intro a h1 h2
      rw [hm1, eraseMem, if_pos ⟨h1, h2⟩, UInt8.xor_zero]
    have ho1 : OnlyBlock dev b mem m1 := ho.trans onlyBlock_eraseMem
    have h1 := hnone m1 ho1 (view_eq_none (Or.inl (by
      rw [hm1e _ le_rfl (by omega)]
      decide)))
    have h1' := hnone (eraseMem m (b * dev.blockSize) (b * dev.blockSize + dev.blockSize) corruption)
      (ho.trans onlyBlock_eraseMem) (view_eq_none (Or.inl (by
        rw [eraseMem, if_pos ⟨le_rfl, by omega⟩]
        decide)))
    refine Dev.wp_bind (Dev.wp_mapErr (wp_erase (Nat.mul_mod_left _ _) ?_ (by omega) ?_ h1'.1
      (fun hc => ⟨(hnone m ho hn).2 hc, h1'.2 hc, h1.2 hc⟩)))
    · rw [Nat.add_mod_right, Nat.mul_mod_left]
    · exact hrest m1 ho1 hm1e
  -- 1. the block is marked, or was not valid before
  have hmark : ∀ c, c = 0 ∨ c = corruption → OnlyBlock dev b mem
      (writeMem mem (b * dev.blockSize + 2) blockInvalidMarker c) ∧
      dev.view (writeMem mem (b * dev.blockSize + 2) blockInvalidMarker c) b = none := by
    intro c hc
    have hlen : blockInvalidMarker.length = 2 := rfl
    refine ⟨onlyBlock_writeMem (by omega) (by omega), view_eq_none (Or.inr ?_)⟩
    by_cases he : mem (b * dev.blockSize + 2) = erased
    · rw [writeMem_of_erased le_rfl (by omega) he, Nat.sub_self]
      rcases hc with rfl | rfl <;> decide
    · rwa [writeMem_of_ne he]
  have hm0 := hmark 0 (Or.inl rfl)
  have hm1 := hmark corruption (Or.inr rfl)
  unfold formatBlock
  refine Dev.wp_bind (wp_blockAddrOr hb (Dev.wp_bind (Dev.wp_attempt (wp_write ?_ ?_ ?_ ?_))))
  · simp only [blockInvalidMarker, List.length_cons, List.length_nil]
    omega
  · exact herase _ hm0.1 hm0.2
  · exact fun _ => herase _ hm1.1 hm1.2
  · exact fun hc => ⟨hsame hc, (hnone _ hm1.1 hm1.2).2 hc, (hnone _ hm0.1 hm0.2).2 hc⟩

/-- No fragment fits into a block: it is erased and left so. -/
theorem wp_formatBlock_tooLarge {objectId version fragSize first : ℕ} (hb : b < dev.blocksTotal)
    (hcount : calculateFragmentsPerBlock dev.blockSize fragSize = 0)
    (hbad : ∀ mem', dev.view mem' = Function.update (dev.view mem) b none →
      E (.write .fragmentTooLarge) mem')
    (herr : errors → ∀ mem', dev.view mem' = Function.update (dev.view mem) b none →
      E (.flash .other) mem')
    (hoff : cuts → ∀ mem', (dev.view mem' = dev.view mem ∨
      dev.view mem' = Function.update (dev.view mem) b none) → O mem') :
    Dev.wp (faults errors cuts reads) (dev.formatBlock b objectId version fragSize first) Q E O mem := by
  have hle := dev.header_le
  simp only [blockHeaderSize] at hle
  refine wp_formatBlock_erase hb (fun hc => hoff hc _ (Or.inl rfl)) (fun m ho hn => ?_)
    fun m ho hm => ?_
  · exact ⟨fun he => herr he m (view_eq_update_none ho hn),
      fun hc => hoff hc m (Or.inr (view_eq_update_none ho hn))⟩
  · have hnew : BlockHeader.tryNew dev.blockSize b objectId version fragSize first = none :=
      if_pos hcount
    simp only [hnew]
    refine Dev.wp_throw (hbad m (view_eq_update_none ho (view_eq_none (Or.inl ?_))))
    rw [hm _ le_rfl (by omega)]
    decide

theorem wp_formatBlock {objectId version fragSize first : ℕ} (hb : b < dev.blocksTotal)
    (hid : objectId < 2 ^ 16) (hver : version < 2 ^ 8) (hfs : fragSize < 2 ^ 16)
    (hfirst : first < 2 ^ 32) (hcount : 0 < calculateFragmentsPerBlock dev.blockSize fragSize)
    (hok : ∀ mem', dev.view mem' = Function.update (dev.view mem) b (some (Block.fresh
      ⟨objectId, fragSize, first, version, b, calculateFragmentsPerBlock dev.blockSize fragSize⟩)) →
      Q () mem')
    (herr : errors → ∀ mem', dev.view mem' = Function.update (dev.view mem) b none →
      E (.flash .other) mem')
    (hoff : cuts → ∀ mem', (dev.view mem' = dev.view mem ∨
      dev.view mem' = Function.update (dev.view mem) b none ∨
      dev.view mem' = Function.update (dev.view mem) b (some (Block.fresh
        ⟨objectId, fragSize, first, version, b,
          calculateFragmentsPerBlock dev.blockSize fragSize⟩))) → O mem') :
    Dev.wp (faults errors cuts reads) (dev.formatBlock b objectId version fragSize first) Q E O mem := by
  have hcap := addr_lt_capacity hb
  have hle := dev.header_le
  simp only [blockHeaderSize] at hle
  set h : BlockHeader :=
    ⟨objectId, fragSize, first, version, b, calculateFragmentsPerBlock dev.blockSize fragSize⟩ with hh
  have hnew : BlockHeader.tryNew dev.blockSize b objectId version fragSize first = some h :=
    if_neg hcount.ne'
  have hbytes : (h.asBytes.drop 4).length = 12 := rfl
  -- a state in which the block is not valid
  have hnone : ∀ m, OnlyBlock dev b mem m → dev.view m b = none →
      (errors → E (.flash .other) m) ∧ (cuts → O m) := fun m ho hn =>
    ⟨fun he => herr he m (view_eq_update_none ho hn),
      fun hc => hoff hc m (Or.inr (Or.inl (view_eq_update_none ho hn)))⟩
  refine wp_formatBlock_erase hb (fun hc => hoff hc _ (Or.inl rfl)) hnone fun m1 ho1 hm1e => ?_
  have h1 := hnone m1 ho1 (view_eq_none (Or.inl (by
    rw [hm1e _ le_rfl (by omega)]
    decide)))
  -- 3. the header
  have ho2 : ∀ c, OnlyBlock dev b mem (writeMem m1 (b * dev.blockSize + 4) (h.asBytes.drop 4) c) :=
    fun c => ho1.trans (onlyBlock_writeMem (by omega) (by omega))
  have h2 := fun c => hnone _ (ho2 c) (view_eq_none (Or.inl (by
    rw [writeMem_of_not_mem (by omega), hm1e _ le_rfl (by omega)]
    decide)))
  simp only [hnew]
  refine Dev.wp_bind (Dev.wp_mapErr (wp_write (by omega) ?_ (h2 _).1
    (fun hc => ⟨h1.2 hc, (h2 _).2 hc, (h2 _).2 hc⟩)))
  -- 4. the marker
  set m2 := writeMem m1 (b * dev.blockSize + 4) (h.asBytes.drop 4) 0 with hm2
  have hlen : blockValidMarker.length = 2 := rfl
  have hm2e : ∀ a, b * dev.blockSize ≤ a → a < b * dev.blockSize + 4 → m2 a = erased := by
    intro a h1 h2
    rw [hm2, writeMem_of_not_mem (by omega), hm1e a h1 (by omega)]
  have ho3 : ∀ c, OnlyBlock dev b mem (writeMem m2 (b * dev.blockSize) blockValidMarker c) :=
    fun c => (ho2 0).trans (onlyBlock_writeMem le_rfl (by omega))
  have h3 := hnone _ (ho3 corruption) (view_eq_none (Or.inl (by
    rw [writeMem_of_erased le_rfl (by omega) (hm2e _ le_rfl (by omega)), Nat.sub_self]
    decide)))
  have hfinal : dev.view (writeMem m2 (b * dev.blockSize) blockValidMarker 0) =
      Function.update (dev.view mem) b (some (Block.fresh h)) := by
    rw [view_eq_update (ho3 0)]
    congr 1
    refine view_formatted hid hver hfs hfirst rfl hcount rfl ?_ ?_
    · have hmarker : readMem (writeMem m2 (b * dev.blockSize) blockValidMarker 0)
          (b * dev.blockSize) 2 = blockValidMarker :=
        readMem_writeMem fun a h1 h2 => hm2e a h1 (by omega)
      have hblank : readMem (writeMem m2 (b * dev.blockSize) blockValidMarker 0)
          (b * dev.blockSize + 2) 2 = List.replicate 2 erased :=
        readMem_eq_replicate fun a h1 h2 => by
          rw [writeMem_of_not_mem (by omega), hm2e a (by omega) (by omega)]
      have hheader : readMem (writeMem m2 (b * dev.blockSize) blockValidMarker 0)
          (b * dev.blockSize + 2 + 2) 12 = h.asBytes.drop 4 := by
        refine (readMem_congr fun a h1 h2 => writeMem_of_not_mem (by omega)).trans ?_
        exact readMem_writeMem fun a h1 h2 => hm1e a (by omega) (by omega)
      rw [show blockHeaderSize = 2 + (2 + 12) from rfl, readMem_add, readMem_add, hmarker, hblank,
        hheader]
      rfl
    · intro a h1 h2
      simp only [blockHeaderSize] at h1
      rw [writeMem_of_not_mem (by omega), hm2, writeMem_of_not_mem (by omega),
        hm1e a (by omega) h2]
  exact Dev.wp_mapErr (wp_write (by omega) (hok _ hfinal) h3.1
    (fun hc => ⟨(h2 0).2 hc, h3.2 hc, hoff hc _ (Or.inr (Or.inr hfinal))⟩))

end Format

/-! ### Losing power before anything changes -/

section Cut

variable {errors reads : Prop}

lemma eval_blockAddrOr {ε : Type} {e : ε} (hb : b < dev.blocksTotal) :
    (dev.blockAddrOr e b).eval mem = .ok (b * dev.blockSize) mem := by
  unfold blockAddrOr blockAddr
  rw [if_neg (by omega)]
  rfl

lemma canCut_formatBlock {objectId version fragSize first : ℕ} (hb : b < dev.blocksTotal) :
    Dev.CanCut (faults errors True reads) (dev.formatBlock b objectId version fragSize first)
      mem mem := by
  unfold formatBlock
  exact Dev.CanCut.bind_right trivial (eval_blockAddrOr hb)
    (Dev.CanCut.bind_left (Dev.CanCut.attempt canCut_write))

lemma canCut_writeFragment {data : List UInt8} (hb : b < dev.blocksTotal)
    (hv : dev.view mem b = some v) (hi : v.header.relFragNo fragNo < v.header.fragCount)
    (hlen : data.length ≤ v.header.fragSize)
    (hst : (v.frag (v.header.relFragNo fragNo)).status = .empty) :
    Dev.CanCut (faults errors True reads) (dev.writeFragment v.header fragNo data) mem mem := by
  have hstatus : Dev.wp (faults False False False) (dev.fragmentStatusPreWrite v.header fragNo)
      (fun status mem' => status = .empty ∧ mem' = mem) (fun _ _ => False) (fun _ => False) mem :=
    wp_fragmentStatusPreWrite hb hv hi False.elim ⟨hst, rfl⟩
  obtain ⟨status, mem', heval, rfl, rfl⟩ := Dev.exists_eval hstatus
  unfold writeFragment
  rw [if_neg (by omega), (view_spec hv).id]
  refine Dev.CanCut.bind_right trivial (eval_blockAddrOr hb) ?_
  rw [if_neg (by omega)]
  exact Dev.CanCut.bind_right trivial heval (Dev.CanCut.bind_left (Dev.CanCut.mapErr canCut_write))

end Cut

/-! ### Reading the status of blocks and fragments -/

lemma readOnly_blockAddrOr {ε : Type} (e : ε) (b : ℕ) : Dev.ReadOnly (dev.blockAddrOr e b) := by
  unfold blockAddrOr
  cases dev.blockAddr b with
  | none => exact Dev.readOnly_throw e
  | some addr => exact Dev.readOnly_pure addr

lemma readOnly_blockHeader (b : ℕ) : Dev.ReadOnly (dev.blockHeader b) :=
  (readOnly_blockAddrOr _ b).bind fun _ => ((Dev.readOnly_read _ _).mapErr _).bind fun _ =>
    Dev.readOnly_pure _

lemma readOnly_fragmentStatus (block : BlockHeader) (n : ℕ) :
    Dev.ReadOnly (dev.fragmentStatus block n) := by
  have htry : Dev.ReadOnly (dev.tryGetFragmentStatus block n) := by
    unfold tryGetFragmentStatus
    split
    · exact Dev.readOnly_pure none
    · exact (readOnly_blockAddrOr _ _).bind fun _ => ((Dev.readOnly_read _ _).mapErr _).bind fun _ =>
        Dev.readOnly_pure _
  refine (htry.mapErr _).bind fun status => ?_
  cases status with
  | none => exact Dev.readOnly_throw _
  | some status => exact Dev.readOnly_pure status

end BlockDevice

end SensorLink.Flash
