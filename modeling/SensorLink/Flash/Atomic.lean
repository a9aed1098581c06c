import SensorLink.Flash.BlockSpec
import SensorLink.Lib.Reach

/-!
# Every operation of the block layer is atomic

`see` is what a reader finds in a block: its header, and for each fragment number the status and the
data. Whatever fails in an operation and wherever power is lost, what it addresses is as before, or not
valid, or as it was to be, and nothing else has changed (`atomic_of_reach`). A fragment that reads as
empty is erased (`Tidy`); the operations keep this too.
-/

namespace SensorLink.Flash

open SensorLink.Lib

/-- What a reader finds in a valid block, by fragment number: `none` where there is an error. -/
structure Sight where
  header : BlockHeader
  status : ℕ → Option FragmentStatus
  /-- into a buffer of the given length -/
  read : ℕ → ℕ → Option (List UInt8)

/-- The result of a program that runs without faults. -/
def result? {ε α : Type} (p : Io ε α) (mem : Mem) : Option α :=
  match p.eval mem with
  | .ok a _ => some a
  | _ => none

/-- Through `block_header`, `fragment_status` and `read_fragment`. -/
def BlockDevice.see (dev : BlockDevice) (mem : Mem) (b : ℕ) : Option Sight :=
  ((result? (dev.blockHeader b) mem).join).map fun h =>
    ⟨h, fun n => result? (dev.fragmentStatus h n) mem, fun n len => result? (dev.readFragment h n len) mem⟩

/-- The operations, on a block of the device. The fragments are those of the header that
`block_header` returns for the block. -/
inductive BlockCall (dev : BlockDevice)
  | formatBlock (b : Fin dev.blocksTotal) (objectId : UInt16) (version : UInt8) (fragSize : UInt16)
      (first : UInt32)
  | writeFragment (b : Fin dev.blocksTotal) (fragNo : UInt32) (data : List UInt8)
  | deleteFragment (b : Fin dev.blocksTotal) (fragNo : UInt32)

namespace BlockCall

variable {dev : BlockDevice}

/-- The block that is addressed. -/
def block : BlockCall dev → Fin dev.blocksTotal
  | formatBlock b _ _ _ _ => b
  | writeFragment b _ _ => b
  | deleteFragment b _ => b

def run (call : BlockCall dev) (mem : Mem) : Io FlashWriteError Unit :=
  match call with
  | formatBlock b objectId version fragSize first =>
    dev.formatBlock b objectId.toNat version.toNat fragSize.toNat first.toNat
  | writeFragment b fragNo data =>
    match (result? (dev.blockHeader b) mem).join with
    | none => pure ()
    | some h => dev.writeFragment h fragNo.toNat data
  | deleteFragment b fragNo =>
    match (result? (dev.blockHeader b) mem).join with
    | none => pure ()
    | some h => dev.deleteFragment h fragNo.toNat

end BlockCall

/-- The flash after an operation, with the fates of its writes and erases and of its reads. -/
def BlockDevice.exec (dev : BlockDevice) (mem : Mem) (op : BlockCall dev × List Fate × List Bool) : Mem :=
  ((op.1.run mem).run ⟨mem, op.2.1, op.2.2⟩).dev.mem

/-- One fragment of a block may have changed: it is as before, or not valid, or `done`. -/
structure FragmentAtomic (s s' : Sight) (fragNo : ℕ) (done : Prop) : Prop where
  header : s'.header = s.header
  others : ∀ k, s.header.relFragNo k ≠ s.header.relFragNo fragNo →
    s'.status k = s.status k ∧ s'.read k = s.read k
  target : s'.status fragNo = s.status fragNo ∧ s'.read fragNo = s.read fragNo ∨
    s'.status fragNo ≠ some .valid ∨ done

/-- The block that the operation addresses, before and after it. -/
def TargetAtomic {dev : BlockDevice} (call : BlockCall dev) (see see' : Option Sight) : Prop :=
  match call with
  | .formatBlock b objectId version fragSize first =>
    see' = see ∨ see' = none ∨ ∃ s', see' = some s' ∧
      s'.header = ⟨objectId.toNat, fragSize.toNat, first.toNat, version.toNat, b,
        calculateFragmentsPerBlock dev.blockSize fragSize.toNat⟩ ∧
      ∀ k, s'.status k = if s'.header.relFragNo k < s'.header.fragCount then some .empty else none
  | .writeFragment _ fragNo data =>
    see' = see ∨ ∃ s s', see = some s ∧ see' = some s' ∧ FragmentAtomic s s' fragNo.toNat
      (s'.status fragNo.toNat = some .valid ∧ ∀ len, s'.read fragNo.toNat len =
        some ((data ++ List.replicate (s.header.fragSize - data.length) erased).take len))
  | .deleteFragment _ fragNo =>
    see' = see ∨ ∃ s s', see = some s ∧ see' = some s' ∧ FragmentAtomic s s' fragNo.toNat
      (s'.status fragNo.toNat = some .obsolete)

/-- An operation is atomic, and changes no other block. -/
structure Atomic (dev : BlockDevice) (mem mem' : Mem) (call : BlockCall dev) : Prop where
  target : TargetAtomic call (dev.see mem call.block) (dev.see mem' call.block)
  others : ∀ b < dev.blocksTotal, b ≠ call.block → dev.see mem' b = dev.see mem b

/-- A fragment of a valid block that reads as empty is erased. -/
def Tidy (V : ℕ → Option Block) : Prop :=
  ∀ b v i, V b = some v → i < v.header.fragCount → (v.frag i).status = .empty →
    v.frag i = Frag.fresh v.header.fragSize

/-! ### What is seen of a view -/

/-- What a reader finds in a block with the given contents. -/
def Block.sight (v : Block) : Sight where
  header := v.header
  status n := if v.header.relFragNo n < v.header.fragCount then
    some (v.frag (v.header.relFragNo n)).status else none
  read n len := if v.header.relFragNo n < v.header.fragCount ∧
    (v.frag (v.header.relFragNo n)).status = .valid then
    some ((v.frag (v.header.relFragNo n)).data.take len) else none

section Sight

variable {dev : BlockDevice} {mem : Mem} {b : ℕ} {v : Block}

/-- A program that ends so is seen so. -/
lemma result?_eq {ε α : Type} {p : Io ε α} {r : Option α}
    (h : Dev.wp (faults False False False) p (fun a _ => r = some a) (fun _ _ => r = none)
      (fun _ => False) mem) : result? p mem = r := by
  have heval := Dev.wp_eval h
  unfold result?
  revert heval
  cases p.eval mem with
  | ok a m => exact fun heval => heval.symm
  | err e m => exact fun heval => heval.symm
  | off m => exact False.elim

lemma result?_blockHeader (hb : b < dev.blocksTotal) :
    result? (dev.blockHeader b) mem = some ((dev.view mem b).map Block.header) :=
  result?_eq (BlockDevice.wp_blockHeader hb False.elim rfl)

lemma result?_fragmentStatus (hb : b < dev.blocksTotal) (hv : dev.view mem b = some v) (n : ℕ) :
    result? (dev.fragmentStatus v.header n) mem = v.sight.status n := by
  by_cases hi : v.header.relFragNo n < v.header.fragCount
  · exact result?_eq (BlockDevice.wp_fragmentStatus hb hv hi False.elim (if_pos hi))
  · refine result?_eq (Dev.wp_bind (Dev.wp_mapErr ?_))
    unfold BlockDevice.tryGetFragmentStatus
    rw [if_pos (Nat.not_lt.mp hi)]
    exact Dev.wp_pure (Dev.wp_throw (if_neg hi))

lemma result?_readFragment (hb : b < dev.blocksTotal) (hv : dev.view mem b = some v) (n len : ℕ) :
    result? (dev.readFragment v.header n len) mem = v.sight.read n len := by
  by_cases hi : v.header.relFragNo n < v.header.fragCount
  · refine result?_eq (BlockDevice.wp_readFragmentAtOffset hb hv rfl hi (Nat.zero_le _) False.elim
      (fun hst => ?_) fun hst => ?_)
    · rw [List.drop_zero]
      exact if_pos ⟨hi, hst⟩
    · exact if_neg fun hc => hst hc.2
  · exact result?_eq (BlockDevice.wp_readFragment_notFound (Nat.not_lt.mp hi)
      (if_neg fun hc => hi hc.1))

lemma see_eq (hb : b < dev.blocksTotal) : dev.see mem b = (dev.view mem b).map Block.sight := by
  unfold BlockDevice.see
  rw [result?_blockHeader hb]
  cases hv : dev.view mem b with
  | none => rfl
  | some v =>
    show some (Sight.mk _ _ _) = some (Sight.mk _ _ _)
    refine congrArg some ?_
    rw [Sight.mk.injEq]
    refine ⟨rfl, ?_, ?_⟩
    · funext n
      exact result?_fragmentStatus hb hv n
    · funext n len
      exact result?_readFragment hb hv n len

lemma sight_fresh (h : BlockHeader) (k : ℕ) : (Block.fresh h).sight.status k =
    if h.relFragNo k < h.fragCount then some .empty else none := by
  by_cases hk : h.relFragNo k < h.fragCount
  · rw [if_pos hk]
    exact (if_pos hk).trans (congrArg (fun f => some (Frag.status f)) (Block.fresh_frag hk))
  · rw [if_neg hk]
    exact if_neg hk

/-- What is seen of a fragment that was written. -/
lemma sight_written {n : ℕ} {data : List UInt8} (hi : v.header.relFragNo n < v.header.fragCount) :
    (v.setFrag (v.header.relFragNo n) ⟨.valid, data⟩).sight.status n = some .valid ∧
      ∀ len, (v.setFrag (v.header.relFragNo n) ⟨.valid, data⟩).sight.read n len =
        some (data.take len) := by
  have hself : (v.setFrag (v.header.relFragNo n) ⟨.valid, data⟩).frag (v.header.relFragNo n) =
      ⟨.valid, data⟩ := Function.update_self _ _ _
  constructor
  · simp only [Block.sight, Block.setFrag_header, hself, if_pos hi]
  · intro len
    simp only [Block.sight, Block.setFrag_header, hself, and_true, if_pos hi]

/-- What is seen when one fragment has changed. -/
lemma fragmentAtomic_setFrag {n : ℕ} {f : Frag} {done : Prop}
    (hi : v.header.relFragNo n < v.header.fragCount)
    (hf : f.status ≠ .valid ∨ done) :
    FragmentAtomic v.sight (v.setFrag (v.header.relFragNo n) f).sight n done := by
  refine ⟨rfl, fun k hk => ?_, ?_⟩
  · have hne : (v.setFrag (v.header.relFragNo n) f).frag (v.header.relFragNo k) =
        v.frag (v.header.relFragNo k) := Function.update_of_ne hk _ _
    constructor
    · simp only [Block.sight, Block.setFrag_header, hne]
    · simp only [Block.sight, Block.setFrag_header, hne]
  · refine Or.inr (hf.imp_left fun hst => ?_)
    have hself : (v.setFrag (v.header.relFragNo n) f).frag (v.header.relFragNo n) = f :=
      Function.update_self _ _ _
    simp only [Block.sight, Block.setFrag_header, hself, if_pos hi]
    exact fun hc => hst (Option.some.inj hc)

end Sight

/-! ### The operations -/

section Calls

variable {dev : BlockDevice} {mem mem' : Mem}

/-- What holds when an operation ends. -/
def Settled (dev : BlockDevice) (mem : Mem) (call : BlockCall dev) (mem' : Mem) : Prop :=
  Tidy (dev.view mem') ∧ Atomic dev mem mem' call

lemma Tidy.update {V : ℕ → Option Block} (h : Tidy V) {b : ℕ} {o : Option Block}
    (ho : ∀ v i, o = some v → i < v.header.fragCount → (v.frag i).status = .empty →
      v.frag i = Frag.fresh v.header.fragSize) : Tidy (Function.update V b o) := by
  intro b' v i hv hi hst
  by_cases hb : b' = b
  · rw [hb, Function.update_self] at hv
    exact ho v i hv hi hst
  · rw [Function.update_of_ne hb] at hv
    exact h b' v i hv hi hst

lemma Tidy.setFrag {V : ℕ → Option Block} (h : Tidy V) {b i : ℕ} {v : Block} {f : Frag}
    (hv : V b = some v) (hf : f.status ≠ .empty) :
    Tidy (Function.update V b (some (v.setFrag i f))) := by
  refine h.update fun w j hw hj hst => ?_
  obtain rfl := Option.some.inj hw
  by_cases hji : j = i
  · rw [hji, Block.setFrag_frag, Function.update_self] at hst
    exact absurd hst hf
  · rw [Block.setFrag_frag, Function.update_of_ne hji] at hst ⊢
    exact h b v j hv hj hst

lemma settled_same (h : Tidy (dev.view mem)) {call : BlockCall dev} (hv : dev.view mem' = dev.view mem) :
    Settled dev mem call mem' := by
  have hsee : ∀ b < dev.blocksTotal, dev.see mem' b = dev.see mem b := by
    intro b hb
    rw [see_eq hb, see_eq hb, hv]
  refine ⟨hv ▸ h, ?_, fun b hb _ => hsee b hb⟩
  rw [hsee _ call.block.isLt]
  cases call <;> exact Or.inl rfl

/-- Only the block that the operation addresses has changed. -/
lemma settled_update {call : BlockCall dev} {o : Option Block}
    (hv : dev.view mem' = Function.update (dev.view mem) call.block o) (htidy : Tidy (dev.view mem'))
    (htarget : TargetAtomic call ((dev.view mem call.block).map Block.sight) (o.map Block.sight)) :
    Settled dev mem call mem' := by
  refine ⟨htidy, ?_, fun b hb hne => ?_⟩
  · rw [see_eq call.block.isLt, see_eq call.block.isLt, hv, Function.update_self]
    exact htarget
  · rw [see_eq hb, see_eq hb, hv, Function.update_of_ne hne]

variable {b : Fin dev.blocksTotal}

lemma wp_formatCall (h : Tidy (dev.view mem)) (objectId : UInt16) (version : UInt8) (fragSize : UInt16)
    (first : UInt32) : Dev.wp (faults True True True)
      ((BlockCall.formatBlock b objectId version fragSize first).run mem)
      (fun _ => Settled dev mem (.formatBlock b objectId version fragSize first))
      (fun _ => Settled dev mem (.formatBlock b objectId version fragSize first))
      (Settled dev mem (.formatBlock b objectId version fragSize first)) mem := by
  have hnone : ∀ mem', dev.view mem' = Function.update (dev.view mem) b none →
      Settled dev mem (.formatBlock b objectId version fragSize first) mem' := by
    intro mem' hv
    refine settled_update hv ?_ (Or.inr (Or.inl rfl))
    rw [hv]
    exact h.update fun v i hc => by cases hc
  rcases Nat.eq_zero_or_pos (calculateFragmentsPerBlock dev.blockSize fragSize.toNat) with hzero | hpos
  · refine BlockDevice.wp_formatBlock_tooLarge b.isLt hzero hnone (fun _ => hnone) fun _ mem' hv => ?_
    rcases hv with hv | hv
    · exact settled_same h hv
    · exact hnone mem' hv
  · have hdone : ∀ mem', dev.view mem' = Function.update (dev.view mem) b (some (Block.fresh
        ⟨objectId.toNat, fragSize.toNat, first.toNat, version.toNat, b,
          calculateFragmentsPerBlock dev.blockSize fragSize.toNat⟩)) →
        Settled dev mem (.formatBlock b objectId version fragSize first) mem' := by
      intro mem' hv
      refine settled_update hv ?_ (Or.inr (Or.inr ⟨_, rfl, rfl, sight_fresh _⟩))
      rw [hv]
      refine h.update fun v i hv' hi _ => ?_
      obtain rfl := Option.some.inj hv'
      exact Block.fresh_frag hi
    refine BlockDevice.wp_formatBlock b.isLt objectId.toNat_lt version.toNat_lt fragSize.toNat_lt
      first.toNat_lt hpos hdone (fun _ => hnone) fun _ mem' hv => ?_
    rcases hv with hv | hv | hv
    · exact settled_same h hv
    · exact hnone mem' hv
    · exact hdone mem' hv

lemma wp_writeCall (h : Tidy (dev.view mem)) (fragNo : UInt32) (data : List UInt8) :
    Dev.wp (faults True True True) ((BlockCall.writeFragment b fragNo data).run mem)
      (fun _ => Settled dev mem (.writeFragment b fragNo data))
      (fun _ => Settled dev mem (.writeFragment b fragNo data))
      (Settled dev mem (.writeFragment b fragNo data)) mem := by
  have hsame : Settled dev mem (.writeFragment b fragNo data) mem := settled_same h rfl
  simp only [BlockCall.run]
  rw [result?_blockHeader b.isLt]
  cases hv : dev.view mem b with
  | none => exact Dev.wp_pure hsame
  | some v =>
    show Dev.wp _ (dev.writeFragment v.header fragNo.toNat data) _ _ _ _
    rcases Nat.lt_or_ge v.header.fragSize data.length with hlen | hlen
    · exact BlockDevice.wp_writeFragment_tooLarge hlen hsame
    rcases Nat.lt_or_ge (v.header.relFragNo fragNo.toNat) v.header.fragCount with hi | hi
    · -- what the write makes of the fragment
      have hset : ∀ mem' f, dev.view mem' =
          dev.setView mem b v (v.header.relFragNo fragNo.toNat) f → f.status ≠ .empty →
          (f.status ≠ .valid ∨
            f = ⟨.valid, data ++ List.replicate (v.header.fragSize - data.length) erased⟩) →
          Settled dev mem (.writeFragment b fragNo data) mem' := by
        intro mem' f hv' hst hf
        refine settled_update hv' ?_ (Or.inr ⟨v.sight, _, ?_, rfl, fragmentAtomic_setFrag hi ?_⟩)
        · rw [hv']
          exact h.setFrag hv hst
        · rw [show (BlockCall.writeFragment b fragNo data).block = b from rfl, hv]
          rfl
        · refine hf.imp_right fun hf => ?_
          subst hf
          exact sight_written hi
      by_cases hst : (v.frag (v.header.relFragNo fragNo.toNat)).status = .empty
      · have hdone : ∀ mem', dev.view mem' = dev.setView mem b v (v.header.relFragNo fragNo.toNat)
            ⟨.valid, data ++ List.replicate (v.header.fragSize - data.length) erased⟩ →
            Settled dev mem (.writeFragment b fragNo data) mem' :=
          fun mem' hv' => hset mem' _ hv' (fun hc => by cases hc) (Or.inr rfl)
        have htorn : ∀ mem', (∃ d, dev.view mem' =
            dev.setView mem b v (v.header.relFragNo fragNo.toNat) ⟨.invalid, d⟩) →
            Settled dev mem (.writeFragment b fragNo data) mem' := by
          rintro mem' ⟨d, hv'⟩
          exact hset mem' _ hv' (fun hc => by cases hc) (Or.inl fun hc => by cases hc)
        refine BlockDevice.wp_writeFragment b.isLt hv rfl hi hlen (h _ v _ hv hi hst) hdone
          (fun _ mem' hv' => ?_) fun _ mem' hv' => ?_
        · rcases hv' with hv' | hv'
          · exact settled_same h hv'
          · exact htorn mem' hv'
        · rcases hv' with hv' | hv' | hv'
          · exact settled_same h hv'
          · exact htorn mem' hv'
          · exact hdone mem' hv'
      · exact BlockDevice.wp_writeFragment_used b.isLt hv hi hlen hst (fun _ => hsame) hsame
    · unfold BlockDevice.writeFragment
      rw [if_neg (Nat.not_lt.mpr hlen), (BlockDevice.view_spec hv).id]
      refine Dev.wp_bind (BlockDevice.wp_blockAddrOr b.isLt ?_)
      rw [if_pos hi]
      exact Dev.wp_throw hsame

lemma wp_deleteCall (h : Tidy (dev.view mem)) (fragNo : UInt32) :
    Dev.wp (faults True True True) ((BlockCall.deleteFragment b fragNo).run mem)
      (fun _ => Settled dev mem (.deleteFragment b fragNo))
      (fun _ => Settled dev mem (.deleteFragment b fragNo))
      (Settled dev mem (.deleteFragment b fragNo)) mem := by
  have hsame : Settled dev mem (.deleteFragment b fragNo) mem := settled_same h rfl
  simp only [BlockCall.run]
  rw [result?_blockHeader b.isLt]
  cases hv : dev.view mem b with
  | none => exact Dev.wp_pure hsame
  | some v =>
    show Dev.wp _ (dev.deleteFragment v.header fragNo.toNat) _ _ _ _
    rcases Nat.lt_or_ge (v.header.relFragNo fragNo.toNat) v.header.fragCount with hi | hi
    · have hset : ∀ mem' f, dev.view mem' =
          dev.setView mem b v (v.header.relFragNo fragNo.toNat) f →
          (f.status = .invalid ∨ f.status = .obsolete) →
          Settled dev mem (.deleteFragment b fragNo) mem' := by
        intro mem' f hv' hst
        refine settled_update hv' ?_ (Or.inr ⟨v.sight, _, ?_, rfl, fragmentAtomic_setFrag hi (Or.inl ?_)⟩)
        · rw [hv']
          refine h.setFrag hv ?_
          rcases hst with hst | hst <;> rw [hst] <;> decide
        · rw [show (BlockCall.deleteFragment b fragNo).block = b from rfl, hv]
          rfl
        · rcases hst with hst | hst <;> rw [hst] <;> decide
      cases hst : (v.frag (v.header.relFragNo fragNo.toNat)).status with
      | invalid => exact BlockDevice.wp_deleteFragment_done b.isLt hv hi (Or.inl hst) (fun _ => hsame) hsame
      | obsolete => exact BlockDevice.wp_deleteFragment_done b.isLt hv hi (Or.inr hst) (fun _ => hsame) hsame
      | empty =>
        refine BlockDevice.wp_deleteFragment b.isLt hv rfl hi (Or.inl hst) (fun _ => hsame)
          (fun mem' hv' => hset mem' _ hv' (Or.inr rfl)) (fun _ mem' hv' => hset mem' _ hv' (Or.inl rfl))
          fun _ mem' hv' => ?_
        rcases hv' with hv' | hv' | hv'
        · exact settled_same h hv'
        · exact hset mem' _ hv' (Or.inl rfl)
        · exact hset mem' _ hv' (Or.inr rfl)
      | valid =>
        refine BlockDevice.wp_deleteFragment b.isLt hv rfl hi (Or.inr hst) (fun _ => hsame)
          (fun mem' hv' => hset mem' _ hv' (Or.inr rfl)) (fun _ mem' hv' => hset mem' _ hv' (Or.inl rfl))
          fun _ mem' hv' => ?_
        rcases hv' with hv' | hv' | hv'
        · exact settled_same h hv'
        · exact hset mem' _ hv' (Or.inl rfl)
        · exact hset mem' _ hv' (Or.inr rfl)
    · unfold BlockDevice.deleteFragment
      rw [(BlockDevice.view_spec hv).id]
      refine Dev.wp_bind (BlockDevice.wp_blockAddrOr b.isLt ?_)
      rw [if_pos hi]
      exact Dev.wp_throw hsame

lemma settled_exec (h : Tidy (dev.view mem)) (op : BlockCall dev × List Fate × List Bool) :
    Settled dev mem op.1 (dev.exec mem op) := by
  obtain ⟨call, plan, reads⟩ := op
  have hwp : Dev.wp (faults True True True) (call.run mem) (fun _ => Settled dev mem call)
      (fun _ => Settled dev mem call) (Settled dev mem call) mem := by
    cases call with
    | formatBlock b objectId version fragSize first => exact wp_formatCall h objectId version fragSize first
    | writeFragment b fragNo data => exact wp_writeCall h fragNo data
    | deleteFragment b fragNo => exact wp_deleteCall h fragNo
  have hrun := hwp ⟨mem, plan, reads⟩ rfl
    ⟨fun fate _ => by cases fate <;> trivial, fun hc => absurd trivial hc⟩
  unfold BlockDevice.exec
  simp only
  revert hrun
  cases (call.run mem).run ⟨mem, plan, reads⟩ with
  | ok _ d => exact And.right
  | err e d => exact And.right
  | off d => exact id

end Calls

/-- **The block layer is atomic**: each operation in every run, with any faults. -/
theorem atomic_of_reach (dev : BlockDevice) (mem : Mem) (hmem : Tidy (dev.view mem)) (s : Mem)
    (h : Reach dev.exec (fun _ _ => True) mem s) (op : BlockCall dev × List Fate × List Bool) :
    Atomic dev s (dev.exec s op) op.1 := by
  have htidy : Tidy (dev.view s) :=
    h.invariant (P := fun s => Tidy (dev.view s)) hmem fun s op hs _ => (settled_exec hs op).1
  exact (settled_exec htidy op).2

def atomicDevice : BlockDevice := smallDevice

/-- Block 1 is formatted for fragments of two bytes. -/
def sampleFormat : BlockCall atomicDevice × List Fate × List Bool :=
  (.formatBlock ⟨1, by decide⟩ 7 0 2 0, [], [])

/-- Power is lost while the data of fragment 1 is written. -/
def sampleWrite : BlockCall atomicDevice × List Fate × List Bool :=
  (.writeFragment ⟨1, by decide⟩ 1 [5], [.ok, .offTorn], [])

theorem atomic_sample :
    Tidy (atomicDevice.view fun _ => erased) ∧
    Reach atomicDevice.exec (fun _ _ => True) (fun _ => erased)
      (atomicDevice.exec (fun _ => erased) sampleFormat) ∧
    Atomic atomicDevice (atomicDevice.exec (fun _ => erased) sampleFormat)
      (atomicDevice.exec (atomicDevice.exec (fun _ => erased) sampleFormat) sampleWrite) sampleWrite.1 := by
  have htidy : Tidy (atomicDevice.view fun _ => erased) := by
    intro b v i hv
    rw [BlockDevice.view_erased] at hv
    cases hv
  have hreach : Reach atomicDevice.exec (fun _ _ => True) (fun _ => erased)
      (atomicDevice.exec (fun _ => erased) sampleFormat) := .step sampleFormat .start trivial
  exact ⟨htidy, hreach, atomic_of_reach _ _ htidy _ hreach sampleWrite⟩

end SensorLink.Flash
