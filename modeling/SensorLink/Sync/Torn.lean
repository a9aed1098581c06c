import SensorLink.Sync.DoubleBuffer
import SensorLink.Lib.Reach

/-!
# No torn or lost values

While the count of writes stays the same, the buffer that its parity selects does not change: the holder
of the guard writes the other one before its write is counted, and nothing afterwards. A `read` that finds
the same version twice has copied that buffer, or has copied while the count was ahead of the publications,
when neither buffer changes.
-/

namespace SensorLink.Sync

open SensorLink.Lib

variable {size : ℕ} {W : Type}

/-- The buffer of the publication `k` -/
def slot (k : ℕ) : Fin 2 := ⟨k % 2, Nat.mod_lt k Nat.two_pos⟩

/-- The state after `k` publications -/
def stateAt (k : ℕ) (locked : Bool) : State :=
  if k % 2 = 0 then if locked then .writing1Read0 else .writeIdleRead0
  else if locked then .writing0Read1 else .writeIdleRead1

lemma slot_succ_ne (k : ℕ) : slot (k + 1) ≠ slot k := by
  simp only [slot, ne_eq, Fin.mk.injEq]
  omega

lemma readIndex_stateAt (k : ℕ) (locked : Bool) : (stateAt k locked).readIndex.toUsize = slot k := by
  rcases Nat.mod_two_eq_zero_or_one k with h | h <;> cases locked <;>
    simp [stateAt, slot, h, State.readIndex, ReadIndex.toUsize]

lemma toU32_injective : Function.Injective State.toU32 := by
  intro a b h
  rw [← State.fromU32_toU32 a, h, State.fromU32_toU32]

/-- The guard publishes: the state goes on to the next one. -/
lemma next_fromWriteIndex {k : ℕ} {writeIndex : WriteIndex} (h : writeIndex.toUsize = slot (k + 1)) :
    (State.fromWriteIndex writeIndex).next = stateAt (k + 1) false := by
  cases writeIndex with
  | zero =>
    have hk : (k + 1) % 2 = 0 := (Fin.ext_iff.mp h).symm
    simp only [stateAt, hk, if_true, Bool.false_eq_true, if_false]
    rfl
  | one =>
    have hk : (k + 1) % 2 = 1 := (Fin.ext_iff.mp h).symm
    simp only [stateAt, hk, one_ne_zero, if_false, Bool.false_eq_true]
    rfl

/-- The states of two publications are the same in the same parity. -/
lemma stateAt_eq {k j : ℕ} {locked : Bool} (h : stateAt k locked = stateAt j false) :
    locked = false ∧ stateAt k true = stateAt j true := by
  rcases Nat.mod_two_eq_zero_or_one k with hk | hk <;>
    rcases Nat.mod_two_eq_zero_or_one j with hj | hj <;> cases locked <;>
    simp_all [stateAt]

/-- The compare-exchange selects the buffer that is not read. -/
lemma writeIndex_stateAt (k : ℕ) : ∃ writeIndex, (stateAt k false).next.writeIndex = some writeIndex ∧
    writeIndex.toUsize = slot (k + 1) := by
  rcases Nat.mod_two_eq_zero_or_one k with hk | hk
  · refine ⟨.one, by simp [stateAt, hk]; rfl, Fin.ext ?_⟩
    simp only [slot, WriteIndex.toUsize]
    omega
  · refine ⟨.zero, by simp [stateAt, hk]; rfl, Fin.ext ?_⟩
    simp only [slot, WriteIndex.toUsize]
    omega

/-! ### What a thread knows -/

section ThreadInv

variable (s : Shared size W) (t : Thread size W)

/-- What a `read` knows: the words it has copied are those of a buffer that has not changed, as long as
no write was counted since it loaded the version. -/
def ReadInv : Reading size W → Prop
  | .loadState | .loadVersion _ => True
  | .copy state version got => version = .ofNat t.loaded ∧ t.wrote ≤ t.loaded ∧ t.loaded ≤ s.writes ∧
    (s.writes = t.loaded → state.readIndex.toUsize = slot t.loaded ∨ s.count + 1 = t.loaded →
      ∀ i word, got i = some word → word = s.buf.buffer state.readIndex.toUsize i)
  | .loadVersionCheck state version value stateCheck =>
    version = .ofNat t.loaded ∧ t.wrote ≤ t.loaded ∧ t.loaded ≤ s.writes ∧
    (s.writes = t.loaded → state.readIndex = stateCheck.readIndex →
      ∃ k, t.began ≤ k ∧ k ≤ s.count ∧ (s.published k).value = value)

/-- When the `read` began. -/
def BeganInv : Prop := t.began ≤ s.count ∧ t.wrote ≤ s.writes

/-- The guard writes the buffer that is not read. -/
def HoldInv (writeIndex : WriteIndex) : Prop :=
  writeIndex.toUsize = slot (s.count + 1) ∧ s.writes = s.count

/-- The words that the holder of the guard has not touched are those of the last publication. -/
def KeptInv : Prop := ∀ i, t.touched i = false →
  s.buf.buffer (slot (s.count + 1)) i = (s.published s.count).value i

def ThreadInv : Prop :=
  match t.point with
  | .idle | .exchange0 | .exchange1 => True
  | .reading r => BeganInv s t ∧ ReadInv s t r
  | .initRead writeIndex r => HoldInv s writeIndex ∧ t.began = s.count ∧ BeganInv s t ∧ ReadInv s t r
  | .initStore writeIndex value stored => HoldInv s writeIndex ∧ value = (s.published s.count).value ∧
    ∀ i, stored i = true → s.buf.buffer (slot (s.count + 1)) i = value i
  | .guard writeIndex | .fetchAdd writeIndex => HoldInv s writeIndex ∧ KeptInv s t
  | .storeState writeIndex => writeIndex.toUsize = slot (s.count + 1) ∧ s.writes = s.count + 1 ∧
    KeptInv s t

end ThreadInv

/-- What a step does to what the threads share, as far as a `read` of another thread can notice. -/
inductive Change : Shared size W → Shared size W → Prop
  | quiet {s v holder returns} : Change s { s with
      buf := { s.buf with state := v }
      holder := holder
      returns := returns }
  | word {s i word} : s.writes = s.count →
    Change s { s with buf := s.buf.storeWord (slot (s.count + 1)) i word }
  | counted {s v} : s.writes = s.count →
    Change s { s with buf := { s.buf with dataVersion := v }, writes := s.writes + 1 }
  | published {s v publication} : s.writes = s.count + 1 → Change s { s with
      buf := { s.buf with state := v }
      count := s.count + 1
      published := Function.update s.published (s.count + 1) publication
      holder := none }

variable {s s' : Shared size W} {t : Thread size W}

lemma BeganInv.change (h : BeganInv s t) (hchange : Change s s') : BeganInv s' t := by
  cases hchange with
  | quiet => exact h
  | word => exact h
  | counted => exact ⟨h.1, h.2.trans (Nat.le_succ _)⟩
  | published => exact ⟨h.1.trans (Nat.le_succ _), h.2⟩

lemma storeWord_buffer (b : DoubleBuffer size W) {index other : Fin 2} (hne : other ≠ index) (i : Fin size)
    (word : W) : (b.storeWord index i word).buffer other = b.buffer other :=
  Function.update_of_ne hne _ _

/-- A `read` goes on knowing what it knows. -/
lemma ReadInv.change {r : Reading size W} (h : ReadInv s t r) (hchange : Change s s') : ReadInv s' t r := by
  cases r with
  | loadState => trivial
  | loadVersion state => trivial
  | copy state version got =>
    obtain ⟨hversion, hwrote, hloaded, hcopy⟩ := h
    cases hchange with
    | quiet => exact ⟨hversion, hwrote, hloaded, hcopy⟩
    | @word j word hw =>
      refine ⟨hversion, hwrote, hloaded, fun heq hslot i x hx => ?_⟩
      -- The count is not ahead, so that the copied buffer is the one that is read.
      have hslot' : state.readIndex.toUsize = slot t.loaded := by
        rcases hslot with hslot | hslot
        · exact hslot
        · have : s.writes = t.loaded := heq
          have : s.count + 1 = t.loaded := hslot
          omega
      have hne : state.readIndex.toUsize ≠ slot (s.count + 1) := by
        rw [hslot', ← show s.writes = t.loaded from heq, hw]
        exact (slot_succ_ne _).symm
      show x = (s.buf.storeWord (slot (s.count + 1)) j word).buffer state.readIndex.toUsize i
      rw [storeWord_buffer _ hne]
      exact hcopy heq hslot i x hx
    | @counted v hw =>
      refine ⟨hversion, hwrote, hloaded.trans (Nat.le_succ _), fun heq => ?_⟩
      have : s.writes + 1 = t.loaded := heq
      omega
    | @published v publication hw =>
      refine ⟨hversion, hwrote, hloaded, fun heq hslot => ?_⟩
      rcases hslot with hslot | hslot
      · exact hcopy heq (.inl hslot)
      · have : s.writes = t.loaded := heq
        have : s.count + 1 + 1 = t.loaded := hslot
        omega
  | loadVersionCheck state version value stateCheck =>
    obtain ⟨hversion, hwrote, hloaded, hvalue⟩ := h
    cases hchange with
    | quiet => exact ⟨hversion, hwrote, hloaded, hvalue⟩
    | word hw => exact ⟨hversion, hwrote, hloaded, hvalue⟩
    | @counted v hw =>
      refine ⟨hversion, hwrote, hloaded.trans (Nat.le_succ _), fun heq => ?_⟩
      have : s.writes + 1 = t.loaded := heq
      omega
    | @published v publication hw =>
      refine ⟨hversion, hwrote, hloaded, fun heq hindex => ?_⟩
      obtain ⟨k, hbegan, hk, hpub⟩ := hvalue heq hindex
      refine ⟨k, hbegan, hk.trans (Nat.le_succ _), ?_⟩
      show (Function.update s.published (s.count + 1) publication k).value = value
      rwa [Function.update_of_ne (by omega)]

/-- A step of another thread, while this one has no guard. -/
lemma ThreadInv.change (h : ThreadInv s t) (hguard : t.point.hasGuard = false) (hchange : Change s s') :
    ThreadInv s' t := by
  unfold ThreadInv at h ⊢
  cases hpoint : t.point with
  | idle | exchange0 | exchange1 => trivial
  | reading r =>
    rw [hpoint] at h
    exact ⟨h.1.change hchange, h.2.change hchange⟩
  | initRead | initStore | guard | fetchAdd | storeState => simp [hpoint, Point.hasGuard] at hguard

/-! ### The shared state -/

/-- The state and the version follow the publications and the writes, and the buffer that is read holds
the last publication. -/
structure SharedInv (s : Shared size W) : Prop where
  state : s.buf.state = (stateAt s.count s.holder.isSome).toU32
  version : s.buf.dataVersion = .ofNat s.writes
  ahead : s.count ≤ s.writes ∧ s.writes ≤ s.count + 1
  current : s.buf.buffer (slot s.count) = (s.published s.count).value
  returns : ∀ r ∈ s.returns, ∃ k, r.began ≤ k ∧ k ≤ r.returned ∧ r.returned ≤ s.count ∧
    (s.published k).value = r.value
  kept : ∀ k < s.count, ∀ i, (s.published (k + 1)).touched i = false →
    (s.published (k + 1)).value i = (s.published k).value i

/-- A `read` returns. -/
lemma SharedInv.returns_cons (hs : SharedInv s) {began k : ℕ} {value : Fin size → W} (hbegan : began ≤ k)
    (hk : k ≤ s.count) (hvalue : (s.published k).value = value) :
    ∀ r ∈ ReadRecord.mk value began s.count :: s.returns, ∃ k, r.began ≤ k ∧ k ≤ r.returned ∧
      r.returned ≤ s.count ∧ (s.published k).value = r.value := by
  intro r hr
  rcases List.mem_cons.mp hr with rfl | hr
  · exact ⟨k, hbegan, hk, le_rfl, hvalue⟩
  · exact hs.returns r hr

section Read

variable {r : Reading size W}

/-- The next load of `read`. -/
lemma readInv_next {r' : Reading size W} (hs : SharedInv s) (hb : BeganInv s t) (h : ReadInv s t r)
    (hnext : r.next s.buf = .inl r') (point : Point size W) : ReadInv s (t.goOn s r point) r' := by
  cases r with
  | loadState =>
    cases hnext
    trivial
  | loadVersion state =>
    cases hnext
    exact ⟨hs.version, hb.2, le_rfl, by simp⟩
  | copy state version got =>
    obtain ⟨hversion, hwrote, hloaded, hcopy⟩ := h
    rw [Reading.next] at hnext
    split at hnext
    next hall =>
      cases hnext
      refine ⟨hversion, hwrote, hloaded, fun heq hindex => ⟨s.count, hb.1, le_rfl, ?_⟩⟩
      have hslot : state.readIndex.toUsize = slot s.count := by
        rw [hindex, hs.state, State.fromU32_toU32, readIndex_stateAt]
      have hcurrent : state.readIndex.toUsize = slot t.loaded ∨ s.count + 1 = t.loaded := by
        have heq : s.writes = t.loaded := heq
        rcases hs.ahead with ⟨hle, hle'⟩
        by_cases hwrites : s.writes = s.count
        · exact .inl (by rw [hslot, ← heq, hwrites])
        · exact .inr (by omega)
      funext i
      rw [← hs.current, ← hslot]
      exact (hcopy heq hcurrent i _ (Option.some_get (hall i)).symm).symm
    next =>
      cases hnext
      exact ⟨hversion, hwrote, hloaded, hcopy⟩
  | loadVersionCheck state version value stateCheck =>
    rw [Reading.next] at hnext
    split at hnext
    · cases hnext
    · cases hnext
      trivial

/-- The value that `read` gives was the last publication at some time of the call. -/
lemma readInv_value {value : Fin size → W} (hs : SharedInv s) (h : ReadInv s t r)
    (hfew : s.writes < t.wrote + 2 ^ 32) (hnext : r.next s.buf = .inr value) :
    ∃ k, t.began ≤ k ∧ k ≤ s.count ∧ (s.published k).value = value := by
  cases r with
  | loadState => cases hnext
  | loadVersion state => cases hnext
  | copy state version got =>
    rw [Reading.next] at hnext
    split at hnext <;> cases hnext
  | loadVersionCheck state version v stateCheck =>
    obtain ⟨hversion, hwrote, hloaded, hvalue⟩ := h
    rw [Reading.next] at hnext
    split at hnext
    next hcheck =>
      cases hnext
      refine hvalue ?_ hcheck.1
      -- Less than 2^32 writes apart, the versions tell the counts.
      have heq : UInt32.ofNat t.loaded = UInt32.ofNat s.writes := by
        rw [← hversion, hcheck.2, hs.version]
      have hmod := congrArg UInt32.toNat heq
      simp only [UInt32.toNat_ofNat'] at hmod
      omega
    next => cases hnext

/-- One word is copied. -/
lemma ReadInv.word (h : ReadInv s t r) (i : Fin size) : ReadInv s t (r.word s.buf i) := by
  cases r with
  | copy state version got =>
    obtain ⟨hversion, hwrote, hloaded, hcopy⟩ := h
    refine ⟨hversion, hwrote, hloaded, fun heq hslot j x hx => ?_⟩
    by_cases hj : j = i
    · subst hj
      rw [Function.update_self] at hx
      exact (Option.some.inj hx).symm
    · rw [Function.update_of_ne hj] at hx
      exact hcopy heq hslot j x hx
  | loadState | loadVersion | loadVersionCheck => exact h

end Read

namespace System

structure Inv (w : System size W) : Prop where
  shared : SharedInv w.shared
  idle : w.shared.holder = none → w.shared.writes = w.shared.count
  holder : ∀ (i : ℕ) (t : Thread size W), w.threads[i]? = some t →
    (t.point.hasGuard = true ↔ w.shared.holder = some i)
  threads : ∀ (i : ℕ) (t : Thread size W), w.threads[i]? = some t → ThreadInv w.shared t

lemma inv_create (n : ℕ) (initialValue : Fin size → W) : (create n initialValue).Inv := by
  have hidle : ∀ (i : ℕ) t, (create n initialValue).threads[i]? = some t → t = .create := by
    intro i t ht
    exact List.eq_of_mem_replicate (List.mem_of_getElem? ht)
  refine ⟨⟨rfl, rfl, ⟨le_rfl, Nat.zero_le _⟩, rfl, by simp [create], by simp [create]⟩, fun _ => rfl, ?_, ?_⟩
  · intro i t ht
    rw [hidle i t ht]
    simp [create, Thread.create, Point.hasGuard]
  · intro i t ht
    rw [hidle i t ht]
    trivial

variable {w : System size W} {tid : ℕ} {t t' : Thread size W} {s' : Shared size W}

/-- A step of one thread keeps the invariant when it keeps what this thread and the others know. -/
lemma Inv.set (h : w.Inv) (hs : SharedInv s') (hidle : s'.holder = none → s'.writes = s'.count)
    (hguard : t'.point.hasGuard = true ↔ s'.holder = some tid) (hown : ThreadInv s' t')
    (hothers : ∀ (i : ℕ) u, i ≠ tid → w.threads[i]? = some u → ThreadInv s' u ∧
      (s'.holder = some i ↔ w.shared.holder = some i)) :
    System.Inv ⟨s', w.threads.set tid t'⟩ := by
  refine ⟨hs, hidle, fun i u hu => ?_, fun i u hu => ?_⟩
  · by_cases hi : i = tid
    · subst hi
      obtain ⟨-, rfl⟩ := by simpa [List.getElem?_set] using hu
      exact hguard
    · rw [List.getElem?_set_ne (Ne.symm hi)] at hu
      rw [(hothers i u hi hu).2]
      exact h.holder i u hu
  · by_cases hi : i = tid
    · subst hi
      obtain ⟨-, rfl⟩ := by simpa [List.getElem?_set] using hu
      exact hown
    · rw [List.getElem?_set_ne (Ne.symm hi)] at hu
      exact (hothers i u hi hu).1

/-- A step that changes nothing but the calls that have returned. -/
lemma Inv.quiet (h : w.Inv) (ht : w.threads[tid]? = some t) {returns : List (ReadRecord size W)}
    (hreturns : ∀ r ∈ returns, ∃ k, r.began ≤ k ∧ k ≤ r.returned ∧ r.returned ≤ w.shared.count ∧
      (w.shared.published k).value = r.value)
    (hguard : t'.point.hasGuard = t.point.hasGuard) (hown : ThreadInv w.shared t') :
    System.Inv ⟨{ w.shared with returns := returns }, w.threads.set tid t'⟩ := by
  refine h.set { h.shared with returns := hreturns } h.idle ?_ hown fun i u hi hu => ⟨?_, Iff.rfl⟩
  · rw [hguard]
    exact h.holder tid t ht
  · exact h.threads i u hu

/-- A step of the holder of the guard. -/
lemma Inv.holding (h : w.Inv) (ht : w.threads[tid]? = some t) (hholds : t.point.hasGuard = true)
    (hs : SharedInv s') (hidle : s'.holder = none → s'.writes = s'.count)
    (hguard : t'.point.hasGuard = true ↔ s'.holder = some tid)
    (hholder : s'.holder = some tid ∨ s'.holder = none)
    (hchange : Change w.shared s') (hown : ThreadInv s' t') : System.Inv ⟨s', w.threads.set tid t'⟩ := by
  have hself := (h.holder tid t ht).mp hholds
  refine h.set hs hidle hguard hown fun i u hi hu => ?_
  have hfree : w.shared.holder ≠ some i := by
    rw [hself]
    exact fun heq => hi (Option.some.inj heq).symm
  refine ⟨(h.threads i u hu).change ?_ hchange, ?_⟩
  · rw [← Bool.not_eq_true, h.holder i u hu]
    exact hfree
  · refine iff_of_false ?_ hfree
    rcases hholder with hh | hh <;> rw [hh] <;> simp [Ne.symm hi]

/-- A step that changes nothing. -/
lemma Inv.same (h : w.Inv) (ht : w.threads[tid]? = some t) :
    System.Inv ⟨w.shared, w.threads.set tid t⟩ :=
  h.quiet ht h.shared.returns rfl (h.threads tid t ht)

/-- The guard is taken, or the compare-exchange fails. -/
lemma inv_exchange (h : w.Inv) (ht : w.threads[tid]? = some t) (hfree : t.point.hasGuard = false) (j : ℕ)
    {failed : Point size W} (hfailed : failed = .exchange1 ∨ failed = .idle) :
    System.Inv ⟨(w.shared.exchange t tid (stateAt j false) (stateAt j true) failed).1,
      w.threads.set tid (w.shared.exchange t tid (stateAt j false) (stateAt j true) failed).2⟩ := by
  unfold Shared.exchange DoubleBuffer.compareExchange
  by_cases heq : w.shared.buf.state = (stateAt j false).toU32
  · rw [h.shared.state] at heq
    obtain ⟨hnone, hnext⟩ := stateAt_eq (toU32_injective heq)
    have hholder : w.shared.holder = none := by simpa using hnone
    obtain ⟨writeIndex, hindex, hslot⟩ := writeIndex_stateAt w.shared.count
    have hstate : w.shared.buf.state = (stateAt j false).toU32 := by rw [h.shared.state, heq]
    have hvalue : State.fromU32 w.shared.buf.state = stateAt w.shared.count false := by
      rw [h.shared.state, hnone, State.fromU32_toU32]
    rw [if_pos hstate]
    simp only [hvalue, hindex, ← hnext]
    have hwrites := h.idle hholder
    refine h.set { h.shared with state := rfl } (by simp) (by simp [Thread.beginRead, Point.hasGuard])
      ⟨⟨hslot, hwrites⟩, rfl, ⟨le_rfl, le_rfl⟩, trivial⟩ fun i u hi hu => ⟨?_, ?_⟩
    · exact h.threads i u hu
    · rw [hholder]
      simp [Ne.symm hi]
  · rw [if_neg heq]
    refine h.quiet ht h.shared.returns ?_ ?_
    · rw [hfree]
      rcases hfailed with rfl | rfl <;> rfl
    · rcases hfailed with rfl | rfl <;> trivial

/-- The holder of the guard stores a word of the buffer that is not read. -/
lemma inv_storeWord (h : w.Inv) (ht : w.threads[tid]? = some t) (hholds : t.point.hasGuard = true)
    {writeIndex : WriteIndex} (hhold : HoldInv w.shared writeIndex) (i : Fin size) (word : W)
    (hguard : t'.point.hasGuard = true)
    (hown : ThreadInv { w.shared with buf := w.shared.buf.storeWord writeIndex.toUsize i word } t') :
    System.Inv ⟨{ w.shared with buf := w.shared.buf.storeWord writeIndex.toUsize i word },
      w.threads.set tid t'⟩ := by
  have hself := (h.holder tid t ht).mp hholds
  rw [hhold.1] at hown ⊢
  refine h.holding ht hholds { h.shared with current := ?_ } (by simp [hself]) ?_ (.inl hself)
    (.word hhold.2) hown
  · show (w.shared.buf.storeWord (slot (w.shared.count + 1)) i word).buffer (slot w.shared.count) = _
    rw [storeWord_buffer _ (slot_succ_ne _).symm]
    exact h.shared.current
  · exact iff_of_true hguard hself

lemma storeWord_self (b : DoubleBuffer size W) (index : Fin 2) (i j : Fin size) (word : W) :
    (b.storeWord index i word).buffer index j = if j = i then word else b.buffer index j := by
  simp [DoubleBuffer.storeWord, Function.update_apply]

/-- The write is counted. -/
lemma inv_fetchAdd (h : w.Inv) (ht : w.threads[tid]? = some t) {writeIndex : WriteIndex}
    (hpoint : t.point = .fetchAdd writeIndex) :
    System.Inv ⟨(w.shared.act t tid .next).1, w.threads.set tid (w.shared.act t tid .next).2⟩ := by
  have hholds : t.point.hasGuard = true := by rw [hpoint]; rfl
  have hself := (h.holder tid t ht).mp hholds
  have hknow := h.threads tid t ht
  unfold ThreadInv at hknow
  rw [hpoint] at hknow
  obtain ⟨⟨hslot, hwrites⟩, hkept⟩ := hknow
  simp only [Shared.act, hpoint]
  refine h.holding ht hholds { h.shared with version := ?_, ahead := ?_ } (by simp [hself])
    (iff_of_true rfl hself) (.inl hself) (.counted hwrites) ⟨hslot, ?_, hkept⟩
  · show w.shared.buf.dataVersion + 1 = .ofNat (w.shared.writes + 1)
    rw [h.shared.version]
    exact (UInt32.ofNat_add _ _).symm
  · show w.shared.count ≤ w.shared.writes + 1 ∧ w.shared.writes + 1 ≤ w.shared.count + 1
    omega
  · show w.shared.writes + 1 = w.shared.count + 1
    omega

/-- The value is published. -/
lemma inv_storeState (h : w.Inv) (ht : w.threads[tid]? = some t) {writeIndex : WriteIndex}
    (hpoint : t.point = .storeState writeIndex) :
    System.Inv ⟨(w.shared.act t tid .next).1, w.threads.set tid (w.shared.act t tid .next).2⟩ := by
  have hholds : t.point.hasGuard = true := by rw [hpoint]; rfl
  have hknow := h.threads tid t ht
  unfold ThreadInv at hknow
  rw [hpoint] at hknow
  obtain ⟨hslot, hwrites, hkept⟩ := hknow
  simp only [Shared.act, hpoint]
  have hold : ∀ k, k ≤ w.shared.count → Function.update w.shared.published (w.shared.count + 1)
      ⟨w.shared.buf.buffer writeIndex.toUsize, t.touched⟩ k = w.shared.published k :=
    fun k hk => Function.update_of_ne (by omega) _ _
  have hnew : Function.update w.shared.published (w.shared.count + 1)
      ⟨w.shared.buf.buffer writeIndex.toUsize, t.touched⟩ (w.shared.count + 1) =
      ⟨w.shared.buf.buffer (slot (w.shared.count + 1)), t.touched⟩ := by
    rw [Function.update_self, hslot]
  refine h.holding ht hholds ⟨?_, h.shared.version, ?_, ?_, ?_, ?_⟩ (fun _ => hwrites) ?_ (.inr rfl)
    (.published hwrites) trivial
  · rw [next_fromWriteIndex hslot]
    rfl
  · show w.shared.count + 1 ≤ w.shared.writes ∧ w.shared.writes ≤ w.shared.count + 1 + 1
    omega
  · exact (congrArg Publication.value hnew).symm
  · intro r hr
    obtain ⟨k, hbegan, hk, hcount, hvalue⟩ := h.shared.returns r hr
    refine ⟨k, hbegan, hk, hcount.trans (Nat.le_succ _), ?_⟩
    rw [← hvalue]
    exact congrArg Publication.value (hold k (hk.trans hcount))
  · intro k hk i
    have hk : k < w.shared.count + 1 := hk
    dsimp only
    rw [hold k (by omega)]
    by_cases heq : k = w.shared.count
    · subst heq
      rw [hnew]
      exact hkept i
    · rw [hold (k + 1) (by omega)]
      exact h.shared.kept k (by omega) i
  · simp [Point.hasGuard]

lemma inv_exec (op : ℕ × Choice size W) (h : w.Inv) (hguard : w.Guard op) : (w.exec op).Inv := by
  obtain ⟨tid, choice⟩ := op
  unfold exec
  cases ht : w.threads[tid]? with
  | none => exact h
  | some t =>
    have hknow := h.threads tid t ht
    unfold ThreadInv at hknow
    have hfew := hguard t (List.mem_of_getElem? ht)
    show System.Inv ⟨(w.shared.act t tid choice).1, w.threads.set tid (w.shared.act t tid choice).2⟩
    cases choice with
    | startRead =>
      cases hpoint : t.point with
      | idle =>
        simp only [Shared.act, hpoint]
        exact h.quiet ht h.shared.returns (by rw [hpoint]; rfl) ⟨⟨le_rfl, le_rfl⟩, trivial⟩
      | reading | exchange0 | exchange1 | initRead | initStore | guard | fetchAdd | storeState =>
        simp only [Shared.act, hpoint]
        exact h.same ht
    | startWrite =>
      cases hpoint : t.point with
      | idle =>
        simp only [Shared.act, hpoint]
        exact h.quiet ht h.shared.returns (by rw [hpoint]; rfl) trivial
      | reading | exchange0 | exchange1 | initRead | initStore | guard | fetchAdd | storeState =>
        simp only [Shared.act, hpoint]
        exact h.same ht
    | word i =>
      cases hpoint : t.point with
      | reading r =>
        rw [hpoint] at hknow
        simp only [Shared.act, hpoint]
        exact h.quiet ht h.shared.returns (by rw [hpoint]; rfl) ⟨hknow.1, hknow.2.word i⟩
      | initRead writeIndex r =>
        rw [hpoint] at hknow
        simp only [Shared.act, hpoint]
        exact h.quiet ht h.shared.returns (by rw [hpoint]; rfl)
          ⟨hknow.1, hknow.2.1, hknow.2.2.1, hknow.2.2.2.word i⟩
      | initStore writeIndex value stored =>
        rw [hpoint] at hknow
        obtain ⟨hhold, hvalue, hstored⟩ := hknow
        simp only [Shared.act, hpoint]
        refine inv_storeWord h ht (by rw [hpoint]; rfl) hhold i (value i) rfl ⟨hhold, hvalue, ?_⟩
        intro j hj
        show (w.shared.buf.storeWord writeIndex.toUsize i (value i)).buffer (slot (w.shared.count + 1)) j = _
        rw [← hhold.1, storeWord_self, hhold.1]
        split
        next heq => rw [heq]
        next hne => exact hstored j (by rwa [Function.update_of_ne hne] at hj)
      | idle | exchange0 | exchange1 | guard | fetchAdd | storeState =>
        simp only [Shared.act, hpoint]
        exact h.same ht
    | modify i word =>
      cases hpoint : t.point with
      | guard writeIndex =>
        rw [hpoint] at hknow
        obtain ⟨hhold, hkept⟩ := hknow
        simp only [Shared.act, hpoint]
        refine inv_storeWord h ht (by rw [hpoint]; rfl) hhold i word rfl ⟨hhold, fun j hj => ?_⟩
        have hj : Function.update t.touched i true j = false := hj
        show (w.shared.buf.storeWord writeIndex.toUsize i word).buffer (slot (w.shared.count + 1)) j = _
        rw [← hhold.1, storeWord_self, hhold.1]
        split
        next heq => simp [heq] at hj
        next hne => exact hkept j (by rwa [Function.update_of_ne hne] at hj)
      | idle | reading | exchange0 | exchange1 | initRead | initStore | fetchAdd | storeState =>
        simp only [Shared.act, hpoint]
        exact h.same ht
    | drop =>
      cases hpoint : t.point with
      | guard writeIndex =>
        rw [hpoint] at hknow
        simp only [Shared.act, hpoint]
        exact h.quiet ht h.shared.returns (by rw [hpoint]; rfl) hknow
      | idle | reading | exchange0 | exchange1 | initRead | initStore | fetchAdd | storeState =>
        simp only [Shared.act, hpoint]
        exact h.same ht
    | next =>
      cases hpoint : t.point with
      | idle | guard =>
        simp only [Shared.act, hpoint]
        exact h.same ht
      | exchange0 =>
        simp only [Shared.act, hpoint]
        exact inv_exchange h ht (by rw [hpoint]; rfl) 0 (.inl rfl)
      | exchange1 =>
        simp only [Shared.act, hpoint]
        exact inv_exchange h ht (by rw [hpoint]; rfl) 1 (.inr rfl)
      | fetchAdd writeIndex => exact inv_fetchAdd h ht hpoint
      | storeState writeIndex => exact inv_storeState h ht hpoint
      | reading r =>
        rw [hpoint] at hknow
        simp only [Shared.act, hpoint]
        cases hnext : r.next w.shared.buf with
        | inl r' =>
          exact h.quiet ht h.shared.returns (by rw [hpoint]; rfl)
            ⟨hknow.1, readInv_next h.shared hknow.1 hknow.2 hnext _⟩
        | inr value =>
          obtain ⟨k, hbegan, hk, hvalue⟩ := readInv_value h.shared hknow.2 (hfew (by rw [hpoint]; rfl)) hnext
          exact h.quiet ht (h.shared.returns_cons hbegan hk hvalue) (by rw [hpoint]; rfl) trivial
      | initRead writeIndex r =>
        rw [hpoint] at hknow
        obtain ⟨hhold, hstart, hb, hr⟩ := hknow
        simp only [Shared.act, hpoint]
        cases hnext : r.next w.shared.buf with
        | inl r' =>
          exact h.quiet ht h.shared.returns (by rw [hpoint]; rfl)
            ⟨hhold, hstart, hb, readInv_next h.shared hb hr hnext _⟩
        | inr value =>
          obtain ⟨k, hbegan, hk, hvalue⟩ := readInv_value h.shared hr (hfew (by rw [hpoint]; rfl)) hnext
          obtain rfl : k = w.shared.count := by omega
          exact h.quiet ht (h.shared.returns_cons hbegan hk hvalue) (by rw [hpoint]; rfl)
            ⟨hhold, hvalue.symm, by simp⟩
      | initStore writeIndex value stored =>
        rw [hpoint] at hknow
        obtain ⟨hhold, hvalue, hstored⟩ := hknow
        simp only [Shared.act, hpoint]
        split
        next hall =>
          refine h.quiet ht h.shared.returns (by rw [hpoint]; rfl) ⟨hhold, fun i _ => ?_⟩
          rw [← hvalue]
          exact hstored i (hall i)
        next => exact h.same ht

lemma reach_inv {n : ℕ} {initialValue : Fin size → W}
    (h : Reach exec Guard (create n initialValue) w) : w.Inv := by
  apply h.invariant
  · exact inv_create n initialValue
  · intro w op hinv hguard
    exact inv_exec op hinv hguard

/-- The initial value stays the publication 0. -/
lemma published_zero_exec (op : ℕ × Choice size W) :
    ((w.exec op).shared.published 0) = w.shared.published 0 := by
  obtain ⟨tid, choice⟩ := op
  unfold exec
  cases ht : w.threads[tid]? with
  | none => rfl
  | some t =>
    show (w.shared.act t tid choice).1.published 0 = w.shared.published 0
    cases choice <;> cases hpoint : t.point <;>
      simp only [Shared.act, hpoint, Shared.exchange, DoubleBuffer.compareExchange]
    all_goals first | rfl | (split <;> first | rfl | (split <;> rfl))

/-- **No torn or lost values.** A value that `read` returns was completely published, or is the initial
one, and was the latest one at some moment of the call. At most one guard is alive, its buffer holds the
last published value except in the words that it has touched, and so does the value it publishes. -/
theorem reads_of_reach {n : ℕ} {initialValue : Fin size → W}
    (h : Reach exec Guard (create n initialValue) w) :
    (w.shared.published 0).value = initialValue ∧
    (∀ r ∈ w.shared.returns, ∃ k, r.began ≤ k ∧ k ≤ r.returned ∧ r.returned ≤ w.shared.count ∧
      (w.shared.published k).value = r.value) ∧
    (∀ (i j : ℕ) (t u : Thread size W), w.threads[i]? = some t → w.threads[j]? = some u →
      t.point.hasGuard = true → u.point.hasGuard = true → i = j) ∧
    (∀ (j : ℕ) (t : Thread size W) (writeIndex : WriteIndex), w.threads[j]? = some t →
      t.point = .guard writeIndex → ∀ i, t.touched i = false →
        w.shared.buf.buffer writeIndex.toUsize i = (w.shared.published w.shared.count).value i) ∧
    ∀ k < w.shared.count, ∀ i, (w.shared.published (k + 1)).touched i = false →
      (w.shared.published (k + 1)).value i = (w.shared.published k).value i := by
  have hinv := reach_inv h
  refine ⟨?_, hinv.shared.returns, ?_, ?_, hinv.shared.kept⟩
  · refine h.invariant (P := fun w => (w.shared.published 0).value = initialValue) rfl ?_
    intro w op hw _
    rw [published_zero_exec, hw]
  · intro i j t u ht hu hguard hguard'
    have hi := (hinv.holder i t ht).mp hguard
    have hj := (hinv.holder j u hu).mp hguard'
    exact Option.some.inj (hi.symm.trans hj)
  · intro j t writeIndex ht hpoint i hi
    have hknow := hinv.threads j t ht
    unfold ThreadInv at hknow
    rw [hpoint] at hknow
    rw [hknow.1.1]
    exact hknow.2 i hi

/-- The two words of a value -/
def firstWord : Fin 2 := ⟨0, Nat.two_pos⟩

def secondWord : Fin 2 := ⟨1, Nat.one_lt_two⟩

/-- A value of two words is read, while another thread changes its second word and publishes it. -/
def sampleRun : List (ℕ × Choice 2 ℕ) :=
  [(1, .startWrite), (1, .next), (1, .next), (1, .next), (1, .word firstWord),
    (1, .word secondWord), (1, .next), (1, .next), (1, .word firstWord), (1, .word secondWord),
    (1, .next), (1, .modify secondWord 7), (0, .startRead), (0, .next), (0, .next),
    (0, .word firstWord), (1, .drop), (1, .next), (0, .word secondWord), (0, .next), (1, .next),
    (0, .next), (0, .next), (0, .next), (0, .word firstWord), (0, .word secondWord), (0, .next),
    (0, .next)]

theorem reads_of_reach_sample :
    (sampleRun.foldl exec (create 2 fun _ => 5)).shared.returns.map (fun r => (r.value 0, r.value 1)) =
      [(5, 7), (5, 5)] ∧
    ∀ r ∈ (sampleRun.foldl exec (create 2 fun _ => 5)).shared.returns, ∃ k, r.began ≤ k ∧
      k ≤ r.returned ∧ r.returned ≤ (sampleRun.foldl exec (create 2 fun _ => 5)).shared.count ∧
      ((sampleRun.foldl exec (create 2 fun _ => 5)).shared.published k).value = r.value :=
  ⟨by decide +kernel, (reads_of_reach (Reach.run sampleRun .start (by decide +kernel))).2.1⟩

end System

end SensorLink.Sync
