import SensorLink.Sync.Torn

/-!
# A reader that polls the version

A reader keeps the version and the value of its last `read`, and reads again when
`new_data_available_since` finds another version. A write is counted before it is published: a `read`
that is completed between the two gives the value before, under the version behind.
-/

namespace SensorLink.Sync

open SensorLink.Lib

variable {size : ℕ} {W : Type}

namespace DoubleBuffer

variable (b : DoubleBuffer size W)

def version : UInt32 := b.dataVersion

/-- `new_data_available_since`: the answer, and the version that the caller holds afterwards -/
def newDataAvailableSince (version : UInt32) : Bool × UInt32 :=
  let latest := b.version
  (version != latest, latest)

/-- A step of `read`, the next load or the copy of a word, until it has returned -/
def aloneStep : Reading size W ⊕ (Fin size → W) → Option (Fin size) → Reading size W ⊕ (Fin size → W)
  | .inr value, _ => .inr value
  | .inl r, none => r.next b
  | .inl r, some i => .inl (r.word b i)

/-- What `read` returns now: the steps of one pass, with no step of another thread between them -/
def readAlone : Reading size W ⊕ (Fin size → W) :=
  ([none, none] ++ (List.finRange size).map some ++ [none, none]).foldl b.aloneStep (.inl .loadState)

end DoubleBuffer

/-- The points of the reader -/
inductive PollPoint (size : ℕ) (W : Type)
  | version
  | reading (r : Reading size W)
  | check

/-- The reader with its variables `v` and `x`. To state the properties it is remembered how many writes
were counted when the version was loaded, and what a thread remembers of a `read`; here it began with the
last load of the state that it checks. -/
structure Poller (size : ℕ) (W : Type) where
  point : PollPoint size W
  version : UInt32
  value : Option (Fin size → W)
  seen : ℕ
  memo : Thread size W

/-- What the reader does next: go on, or copy a word -/
inductive PollChoice (size : ℕ)
  | next
  | word (i : Fin size)

namespace Poller

def create : Poller size W := ⟨.version, 0, none, 0, .create⟩

/-- The reader has loaded a version. -/
def started (p : Poller size W) : Bool :=
  match p.point with
  | .version => false
  | _ => true

/-- The next load of the reader is that of the state behind the copy, which it checks. -/
def checksState (p : Poller size W) : Bool :=
  match p.point with
  | .reading (.copy _ _ got) => decide (∀ i, (got i).isSome = true)
  | _ => false

variable (s : Shared size W) (p : Poller size W)

/-- `x := read()` begins. -/
def beginRead : Poller size W :=
  { p with point := .reading .loadState, memo := p.memo.beginRead s p.memo.point }

/-- One step of the reader -/
def act : PollChoice size → Poller size W
  | .next =>
    match p.point with
    | .version => { p with version := s.buf.version, seen := s.writes }.beginRead s
    | .reading r =>
      match r.next s.buf with
      | .inl r' =>
        let memo := p.memo.goOn s r p.memo.point
        { p with
          point := .reading r'
          memo := { memo with began := if p.checksState then s.count else memo.began } }
      | .inr value => { p with point := .check, value := some value }
    | .check =>
      let (available, version) := s.buf.newDataAvailableSince p.version
      let p := { p with version := version, seen := s.writes }
      if available then p.beginRead s else p
  | .word i =>
    match p.point with
    | .reading r => { p with point := .reading (r.word s.buf i) }
    | _ => p

end Poller

/-- The threads, which read and write, and the reader that polls -/
structure Polled (size : ℕ) (W : Type) where
  sys : System size W
  reader : Poller size W

/-- A step of a thread or of the reader -/
inductive PollOp (size : ℕ) (W : Type)
  | thread (op : ℕ × Choice size W)
  | reader (choice : PollChoice size)

namespace Polled

def create (n : ℕ) (initialValue : Fin size → W) : Polled size W := ⟨.create n initialValue, .create⟩

def exec (w : Polled size W) : PollOp size W → Polled size W
  | .thread op => { w with sys := w.sys.exec op }
  | .reader choice => { w with reader := w.reader.act w.sys.shared choice }

/-- Since the reader loaded its version, fewer than 2^32 writes were counted, and the reader does not load
the state that it checks while a write of its version is counted and not yet published. -/
def Guard (w : Polled size W) : PollOp size W → Prop
  | .thread op => w.sys.Guard op
  | .reader choice =>
    (w.reader.started = true → w.sys.shared.writes < w.reader.seen + 2 ^ 32) ∧
      match choice with
      | .next => w.reader.checksState = true → w.reader.seen ≤ w.sys.shared.count
      | .word _ => True

instance (w : Polled size W) : ∀ op : PollOp size W, Decidable (w.Guard op)
  | .thread op => inferInstanceAs (Decidable (w.sys.Guard op))
  | .reader .next => inferInstanceAs (Decidable (_ ∧ _))
  | .reader (.word _) => inferInstanceAs (Decidable (_ ∧ True))

end Polled

/-! ### What `read` returns now -/

lemma foldl_word (b : DoubleBuffer size W) (state : State) (version : UInt32) (is : List (Fin size))
    (got : Fin size → Option W) :
    (is.map some).foldl b.aloneStep (.inl (.copy state version got)) =
      .inl (.copy state version fun i =>
        if i ∈ is then some (b.buffer state.readIndex.toUsize i) else got i) := by
  induction is generalizing got with
  | nil => simp
  | cons j is ih =>
    rw [List.map_cons, List.foldl_cons, DoubleBuffer.aloneStep, Reading.word, ih]
    congr 2
    funext i
    by_cases hi : i ∈ is
    · simp [hi]
    · by_cases hj : i = j
      · subst hj
        simp [hi]
      · simp [hi, hj]

lemma readAlone_eq (b : DoubleBuffer size W) :
    b.readAlone = .inr (b.buffer (State.fromU32 b.state).readIndex.toUsize) := by
  have hcopy := foldl_word b (.fromU32 b.state) b.dataVersion (List.finRange size) fun _ => none
  rw [DoubleBuffer.readAlone, List.foldl_append, List.foldl_append]
  show [none, none].foldl b.aloneStep (((List.finRange size).map some).foldl b.aloneStep
    (.inl (.copy (.fromU32 b.state) b.dataVersion fun _ => none))) = _
  rw [hcopy]
  simp [DoubleBuffer.aloneStep, Reading.next]

/-! ### What a step of a thread changes -/

section Change

variable {s s' : Shared size W}

lemma Change.refl (s : Shared size W) : Change s s := Change.quiet

lemma Change.count_le (h : Change s s') : s.count ≤ s'.count := by
  cases h with
  | quiet | word | counted => exact le_rfl
  | published => exact Nat.le_succ _

lemma Change.writes_le (h : Change s s') : s.writes ≤ s'.writes := by
  cases h with
  | quiet | word | published => exact le_rfl
  | counted => exact Nat.le_succ _

/-- What was published stays. -/
lemma Change.published_eq (h : Change s s') {k : ℕ} (hk : k ≤ s.count) :
    s'.published k = s.published k := by
  cases h with
  | quiet | word | counted => rfl
  | published => exact Function.update_of_ne (by omega) _ _

lemma exchange_change (t : Thread size W) (tid : ℕ) (current new : State) (failed : Point size W) :
    Change s (s.exchange t tid current new failed).1 := by
  unfold Shared.exchange DoubleBuffer.compareExchange
  by_cases heq : s.buf.state = current.toU32
  · rw [if_pos heq]
    dsimp only
    split
    · exact Change.quiet
    · exact Change.quiet
  · rw [if_neg heq]
    exact Change.refl s

end Change

namespace System

variable {w : System size W}

/-- A step of a thread is one of the changes that a `read` of another thread can notice. -/
lemma exec_change (h : w.Inv) (op : ℕ × Choice size W) : Change w.shared (w.exec op).shared := by
  obtain ⟨tid, choice⟩ := op
  unfold exec
  cases ht : w.threads[tid]? with
  | none => exact Change.refl _
  | some t =>
    have hknow := h.threads tid t ht
    unfold ThreadInv at hknow
    show Change w.shared (w.shared.act t tid choice).1
    cases hpoint : t.point with
    | idle => cases choice <;> simp only [Shared.act, hpoint] <;> exact Change.refl _
    | reading r =>
      cases choice with
      | next =>
        simp only [Shared.act, hpoint]
        split
        · exact Change.refl _
        · exact Change.quiet
      | startRead | startWrite | word | modify | drop =>
        simp only [Shared.act, hpoint]
        exact Change.refl _
    | exchange0 =>
      cases choice with
      | next =>
        simp only [Shared.act, hpoint]
        exact exchange_change ..
      | startRead | startWrite | word | modify | drop =>
        simp only [Shared.act, hpoint]
        exact Change.refl _
    | exchange1 =>
      cases choice with
      | next =>
        simp only [Shared.act, hpoint]
        exact exchange_change ..
      | startRead | startWrite | word | modify | drop =>
        simp only [Shared.act, hpoint]
        exact Change.refl _
    | initRead writeIndex r =>
      cases choice with
      | next =>
        simp only [Shared.act, hpoint]
        split
        · exact Change.refl _
        · exact Change.quiet
      | startRead | startWrite | word | modify | drop =>
        simp only [Shared.act, hpoint]
        exact Change.refl _
    | initStore writeIndex value stored =>
      rw [hpoint] at hknow
      cases choice with
      | next =>
        simp only [Shared.act, hpoint]
        split <;> exact Change.refl _
      | word i =>
        simp only [Shared.act, hpoint, hknow.1.1]
        exact Change.word hknow.1.2
      | startRead | startWrite | modify | drop =>
        simp only [Shared.act, hpoint]
        exact Change.refl _
    | guard writeIndex =>
      rw [hpoint] at hknow
      cases choice with
      | modify i word =>
        simp only [Shared.act, hpoint, hknow.1.1]
        exact Change.word hknow.1.2
      | startRead | startWrite | word | next | drop =>
        simp only [Shared.act, hpoint]
        exact Change.refl _
    | fetchAdd writeIndex =>
      rw [hpoint] at hknow
      cases choice with
      | next =>
        simp only [Shared.act, hpoint]
        exact Change.counted hknow.1.2
      | startRead | startWrite | word | modify | drop =>
        simp only [Shared.act, hpoint]
        exact Change.refl _
    | storeState writeIndex =>
      rw [hpoint] at hknow
      cases choice with
      | next =>
        simp only [Shared.act, hpoint]
        exact Change.published hknow.2.1
      | startRead | startWrite | word | modify | drop =>
        simp only [Shared.act, hpoint]
        exact Change.refl _

end System

/-! ### What the reader knows -/

section PollInv

variable {s s' : Shared size W} {p : Poller size W}

/-- A publication that the version of the reader counts, with all before it, and that there is already -/
def Fresh (s : Shared size W) (seen : ℕ) (value : Option (Fin size → W)) : Prop :=
  ∃ k, seen ≤ k ∧ k ≤ s.count ∧ value = some (s.published k).value

/-- The version stands for the writes that were counted when it was loaded; the value is not older. -/
def PollInv (s : Shared size W) (p : Poller size W) : Prop :=
  match p.point with
  | .version => True
  | .reading r => p.version = .ofNat p.seen ∧ p.seen ≤ p.memo.wrote ∧ BeganInv s p.memo ∧
    ReadInv s p.memo r ∧ ∀ state version value stateCheck,
      r = .loadVersionCheck state version value stateCheck → p.seen ≤ p.memo.began
  | .check => p.version = .ofNat p.seen ∧ p.seen ≤ s.writes ∧ Fresh s p.seen p.value

lemma PollInv.change (h : PollInv s p) (hchange : Change s s') : PollInv s' p := by
  unfold PollInv at h ⊢
  cases hpoint : p.point with
  | version => trivial
  | reading r =>
    rw [hpoint] at h
    obtain ⟨hversion, hseen, hb, hr, hchecked⟩ := h
    exact ⟨hversion, hseen, hb.change hchange, hr.change hchange, hchecked⟩
  | check =>
    rw [hpoint] at h
    obtain ⟨hversion, hseen, k, hk, hcount, hvalue⟩ := h
    refine ⟨hversion, hseen.trans hchange.writes_le, k, hk, hcount.trans hchange.count_le, ?_⟩
    rw [hchange.published_eq hcount]
    exact hvalue

lemma pollInv_beginRead (hversion : p.version = .ofNat p.seen) (hseen : p.seen = s.writes) :
    PollInv s (p.beginRead s) :=
  ⟨hversion, hseen.le, ⟨le_rfl, le_rfl⟩, trivial, by simp⟩

/-- Fewer than 2^32 writes apart, a version that is the same counts the same writes. -/
lemma seen_eq {seen writes : ℕ} (hle : seen ≤ writes) (hfew : writes < seen + 2 ^ 32)
    (h : UInt32.ofNat seen = UInt32.ofNat writes) : seen = writes := by
  have hmod := congrArg UInt32.toNat h
  simp only [UInt32.toNat_ofNat'] at hmod
  omega

lemma copy_of_checksState {r : Reading size W} (hpoint : p.point = .reading r)
    (h : p.checksState = true) : ∃ state version got, r = .copy state version got := by
  cases r with
  | copy state version got => exact ⟨state, version, got, rfl⟩
  | loadState | loadVersion | loadVersionCheck => simp [Poller.checksState, hpoint] at h

/-- The version is checked only behind the state. -/
lemma checksState_of_next {r : Reading size W} {state : State} {version : UInt32}
    {value : Fin size → W} {stateCheck : State} (hpoint : p.point = .reading r)
    (hnext : r.next s.buf = .inl (.loadVersionCheck state version value stateCheck)) :
    p.checksState = true := by
  cases r with
  | copy =>
    rw [Reading.next] at hnext
    split at hnext
    next hall => simpa [Poller.checksState, hpoint] using hall
    next => cases hnext
  | loadState | loadVersion => cases hnext
  | loadVersionCheck =>
    rw [Reading.next] at hnext
    split at hnext <;> cases hnext

lemma pollInv_act (hs : SharedInv s) (h : PollInv s p) (choice : PollChoice size)
    (hfew : p.started = true → s.writes < p.seen + 2 ^ 32)
    (hpublished : choice = .next → p.checksState = true → p.seen ≤ s.count) :
    PollInv s (p.act s choice) := by
  unfold PollInv at h
  cases hpoint : p.point with
  | version =>
    cases choice with
    | next =>
      rw [Poller.act, hpoint]
      exact pollInv_beginRead hs.version rfl
    | word i =>
      rw [Poller.act, hpoint]
      simp [PollInv, hpoint]
  | check =>
    rw [hpoint] at h
    obtain ⟨hversion, hseen, hfresh⟩ := h
    have hfew := hfew (by simp [Poller.started, hpoint])
    cases choice with
    | next =>
      simp only [Poller.act, hpoint, DoubleBuffer.newDataAvailableSince, DoubleBuffer.version]
      split
      · exact pollInv_beginRead hs.version rfl
      next hsame =>
        have heq : p.seen = s.writes := by
          refine seen_eq hseen hfew ?_
          rw [← hversion, ← hs.version]
          simpa using hsame
        simp only [PollInv]
        exact ⟨hs.version, le_rfl, heq ▸ hfresh⟩
    | word i =>
      rw [Poller.act, hpoint]
      simpa [PollInv, hpoint] using ⟨hversion, hseen, hfresh⟩
  | reading r =>
    rw [hpoint] at h
    obtain ⟨hversion, hseen, hb, hr, hchecked⟩ := h
    have hfew := hfew (by simp [Poller.started, hpoint])
    cases choice with
    | word i =>
      simp only [Poller.act, hpoint]
      refine ⟨hversion, hseen, hb, hr.word i, fun state version value stateCheck heq => ?_⟩
      cases r with
      | loadVersionCheck => exact hchecked _ _ _ _ rfl
      | loadState | loadVersion | copy => cases heq
    | next =>
      simp only [Poller.act, hpoint]
      cases hnext : r.next s.buf with
      | inl r' =>
        by_cases hcheck : p.checksState = true
        · -- the state is checked: the value will be the publication of this moment
          obtain ⟨state, version, got, rfl⟩ := copy_of_checksState hpoint hcheck
          have hb' : BeganInv s { p.memo with began := s.count } := ⟨le_rfl, hb.2⟩
          have hr' : ReadInv s { p.memo with began := s.count } (.copy state version got) := hr
          rw [if_pos hcheck]
          exact ⟨hversion, hseen, hb', readInv_next hs hb' hr' hnext p.memo.point,
            fun _ _ _ _ _ => hpublished rfl hcheck⟩
        · rw [if_neg hcheck]
          refine ⟨hversion, hseen, hb, readInv_next hs hb hr hnext p.memo.point, ?_⟩
          rintro state version value stateCheck rfl
          exact absurd (checksState_of_next hpoint hnext) hcheck
      | inr value =>
        have hwrote : s.writes < p.memo.wrote + 2 ^ 32 := by omega
        obtain ⟨k, hbegan, hk, hvalue⟩ := readInv_value hs hr hwrote hnext
        refine ⟨hversion, hseen.trans hb.2, k, ?_, hk, by rw [hvalue]⟩
        cases r with
        | loadVersionCheck => exact (hchecked _ _ _ _ rfl).trans hbegan
        | loadState | loadVersion => cases hnext
        | copy =>
          rw [Reading.next] at hnext
          split at hnext <;> cases hnext

end PollInv

namespace Polled

variable {w : Polled size W}

structure Inv (w : Polled size W) : Prop where
  sys : w.sys.Inv
  reader : PollInv w.sys.shared w.reader

lemma inv_exec (op : PollOp size W) (h : w.Inv) (hguard : w.Guard op) : (w.exec op).Inv := by
  cases op with
  | thread op =>
    exact ⟨System.inv_exec op h.sys hguard, h.reader.change (System.exec_change h.sys op)⟩
  | reader choice =>
    refine ⟨h.sys, pollInv_act h.sys.shared h.reader choice hguard.1 ?_⟩
    rintro rfl
    exact hguard.2

lemma reach_inv {n : ℕ} {initialValue : Fin size → W}
    (h : Reach exec Guard (create n initialValue) w) : w.Inv := by
  apply h.invariant
  · exact ⟨System.inv_create n initialValue, trivial⟩
  · intro w op hinv hguard
    exact inv_exec op hinv hguard

/-- **No update is missed.** When no write is in progress and the reader, at its check, finds no new data,
the value of its last `read` is the one that `read` returns now. -/
theorem polled_current {n : ℕ} {initialValue : Fin size → W}
    (h : Reach exec Guard (create n initialValue) w) (hidle : w.sys.shared.holder = none)
    (hcheck : w.reader.point = .check) (hguard : w.Guard (.reader .next))
    (hsame : (w.sys.shared.buf.newDataAvailableSince w.reader.version).1 = false) :
    ∃ x, w.reader.value = some x ∧ w.sys.shared.buf.readAlone = .inr x := by
  have hinv := reach_inv h
  have hs := hinv.sys.shared
  have hknow := hinv.reader
  unfold PollInv at hknow
  rw [hcheck] at hknow
  obtain ⟨hversion, hseen, k, hk, hcount, hvalue⟩ := hknow
  have hfew := hguard.1 (by simp [Poller.started, hcheck])
  have heq : w.reader.seen = w.sys.shared.writes := by
    refine seen_eq hseen hfew ?_
    rw [← hversion, ← hs.version]
    simpa [DoubleBuffer.newDataAvailableSince, DoubleBuffer.version] using hsame
  -- all that is counted is published
  have hwrites := hinv.sys.idle hidle
  obtain rfl : k = w.sys.shared.count := by omega
  refine ⟨_, hvalue, ?_⟩
  rw [readAlone_eq, hs.state, State.fromU32_toU32, readIndex_stateAt, hs.current]

/-- The word of a value -/
def theWord : Fin 1 := ⟨0, Nat.one_pos⟩

/-- The thread 0 publishes 7, up to where the write is counted. -/
def writeRun : List (PollOp 1 ℕ) :=
  [.thread (0, .startWrite), .thread (0, .next), .thread (0, .next), .thread (0, .next),
    .thread (0, .word theWord), .thread (0, .next), .thread (0, .next), .thread (0, .word theWord),
    .thread (0, .next), .thread (0, .modify theWord 7), .thread (0, .drop), .thread (0, .next)]

/-- The reader loads the version and reads. -/
def readRun : List (PollOp 1 ℕ) :=
  [.reader .next, .reader .next, .reader .next, .reader (.word theWord), .reader .next, .reader .next]

/-- After the steps, from a new buffer that holds 5 -/
def afterRun (ops : List (PollOp 1 ℕ)) : Polled 1 ℕ := ops.foldl exec (create 1 fun _ => 5)

/-- The reader reads before the write and finds the new data behind it. -/
def freshRun : List (PollOp 1 ℕ) := readRun ++ writeRun ++ [PollOp.thread (0, .next)] ++ readRun

/-- The reader loads the version and reads when the write is counted and not yet published. -/
def staleRun : List (PollOp 1 ℕ) := writeRun ++ readRun ++ [PollOp.thread (0, .next)]

theorem polled_current_sample :
    (afterRun freshRun).reader.value.map (· theWord) = some 7 ∧
    ∃ x, (afterRun freshRun).reader.value = some x ∧
      (afterRun freshRun).sys.shared.buf.readAlone = .inr x :=
  ⟨by decide +kernel, polled_current (Reach.run freshRun .start (by decide +kernel)) (by decide +kernel)
    rfl (by decide +kernel) (by decide +kernel)⟩

/-- No write is in progress, no new data is found, and the value is the one before. -/
theorem polled_stale :
    (afterRun staleRun).sys.shared.holder = none ∧
    ((afterRun staleRun).sys.shared.buf.newDataAvailableSince
      (afterRun staleRun).reader.version).1 = false ∧
    (afterRun staleRun).reader.value.map (· theWord) = some 5 ∧
    (afterRun staleRun).sys.shared.buf.readAlone.getRight?.map (· theWord) = some 7 := by
  decide +kernel

end Polled

end SensorLink.Sync
