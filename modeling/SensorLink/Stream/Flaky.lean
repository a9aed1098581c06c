import SensorLink.Stream.Steps

/-!
# A stream on a flash whose reads fail too

The calls of a stream with every fate of their flash operations: a read may fail, and with it the first
call, which then leaves the store closed. `Inv` is what is kept all the same: the flash is written in
order, its valid fragments hold items, and the queue fits to it.
-/

namespace SensorLink.Stream

open SensorLink.Lib SensorLink.Flash SensorLink.Db RingBuffer

variable {dev : BlockDevice} {c : RingBuffer dev} {crc : List UInt8 → UInt32} {F : ℕ}

/-- The flash, and the stream store in RAM with its handles -/
structure FlakyWorld where
  mem : Mem
  peek : Peek.World maxPeeks
  initDone : Bool

/-- The calls with the fates of their writes and reads; `confirm k` and `drop k` are about the `k`-th live
handle. -/
inductive FlakyCall
  | enqueue (data : List UInt8) (plan : List Fate) (readPlan : List Bool)
  | peekNext (bufferLen : ℕ) (plan : List Fate) (readPlan : List Bool)
  | isDrained (readPlan : List Bool)
  | confirm (k : ℕ)
  | drop (k : ℕ)
  | waitConfirmation
  | reboot

def FlakyCall.isEnqueue : FlakyCall → Bool
  | enqueue _ _ _ => true
  | _ => false

def FlakyCall.isPeek : FlakyCall → Bool
  | peekNext _ _ _ => true
  | _ => false

namespace FlakyWorld

section Calls

variable (c : RingBuffer dev) (crc : List UInt8 → UInt32) (s : FlakyWorld)

def store : StreamStore := ⟨s.peek.queue, s.initDone⟩

/-- The lower bound of the queue -/
def lower : ℕ := s.peek.queue.existingRange.1

/-- A new stream store on the flash -/
def start (mem : Mem) : FlakyWorld where
  mem := mem
  peek := .start (StreamStore.new dev c.toCircular).queue
  initDone := (StreamStore.new dev c.toCircular).initDone

/-- The store that `initialize` leaves, with its handles -/
def initialized (store : StreamStore) : FlakyWorld :=
  if store.initDone = s.initDone then s
  else { s with peek := .start store.queue, initDone := store.initDone }

/-- `initialize` -/
def opened : Io Empty (FlakyWorld × Except Error Unit) := do
  let (store, result) ← initializeStore dev c.toCircular s.store
  pure (s.initialized store, result)

/-- Every call begins with `initialize`, and fails if it does. -/
def call {α : Type} (fail : Error → α) (p : FlakyWorld → Io Empty (FlakyWorld × α)) :
    Io Empty (FlakyWorld × α) := do
  match ← s.opened c with
  | (s, .error e) => pure (s, fail e)
  | (s, .ok _) => p s

/-- `peek_next` of a store that is initialized -/
def peekOpened (bufferLen : ℕ) : Io Empty (FlakyWorld × Peeked) := do
  let (store, peeked) ← peekInitialized dev c.toCircular crc s.store bufferLen
  pure ({ s with
    peek := { peeked.use.exec (s.peek.exec .peekNext) with queue := store.queue }
    initDone := store.initDone }, peeked)

/-- `peek_next` -/
def peekNext (bufferLen : ℕ) : Io Empty (FlakyWorld × Peeked) :=
  s.call c (⟨.error ·, .keep⟩) (·.peekOpened c crc bufferLen)

/-- `enqueue` of a store that is initialized -/
def enqueueOpened (data : List UInt8) : Io Empty (FlakyWorld × Except Error ℕ) := do
  let (store, result) ← enqueueInitialized dev c.toCircular crc s.store data
  let peek := if store.queue.writeIndex = s.peek.queue.writeIndex then s.peek else s.peek.exec .enqueue
  pure ({ s with peek := { peek with queue := store.queue }, initDone := store.initDone }, result)

/-- `enqueue` -/
def enqueue (data : List UInt8) : Io Empty (FlakyWorld × Except Error ℕ) :=
  s.call c .error (·.enqueueOpened c crc data)

/-- `is_drained` -/
def isDrained : Io Empty (FlakyWorld × Except Error Bool) :=
  s.call c .error fun s =>
    pure ({ s with peek := s.peek.exec .isDrained }, .ok s.peek.queue.isDrained.1)

/-- The world after a program, or after the restart when power was lost in it -/
def after {α : Type} (s : FlakyWorld) (p : Io Empty (FlakyWorld × α)) (plan : List Fate)
    (readPlan : List Bool) : FlakyWorld :=
  match p.run ⟨s.mem, plan, readPlan⟩ with
  | .ok (s', _) d => { s' with mem := d.mem }
  | .err e _ => e.elim
  | .off d => start c d.mem

def exec : FlakyCall → FlakyWorld
  | .enqueue data plan readPlan => s.after c (s.enqueue c crc data) plan readPlan
  | .peekNext bufferLen plan readPlan => s.after c (s.peekNext c crc bufferLen) plan readPlan
  | .isDrained readPlan => s.after c (s.isDrained c) [] readPlan
  | .confirm k => { s with peek := s.peek.exec (.confirm k) }
  | .drop k => { s with peek := s.peek.exec (.drop k) }
  | .waitConfirmation => { s with peek := s.peek.exec .waitConfirmation }
  | .reboot => start c s.mem

/-- The store that a call works on, after its `initialize` -/
def opens (plan : List Fate) (readPlan : List Bool) : Option (FlakyWorld × Device Mem Fate) :=
  match (s.opened c).run ⟨s.mem, plan, readPlan⟩ with
  | .ok (s', .ok _) d => some (s', d)
  | _ => none

/-- What the next `peek_next` returns. -/
def peekResult (bufferLen : ℕ) (plan : List Fate) (readPlan : List Bool) :
    Option (Except Error (Option (List UInt8 × ℕ))) :=
  match (s.peekNext c crc bufferLen).run ⟨s.mem, plan, readPlan⟩ with
  | .ok (_, p) _ => some p.result
  | _ => none

/-- The sequence number of the next item, and with it the others of its block, do not wrap. -/
def NoWrap : FlakyCall → Prop
  | .enqueue _ plan readPlan =>
    match s.opens c plan readPlan with
    | some (s', _) =>
      s'.peek.queue.writeIndex / c.perBlock * c.perBlock + c.perBlock < 2 ^ 32
    | none => True
  | _ => True

instance : ∀ call, Decidable (s.NoWrap c call)
  | .enqueue _ plan readPlan =>
    match h : s.opens c plan readPlan with
    | some (s', _) => decidable_of_iff
        (s'.peek.queue.writeIndex / c.perBlock * c.perBlock + c.perBlock < 2 ^ 32) (by simp [NoWrap, h])
    | none => isTrue (by simp [NoWrap, h])
  | .peekNext _ _ _ | .isDrained _ | .confirm _ | .drop _ | .waitConfirmation | .reboot => isTrue trivial

/-- Without what a stream remembers of its items -/
def world : StreamWorld where
  mem := s.mem
  peek := s.peek
  initDone := s.initDone
  accepted := fun _ => none
  cut := fun _ => []
  confirmed := []
  delivered := []
  failed := false

end Calls

/-! ### The calls are those of the stream store -/

section Run

variable {s s' : FlakyWorld} {d d' : Device Mem Fate} {α β : Type}

/-- A store that `initialize` leaves closed has not changed. -/
lemma store_of_run {store : StreamStore} {result : Except Error Unit}
    (h : (initializeStore dev c.toCircular s.store).run d = .ok (store, result) d') :
    (s.initialized store).store = store := by
  have hkeep : store.initDone = s.initDone → s.store = store := by
    unfold initializeStore at h
    split at h
    · intro _
      cases h
      rfl
    next hs =>
      simp only [Bind.bind, Dev.attempt] at h
      revert h
      cases (findCircularRange dev c.toCircular).run d with
      | ok range d₁ =>
        intro h hinit
        cases h
        exact absurd hinit.symm hs
      | err e d₁ =>
        intro h _
        cases h
        rfl
      | off d₁ => exact fun h => by cases h
  unfold initialized
  split
  next hinit => exact hkeep hinit
  next => rfl

/-- The result of a call, with the store in place of the world -/
def ofStore : Outcome (Device Mem Fate) Empty (FlakyWorld × α) →
    Outcome (Device Mem Fate) Empty (StreamStore × α)
  | .ok (s, a) d => .ok (s.store, a) d
  | .err e d => .err e d
  | .off d => .off d

lemma run_opened : (initializeStore dev c.toCircular s.store).run d = ofStore ((s.opened c).run d) := by
  unfold opened
  simp only [Bind.bind]
  cases h : (initializeStore dev c.toCircular s.store).run d with
  | ok r d' =>
    obtain ⟨store, result⟩ := r
    simp only [Dev.andThen, pure, ofStore, store_of_run h]
  | err e d' => rfl
  | off d' => rfl

/-- A store that is open is not changed by `initialize`. -/
lemma run_opened_of_initDone (hs : s.initDone = true) :
    (s.opened c).run d = .ok (s, .ok ()) d := by
  have hsame : s.initialized s.store = s := if_pos rfl
  unfold opened initializeStore
  rw [if_pos (show s.store.initDone = true from hs)]
  show Outcome.ok (s.initialized s.store, Except.ok ()) d = _
  rw [hsame]

lemma opens_of_initDone (hs : s.initDone = true) (plan : List Fate) (readPlan : List Bool) :
    s.opens c plan readPlan = some (s, ⟨s.mem, plan, readPlan⟩) := by
  unfold opens
  rw [run_opened_of_initDone hs]

lemma run_call_of_initDone (hs : s.initDone = true) (fail : Error → α)
    (p : FlakyWorld → Io Empty (FlakyWorld × α)) : (s.call c fail p).run d = (p s).run d := by
  unfold call
  simp only [Bind.bind, run_opened_of_initDone hs, Dev.andThen]

lemma run_peekNext (s : FlakyWorld) (bufferLen : ℕ) (d : Device Mem Fate) :
    (Stream.peekNext dev c.toCircular crc s.store bufferLen).run d =
      ofStore ((s.peekNext c crc bufferLen).run d) := by
  unfold Stream.peekNext peekNext call
  simp only [Bind.bind]
  rw [run_opened]
  cases (s.opened c).run d with
  | err e d' => rfl
  | off d' => rfl
  | ok r d' =>
    obtain ⟨s', e | _⟩ := r
    · rfl
    · simp only [ofStore, Dev.andThen, peekOpened, Bind.bind]
      cases (peekInitialized dev c.toCircular crc s'.store bufferLen).run d' <;> rfl

lemma run_enqueue (s : FlakyWorld) (data : List UInt8) (d : Device Mem Fate) :
    (Stream.enqueue dev c.toCircular crc s.store data).run d =
      ofStore ((s.enqueue c crc data).run d) := by
  unfold Stream.enqueue enqueue call
  simp only [Bind.bind]
  rw [run_opened]
  cases (s.opened c).run d with
  | err e d' => rfl
  | off d' => rfl
  | ok r d' =>
    obtain ⟨s', e | _⟩ := r
    · rfl
    · simp only [ofStore, Dev.andThen, enqueueOpened, Bind.bind]
      cases (enqueueInitialized dev c.toCircular crc s'.store data).run d' <;> rfl

lemma run_isDrained (s : FlakyWorld) (d : Device Mem Fate) :
    (Stream.isDrained dev c.toCircular s.store).run d = ofStore ((s.isDrained c).run d) := by
  unfold Stream.isDrained isDrained call
  simp only [Bind.bind]
  rw [run_opened]
  cases (s.opened c).run d with
  | err e d' => rfl
  | off d' => rfl
  | ok r d' => obtain ⟨s', e | _⟩ := r <;> rfl

/-- What the world has in common with the device and the store of the source -/
def flashAndStore (s : FlakyWorld) : Mem × StreamStore := (s.mem, s.store)

/-- The flash and the store after a call, or after the restart when power was lost in it -/
def restored (c : RingBuffer dev) : Outcome (Device Mem Fate) Empty (StreamStore × α) → Mem × StreamStore
  | .ok (store, _) d => (d.mem, store)
  | .err e _ => e.elim
  | .off d => (start c d.mem).flashAndStore

lemma after_store (s : FlakyWorld) (p : Io Empty (FlakyWorld × α)) (plan : List Fate) (readPlan : List Bool) :
    (s.after c p plan readPlan).flashAndStore = restored c (ofStore (p.run ⟨s.mem, plan, readPlan⟩)) := by
  unfold after
  cases p.run ⟨s.mem, plan, readPlan⟩ with
  | ok r d => rfl
  | err e d => exact e.elim
  | off d => rfl

/-- **The calls of the world are the ones of its store**: they leave the same flash and the same store. -/
theorem exec_store (s : FlakyWorld) (plan : List Fate) (readPlan : List Bool) :
    (∀ data, (s.exec c crc (.enqueue data plan readPlan)).flashAndStore =
      restored c ((Stream.enqueue dev c.toCircular crc s.store data).run ⟨s.mem, plan, readPlan⟩)) ∧
    (∀ len, (s.exec c crc (.peekNext len plan readPlan)).flashAndStore =
      restored c ((Stream.peekNext dev c.toCircular crc s.store len).run ⟨s.mem, plan, readPlan⟩)) ∧
    (s.exec c crc (.isDrained readPlan)).flashAndStore =
      restored c ((Stream.isDrained dev c.toCircular s.store).run ⟨s.mem, [], readPlan⟩) := by
  refine ⟨fun data => ?_, fun len => ?_, ?_⟩
  · rw [run_enqueue]
    exact after_store s _ _ _
  · rw [run_peekNext]
    exact after_store s _ _ _
  · rw [run_isDrained]
    exact after_store s _ _ _

end Run

/-! ### What is kept -/

/-- The flash is written in order up to the frontier `F`, its valid fragments hold items, and the queue
fits to it. -/
structure Inv (s : FlakyWorld) (c : RingBuffer dev) (crc : List UInt8 → UInt32) (F : ℕ) : Prop
    extends StoreInv c s.world F where
  items : ∀ n, status c (dev.view s.mem) n = some .valid → ∃ data, Holds c crc (dev.view s.mem) n data

/-- `s'` is the store of `s` after its `initialize`. -/
structure Opens (c : RingBuffer dev) (s s' : FlakyWorld) (F : ℕ) : Prop where
  mem : s'.mem = s.mem
  initDone : s'.initDone = true
  range : s' = s ∨ s.initDone = false ∧ ∃ r, RangeSpec c (dev.view s.mem) F r ∧
    s'.peek.queue.existingRange = (r.start, r.stop)

/-- What holds of the world at the end of a call. -/
def Ends {α : Type} (c : RingBuffer dev) (P : FlakyWorld → Prop) :
    Outcome (Device Mem Fate) Empty (FlakyWorld × α) → Prop
  | .ok (s, _) d => P { s with mem := d.mem }
  | .err e _ => e.elim
  | .off d => P (start c d.mem)

section Inv

variable {s : FlakyWorld} {plan : List Fate} {readPlan : List Bool} {P : FlakyWorld → Prop} {α : Type}

lemma within_all (d : Device Mem Fate) : d.Within (faults True True True) := by
  refine ⟨fun fate _ => ?_, fun hc => absurd trivial hc⟩
  cases fate <;> trivial

lemma Inv.start {mem : Mem} (hring : RingInv c (dev.view mem) F)
    (hitems : ∀ n, status c (dev.view mem) n = some .valid → ∃ data, Holds c crc (dev.view mem) n data) :
    (FlakyWorld.start c mem).Inv c crc F :=
  ⟨(StoreInv.rebooted (s := (FlakyWorld.start c mem).world) hring).congr rfl rfl rfl, hitems⟩

lemma Inv.wp_opened (h : s.Inv c crc F) {Q : FlakyWorld × Except Error Unit → Mem → Prop}
    {E : Empty → Mem → Prop} {O : Mem → Prop} (hfail : ∀ e, Q (s, .error e) s.mem)
    (hok : ∀ s' F', s'.Inv c crc F' → Opens c s s' F' → Q (s', .ok ()) s.mem) :
    Dev.wp (faults True True True) (s.opened c) Q E O s.mem := by
  have hsame : s.initialized s.store = s := if_pos rfl
  unfold opened initializeStore
  cases hs : s.initDone with
  | true =>
    rw [if_pos (show s.store.initDone = true from hs)]
    refine Dev.wp_bind (Dev.wp_pure (Dev.wp_pure ?_))
    rw [hsame]
    exact hok s F h ⟨rfl, hs, Or.inl rfl⟩
  | false =>
    rw [if_neg (by simp [store, hs])]
    refine Dev.wp_bind (Dev.wp_bind (Dev.wp_attempt (wp_findCircularRange h.ring (fun _ => ?_)
      fun F' r hring _ hspec => ?_)))
    · refine Dev.wp_pure (Dev.wp_pure ?_)
      rw [hsame]
      exact hfail _
    · refine Dev.wp_pure (Dev.wp_pure ?_)
      have hopen : s.initialized ⟨s.store.queue.reinitWithExistingRange (r.start, r.stop), true⟩ =
          { s with
            peek := .start (s.peek.queue.reinitWithExistingRange (r.start, r.stop))
            initDone := true } := if_neg (by simp [hs])
      rw [hopen]
      refine hok _ F' ⟨?_, h.items⟩ ⟨rfl, rfl, Or.inr ⟨hs, r, hspec, rfl⟩⟩
      exact (h.toStoreInv.initialized hs hring hspec).congr rfl rfl rfl

/-- **A call** fails to open the store and changes nothing, or works on the open store. -/
theorem Inv.run_call (h : s.Inv c crc F) (plan : List Fate) (readPlan : List Bool) (fail : Error → α)
    (p : FlakyWorld → Io Empty (FlakyWorld × α)) :
    (s.opens c plan readPlan = none ∧
      ∃ e d, (s.call c fail p).run ⟨s.mem, plan, readPlan⟩ = .ok (s, fail e) d ∧ d.mem = s.mem) ∨
    ∃ s' F' d, s.opens c plan readPlan = some (s', d) ∧ d.mem = s.mem ∧ s'.Inv c crc F' ∧
      Opens c s s' F' ∧ (s.call c fail p).run ⟨s.mem, plan, readPlan⟩ = (p s').run d := by
  have hopen := h.wp_opened (Q := fun r mem => mem = s.mem ∧ match r with
      | (s', .error _) => s' = s
      | (s', .ok _) => ∃ F', s'.Inv c crc F' ∧ Opens c s s' F') (E := fun _ _ => True)
    (O := fun _ => False) (fun _ => ⟨rfl, rfl⟩) (fun s' F' h' ho => ⟨rfl, F', h', ho⟩)
    ⟨s.mem, plan, readPlan⟩ rfl (within_all _)
  have hopens : s.opens c plan readPlan = match (s.opened c).run ⟨s.mem, plan, readPlan⟩ with
      | .ok (s', .ok _) d => some (s', d)
      | _ => none := rfl
  unfold call
  simp only [Bind.bind]
  revert hopen hopens
  cases (s.opened c).run ⟨s.mem, plan, readPlan⟩ with
  | err e d => exact e.elim
  | off d => exact fun hopen => hopen.elim
  | ok r d =>
    obtain ⟨s', e | _⟩ := r
    · rintro ⟨-, hmem, rfl⟩ hopens
      exact Or.inl ⟨hopens, e, d, rfl, hmem⟩
    · rintro ⟨-, hmem, F', h', ho⟩ hopens
      exact Or.inr ⟨s', F', d, hopens, hmem, h', ho, rfl⟩

lemma Inv.after_call (h : s.Inv c crc F) {fail : Error → α}
    {p : FlakyWorld → Io Empty (FlakyWorld × α)} (hfail : s.opens c plan readPlan = none → P s)
    (hok : ∀ s' F' d, s.opens c plan readPlan = some (s', d) → d.mem = s.mem → s'.Inv c crc F' →
      Opens c s s' F' → (s.call c fail p).run ⟨s.mem, plan, readPlan⟩ = (p s').run d →
      Ends c P ((p s').run d)) :
    P (s.after c (s.call c fail p) plan readPlan) := by
  unfold after
  rcases h.run_call plan readPlan fail p with
    ⟨hopens, e, d, hrun, hmem⟩ | ⟨s', F', d, hopens, hmem, h', ho, hrun⟩
  · rw [hrun]
    show P { s with mem := d.mem }
    rw [hmem]
    exact hfail hopens
  · rw [hrun]
    have hend := hok s' F' d hopens hmem h' ho hrun
    revert hend
    cases (p s').run d with
    | ok r d' => exact id
    | err e d' => exact e.elim
    | off d' => exact id

/-! ### A peek -/

/-- The lower bound of the queue after a peek -/
def peekLower (s : FlakyWorld) : ℕ := s.peek.queue.peekNext.2.existingRange.1

/-- The world after a peek, with the flash that its clean-up leaves -/
def afterPeek (s : FlakyWorld) (use : HandleUse) (mem : Mem) : FlakyWorld :=
  { s with mem := mem, peek := use.exec (s.peek.exec .peekNext) }

lemma Inv.peekLower_bounds (h : s.Inv c crc F) (hs : s.initDone = true) :
    s.lower ≤ s.peekLower ∧ s.peekLower ≤ F := h.toStoreInv.peek_range hs

/-- A clean-up deletes between the bounds, and in full if it ends without an error. -/
lemma Inv.cleanup_dev (h : s.Inv c crc F) {d : Device Mem Fate} (hmem : d.mem = s.mem) {n k : ℕ}
    (hk : s.lower + k = n) (hle : n ≤ F) :
    RingInv c (dev.view ((cleanup dev c.toCircular k s.lower).run d).dev.mem) F ∧
    Cleaned c s.lower n (dev.view s.mem)
      (dev.view ((cleanup dev c.toCircular k s.lower).run d).dev.mem) ∧
    ∀ u d', (cleanup dev c.toCircular k s.lower).run d = .ok u d' → ∀ j, s.lower ≤ j → j < n →
      status c (dev.view d'.mem) j ≠ some .valid := by
  have hring : RingInv c (dev.view d.mem) F := hmem ▸ h.ring
  have hwp : Dev.wp (faults True True True) (cleanup dev c.toCircular k s.lower)
      (fun _ mem => RingInv c (dev.view mem) F ∧ Cleaned c s.lower n (dev.view s.mem) (dev.view mem) ∧
        ∀ j, s.lower ≤ j → j < n → status c (dev.view mem) j ≠ some .valid)
      (fun _ mem => RingInv c (dev.view mem) F ∧ Cleaned c s.lower n (dev.view s.mem) (dev.view mem))
      (fun mem => RingInv c (dev.view mem) F ∧ Cleaned c s.lower n (dev.view s.mem) (dev.view mem))
      d.mem :=
    wp_cleanup k s.lower hring hk hle le_rfl (hmem ▸ Cleaned.refl _) (fun j h1 h2 => absurd h2 (by omega))
      (fun _ h1 h2 h3 => ⟨h1, h2, h3⟩) (fun _ _ h1 h2 => ⟨h1, h2⟩) fun _ _ h1 h2 => ⟨h1, h2⟩
  have hrun := hwp d rfl (within_all d)
  revert hrun
  cases (cleanup dev c.toCircular k s.lower).run d with
  | ok u d' =>
    rintro ⟨-, h1, h2, h3⟩
    refine ⟨h1, h2, fun u' d'' heq => ?_⟩
    cases heq
    exact h3
  | err e d' => exact fun hrun => ⟨hrun.2.1, hrun.2.2, fun _ _ heq => by cases heq⟩
  | off d' => exact fun hrun => ⟨hrun.1, hrun.2, fun _ _ heq => by cases heq⟩

/-- The clean-up of a peek -/
lemma Inv.cleanup_peek (h : s.Inv c crc F) (hs : s.initDone = true) {d : Device Mem Fate}
    (hmem : d.mem = s.mem) :
    let o := (cleanup dev c.toCircular (s.peekLower - s.lower) s.lower).run d
    RingInv c (dev.view o.dev.mem) F ∧
      Cleaned c s.lower s.peekLower (dev.view s.mem) (dev.view o.dev.mem) := by
  obtain ⟨hmono, hle⟩ := h.peekLower_bounds hs
  obtain ⟨hring, hclean, -⟩ := h.cleanup_dev hmem (Nat.add_sub_cancel' hmono) hle
  exact ⟨hring, hclean⟩

lemma wp_readItem_mem {mem : Mem} {n : ℕ} (bufferLen : ℕ) (hown : c.Own (dev.view mem))
    (hitem : status c (dev.view mem) n = some .valid → ∃ data, Holds c crc (dev.view mem) n data) :
    Dev.wp (faults True True True) (readItem dev c.toCircular crc n bufferLen)
      (fun r m => m = mem ∧ ∀ data, r.1 = .ok data → Holds c crc (dev.view mem) n data)
      (fun _ _ => True) (fun _ => False) mem := by
  refine wp_readItem hown hitem (fun data hdata _ => ⟨rfl, fun data' hr => ?_⟩)
    (fun _ _ _ => ⟨rfl, fun _ hr => (by cases hr)⟩) (fun _ e _ => ⟨rfl, fun _ hr => (by cases hr)⟩)
    (fun _ => ⟨rfl, fun _ hr => (by cases hr)⟩) fun _ => ⟨rfl, fun _ hr => by cases hr⟩
  obtain rfl := Except.ok.inj hr
  exact hdata

/-- **A peek**: after the clean-up nothing changes the flash, and the handle of the queue, if there is
one, is kept or used. -/
theorem Inv.run_peekOpened (h : s.Inv c crc F) (hs : s.initDone = true) {d : Device Mem Fate}
    (hmem : d.mem = s.mem) (bufferLen : ℕ) :
    let o := (cleanup dev c.toCircular (s.peekLower - s.lower) s.lower).run d
    o.isOff = true ∧ (s.peekOpened c crc bufferLen).run d = .off o.dev ∨ o.isOff = false ∧
      ∃ p d', (s.peekOpened c crc bufferLen).run d = .ok ({ s with
          peek := p.use.exec (s.peek.exec .peekNext) }, p) d' ∧ d'.mem = o.dev.mem ∧
        (s.peek.queue.peekNext.1.toOption = none → p.use = .keep) ∧
        (∀ data n, p.result = .ok (some (data, n)) → s.peek.queue.peekNext.1 = .ok n ∧
          Holds c crc (dev.view d'.mem) n data) ∧
        ∀ u d₁ n, o = .ok u d₁ → s.peek.queue.peekNext.1 = .ok n →
          ∃ r, (readItem dev c.toCircular crc n bufferLen).run d₁ = .ok r d' ∧
            p = ⟨r.1.map fun data => some (data, n), r.2⟩ := by
  obtain ⟨hmono, hle⟩ := h.peekLower_bounds hs
  obtain ⟨hring, hclean⟩ := h.cleanup_peek hs hmem
  have hbounds : wrappingSub s.peekLower s.lower = s.peekLower - s.lower :=
    wrappingSub_eq hmono (hle.trans_lt h.ring.noWrap)
  -- the store keeps the queue with the handle settled
  have hend : ∀ (p : Peeked) (d' : Device Mem Fate),
      (s.peek.queue.peekNext.1.toOption = none → p.use = .keep) →
      (.ok ({ s with
        peek := { p.use.exec (s.peek.exec .peekNext) with
          queue := settled s.peek.queue.peekNext.2 s.peek.queue.peekNext.1.toOption p.use }
        initDone := s.initDone }, p) d' : Outcome (Device Mem Fate) Empty (FlakyWorld × Peeked)) =
      .ok ({ s with peek := p.use.exec (s.peek.exec .peekNext) }, p) d' := by
    intro p d' hkeep
    rw [settled_queue hkeep]
  unfold peekOpened peekInitialized
  simp only [show s.store.queue = s.peek.queue from rfl]
  rw [show s.peek.queue.peekNext.2.existingRange.1 = s.peekLower from rfl,
    show s.peek.queue.existingRange.1 = s.lower from rfl, hbounds]
  simp only [Bind.bind, Dev.attempt]
  revert hring hclean
  cases (cleanup dev c.toCircular (s.peekLower - s.lower) s.lower).run d with
  | off d' => exact fun _ _ => Or.inl ⟨rfl, rfl⟩
  | err e d' =>
    intro _ _
    refine Or.inr ⟨rfl, ?_⟩
    cases hp : s.peek.queue.peekNext.1 with
    | error e' =>
      rw [hp] at hend
      exact ⟨⟨.error e, .keep⟩, d', hend ⟨.error e, .keep⟩ d' (fun _ => rfl), rfl, fun _ => rfl,
        fun _ _ hc => (by cases hc), fun _ _ _ hc => by cases hc⟩
    | ok n =>
      rw [hp] at hend
      exact ⟨⟨.error e, .drop⟩, d', hend ⟨.error e, .drop⟩ d' (fun hc => by cases hc), rfl,
        fun hc => (by cases hc), fun _ _ hc => (by cases hc), fun _ _ _ hc => by cases hc⟩
  | ok u d' =>
    intro hring hclean
    refine Or.inr ⟨rfl, ?_⟩
    cases hp : s.peek.queue.peekNext.1 with
    | error e =>
      rw [hp] at hend
      exact ⟨⟨.ok none, .keep⟩, d', hend ⟨.ok none, .keep⟩ d' (fun _ => rfl), rfl, fun _ => rfl,
        fun _ _ hc => (by cases hc), fun _ _ _ _ hc => by cases hc⟩
    | ok n =>
      rw [hp] at hend
      have hread := wp_readItem_mem (n := n) bufferLen hring.own
        (hclean.items h.items) d' rfl (within_all d')
      simp only [Dev.andThen]
      revert hread
      cases hrun : (readItem dev c.toCircular crc n bufferLen).run d' with
      | off d'' => exact False.elim
      | err e d'' => exact e.elim
      | ok r d'' =>
        obtain ⟨result, use⟩ := r
        rintro ⟨-, hmem', hholds⟩
        refine ⟨⟨result.map fun data => some (data, n), use⟩, d'',
          hend ⟨result.map fun data => some (data, n), use⟩ d'' (fun hc => by cases hc), hmem',
          fun hc => (by cases hc), fun data k hc => ?_, fun u' d₁ k hd hk => ?_⟩
        · cases result with
          | error e => cases hc
          | ok item =>
            obtain ⟨rfl, rfl⟩ := Prod.mk.inj (Option.some.inj (Except.ok.inj hc))
            exact ⟨rfl, hmem' ▸ hholds item rfl⟩
        · cases hd
          obtain rfl := Except.ok.inj hk
          exact ⟨(result, use), hrun, rfl⟩

lemma Inv.afterPeek (h : s.Inv c crc F) (hs : s.initDone = true) {mem : Mem} {lo hi : ℕ}
    {use : HandleUse} (hring : RingInv c (dev.view mem) F)
    (hclean : Cleaned c lo hi (dev.view s.mem) (dev.view mem))
    (hkeep : s.peek.queue.peekNext.1.toOption = none → use = .keep) :
    (s.afterPeek use mem).Inv c crc F := by
  have hpeek : (s.world.afterPeek ⟨.ok none, use⟩ mem).peek = use.exec (s.peek.exec .peekNext) :=
    afterPeek_peek (p := ⟨.ok none, use⟩) hkeep
  refine ⟨?_, fun n hn => hclean.items h.items hn⟩
  exact (h.toStoreInv.afterPeek (p := ⟨.ok none, use⟩) hs hring hclean hkeep).congr rfl hpeek.symm rfl

/-- What `peek_next` does to the world: nothing, or it opens the store, cleans up and uses the handle of
the queue. -/
theorem Inv.exec_peekNext (h : s.Inv c crc F) {bufferLen : ℕ}
    (hfail : s.opens c plan readPlan = none → P s)
    (hok : ∀ s' F' d use mem, s.opens c plan readPlan = some (s', d) → s'.Inv c crc F' →
      Opens c s s' F' → d.mem = s'.mem → (s'.afterPeek use mem).Inv c crc F' →
      ((cleanup dev c.toCircular (s'.peekLower - s'.lower) s'.lower).run d).isOff = false →
      ((cleanup dev c.toCircular (s'.peekLower - s'.lower) s'.lower).run d).dev.mem = mem →
      P (s'.afterPeek use mem))
    (hoff : ((s.peekNext c crc bufferLen).run ⟨s.mem, plan, readPlan⟩).isOff = true →
      ∀ s' F' d mem, s.opens c plan readPlan = some (s', d) → s'.Inv c crc F' →
      Opens c s s' F' → d.mem = s'.mem → (FlakyWorld.start c mem).Inv c crc F' →
      ((cleanup dev c.toCircular (s'.peekLower - s'.lower) s'.lower).run d).dev.mem = mem →
      P (FlakyWorld.start c mem)) :
    P (s.exec c crc (.peekNext bufferLen plan readPlan)) := by
  refine h.after_call hfail fun s' F' d hopens hmem h' ho hcall => ?_
  have hmem' : d.mem = s'.mem := hmem.trans ho.mem.symm
  obtain ⟨hring, hclean⟩ := h'.cleanup_peek ho.initDone hmem'
  rcases h'.run_peekOpened ho.initDone hmem' bufferLen with
    ⟨-, hrun⟩ | ⟨hon, p, d', hrun, hd, hkeep, -, -⟩
  · rw [hrun]
    exact hoff (by rw [peekNext, hcall, hrun]; rfl) s' F' d _ hopens h' ho hmem'
      (.start hring fun n hn => hclean.items h'.items hn) rfl
  · rw [hrun]
    show P (s'.afterPeek p.use d'.mem)
    rw [hd]
    exact hok s' F' d p.use _ hopens h' ho hmem' (h'.afterPeek ho.initDone hring hclean hkeep) hon rfl

/-- A peek returns items of the flash. -/
theorem Inv.peekResult_item (h : s.Inv c crc F) {bufferLen n : ℕ} {data : List UInt8}
    (hres : s.peekResult c crc bufferLen plan readPlan = some (.ok (some (data, n)))) :
    Holds c crc (dev.view s.mem) n data := by
  unfold peekResult peekNext at hres
  revert hres
  rcases h.run_call plan readPlan (⟨.error ·, .keep⟩) (·.peekOpened c crc bufferLen) with
    ⟨-, e, d, hrun, -⟩ | ⟨s', F', d, -, hmem, h', ho, hrun⟩
  · rw [hrun]
    intro hres
    cases hres
  · rw [hrun]
    have hmem' : d.mem = s'.mem := hmem.trans ho.mem.symm
    obtain ⟨-, hclean⟩ := h'.cleanup_peek ho.initDone hmem'
    rcases h'.run_peekOpened ho.initDone hmem' bufferLen with
      ⟨-, hrun'⟩ | ⟨-, p, d', hrun', hd, -, hitem, -⟩
    · rw [hrun']
      intro hres
      cases hres
    · rw [hrun']
      intro hres
      obtain ⟨-, hholds⟩ := hitem data n (Option.some.inj hres)
      rw [hd] at hholds
      have heq := hclean.of_valid hholds.status
      rw [ho.mem] at heq
      exact ⟨heq.symm.trans hholds.1, hholds.2⟩

/-! ### An enqueue -/

/-- A fragment that a write of the item has left -/
def Attempted (c : RingBuffer dev) (crc : List UInt8 → UInt32) (data : List UInt8) (fr : Frag) : Prop :=
  Complete c (frame crc data) fr ∨ Torn fr

lemma Attempted.status {data : List UInt8} {fr : Frag} (h : Attempted c crc data fr) :
    fr.status = .valid ∨ fr.status = .invalid := by
  rcases h with ⟨rfl, -⟩ | h
  · exact Or.inl rfl
  · exact Or.inr h

/-- What a write leaves of the next item, and what it erases for it -/
abbrev Written (c : RingBuffer dev) (crc : List UInt8 → UInt32) (s : FlakyWorld) (data : List UInt8)
    (F : ℕ) (mem : Mem) (F' : ℕ) : Prop :=
  Moved c (dev.view s.mem) F s.peek.queue.writeIndex (Attempted c crc data) (dev.view mem) F'

/-- From the open store `s` to `s'` an item was enqueued, whether it was stored or not: its number is
counted if it is in use. -/
structure Enqueues (c : RingBuffer dev) (crc : List UInt8 → UInt32) (data : List UInt8) (s s' : FlakyWorld)
    (F F' : ℕ) : Prop where
  written : Written c crc s data F s'.mem F'
  noWrap : s.world.NoWrap c
  initDone : s'.initDone = true
  peek : s'.peek = s.peek ∨ s'.peek = s.peek.exec .enqueue ∧
    c.slot (dev.view s'.mem) s.peek.queue.writeIndex ≠ none

lemma Inv.written_items (h : s.Inv c crc F) {data : List UInt8} {mem : Mem} {F' n : ℕ}
    (hw : Written c crc s data F mem F') (hn : status c (dev.view mem) n = some .valid) :
    ∃ data, Holds c crc (dev.view mem) n data := by
  rcases hw.used hn (by decide) with ⟨-, heq⟩ | ⟨-, -, fr, hfr, hslot⟩
  · rw [Db.status, heq] at hn
    obtain ⟨item, hitem⟩ := h.items n hn
    exact ⟨item, heq.trans hitem.1, hitem.2⟩
  · rcases hfr with ⟨rfl, hlen⟩ | hfr
    · rw [length_frame] at hlen
      exact ⟨data, hslot, hlen⟩
    · rw [Db.status, hslot, Option.map_some, hfr] at hn
      cases hn

lemma Inv.wp_enqueueOpened (h : s.Inv c crc F) (hs : s.initDone = true) (hlast : s.world.NoWrap c)
    (data : List UInt8) :
    Dev.wp (faults True True True) (s.enqueueOpened c crc data)
      (fun r mem => ∃ F', { r.1 with mem := mem }.Inv c crc F' ∧
        Enqueues c crc data s { r.1 with mem := mem } F F')
      (fun _ _ => True)
      (fun mem => ∃ F', (FlakyWorld.start c mem).Inv c crc F' ∧ Written c crc s data F mem F') s.mem := by
  obtain ⟨hblock, hw⟩ := NoWrap.next_lt hlast hs
  have hpresent : s.peek.queue.writeIndex < F → c.slot (dev.view s.mem) s.peek.queue.writeIndex ≠ none :=
    fun hlt => h.present hs _ le_rfl hlt
  -- whatever is written, the flash stays in order
  have hmoves : ∀ {P : Frag → Prop} {mem : Mem}, (∀ fr, P fr → Attempted c crc data fr) →
      WriteEffect c (dev.view s.mem) s.peek.queue.writeIndex P (dev.view mem) →
      ∃ F', Written c crc s data F mem F' := by
    intro P mem hP heff
    refine h.ring.effect (heff.mono hP) (fun fr hfr => ?_) (h.next_le hs) hpresent hblock
    rcases hfr.status with hst | hst <;> rw [hst] <;> decide
  have hsame : ∀ {mem : Mem} {F' : ℕ}, Written c crc s data F mem F' →
      { s with mem := mem }.Inv c crc F' ∧ Enqueues c crc data s { s with mem := mem } F F' := by
    intro mem F' hmoved
    have hstore := h.toStoreInv.enqueued_same data (.error .flash) hs hmoved.ring hmoved.le
      fun k hk hkF => hmoved.present (h.present hs) hk hkF
    have hpeek : (s.world.enqueued data s.world.store (.error .flash) mem).peek = s.peek :=
      enqueued_peek_same
    exact ⟨⟨hstore.congr rfl hpeek.symm rfl, fun n hn => h.written_items hmoved hn⟩,
      hmoved, hlast, hs, Or.inl rfl⟩
  have hnext : ∀ {mem : Mem} {F' : ℕ}, Written c crc s data F mem F' →
      c.slot (dev.view mem) s.peek.queue.writeIndex ≠ none → s.peek.queue.writeIndex < F' →
      { s with peek := s.peek.exec .enqueue, mem := mem }.Inv c crc F' ∧
        Enqueues c crc data s { s with peek := s.peek.exec .enqueue, mem := mem } F F' := by
    intro mem F' hmoved hslot hlt
    have hstore := h.toStoreInv.enqueued_next data (.error .flash) hs hw hmoved.ring hlt
      fun k hk hkF => hmoved.present (h.present hs) hk hkF
    have hpeek := enqueued_peek_next (s := s.world) data (.error .flash) mem h.peek hw
    exact ⟨⟨hstore.congr rfl hpeek.symm (hs.trans hs.symm), fun n hn => h.written_items hmoved hn⟩,
      hmoved, hlast, hs, Or.inr ⟨rfl, hslot⟩⟩
  have hne : ¬s.store.queue.enqueue.2.writeIndex = s.peek.queue.writeIndex := by
    have hadv : s.store.queue.enqueue.2.writeIndex = s.peek.queue.writeIndex + 1 :=
      (enqueue_advances h.peek hw).2
    omega
  have heq : s.store.queue.writeIndex = s.peek.queue.writeIndex := rfl
  refine Dev.wp_bind (wp_enqueueInitialized h.ring (h.next_le hs) hpresent hblock
    (enqueue_advances h.peek hw).1 (fun _ mem heff hholds => ?_) (fun hlt => ?_) (fun e => ?_)
    (fun _ e mem heff => ?_) fun _ mem heff => ?_)
  · obtain ⟨F', hmoved⟩ := hmoves (fun _ => Or.inl) heff
    refine Dev.wp_pure ⟨F', ?_⟩
    simp only [if_neg hne]
    have hslot : c.slot (dev.view mem) s.peek.queue.writeIndex ≠ none := fun hc => by
      have := hholds.1.symm.trans hc
      cases this
    exact hnext hmoved hslot (hmoved.ring.lt_of_valid hholds.status (by decide))
  · refine Dev.wp_pure ⟨F, ?_⟩
    simp only [if_neg hne]
    exact hnext ⟨h.ring, Or.inl rfl, fun k _ => Or.inl rfl⟩ (hpresent hlt) hlt
  · refine Dev.wp_pure ⟨F, ?_⟩
    simp only [if_pos heq]
    exact hsame ⟨h.ring, Or.inl rfl, fun k _ => Or.inl rfl⟩
  · obtain ⟨F', hmoved⟩ := hmoves (fun _ => Or.inr) heff
    refine Dev.wp_pure ⟨F', ?_⟩
    simp only [if_pos heq]
    exact hsame hmoved
  · obtain ⟨F', hmoved⟩ := hmoves (fun _ => id) heff
    exact ⟨F', .start hmoved.ring fun n hn => h.written_items hmoved hn, hmoved⟩

/-- What `enqueue` does to the world: nothing, or it opens the store and writes. -/
theorem Inv.exec_enqueue (h : s.Inv c crc F) {data : List UInt8}
    (hlast : s.NoWrap c (.enqueue data plan readPlan)) (hfail : P s)
    (hok : ∀ s₁ F₁ s' F', s₁.Inv c crc F₁ → Opens c s s₁ F₁ → s'.Inv c crc F' →
      Enqueues c crc data s₁ s' F₁ F' → P s')
    (hoff : ((s.enqueue c crc data).run ⟨s.mem, plan, readPlan⟩).isOff = true →
      ∀ s₁ F₁ mem F', s₁.Inv c crc F₁ → Opens c s s₁ F₁ → (FlakyWorld.start c mem).Inv c crc F' →
      Written c crc s₁ data F₁ mem F' → P (FlakyWorld.start c mem)) :
    P (s.exec c crc (.enqueue data plan readPlan)) := by
  refine h.after_call (fun _ => hfail) fun s₁ F₁ d hopens hmem h₁ ho hcall => ?_
  have hlast' : s₁.world.NoWrap c := by
    unfold NoWrap at hlast
    simp only [hopens] at hlast
    unfold StreamWorld.NoWrap
    rw [opened_of_initDone ho.initDone]
    exact hlast
  have hrun := h₁.wp_enqueueOpened ho.initDone hlast' data d (hmem.trans ho.mem.symm) (within_all d)
  revert hrun hcall
  cases (s₁.enqueueOpened c crc data).run d with
  | ok r d' =>
    rintro - ⟨-, F', h', hw⟩
    exact hok s₁ F₁ _ F' h₁ ho h' hw
  | err e d' => exact e.elim
  | off d' =>
    rintro hcall ⟨F', h', hw⟩
    exact hoff (by rw [enqueue, hcall]; rfl) s₁ F₁ d'.mem F' h₁ ho h' hw

/-! ### Runs -/

lemma Inv.settle (h : s.Inv c crc F) (k : ℕ) (success : Bool) :
    { s with peek := s.peek.settle k success }.Inv c crc F :=
  ⟨(h.toStoreInv.settle k success []).congr rfl rfl rfl, h.items⟩

lemma Inv.waitConfirmation (h : s.Inv c crc F) :
    { s with peek := s.peek.exec .waitConfirmation }.Inv c crc F :=
  ⟨h.toStoreInv.waitConfirmation.congr rfl rfl rfl, h.items⟩

lemma Inv.isDrained (h : s.Inv c crc F) (hs : s.initDone = true) :
    { s with peek := s.peek.exec .isDrained }.Inv c crc F := by
  have hcap := Peek.World.exec_capacity s.peek .isDrained
  refine ⟨⟨h.ring, fun hc => ?_, Peek.inv_exec h.peek (by decide) .isDrained trivial,
    hcap.1.trans h.capacity, hcap.2.trans h.granularity, h.next_le, h.present⟩, h.items⟩
  rw [show _ = s.initDone from rfl, hs] at hc
  cases hc

/-- What `is_drained` does to the world: nothing, or it opens the store and asks the queue. -/
lemma Inv.exec_isDrained (h : s.Inv c crc F) (hfail : P s)
    (hok : ∀ s' F', s'.Inv c crc F' → Opens c s s' F' →
      { s' with peek := s'.peek.exec .isDrained }.Inv c crc F' →
      P { s' with peek := s'.peek.exec .isDrained }) :
    P (s.exec c crc (.isDrained readPlan)) := by
  refine h.after_call (fun _ => hfail) fun s' F' d _ hmem h' ho _ => ?_
  show P { s' with peek := s'.peek.exec .isDrained, mem := d.mem }
  rw [hmem, ← ho.mem]
  exact hok s' F' h' ho (h'.isDrained ho.initDone)

theorem Inv.exec (h : s.Inv c crc F) (call : FlakyCall) (hlast : s.NoWrap c call) :
    ∃ F', (s.exec c crc call).Inv c crc F' := by
  cases call with
  | enqueue data plan readPlan =>
    exact h.exec_enqueue (P := fun s => ∃ F', s.Inv c crc F') hlast ⟨F, h⟩
      (fun _ _ _ F' _ _ h' _ => ⟨F', h'⟩) fun _ _ _ _ F' _ _ h' _ => ⟨F', h'⟩
  | peekNext bufferLen plan readPlan =>
    exact h.exec_peekNext (P := fun s => ∃ F', s.Inv c crc F') (fun _ => ⟨F, h⟩)
      (fun _ F' _ _ _ _ _ _ _ h' _ _ => ⟨F', h'⟩) fun _ _ F' _ _ _ _ _ _ h' _ => ⟨F', h'⟩
  | isDrained readPlan =>
    exact h.exec_isDrained (P := fun s => ∃ F', s.Inv c crc F') ⟨F, h⟩ fun _ F' _ _ h' => ⟨F', h'⟩
  | confirm k => exact ⟨F, h.settle k true⟩
  | drop k => exact ⟨F, h.settle k false⟩
  | waitConfirmation => exact ⟨F, h.waitConfirmation⟩
  | reboot => exact ⟨F, .start h.ring h.items⟩

lemma inv_start {mem : Mem} (hv : ∀ q, dev.view mem (c.chunkBlock q) = none) :
    (FlakyWorld.start c mem).Inv c crc 0 := by
  have hring := ringInv_zero hv
  exact .start hring fun n hn => absurd (hring.lt_of_valid hn (by decide)) (Nat.not_lt_zero n)

/-- **The invariant holds in every run** on a flash that was not used. -/
theorem inv_of_reach {mem : Mem} (hv : ∀ q, dev.view mem (c.chunkBlock q) = none)
    (h : Reach (FlakyWorld.exec c crc) (NoWrap c) (FlakyWorld.start c mem) s) : ∃ F, s.Inv c crc F :=
  h.invariant (P := fun s => ∃ F, s.Inv c crc F) ⟨0, inv_start hv⟩
    fun _ call hinv hcall => hinv.choose_spec.exec call hcall

end Inv

end FlakyWorld

/-- The world after some calls on an erased flash -/
def flakyRun (calls : List FlakyCall) : FlakyWorld :=
  calls.foldl (FlakyWorld.exec (streamRing false) crc32Cksum)
    (.start (streamRing false) fun _ => erased)

end SensorLink.Stream
