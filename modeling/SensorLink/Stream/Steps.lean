import SensorLink.Stream.World

/-!
# The calls of a stream

What the calls do to the world: the first one initializes the store (`opened`), and each of them is a
step of the queue and one of the flash. `StoreInv` says how the two fit together: the queue writes at the
frontier or, after a restart, at used fragments below it, which it then skips.
-/

namespace SensorLink.Stream

open SensorLink.Lib SensorLink.Flash SensorLink.Db RingBuffer

variable {dev : BlockDevice} {c : RingBuffer dev} {crc : List UInt8 → UInt32} {s : StreamWorld} {F : ℕ}

/-- The flash was written in order up to the frontier `F`, and the queue fits to it. -/
structure StoreInv (c : RingBuffer dev) (s : StreamWorld) (F : ℕ) : Prop where
  ring : RingInv c (dev.view s.mem) F
  closed : s.initDone = false → s.peek = .start (StreamStore.new dev c.toCircular).queue
  peek : Peek.Inv s.peek
  capacity : s.peek.queue.capacity = c.count
  granularity : s.peek.queue.overwriteGranularity = c.perBlock
  next_le : s.initDone = true → s.peek.queue.writeIndex ≤ F
  present : s.initDone = true → ∀ k, s.peek.queue.writeIndex ≤ k → k < F →
    c.slot (dev.view s.mem) k ≠ none

/-- The invariant is about the flash and the queue only. -/
lemma StoreInv.congr {t : StreamWorld} (h : StoreInv c s F) (hmem : t.mem = s.mem)
    (hpeek : t.peek = s.peek) (hinit : t.initDone = s.initDone) : StoreInv c t F := by
  obtain ⟨mem, peek, initDone⟩ := t
  simp only at hmem hpeek hinit
  subst hmem hpeek hinit
  exact ⟨h.ring, h.closed, h.peek, h.capacity, h.granularity, h.next_le, h.present⟩

/-! ### Starting -/

lemma inv_new (c : RingBuffer dev) : Peek.Inv (.start (StreamStore.new dev c.toCircular).queue) :=
  Peek.inv_start c.count c.perBlock c.perBlock_pos c.perBlock_le

lemma new_capacity (c : RingBuffer dev) :
    (StreamStore.new dev c.toCircular).queue.capacity = c.count ∧
      (StreamStore.new dev c.toCircular).queue.overwriteGranularity = c.perBlock := by
  have h1 := c.count_eq.2
  have h2 := c.perBlock_le
  constructor
  · exact if_pos (show c.count < 2 ^ 32 by omega)
  · exact if_pos (show c.perBlock < 2 ^ 32 by omega)

lemma StoreInv.rebooted {mem : Mem} (h : RingInv c (dev.view mem) F) :
    StoreInv c (s.rebooted c mem) F :=
  ⟨h, fun _ => rfl, inv_new c, (new_capacity c).1, (new_capacity c).2, fun hc => (by cases hc),
    fun hc => (by cases hc)⟩

lemma readOnly_initializeStore (store : StreamStore) :
    Dev.ReadOnly (initializeStore dev c.toCircular store) := by
  unfold initializeStore
  split
  · exact Dev.readOnly_pure _
  · refine (readOnly_findCircularRange dev c.toCircular).attempt.bind fun result => ?_
    cases result with
    | error e => exact Dev.readOnly_pure _
    | ok range => exact Dev.readOnly_pure _

/-- The range that the first call finds. -/
lemma StoreInv.exists_range (h : StoreInv c s F) (hs : s.initDone = false) : ∃ r F',
    (initializeStore dev c.toCircular s.store).eval s.mem =
      .ok (⟨s.peek.queue.reinitWithExistingRange (r.start, r.stop), true⟩, .ok ()) s.mem ∧
    RingInv c (dev.view s.mem) F' ∧ RangeSpec c (dev.view s.mem) F' r ∧
    (F' = F ∨ F' = 0 ∧ ∀ q, dev.view s.mem (c.chunkBlock q) = none) := by
  have hwp : Dev.wp (faults False False False) (initializeStore dev c.toCircular s.store)
      (fun result mem => mem = s.mem ∧ ∃ r F',
        result = (⟨s.peek.queue.reinitWithExistingRange (r.start, r.stop), true⟩, .ok ()) ∧
        RingInv c (dev.view s.mem) F' ∧ RangeSpec c (dev.view s.mem) F' r ∧
        (F' = F ∨ F' = 0 ∧ ∀ q, dev.view s.mem (c.chunkBlock q) = none))
      (fun _ _ => False) (fun _ => False) s.mem := by
    unfold initializeStore
    rw [if_neg (by simp [StreamWorld.store, hs])]
    refine Dev.wp_bind (Dev.wp_attempt (wp_findCircularRange h.ring False.elim
      fun F' r hring hF' hspec => Dev.wp_pure ⟨rfl, r, F', rfl, hring, hspec, ?_⟩))
    exact hF'.imp_right fun hc => hc.2
  obtain ⟨result, mem, heval, rfl, r, F', rfl, hring, hspec, hF'⟩ := Dev.exists_eval hwp
  exact ⟨r, F', heval, hring, hspec, hF'⟩

/-- With the range that was found the store is open. -/
lemma StoreInv.initialized (h : StoreInv c s F) (hs : s.initDone = false) {r : CircularRange} {F' : ℕ}
    (hring : RingInv c (dev.view s.mem) F') (hspec : RangeSpec c (dev.view s.mem) F' r) :
    StoreInv c { s with
      peek := .start (s.peek.queue.reinitWithExistingRange (r.start, r.stop))
      initDone := true } F' := by
  have hrange : r.stop < 2 ^ 32 := hspec.stop_le.trans_lt hring.noWrap
  have hquiet : s.peek.Quiet := by
    rw [h.closed hs]
    exact ⟨rfl, rfl⟩
  have hreinit : Peek.Inv (s.peek.exec (.reinit (r.start, r.stop))) :=
    Peek.inv_reinit h.peek hquiet hspec.start_le hrange
  have heq : Peek.World.start (s.peek.queue.reinitWithExistingRange (r.start, r.stop)) =
      s.peek.exec (.reinit (r.start, r.stop)) := by
    simp only [Peek.World.start, Peek.World.exec, hquiet.1]
    rfl
  refine ⟨hring, fun hc => (by cases hc), ?_, h.capacity, h.granularity, fun _ => hspec.stop_le,
    fun _ k hk hkF => hspec.present hring hk hkF⟩
  rw [heq]
  exact hreinit

lemma opened_of_initDone (h : s.initDone = true) : s.opened c = s := if_pos h

lemma opened_eq {store : StreamStore} {result : Except Error Unit} {mem : Mem}
    (hs : s.initDone = false)
    (heval : (initializeStore dev c.toCircular s.store).eval s.mem = .ok (store, result) mem) :
    s.opened c = { s with peek := .start store.queue, initDone := store.initDone } := by
  unfold StreamWorld.opened
  rw [if_neg (by rw [hs]; decide), heval]

/-- **Initializing**: the world is then open, and nothing else has changed. -/
theorem StoreInv.opened (h : StoreInv c s F) : ∃ F', StoreInv c (s.opened c) F' ∧
    s.opened c = { s with peek := (s.opened c).peek, initDone := true } ∧
    ((s.opened c).peek = s.peek ∨
      s.initDone = false ∧ (s.opened c).peek.trace = [] ∧ (s.opened c).peek.handles = []) ∧
    (F' = F ∨ F' = 0 ∧ ∀ q, dev.view s.mem (c.chunkBlock q) = none) ∧
    ∀ plan, (initializeStore dev c.toCircular s.store).run ⟨s.mem, plan, []⟩ =
      .ok ((s.opened c).store, .ok ()) ⟨s.mem, plan, []⟩ := by
  cases hs : s.initDone with
  | true =>
    rw [opened_of_initDone hs]
    refine ⟨F, h, ?_, Or.inl rfl, Or.inl rfl, fun plan => ?_⟩
    · rw [← hs]
    · unfold initializeStore
      rw [if_pos (show s.store.initDone = true from hs)]
      rfl
  | false =>
    obtain ⟨r, F', heval, hring, hspec, hF'⟩ := h.exists_range hs
    rw [opened_eq hs heval]
    refine ⟨F', h.initialized hs hring hspec, rfl, Or.inr ⟨rfl, rfl, rfl⟩, hF', fun plan => ?_⟩
    exact (readOnly_initializeStore _).run heval plan

lemma StoreInv.run_enqueue (h : StoreInv c s F) (data : List UInt8) (plan : List Fate) :
    (enqueue dev c.toCircular crc s.store data).run ⟨s.mem, plan, []⟩ =
      (enqueueInitialized dev c.toCircular crc (s.opened c).store data).run ⟨s.mem, plan, []⟩ := by
  obtain ⟨F', -, -, -, -, hrun⟩ := h.opened
  simp only [enqueue, Bind.bind, hrun plan, Dev.andThen]

lemma StoreInv.run_peekNext (h : StoreInv c s F) (bufferLen : ℕ) (plan : List Fate) :
    (peekNext dev c.toCircular crc s.store bufferLen).run ⟨s.mem, plan, []⟩ =
      (peekInitialized dev c.toCircular crc (s.opened c).store bufferLen).run ⟨s.mem, plan, []⟩ := by
  obtain ⟨F', -, -, -, -, hrun⟩ := h.opened
  simp only [peekNext, Bind.bind, hrun plan, Dev.andThen]

/-! ### Peeking -/

/-- The queue of the stream store is the one of the handles. -/
lemma settled_queue {w : Peek.World maxPeeks} {use : HandleUse}
    (h : w.queue.peekNext.1.toOption = none → use = .keep) :
    settled w.queue.peekNext.2 w.queue.peekNext.1.toOption use = (use.exec (w.exec .peekNext)).queue := by
  cases hp : w.queue.peekNext.1 with
  | error e =>
    rw [hp] at h
    rw [Peek.World.exec_peekNext_error hp, h rfl]
    rfl
  | ok n =>
    have hlast : ∀ success, ((w.exec .peekNext).settle ((w.exec .peekNext).handles.length - 1)
        success).queue = w.queue.peekNext.2.settle n success := by
      intro success
      rw [Peek.World.exec_peekNext_ok hp]
      simp [Peek.World.settle]
    cases use with
    | keep =>
      rw [Peek.World.exec_peekNext_ok hp]
      rfl
    | confirm => exact (hlast true).symm
    | drop => exact (hlast false).symm

/-- Without a handle there is nothing to use. -/
lemma PeekEnd.keep {V : ℕ → Option Block} {bufferLen : ℕ} {handle : Option ℕ} {p : Peeked}
    (h : PeekEnd c crc V bufferLen handle p) (hnone : handle = none) : p.use = .keep := by
  subst hnone
  cases h <;> rfl

lemma inv_use {w : Peek.World maxPeeks} (h : Peek.Inv w) (use : HandleUse) : Peek.Inv (use.exec w) := by
  cases use with
  | keep => exact h
  | confirm => exact Peek.inv_settle h _ true
  | drop => exact Peek.inv_settle h _ false

/-- What `peek_next` does with the handle changes neither the range nor the bounds of the queue. -/
lemma use_exec (use : HandleUse) (w : Peek.World maxPeeks) :
    (use.exec w).queue.readers = w.queue.readers ∧ (use.exec w).queue.writeIndex = w.queue.writeIndex ∧
      (use.exec w).queue.capacity = w.queue.capacity ∧
      (use.exec w).queue.overwriteGranularity = w.queue.overwriteGranularity := by
  have hsettle : ∀ k success, (w.settle k success).queue.readers = w.queue.readers ∧
      (w.settle k success).queue.writeIndex = w.queue.writeIndex ∧
      (w.settle k success).queue.capacity = w.queue.capacity ∧
      (w.settle k success).queue.overwriteGranularity = w.queue.overwriteGranularity := by
    intro k success
    unfold Peek.World.settle
    cases w.handles[k]? <;> exact ⟨rfl, rfl, rfl, rfl⟩
  cases use with
  | keep => exact ⟨rfl, rfl, rfl, rfl⟩
  | confirm => exact hsettle _ true
  | drop => exact hsettle _ false

lemma exec_peekNext_queue (w : Peek.World maxPeeks) : (w.exec .peekNext).queue = w.queue.peekNext.2 := by
  cases hp : w.queue.peekNext.1 with
  | ok n => rw [Peek.World.exec_peekNext_ok hp]
  | error e => rw [Peek.World.exec_peekNext_error hp]

/-- The handle that `peek_next` gets from the queue is returned, confirmed or dropped. -/
lemma use_exec_issued {w : Peek.World maxPeeks} {n : ℕ} (hn : w.queue.peekNext.1 = .ok n) :
    (HandleUse.keep.exec (w.exec .peekNext)).trace = .issued n :: w.trace ∧
    (HandleUse.keep.exec (w.exec .peekNext)).handles = w.handles ++ [n] ∧
    (HandleUse.confirm.exec (w.exec .peekNext)).trace = .confirmed n :: .issued n :: w.trace ∧
    (HandleUse.confirm.exec (w.exec .peekNext)).handles = w.handles ∧
    (HandleUse.drop.exec (w.exec .peekNext)).trace = .dropped n :: .issued n :: w.trace ∧
    (HandleUse.drop.exec (w.exec .peekNext)).handles = w.handles := by
  rw [Peek.World.exec_peekNext_ok hn]
  simp [HandleUse.exec, Peek.World.exec, Peek.World.settle, List.eraseIdx_append_of_length_le]

/-- The world after a `peek_next`. -/
def StreamWorld.afterPeek (s : StreamWorld) (p : Peeked) (mem : Mem) : StreamWorld :=
  s.peeked ⟨settled s.peek.queue.peekNext.2 s.peek.queue.peekNext.1.toOption p.use, s.initDone⟩ p mem

lemma afterPeek_peek {p : Peeked} {mem : Mem}
    (h : s.peek.queue.peekNext.1.toOption = none → p.use = .keep) :
    (s.afterPeek p mem).peek = p.use.exec (s.peek.exec .peekNext) := by
  unfold StreamWorld.afterPeek StreamWorld.peeked
  simp only [settled_queue h]

/-- The range of the queue in a world and after a peek. -/
lemma StoreInv.peek_range (h : StoreInv c s F) (hs : s.initDone = true) :
    s.store.queue.existingRange.1 ≤ s.store.queue.peekNext.2.existingRange.1 ∧
      s.store.queue.peekNext.2.existingRange.1 ≤ F := by
  obtain ⟨hmono, hwrite⟩ := Peek.peekNext_mono h.peek (by decide)
  refine ⟨hmono, ?_⟩
  have hwin := (Peek.inv_peekNext h.peek (by decide)).win
  have hmin := hwin.min_le
  have hnext := hwin.next_le
  rw [exec_peekNext_queue] at hmin hnext
  rw [hwrite] at hnext
  exact hmin.trans (hnext.trans (h.next_le hs))

lemma StoreInv.afterPeek (h : StoreInv c s F) (hs : s.initDone = true) {mem : Mem} {lo hi : ℕ}
    {p : Peeked} (hring : RingInv c (dev.view mem) F)
    (hclean : Cleaned c lo hi (dev.view s.mem) (dev.view mem))
    (hkeep : s.peek.queue.peekNext.1.toOption = none → p.use = .keep) :
    StoreInv c (s.afterPeek p mem) F := by
  have hpeek : (s.afterPeek p mem).peek = p.use.exec (s.peek.exec .peekNext) := afterPeek_peek hkeep
  obtain ⟨-, hwrite, hcap, hgran⟩ := use_exec p.use (s.peek.exec .peekNext)
  have hexec := Peek.World.exec_capacity s.peek .peekNext
  have hnext : (s.afterPeek p mem).peek.queue.writeIndex = s.peek.queue.writeIndex := by
    rw [hpeek, hwrite, exec_peekNext_queue]
    exact (Peek.peekNext_mono h.peek (by decide)).2
  refine ⟨hring, fun hc => ?_, ?_, ?_, ?_, fun _ => ?_, fun _ k hk hkF => ?_⟩
  · rw [show (s.afterPeek p mem).initDone = s.initDone from rfl, hs] at hc
    cases hc
  · rw [hpeek]
    exact inv_use (Peek.inv_peekNext h.peek (by decide)) p.use
  · rw [hpeek, hcap, hexec.1, h.capacity]
  · rw [hpeek, hgran, hexec.2, h.granularity]
  · rw [hnext]
    exact h.next_le hs
  · rw [hnext] at hk
    exact hclean.ne_none (h.present hs k hk hkF)

/-! ### Enqueueing -/

/-- The queue has room for as many numbers as there are. -/
lemma enqueue_advances {w : Peek.World maxPeeks} (h : Peek.Inv w)
    (hw : w.queue.writeIndex + 1 < 2 ^ 32) : (∃ i, w.queue.enqueue.1 = .ok i) ∧
      w.queue.enqueue.2.writeIndex = w.queue.writeIndex + 1 := by
  have hmin := h.win.min_le
  have hnext := h.win.next_le
  rcases Peek.enqueue_cases w.queue hw with ⟨hfull, -⟩ | ⟨-, he⟩ | ⟨-, he⟩
  · unfold Peek.Queue.unconfirmedCount Peek.PeekQueue.minIndex at hfull
    rw [wrappingSub_eq (hmin.trans hnext) (by omega)] at hfull
    omega
  · rw [he]
    exact ⟨⟨_, rfl⟩, rfl⟩
  · rw [he]
    exact ⟨⟨_, rfl⟩, rfl⟩

/-- The end of the block of the item before. -/
lemma checkedNextMultipleOf_succ {n g : ℕ} (hg : 0 < g) (hlt : n / g * g + g < 2 ^ 32) :
    Peek.checkedNextMultipleOf (n + 1) g = some (n / g * g + g) := by
  have hdiv := Nat.div_add_mod' n g
  have hmod := Nat.mod_lt n hg
  unfold Peek.checkedNextMultipleOf
  rw [if_neg hg.ne']
  simp only
  rcases Nat.eq_or_lt_of_le (Nat.succ_le_of_lt hmod) with heq | hlt'
  · have hzero : (n + 1) % g = 0 := by
      rw [show n + 1 = n / g * g + g by omega, Nat.add_mod_right, Nat.mul_mod_left]
    rw [if_pos hzero]
    exact congrArg some (by omega)
  · have hsucc : (n + 1) % g = n % g + 1 := by
      rw [show n + 1 = n % g + 1 + g * (n / g) by rw [Nat.mul_comm]; omega, Nat.add_mul_mod_self_left]
      exact Nat.mod_eq_of_lt hlt'
    rw [hsucc, if_neg (Nat.succ_ne_zero _), if_pos (by omega)]
    exact congrArg some (by omega)

/-- The lower bound after an `enqueue`: there was room, or it moves past the block of a round ago. -/
lemma enqueue_min {w : Peek.World maxPeeks} (h : Peek.Inv w) (hw : w.queue.writeIndex + 1 < 2 ^ 32) :
    w.queue.writeIndex < w.queue.existingRange.1 + w.queue.capacity ∧
      w.queue.enqueue.2.existingRange.1 = w.queue.existingRange.1 ∨
    w.queue.existingRange.1 < w.queue.enqueue.2.existingRange.1 ∧
      (w.queue.writeIndex / w.queue.overwriteGranularity * w.queue.overwriteGranularity +
          w.queue.overwriteGranularity < 2 ^ 32 →
        w.queue.enqueue.2.existingRange.1 + w.queue.capacity =
          w.queue.writeIndex / w.queue.overwriteGranularity * w.queue.overwriteGranularity +
            w.queue.overwriteGranularity) := by
  have hmin := h.win.min_le
  have hnext := h.win.next_le
  have hcount : ({ w.queue with
      writeIndex := w.queue.writeIndex + 1 } : Peek.Queue maxPeeks).unconfirmedCount =
        w.queue.writeIndex + 1 - w.queue.readers.readIndexMin :=
    wrappingSub_eq (by simp only [Peek.PeekQueue.minIndex]; omega) hw
  rcases Peek.enqueue_cases w.queue hw with ⟨hfull, -⟩ | ⟨hroom, he⟩ | ⟨hfull, he⟩
  · unfold Peek.Queue.unconfirmedCount Peek.PeekQueue.minIndex at hfull
    rw [wrappingSub_eq (hmin.trans hnext) (by omega)] at hfull
    omega
  · left
    rw [hcount] at hroom
    rw [he]
    simp only [Peek.Queue.existingRange, Peek.PeekQueue.minIndex, and_true]
    omega
  · right
    have hbounds := Peek.erasedUntil_bounds (q := { w.queue with writeIndex := w.queue.writeIndex + 1 })
      hw (by simp only; omega) h.gran_pos h.gran_le h.cap_lt hfull
    have hbump : ∀ e, (w.queue.readers.bumpMinIndex e).readIndexMin = e := by
      intro e
      unfold Peek.PeekQueue.bumpMinIndex
      simp only
      split <;> rfl
    rw [he]
    simp only [Peek.Queue.existingRange, Peek.PeekQueue.minIndex, hbump]
    refine ⟨hbounds.1, fun hlt => ?_⟩
    rw [hcount] at hfull
    have hpos := h.gran_pos
    have hle := h.gran_le
    have hcap := h.cap_lt
    have hmul := checkedNextMultipleOf_succ hpos hlt
    unfold Peek.Queue.erasedUntil
    simp only
    have hdiv := Nat.div_add_mod' w.queue.writeIndex w.queue.overwriteGranularity
    have hmod := Nat.mod_lt w.queue.writeIndex hpos
    rw [hmul, Option.getD_some, wrappingSub_eq (by omega) (by omega)]
    omega

lemma NoWrap.next_lt (hlast : s.NoWrap c) (hs : s.initDone = true) :
    s.peek.queue.writeIndex / c.perBlock * c.perBlock + c.perBlock < 2 ^ 32 ∧
      s.peek.queue.writeIndex + 1 < 2 ^ 32 := by
  unfold StreamWorld.NoWrap at hlast
  rw [opened_of_initDone hs] at hlast
  have h1 := c.div_mod_eq s.peek.queue.writeIndex
  have h2 := Nat.mod_lt s.peek.queue.writeIndex c.perBlock_pos
  exact ⟨hlast, by omega⟩

lemma StoreInv.enqueue_le (h : StoreInv c s F) (hw : s.peek.queue.writeIndex + 1 < 2 ^ 32) :
    s.peek.queue.existingRange.1 ≤ (s.peek.exec .enqueue).queue.existingRange.1 := by
  rcases enqueue_min h.peek hw with ⟨-, heq⟩ | ⟨hlt, -⟩
  · exact heq.ge
  · exact hlt.le

/-- What is there is not passed by an enqueue. -/
lemma StoreInv.enqueue_passed (h : StoreInv c s F) (hs : s.initDone = true) (hlast : s.NoWrap c)
    {mem : Mem} {F' : ℕ} (hring : RingInv c (dev.view mem) F') {n : ℕ}
    (hmin : s.peek.queue.existingRange.1 ≤ n) (hn : c.slot (dev.view mem) n ≠ none)
    (hw : c.slot (dev.view mem) s.peek.queue.writeIndex ≠ none) :
    (s.peek.exec .enqueue).queue.existingRange.1 ≤ n := by
  obtain ⟨hblock, hnext⟩ := NoWrap.next_lt hlast hs
  rcases enqueue_min h.peek hnext with ⟨-, heq⟩ | ⟨-, hmoved⟩
  · exact heq.le.trans hmin
  · rw [h.granularity, h.capacity] at hmoved
    have hround := hring.lt_round hn hw
    have hmul := Nat.mul_le_mul_right c.perBlock (Nat.succ_le_of_lt hround)
    have hcount : c.count = c.dataBlocks * c.perBlock := by
      rw [c.count_eq.1, Nat.mul_comm]
    rw [Nat.succ_mul, Nat.add_mul, ← hcount] at hmul
    have hdiv := c.div_mod_eq n
    have := hmoved hblock
    show s.peek.queue.enqueue.2.existingRange.1 ≤ n
    omega

section Enqueued

variable {data : List UInt8} {store : StreamStore} {result : Except Error ℕ} {mem : Mem}

lemma enqueued_mem : (s.enqueued data store result mem).mem = mem := by
  unfold StreamWorld.enqueued
  cases result <;> rfl

lemma enqueued_initDone : (s.enqueued data store result mem).initDone = store.initDone := by
  unfold StreamWorld.enqueued
  cases result <;> rfl

lemma enqueued_peek_same : (s.enqueued data s.store result mem).peek = s.peek := by
  unfold StreamWorld.enqueued StreamWorld.store
  simp only [if_true]
  cases result <;> rfl

variable (data result mem) in
lemma enqueued_peek_next (h : Peek.Inv s.peek) (hw : s.peek.queue.writeIndex + 1 < 2 ^ 32) :
    (s.enqueued data ⟨s.peek.queue.enqueue.2, s.initDone⟩ result mem).peek = s.peek.exec .enqueue := by
  have hne : s.peek.queue.enqueue.2.writeIndex ≠ s.peek.queue.writeIndex := by
    rw [(enqueue_advances h hw).2]
    omega
  unfold StreamWorld.enqueued
  simp only [if_neg hne]
  cases result <;> rfl

variable (data result) in
/-- The item was not written and will be tried again. -/
lemma StoreInv.enqueued_same (h : StoreInv c s F) (hs : s.initDone = true) {F' : ℕ}
    (hring : RingInv c (dev.view mem) F') (hle : F ≤ F')
    (hpresent : ∀ k, s.peek.queue.writeIndex ≤ k → k < F' → c.slot (dev.view mem) k ≠ none) :
    StoreInv c (s.enqueued data s.store result mem) F' := by
  refine ⟨?_, fun hc => ?_, ?_, ?_, ?_, fun _ => ?_, fun _ => ?_⟩
  · rwa [enqueued_mem]
  · rw [enqueued_initDone, show s.store.initDone = s.initDone from rfl, hs] at hc
    cases hc
  · rw [enqueued_peek_same]
    exact h.peek
  · rw [enqueued_peek_same, h.capacity]
  · rw [enqueued_peek_same, h.granularity]
  · rw [enqueued_peek_same]
    exact (h.next_le hs).trans hle
  · rw [enqueued_peek_same, enqueued_mem]
    exact hpresent

variable (data result) in
/-- The queue goes on to the next number. -/
lemma StoreInv.enqueued_next (h : StoreInv c s F) (hs : s.initDone = true)
    (hw : s.peek.queue.writeIndex + 1 < 2 ^ 32) {F' : ℕ} (hring : RingInv c (dev.view mem) F')
    (hlt : s.peek.queue.writeIndex < F')
    (hpresent : ∀ k, s.peek.queue.writeIndex ≤ k → k < F' → c.slot (dev.view mem) k ≠ none) :
    StoreInv c (s.enqueued data ⟨s.peek.queue.enqueue.2, s.initDone⟩ result mem) F' := by
  have hpeek := enqueued_peek_next data result mem h.peek hw
  have hcap := Peek.World.exec_capacity s.peek .enqueue
  have hnext : (s.peek.exec .enqueue).queue.writeIndex = s.peek.queue.writeIndex + 1 :=
    (enqueue_advances h.peek hw).2
  refine ⟨?_, fun hc => ?_, ?_, ?_, ?_, fun _ => ?_, fun _ k hk hkF => ?_⟩
  · rwa [enqueued_mem]
  · rw [enqueued_initDone, hs] at hc
    cases hc
  · rw [hpeek]
    exact Peek.inv_enqueue h.peek hw
  · rw [hpeek, hcap.1, h.capacity]
  · rw [hpeek, hcap.2, h.granularity]
  · rw [hpeek, hnext]
    exact hlt
  · rw [hpeek, hnext] at hk
    rw [enqueued_mem]
    exact hpresent k (Nat.le_of_succ_le hk) hkF

end Enqueued

/-! ### Handles -/

lemma settle_range (w : Peek.World maxPeeks) (k : ℕ) (success : Bool) :
    (w.settle k success).queue.existingRange = w.queue.existingRange := by
  unfold Peek.World.settle
  cases w.handles[k]? <;> rfl

lemma waitConfirmation_range (w : Peek.World maxPeeks) :
    (w.exec .waitConfirmation).queue.existingRange = w.queue.existingRange := by
  simp only [Peek.World.exec]
  unfold Peek.Queue.waitConfirmation
  cases w.queue.confirmChannel with
  | nil => rfl
  | cons confirm rest =>
    unfold Peek.Queue.existingRange Peek.PeekQueue.update
    simp only
    split <;> rfl

/-- The calls that only use the queue. -/
lemma StoreInv.settle (h : StoreInv c s F) (k : ℕ) (success : Bool) (confirmed : List ℕ) :
    StoreInv c { s with peek := s.peek.settle k success, confirmed := confirmed } F := by
  have hq : (s.peek.settle k success).queue.writeIndex = s.peek.queue.writeIndex ∧
      (s.peek.settle k success).queue.capacity = s.peek.queue.capacity ∧
      (s.peek.settle k success).queue.overwriteGranularity = s.peek.queue.overwriteGranularity := by
    unfold Peek.World.settle
    cases s.peek.handles[k]? <;> exact ⟨rfl, rfl, rfl⟩
  refine ⟨h.ring, fun hc => ?_, Peek.inv_settle h.peek k success, hq.2.1.trans h.capacity,
    hq.2.2.trans h.granularity, fun hs => hq.1.le.trans (h.next_le hs), fun hs j hj => ?_⟩
  · -- without a handle nothing happens
    have hclosed := h.closed hc
    have hnone : s.peek.handles[k]? = none := by
      rw [hclosed]
      rfl
    show s.peek.settle k success = _
    unfold Peek.World.settle
    rw [hnone]
    exact hclosed
  · exact h.present hs j (hq.1 ▸ hj)

lemma StoreInv.waitConfirmation (h : StoreInv c s F) :
    StoreInv c { s with peek := s.peek.exec .waitConfirmation } F := by
  have hcap := Peek.World.exec_capacity s.peek .waitConfirmation
  have hw : (s.peek.exec .waitConfirmation).queue.writeIndex = s.peek.queue.writeIndex := by
    simp only [Peek.World.exec]
    unfold Peek.Queue.waitConfirmation
    cases s.peek.queue.confirmChannel <;> rfl
  refine ⟨h.ring, fun hc => ?_, Peek.inv_waitConfirmation h.peek, hcap.1.trans h.capacity,
    hcap.2.trans h.granularity, fun hs => hw.le.trans (h.next_le hs), fun hs j hj => ?_⟩
  · have hclosed := h.closed hc
    show s.peek.exec .waitConfirmation = _
    rw [hclosed]
    rfl
  · exact h.present hs j (hw ▸ hj)

/-! ### Whole calls -/

section Exec

variable {errors cuts : Prop} {P : StreamWorld → Prop} {plan : List Fate}

lemma no_fates (h : plan = []) {reads : Prop} :
    ∀ fate ∈ plan, (faults errors cuts reads).fate fate := by
  rw [h]
  exact fun fate hf => absurd hf List.not_mem_nil

lemma any_fates (plan : List Fate) : ∀ fate ∈ plan, (faults True True False).fate fate := by
  intro fate _
  cases fate <;> trivial

lemma StoreInv.exec_enqueue (h : StoreInv c s F) {data : List UInt8}
    (hplan : ∀ fate ∈ plan, (faults errors cuts False).fate fate)
    (hwp : Dev.wp (faults errors cuts False)
      (enqueueInitialized dev c.toCircular crc (s.opened c).store data)
      (fun r mem => P ((s.opened c).enqueued data r.1 r.2 mem)) (fun _ _ => True)
      (fun mem => P { s.rebooted c mem with
        cut := Function.update s.cut (s.opened c).peek.queue.writeIndex
          (data :: s.cut (s.opened c).peek.queue.writeIndex) }) s.mem) :
    P (s.exec c crc (.enqueue data plan)) := by
  have hrun := hwp ⟨s.mem, plan, []⟩ rfl ⟨hplan, fun _ => rfl⟩
  unfold StreamWorld.exec
  simp only
  rw [h.run_enqueue]
  revert hrun
  cases (enqueueInitialized dev c.toCircular crc (s.opened c).store data).run ⟨s.mem, plan, []⟩ with
  | ok r d => exact And.right
  | err e d => exact e.elim
  | off d => exact id

lemma StoreInv.exec_peekNext (h : StoreInv c s F) {bufferLen : ℕ}
    (hplan : ∀ fate ∈ plan, (faults errors cuts False).fate fate)
    (hwp : Dev.wp (faults errors cuts False)
      (peekInitialized dev c.toCircular crc (s.opened c).store bufferLen)
      (fun r mem => P ((s.opened c).peeked r.1 r.2 mem)) (fun _ _ => True)
      (fun mem => P (s.rebooted c mem)) s.mem) :
    P (s.exec c crc (.peekNext bufferLen plan)) := by
  have hrun := hwp ⟨s.mem, plan, []⟩ rfl ⟨hplan, fun _ => rfl⟩
  unfold StreamWorld.exec
  simp only
  rw [h.run_peekNext]
  revert hrun
  cases (peekInitialized dev c.toCircular crc (s.opened c).store bufferLen).run ⟨s.mem, plan, []⟩ with
  | ok r d => exact And.right
  | err e d => exact e.elim
  | off d => exact id

end Exec

lemma Holds.stored {mem : Mem} {n : ℕ} {data : List UInt8} (hown : c.Own (dev.view mem))
    (h : Holds c crc (dev.view mem) n data) : Stored c crc mem n data := by
  have hwp : Dev.wp (faults False False False) (readItem dev c.toCircular crc n data.length)
      (fun r _ => r.1 = .ok data) (fun _ _ => False) (fun _ => False) mem := by
    refine wp_readItem hown (fun _ => ⟨data, h⟩) (fun data' h' hlen => ?_) (fun data' h' hlen => ?_)
      (fun hst => absurd h.status hst) False.elim False.elim
    · rw [h.inj h']
    · rw [h.inj h'] at hlen
      exact absurd hlen (lt_irrefl _)
  obtain ⟨r, mem', heval, hr⟩ := Dev.exists_eval hwp
  unfold Stored readBack
  rw [heval]
  exact congrArg some hr

end SensorLink.Stream
