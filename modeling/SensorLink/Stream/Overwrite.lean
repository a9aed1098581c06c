import SensorLink.Stream.Steps

/-!
# A stream that overwrites its oldest items

At the start of a block `write_circular_fragment` erases the items of a round ago, and `enqueue` of the
queue moves its lower bound past them, but only when more items than fit are unconfirmed. With a lower
bound inside the erased block there is room for one more item, the bound stays, and the items above it
are gone: `queueAgrees_fails`. Queue and flash agree in all runs that never come there
(`queueAgrees_of_reach`).
-/

namespace SensorLink.Stream

open SensorLink.Lib SensorLink.Flash SensorLink.Db RingBuffer

variable {dev : BlockDevice} {c : RingBuffer dev} {crc : List UInt8 → UInt32} {s : StreamWorld} {F : ℕ}

/-- Every item in the range of the queue that was accepted and is not confirmed is stored. -/
def QueueAgrees (c : RingBuffer dev) (crc : List UInt8 → UInt32) (s : StreamWorld) : Prop :=
  ∀ n data, s.peek.queue.existingRange.1 ≤ n → n < s.peek.queue.existingRange.2 →
    s.accepted n = some data → n ∉ s.confirmed → Stored c crc s.mem n data

/-- No flash operation fails, there is no restart, and the sequence numbers do not wrap. -/
def FaultFree (c : RingBuffer dev) (s : StreamWorld) : StreamCall → Prop
  | .enqueue _ plan => plan = [] ∧ s.NoWrap c
  | .peekNext _ plan => plan = []
  | .reboot => False
  | _ => True

/-- When the item starts a block and the lower bound of the queue is above the first fragment of a round
ago, then the items from the lower bound up to the end of that block are confirmed. -/
def Spared (c : RingBuffer dev) (s : StreamWorld) (data : List UInt8) : Prop :=
  let range := (s.opened c).peek.queue.existingRange
  Fits c data → range.2 % c.perBlock = 0 → c.count ≤ range.2 → range.2 - c.count < range.1 →
    ∀ n, range.1 ≤ n → n < range.2 - c.count + c.perBlock → s.accepted n ≠ none → n ∈ s.confirmed

def Sparing (c : RingBuffer dev) (s : StreamWorld) (call : StreamCall) : Prop :=
  FaultFree c s call ∧ ∀ data plan, call = .enqueue data plan → Spared c s data

/-- A flash on which a stream was written: in order, and only with items. -/
def StreamFlash (c : RingBuffer dev) (crc : List UInt8 → UInt32) (mem : Mem) : Prop :=
  (∃ F, RingInv c (dev.view mem) F) ∧
    ∀ n, status c (dev.view mem) n = some .valid → ∃ data, Holds c crc (dev.view mem) n data

structure OverInv (c : RingBuffer dev) (crc : List UInt8 → UInt32) (s : StreamWorld) (F : ℕ) : Prop
    extends StoreInv c s F where
  items : ∀ n, status c (dev.view s.mem) n = some .valid → ∃ data, Holds c crc (dev.view s.mem) n data
  fits : ∀ n data, s.accepted n = some data → Fits c data
  below : ∀ n, s.accepted n ≠ none → n < s.peek.queue.writeIndex
  fresh : s.initDone = false → ∀ n, s.accepted n = none
  agrees : ∀ n data, s.peek.queue.existingRange.1 ≤ n → s.accepted n = some data → n ∉ s.confirmed →
    Holds c crc (dev.view s.mem) n data

/-! ### The calls -/

lemma OverInv.opened (h : OverInv c crc s F) : ∃ F', OverInv c crc (s.opened c) F' ∧
    s.opened c = { s with peek := (s.opened c).peek, initDone := true } := by
  cases hs : s.initDone with
  | true =>
    rw [opened_of_initDone hs]
    exact ⟨F, h, by rw [← hs]⟩
  | false =>
    obtain ⟨F', hinv, heq, -⟩ := h.toStoreInv.opened
    have hnone := h.fresh hs
    refine ⟨F', ?_, heq⟩
    rw [heq] at hinv ⊢
    exact ⟨hinv, h.items, h.fits, fun n hn => absurd (hnone n) hn, fun hc => (by cases hc),
      fun n data _ hn => (by simp [hnone n] at hn)⟩

/-- What is erased for an item is below the lower bound afterwards, or confirmed. -/
lemma OverInv.erased_below (h : OverInv c crc s F) (hs : s.initDone = true) {data : List UInt8}
    (hspared : Spared c s data) (hfits : Fits c data) (hlast : s.NoWrap c) {n : ℕ} {item : List UInt8}
    (hn : s.peek.queue.enqueue.2.existingRange.1 ≤ n) (hitem : s.accepted n = some item)
    (hfirst : s.peek.queue.writeIndex % c.perBlock = 0)
    (hblock : c.chunkBlock (n / c.perBlock) = c.chunkBlock (s.peek.queue.writeIndex / c.perBlock)) :
    n ∈ s.confirmed := by
  have hlt : n < s.peek.queue.writeIndex := h.below n (by rw [hitem]; exact Option.some_ne_none item)
  unfold Spared at hspared
  unfold StreamWorld.NoWrap at hlast
  rw [opened_of_initDone hs] at hspared hlast
  simp only [Peek.Queue.existingRange] at hspared
  have hp := c.perBlock_pos
  have hW := c.div_mod_eq s.peek.queue.writeIndex
  have hndiv := c.div_mod_eq n
  have hmod := Nat.mod_lt n hp
  have hdiv : n / c.perBlock < s.peek.queue.writeIndex / c.perBlock := by
    rcases Nat.lt_or_ge (n / c.perBlock) (s.peek.queue.writeIndex / c.perBlock) with hlt' | hge
    · exact hlt'
    · have := Nat.mul_le_mul_right c.perBlock hge
      omega
  have hround : n / c.perBlock + c.dataBlocks ≤ s.peek.queue.writeIndex / c.perBlock := by
    by_contra hc
    exact chunkBlock_ne hdiv (Nat.not_le.mp hc) hblock
  -- the fragment is in the block of a round ago, or before it
  have hcount : c.count = c.dataBlocks * c.perBlock := by
    rw [c.count_eq.1, Nat.mul_comm]
  have hmul := Nat.mul_le_mul_right c.perBlock hround
  rw [Nat.add_mul, ← hcount] at hmul
  have hend : n + c.count < s.peek.queue.writeIndex + c.perBlock := by omega
  rcases enqueue_min h.peek (by omega) with ⟨hroom, hmin⟩ | ⟨-, hmoved⟩
  · rw [hmin] at hn
    rw [h.capacity] at hroom
    simp only [Peek.Queue.existingRange] at hroom hn
    refine hspared hfits hfirst (by omega) (by omega) n hn (by omega) ?_
    rw [hitem]
    exact Option.some_ne_none item
  · rw [h.granularity, h.capacity] at hmoved
    have := hmoved hlast
    omega

section Enqueue

variable {data : List UInt8} {e : Error} {mem : Mem}

/-- Nothing was written, and the queue stays. -/
lemma OverInv.refused (h : OverInv c crc s F) (hs : s.initDone = true) :
    OverInv c crc (s.enqueued data s.store (.error e) s.mem) F := by
  have hstore := h.enqueued_same data (.error e) hs h.ring le_rfl (h.present hs)
  have hpeek : (s.enqueued data s.store (.error e) s.mem).peek = s.peek := enqueued_peek_same
  refine ⟨hstore, h.items, h.fits, ?_, h.fresh, ?_⟩
  · rw [hpeek]
    exact h.below
  · rw [hpeek]
    exact h.agrees

/-- Nothing was written, and the queue skips the number. -/
lemma OverInv.skipped (h : OverInv c crc s F) (hs : s.initDone = true)
    (hw : s.peek.queue.writeIndex + 1 < 2 ^ 32) (hlt : s.peek.queue.writeIndex < F) :
    OverInv c crc (s.enqueued data ⟨s.peek.queue.enqueue.2, s.initDone⟩ (.error e) s.mem) F := by
  have hstore := h.enqueued_next data (.error e) hs hw h.ring hlt (h.present hs)
  have hpeek := enqueued_peek_next data (.error e) s.mem h.peek hw
  refine ⟨hstore, h.items, h.fits, fun n hn => ?_, h.fresh, fun n item hle => ?_⟩
  · have hnext : (s.peek.exec .enqueue).queue.writeIndex = s.peek.queue.writeIndex + 1 :=
      (enqueue_advances h.peek hw).2
    rw [hpeek, hnext]
    exact (h.below n hn).trans (Nat.lt_succ_self _)
  · rw [hpeek] at hle
    exact h.agrees n item ((h.enqueue_le hw).trans hle)

/-- An item was written. -/
lemma OverInv.written (h : OverInv c crc s F) (hs : s.initDone = true) (hspared : Spared c s data)
    (hlast : s.NoWrap c) {F' : ℕ}
    (hmoved : Moved c (dev.view s.mem) F s.peek.queue.writeIndex (Complete c (frame crc data))
      (dev.view mem) F') (hholds : Holds c crc (dev.view mem) s.peek.queue.writeIndex data) :
    OverInv c crc
      (s.enqueued data ⟨s.peek.queue.enqueue.2, s.initDone⟩ (.ok s.peek.queue.writeIndex) mem) F' := by
  have hw := (NoWrap.next_lt hlast hs).2
  have hlt := hmoved.ring.lt_of_valid hholds.status (by decide)
  have hstore := h.enqueued_next data (.ok s.peek.queue.writeIndex) hs hw hmoved.ring hlt
    fun k hk hkF => hmoved.present (h.present hs) hk hkF
  have hpeek := enqueued_peek_next data (.ok s.peek.queue.writeIndex) mem h.peek hw
  have hnext : (s.peek.exec .enqueue).queue.writeIndex = s.peek.queue.writeIndex + 1 :=
    (enqueue_advances h.peek hw).2
  have haccepted : ∀ n, n ≠ s.peek.queue.writeIndex →
      (s.enqueued data ⟨s.peek.queue.enqueue.2, s.initDone⟩ (.ok s.peek.queue.writeIndex) mem).accepted n =
        s.accepted n := fun n hn => Function.update_of_ne hn _ _
  have hself : (s.enqueued data ⟨s.peek.queue.enqueue.2, s.initDone⟩ (.ok s.peek.queue.writeIndex)
      mem).accepted s.peek.queue.writeIndex = some data := Function.update_self _ _ _
  refine ⟨hstore, fun n hn => ?_, fun n item hn => ?_, fun n hn => ?_, fun hc => ?_,
    fun n item hle hn hconf => ?_⟩
  · show ∃ item, Holds c crc (dev.view mem) n item
    change status c (dev.view mem) n = some .valid at hn
    rcases hmoved.used hn (by decide) with ⟨-, heq⟩ | ⟨rfl, hWF, -⟩
    · rw [status, heq] at hn
      obtain ⟨item, hitem⟩ := h.items n hn
      exact ⟨item, heq.trans hitem.1, hitem.2⟩
    · exact ⟨data, hWF ▸ hholds⟩
  · by_cases hnw : n = s.peek.queue.writeIndex
    · rw [hnw, hself] at hn
      obtain rfl := Option.some.inj hn
      exact hholds.2
    · rw [haccepted n hnw] at hn
      exact h.fits n item hn
  · rw [hpeek, hnext]
    by_cases hnw : n = s.peek.queue.writeIndex
    · omega
    · rw [haccepted n hnw] at hn
      exact (h.below n hn).trans (Nat.lt_succ_self _)
  · rw [enqueued_initDone, hs] at hc
    cases hc
  · show Holds c crc (dev.view mem) n item
    by_cases hnw : n = s.peek.queue.writeIndex
    · rw [hnw, hself] at hn
      obtain rfl := Option.some.inj hn
      exact hnw ▸ hholds
    · rw [haccepted n hnw] at hn
      have hconf' : n ∉ s.confirmed := fun hc => hconf (List.mem_filter.mpr ⟨hc, by simpa using hnw⟩)
      rw [hpeek] at hle
      have hnF : n < F := (h.below n (by rw [hn]; exact Option.some_ne_none item)).trans_le (h.next_le hs)
      obtain ⟨hslot, hfits⟩ := h.agrees n item ((h.enqueue_le hw).trans hle) hn hconf'
      rcases hmoved.slots n hnF with heq | ⟨⟨hWF, hneeds⟩, hblock, -⟩
      · exact ⟨heq.trans hslot, hfits⟩
      · rw [← hWF] at hneeds hblock
        exact absurd (h.erased_below hs hspared hholds.2 hlast hle hn hneeds.first hblock) hconf'

/-- No item fits into the fragments, so none was ever accepted. -/
lemma OverInv.unfit (h : OverInv c crc s F) (hs : s.initDone = true)
    (hsmall : c.fragmentSize < streamOverheadBytes) {F' : ℕ}
    (hmoved : Moved c (dev.view s.mem) F s.peek.queue.writeIndex Torn (dev.view mem) F') :
    OverInv c crc (s.enqueued data s.store (.error e) mem) F' := by
  have hstore := h.enqueued_same data (.error e) hs hmoved.ring hmoved.le
    fun k hk hkF => hmoved.present (h.present hs) hk hkF
  have hpeek : (s.enqueued data s.store (.error e) mem).peek = s.peek := enqueued_peek_same
  have hnone : ∀ item, ¬Fits c item := by
    intro item hitem
    unfold Fits at hitem
    omega
  refine ⟨hstore, fun n hn => ?_, h.fits, ?_, h.fresh, fun n item _ hn => ?_⟩
  · exfalso
    change status c (dev.view mem) n = some .valid at hn
    rcases hmoved.used hn (by decide) with ⟨-, heq⟩ | ⟨rfl, -, fr, hfr, hslot⟩
    · rw [status, heq] at hn
      obtain ⟨item, hitem⟩ := h.items n hn
      exact hnone item hitem.2
    · rw [status, hslot, Option.map_some, hfr] at hn
      cases hn
  · rw [hpeek]
    exact h.below
  · exact absurd (h.fits n item hn) (hnone item)

lemma OverInv.wp_enqueue (h : OverInv c crc s F) (hs : s.initDone = true) (hspared : Spared c s data)
    (hlast : s.NoWrap c) {O : Mem → Prop} :
    Dev.wp (faults False False False) (enqueueInitialized dev c.toCircular crc s.store data)
      (fun r mem => ∃ F', OverInv c crc (s.enqueued data r.1 r.2 mem) F') (fun _ _ => True) O s.mem := by
  obtain ⟨hlast', hw⟩ := NoWrap.next_lt hlast hs
  have hpresent : s.peek.queue.writeIndex < F → c.slot (dev.view s.mem) s.peek.queue.writeIndex ≠ none :=
    fun hlt => h.present hs _ le_rfl hlt
  refine wp_enqueueInitialized h.ring (h.next_le hs) hpresent hlast' (enqueue_advances h.peek hw).1
    (fun _ mem heff hholds => ?_) (fun hlt => ⟨F, h.skipped hs hw hlt⟩) (fun e => ⟨F, h.refused hs⟩)
    (fun hfail e mem heff => ?_) False.elim
  · obtain ⟨F', hmoved⟩ := h.ring.effect heff (fun fr hfr => by rw [hfr.1]; exact fun hc => by cases hc)
      (h.next_le hs) hpresent hlast'
    exact ⟨F', h.written hs hspared hlast hmoved hholds⟩
  · obtain ⟨F', hmoved⟩ := h.ring.effect heff (fun fr hfr => by rw [hfr]; decide) (h.next_le hs) hpresent
      hlast'
    exact ⟨F', h.unfit hs ((hfail.resolve_left id).resolve_left id) hmoved⟩

end Enqueue

/-- What a peek deletes is below the lower bound afterwards. -/
lemma OverInv.wp_peekNext (h : OverInv c crc s F) (hs : s.initDone = true) (bufferLen : ℕ)
    {O : Mem → Prop} :
    Dev.wp (faults False False False) (peekInitialized dev c.toCircular crc s.store bufferLen)
      (fun r mem => ∃ F', OverInv c crc (s.peeked r.1 r.2 mem) F') (fun _ _ => True) O s.mem := by
  obtain ⟨hmono, hle⟩ := h.peek_range hs
  refine wp_peekInitialized h.ring hmono hle h.items (fun mem p hring hclean _ _ hend => ?_) False.elim
  have hstore := h.afterPeek hs hring hclean hend.keep
  have hpeek : (s.afterPeek p mem).peek = p.use.exec (s.peek.exec .peekNext) := afterPeek_peek hend.keep
  obtain ⟨hreaders, hwrite, -, -⟩ := use_exec p.use (s.peek.exec .peekNext)
  have hmin : (s.afterPeek p mem).peek.queue.existingRange.1 =
      s.store.queue.peekNext.2.existingRange.1 := by
    rw [hpeek]
    simp only [Peek.Queue.existingRange, hreaders, exec_peekNext_queue]
    rfl
  have hnext : (s.afterPeek p mem).peek.queue.writeIndex = s.peek.queue.writeIndex := by
    rw [hpeek, hwrite, exec_peekNext_queue]
    exact (Peek.peekNext_mono h.peek (by decide)).2
  refine ⟨F, hstore, fun n hn => ?_, h.fits, fun n hn => ?_, h.fresh, fun n item hn hacc hconf => ?_⟩
  · exact hclean.items h.items hn
  · exact (h.below n hn).trans_eq hnext.symm
  · have hn' := hmin.ge.trans hn
    obtain ⟨hslot, hfits⟩ := h.agrees n item (hmono.trans hn') hacc hconf
    exact ⟨(hclean.of_not_mem (Or.inr hn')).trans hslot, hfits⟩

lemma OverInv.settle (h : OverInv c crc s F) (k : ℕ) (success : Bool) {confirmed : List ℕ}
    (hconf : s.confirmed ⊆ confirmed) :
    OverInv c crc { s with peek := s.peek.settle k success, confirmed := confirmed } F := by
  have hq := settle_range s.peek k success
  refine ⟨h.toStoreInv.settle k success confirmed, h.items, h.fits, fun n hn => ?_, h.fresh,
    fun n item hn hacc hc => ?_⟩
  · exact (h.below n hn).trans_eq (congrArg Prod.snd hq).symm
  · exact h.agrees n item ((congrArg Prod.fst hq).ge.trans hn) hacc fun hmem => hc (hconf hmem)

lemma OverInv.waitConfirmation (h : OverInv c crc s F) :
    OverInv c crc { s with peek := s.peek.exec .waitConfirmation } F := by
  have hq := waitConfirmation_range s.peek
  refine ⟨h.toStoreInv.waitConfirmation, h.items, h.fits, fun n hn => ?_, h.fresh,
    fun n item hn => ?_⟩
  · exact (h.below n hn).trans_eq (congrArg Prod.snd hq).symm
  · exact h.agrees n item ((congrArg Prod.fst hq).ge.trans hn)

/-! ### Runs -/

lemma OverInv.exec (h : OverInv c crc s F) (call : StreamCall) (hcall : Sparing c s call) :
    ∃ F', OverInv c crc (s.exec c crc call) F' := by
  obtain ⟨F₁, hopen, heq⟩ := h.opened
  have hs : (s.opened c).initDone = true := by rw [heq]
  have hmem : (s.opened c).mem = s.mem := by rw [heq]
  cases call with
  | enqueue data plan =>
    obtain ⟨⟨hplan, hlast⟩, hspared⟩ := hcall
    have hlast' : (s.opened c).NoWrap c := by
      unfold StreamWorld.NoWrap
      rw [opened_of_initDone hs]
      exact hlast
    have hspared' : Spared c (s.opened c) data := by
      have := hspared data plan rfl
      unfold Spared at this ⊢
      rw [opened_of_initDone hs, show (s.opened c).accepted = s.accepted by rw [heq],
        show (s.opened c).confirmed = s.confirmed by rw [heq]]
      exact this
    exact h.exec_enqueue (P := fun s => ∃ F', OverInv c crc s F') (no_fates hplan)
      (hmem ▸ hopen.wp_enqueue hs hspared' hlast')
  | peekNext bufferLen plan =>
    exact h.exec_peekNext (P := fun s => ∃ F', OverInv c crc s F') (no_fates hcall.1)
      (hmem ▸ hopen.wp_peekNext hs bufferLen)
  | confirm k =>
    refine ⟨F, h.settle k true ?_⟩
    cases s.peek.handles[k]? with
    | none => exact List.Subset.refl _
    | some n => exact List.subset_cons_self n _
  | drop k => exact ⟨F, h.settle k false (List.Subset.refl _)⟩
  | waitConfirmation => exact ⟨F, h.waitConfirmation⟩
  | reboot => exact hcall.1.elim

lemma overInv_start {mem : Mem} (h : StreamFlash c crc mem) :
    ∃ F, OverInv c crc (StreamWorld.start c mem) F := by
  obtain ⟨⟨F, hring⟩, hitems⟩ := h
  have hstore : StoreInv c (StreamWorld.start c mem) F :=
    ⟨hring, fun _ => rfl, inv_new c, (new_capacity c).1, (new_capacity c).2, fun hc => (by cases hc),
      fun hc => (by cases hc)⟩
  exact ⟨F, hstore, hitems, fun n data hn => (by cases hn), fun n hn => absurd rfl hn, fun _ _ => rfl,
    fun n data _ hn => (by cases hn)⟩

/-- **Queue and flash agree** in every run in which no item of the queue is in the block of a round ago
when a block is started, other than in a queue that is full or where they are confirmed. -/
theorem queueAgrees_of_reach (c : RingBuffer dev) (crc : List UInt8 → UInt32) (mem : Mem)
    (hmem : StreamFlash c crc mem) (s : StreamWorld)
    (h : Reach (StreamWorld.exec c crc) (Sparing c) (.start c mem) s) : QueueAgrees c crc s := by
  obtain ⟨F, hinv⟩ : ∃ F, OverInv c crc s F :=
    h.invariant (P := fun s => ∃ F, OverInv c crc s F) (overInv_start hmem)
      fun s call hinv hcall => hinv.choose_spec.exec call hcall
  exact fun n data hn _ hacc hconf => (hinv.agrees n data hn hacc hconf).stored hinv.ring.own

lemma streamFlash_erased (c : RingBuffer dev) (crc : List UInt8 → UInt32) :
    StreamFlash c crc fun _ => erased := by
  have hring : RingInv c (dev.view fun _ => erased) 0 :=
    ringInv_zero fun q => congrFun (BlockDevice.view_erased _) _
  exact ⟨⟨0, hring⟩, fun n hn => absurd (hring.lt_of_valid hn (by decide)) (Nat.not_lt_zero n)⟩

/-- Five items, where the last one overwrites the first two. -/
def fullRun : List StreamCall := [0, 1, 2, 3, 4].map fun k => .enqueue [k] []

theorem queueAgrees_full :
    Reach (StreamWorld.exec (streamRing true) crc32Cksum) (Sparing (streamRing true))
      (.start (streamRing true) fun _ => erased) (streamRun true fullRun) ∧
    QueueAgrees (streamRing true) crc32Cksum (streamRun true fullRun) := by
  have hrun : Reach.Guarded (StreamWorld.exec (streamRing true) crc32Cksum) (Sparing (streamRing true))
      (.start (streamRing true) fun _ => erased) fullRun := by
    refine ⟨?_, ?_, ?_, ?_, ?_, trivial⟩
    all_goals
      refine ⟨⟨rfl, show _ < _ by decide +kernel⟩, fun data plan hcall => ?_⟩
      obtain ⟨rfl, rfl⟩ := StreamCall.enqueue.inj hcall
      intro _ _ _ hlt
      exact absurd hlt (by decide +kernel)
  have hreach := Reach.run fullRun Reach.start hrun
  exact ⟨hreach, queueAgrees_of_reach _ _ _ (streamFlash_erased _ _) _ hreach⟩

/-- One item is read and confirmed; then four more fill the circular and start over. -/
def unalignedRun : List StreamCall :=
  [.enqueue [0] [], .peekNext 2 [], .confirm 0, .peekNext 2 [], .enqueue [1] [], .enqueue [2] [],
    .enqueue [3] [], .enqueue [4] []]

/-- The fifth item goes to the block of the first two; the second one is gone, and the queue still
counts on it. -/
theorem queueAgrees_fails :
    Reach (StreamWorld.exec (streamRing true) crc32Cksum) (FaultFree (streamRing true))
      (.start (streamRing true) fun _ => erased) (streamRun true unalignedRun) ∧
    (streamRun true unalignedRun).accepted 4 = some [4] ∧
    ¬QueueAgrees (streamRing true) crc32Cksum (streamRun true unalignedRun) := by
  have hrun : Reach.Guarded (StreamWorld.exec (streamRing true) crc32Cksum) (FaultFree (streamRing true))
      (.start (streamRing true) fun _ => erased) unalignedRun :=
    ⟨⟨rfl, show _ < _ by decide +kernel⟩, rfl, trivial, rfl, ⟨rfl, show _ < _ by decide +kernel⟩,
      ⟨rfl, show _ < _ by decide +kernel⟩, ⟨rfl, show _ < _ by decide +kernel⟩,
      ⟨rfl, show _ < _ by decide +kernel⟩, trivial⟩
  refine ⟨Reach.run unalignedRun Reach.start hrun, by decide +kernel, fun h => ?_⟩
  have hrange : (streamRun true unalignedRun).peek.queue.existingRange = (1, 5) := by decide +kernel
  have hgone : ¬Stored (streamRing true) crc32Cksum (streamRun true unalignedRun).mem 1 [1] := by
    decide +kernel
  exact hgone (h 1 [1] (by rw [hrange]) (by rw [hrange]; decide) (by decide +kernel) (by decide +kernel))

end SensorLink.Stream
