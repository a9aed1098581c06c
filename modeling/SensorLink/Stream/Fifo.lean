import SensorLink.Stream.Steps

/-!
# A stream is a persistent queue

Without overwriting, an item that was accepted stays readable until one of its handles was confirmed,
and what `peek_next` delivers are the items, in order. Power may be lost anywhere and any write of the
flash may fail. Two things are weaker than for a queue in RAM: an item whose `enqueue` lost power may be
there all the same, and when a `peek_next` has failed to delete what was confirmed, the item it was
about to return comes after the next one.
-/

namespace SensorLink.Stream

open SensorLink.Lib SensorLink.Flash SensorLink.Db RingBuffer

variable {dev : BlockDevice} {c : RingBuffer dev} {crc : List UInt8 → UInt32} {s : StreamWorld} {F : ℕ}

/-- The item was accepted, and none of its handles was confirmed. -/
def Unconfirmed (s : StreamWorld) (n : ℕ) : Prop := s.accepted n ≠ none ∧ n ∉ s.confirmed

/-- What holds when `peek_next` returns item `n` and leaves the flash `mem`. With `cuts` it may also be
an item whose enqueue was cut, and with `fails` the order is only that of a run without failed peeks. -/
structure Delivery (c : RingBuffer dev) (crc : List UInt8 → UInt32) (cuts fails : Prop) (s : StreamWorld)
    (mem : Mem) (n : ℕ) (data : List UInt8) : Prop where
  item : s.accepted n = some data ∨ cuts ∧ data ∈ s.cut n
  first : (fails → s.failed = false) → n ∉ s.delivered → ∀ k ∈ s.delivered, k < n
  again : n ∈ s.delivered → Peek.lastEvent s.peek.trace n = some (.dropped n)
  stored : Stored c crc mem n data

/-- The stream is a persistent queue: what the next `peek_next` delivers, what is kept, and that the
sequence numbers are in the order of the calls of `enqueue`. -/
structure PersistentFifo (c : RingBuffer dev) (crc : List UInt8 → UInt32) (cuts fails : Prop)
    (s : StreamWorld) : Prop where
  delivers : ∀ bufferLen plan store use data n d,
    (peekNext dev c.toCircular crc s.store bufferLen).run ⟨s.mem, plan, []⟩ =
      .ok (store, ⟨.ok (some (data, n)), use⟩) d → Delivery c crc cuts fails s d.mem n data
  keeps : ∀ n data, s.accepted n = some data → n ∉ s.confirmed → Stored c crc s.mem n data
  order : s.NoWrap c → ∀ data plan store k d,
    (enqueue dev c.toCircular crc s.store data).run ⟨s.mem, plan, []⟩ = .ok (store, .ok k) d →
      ∀ n, Unconfirmed s n → n < k

/-- The sequence numbers do not wrap, and the buffer has room for every item that was accepted. -/
def Fitting (c : RingBuffer dev) (s : StreamWorld) : StreamCall → Prop
  | .enqueue _ _ => s.NoWrap c
  | .peekNext bufferLen _ => ∀ n data, s.accepted n = some data → data.length ≤ bufferLen
  | _ => True

/-! ### The flash -/

/-- The items on the flash are those that were accepted or cut, those that are not confirmed are there,
and behind everything that was deleted. -/
structure Kept (c : RingBuffer dev) (crc : List UInt8 → UInt32) (s : StreamWorld)
    (V : ℕ → Option Block) : Prop where
  items : ∀ n, status c V n = some .valid → ∃ data, Holds c crc V n data ∧
    (s.accepted n = some data ∨ data ∈ s.cut n)
  kept : ∀ n data, s.accepted n = some data → n ∉ s.confirmed → Holds c crc V n data
  order : ∀ e n, status c V e = some .obsolete → Unconfirmed s n → e < n

section Kept

variable {V V' : ℕ → Option Block} {P : Frag → Prop} {n F' : ℕ}

lemma Kept.valid (h : Kept c crc s V) (hn : Unconfirmed s n) : status c V n = some .valid := by
  obtain ⟨data, hdata⟩ := Option.ne_none_iff_exists'.mp hn.1
  exact (h.kept n data hdata hn.2).status

/-- A write erases only what is confirmed. -/
lemma Kept.slot_eq (h : Kept c crc s V) (hover : c.overwriteOnFull = false) (hring : RingInv c V F)
    {w : ℕ} (hmoved : Moved c V F w P V' F') (hn : Unconfirmed s n) : c.slot V' n = c.slot V n := by
  have hvalid := h.valid hn
  rcases hmoved.slots n (hring.lt_of_valid hvalid (by decide)) with heq | ⟨⟨-, hneeds⟩, hblock, -⟩
  · exact heq
  · exfalso
    obtain ⟨fr, hfr, hst⟩ := Option.map_eq_some_iff.mp hvalid
    rcases hneeds.erasable with hyes | hnone
    · rw [hover] at hyes
      cases hyes
    · exact hnone n fr hblock hfr hst

/-- Whatever a write leaves behind, with `cut` or `accepted` changed for its item. -/
lemma Kept.effect (h : Kept c crc s V) (hover : c.overwriteOnFull = false) (hring : RingInv c V F)
    {w : ℕ} (hmoved : Moved c V F w P V' F') (hP : ∀ fr, P fr → fr.status ≠ .obsolete)
    {cut : ℕ → List (List UInt8)} (hcut : ∀ n data, data ∈ s.cut n → data ∈ cut n)
    (hnew : w = F → ∀ fr, P fr → fr.status = .valid → c.slot V' w = some fr →
      ∃ data, Holds c crc V' w data ∧ data ∈ cut w) :
    Kept c crc { s with cut := cut } V' := by
  refine ⟨fun n hn => ?_, fun n data hacc hconf => ?_, fun e n he hn => ?_⟩
  · rcases hmoved.used hn (by decide) with ⟨-, heq⟩ | ⟨rfl, rfl, fr, hfr, hslot⟩
    · rw [status, heq] at hn
      obtain ⟨data, hdata, hitem⟩ := h.items n hn
      exact ⟨data, ⟨heq.trans hdata.1, hdata.2⟩, hitem.imp_right (hcut n data)⟩
    · rw [status, hslot] at hn
      obtain ⟨data, hdata, hitem⟩ := hnew rfl fr hfr (Option.some.inj hn) hslot
      exact ⟨data, hdata, Or.inr hitem⟩
  · have hun : Unconfirmed s n :=
      ⟨by rw [show s.accepted n = _ from hacc]; exact Option.some_ne_none _, hconf⟩
    obtain ⟨hslot, hfits⟩ := h.kept n data hacc hconf
    exact ⟨(h.slot_eq hover hring hmoved hun).trans hslot, hfits⟩
  · rcases hmoved.used he (by decide) with ⟨-, heq⟩ | ⟨rfl, -, fr, hfr, hslot⟩
    · rw [status, heq] at he
      exact h.order e n he hn
    · rw [status, hslot] at he
      exact absurd (Option.some.inj he) (hP fr hfr)

/-- The deletes of a peek. -/
lemma Kept.cleaned (h : Kept c crc s V) {lo hi : ℕ} (hclean : Cleaned c lo hi V V')
    (hhi : ∀ n, Unconfirmed s n → hi ≤ n) : Kept c crc s V' := by
  refine ⟨fun n hn => ?_, fun n data hacc hconf => ?_, fun e n he hn => ?_⟩
  · have heq := hclean.of_valid hn
    obtain ⟨data, hdata, hitem⟩ := h.items n (by rwa [status, ← heq])
    exact ⟨data, ⟨heq.trans hdata.1, hdata.2⟩, hitem⟩
  · have hun : Unconfirmed s n := ⟨by rw [hacc]; exact Option.some_ne_none _, hconf⟩
    obtain ⟨hslot, hfits⟩ := h.kept n data hacc hconf
    exact ⟨(hclean.of_not_mem (Or.inr (hhi n hun))).trans hslot, hfits⟩
  · rcases hclean e with heq | ⟨-, hlt, -⟩
    · rw [status, heq] at he
      exact h.order e n he hn
    · exact hlt.trans_le (hhi n hn)

end Kept

/-! ### The world -/

/-- How the handles of the queue and what was delivered fit together: `live` numbers have no confirmed
handle, what was delivered was issued, and without a failed peek only what was delivered is dropped. -/
structure History (live : ℕ → Prop) (trace : List Peek.Event) (handles delivered : List ℕ)
    (failed : Bool) : Prop where
  confirmed : ∀ n, .confirmed n ∈ trace → ¬live n
  issued : ∀ n ∈ delivered, .issued n ∈ trace
  handles : ∀ n ∈ handles, n ∈ delivered
  dropped : failed = false → ∀ n, .dropped n ∈ trace → n ∈ delivered

section History

variable {live : ℕ → Prop} {trace : List Peek.Event} {handles delivered : List ℕ} {failed : Bool}

lemma history_nil : History live [] [] [] failed :=
  ⟨fun _ hn => absurd hn List.not_mem_nil, fun _ hn => absurd hn List.not_mem_nil,
    fun _ hn => absurd hn List.not_mem_nil, fun _ _ hn => absurd hn List.not_mem_nil⟩

lemma History.mono (h : History live trace handles delivered failed) {live' : ℕ → Prop}
    (hsub : ∀ n, live' n → live n) : History live' trace handles delivered failed :=
  ⟨fun n hn hlive => h.confirmed n hn (hsub n hlive), h.issued, h.handles, h.dropped⟩

lemma History.mem_cons (h : History live trace handles delivered failed) (ev : Peek.Event) :
    ∀ n ∈ delivered, .issued n ∈ ev :: trace := fun n hn => List.mem_cons_of_mem _ (h.issued n hn)

/-- An item is delivered. -/
lemma History.deliver (h : History live trace handles delivered failed) (n : ℕ) :
    History live (.issued n :: trace) (handles ++ [n]) (n :: delivered) failed := by
  refine ⟨fun k hk => ?_, fun k hk => ?_, fun k hk => ?_, fun hf k hk => ?_⟩
  · exact h.confirmed k ((List.mem_cons.mp hk).resolve_left fun hc => by cases hc)
  · rcases List.mem_cons.mp hk with rfl | hk
    · exact List.mem_cons_self
    · exact h.mem_cons _ k hk
  · rcases List.mem_append.mp hk with hk | hk
    · exact List.mem_cons_of_mem _ (h.handles k hk)
    · rw [List.mem_singleton.mp hk]
      exact List.mem_cons_self
  · exact List.mem_cons_of_mem _ (h.dropped hf k ((List.mem_cons.mp hk).resolve_left fun hc => by cases hc))

/-- A number is issued and not delivered, because `peek_next` skips it or fails. -/
lemma History.issue (h : History live trace handles delivered failed) (n : ℕ) :
    History live (.issued n :: trace) handles delivered failed :=
  ⟨fun k hk => h.confirmed k ((List.mem_cons.mp hk).resolve_left fun hc => by cases hc), h.mem_cons _,
    h.handles, fun hf k hk => h.dropped hf k ((List.mem_cons.mp hk).resolve_left fun hc => by cases hc)⟩

lemma History.confirm (h : History live trace handles delivered failed) {n : ℕ} (hn : ¬live n)
    {handles' : List ℕ} (hsub : handles' ⊆ handles) :
    History live (.confirmed n :: trace) handles' delivered failed := by
  refine ⟨fun k hk => ?_, h.mem_cons _, fun k hk => h.handles k (hsub hk), fun hf k hk => ?_⟩
  · rcases List.mem_cons.mp hk with hk | hk
    · rw [Peek.Event.confirmed.inj hk]
      exact hn
    · exact h.confirmed k hk
  · exact h.dropped hf k ((List.mem_cons.mp hk).resolve_left fun hc => by cases hc)

lemma History.drop (h : History live trace handles delivered failed) {n : ℕ} {failed' : Bool}
    (hf : failed' = false → failed = false) (hn : failed' = false → n ∈ delivered) {handles' : List ℕ}
    (hsub : handles' ⊆ handles) : History live (.dropped n :: trace) handles' delivered failed' := by
  refine ⟨fun k hk => ?_, h.mem_cons _, fun k hk => h.handles k (hsub hk), fun hf' k hk => ?_⟩
  · exact h.confirmed k ((List.mem_cons.mp hk).resolve_left fun hc => by cases hc)
  · rcases List.mem_cons.mp hk with hk | hk
    · rw [Peek.Event.dropped.inj hk]
      exact hn hf'
    · exact h.dropped (hf hf') k hk

end History

structure FifoInv (c : RingBuffer dev) (crc : List UInt8 → UInt32) (s : StreamWorld) (F : ℕ) : Prop
    extends StoreInv c s F where
  flash : Kept c crc s (dev.view s.mem)
  passed : s.initDone = true → ∀ n, Unconfirmed s n →
    s.peek.queue.existingRange.1 ≤ n ∧ n < s.peek.queue.writeIndex
  history : History (Unconfirmed s) s.peek.trace s.peek.handles s.delivered s.failed

lemma FifoInv.rebooted {mem : Mem} (hring : RingInv c (dev.view mem) F)
    (hkept : Kept c crc s (dev.view mem)) : FifoInv c crc (s.rebooted c mem) F :=
  ⟨StoreInv.rebooted hring, ⟨hkept.items, hkept.kept, hkept.order⟩, fun hc => (by cases hc), history_nil⟩

/-- Nothing was delivered before the start. -/
lemma FifoInv.delivered_nil (h : FifoInv c crc s F) (hs : s.initDone = false) : s.delivered = [] := by
  refine List.eq_nil_iff_forall_not_mem.mpr fun n hn => ?_
  have htrace := h.history.issued n hn
  rw [h.closed hs] at htrace
  exact absurd htrace List.not_mem_nil

lemma FifoInv.opened (h : FifoInv c crc s F) : ∃ F', FifoInv c crc (s.opened c) F' ∧
    s.opened c = { s with peek := (s.opened c).peek, initDone := true } := by
  cases hs : s.initDone with
  | true =>
    rw [opened_of_initDone hs]
    exact ⟨F, h, by rw [← hs]⟩
  | false =>
    obtain ⟨F', hinv, -, -, -, -⟩ := h.toStoreInv.opened
    obtain ⟨r, F₁, heval, hring, hspec, -⟩ := h.exists_range hs
    have heq := opened_eq hs heval
    rw [heq] at hinv ⊢
    refine ⟨F', ⟨hinv, ⟨h.flash.items, h.flash.kept, h.flash.order⟩, fun _ n hn => ?_, ?_⟩, rfl⟩
    · have hun : Unconfirmed s n := hn
      rcases hspec.bounds n (h.flash.valid hun) with hbounds | ⟨e, hne, he⟩
      · exact hbounds
      · exact absurd (h.flash.order e n he hun) hne.asymm
    · show History _ [] [] s.delivered _
      rw [h.delivered_nil hs]
      exact history_nil

section Enqueue

variable {data : List UInt8} {e : Error} {mem : Mem} {F' : ℕ}

/-- The item was not accepted, and the queue stays. -/
lemma FifoInv.refused (h : FifoInv c crc s F)
    (hstore : StoreInv c (s.enqueued data s.store (.error e) mem) F')
    (hkept : Kept c crc s (dev.view mem)) : FifoInv c crc (s.enqueued data s.store (.error e) mem) F' := by
  have hpeek : (s.enqueued data s.store (.error e) mem).peek = s.peek := enqueued_peek_same
  refine ⟨hstore, ⟨hkept.items, hkept.kept, hkept.order⟩, ?_, ?_⟩
  · rw [hpeek]
    exact h.passed
  · rw [hpeek]
    exact h.history

/-- The number is in use already, and the queue skips it. -/
lemma FifoInv.skipped (h : FifoInv c crc s F) (hs : s.initDone = true) (hlast : s.NoWrap c)
    (hlt : s.peek.queue.writeIndex < F) :
    FifoInv c crc (s.enqueued data ⟨s.peek.queue.enqueue.2, s.initDone⟩ (.error e) s.mem) F := by
  have hw := (NoWrap.next_lt hlast hs).2
  have hstore := h.enqueued_next data (.error e) hs hw h.ring hlt (h.present hs)
  have hpeek := enqueued_peek_next data (.error e) s.mem h.peek hw
  have hnext : (s.peek.exec .enqueue).queue.writeIndex = s.peek.queue.writeIndex + 1 :=
    (enqueue_advances h.peek hw).2
  refine ⟨hstore, ⟨h.flash.items, h.flash.kept, h.flash.order⟩, fun _ n hn => ?_, ?_⟩
  · have hun : Unconfirmed s n := hn
    obtain ⟨hmin, hltw⟩ := h.passed hs n hun
    obtain ⟨fr, hfr, -⟩ := Option.map_eq_some_iff.mp (h.flash.valid hun)
    rw [hpeek, hnext]
    refine ⟨h.enqueue_passed hs hlast h.ring hmin ?_ (h.present hs _ le_rfl hlt),
      hltw.trans (Nat.lt_succ_self _)⟩
    rw [hfr]
    exact Option.some_ne_none fr
  · rw [hpeek]
    exact h.history

/-- The item was written and accepted. -/
lemma FifoInv.written (h : FifoInv c crc s F) (hover : c.overwriteOnFull = false)
    (hs : s.initDone = true) (hlast : s.NoWrap c) (hF : s.peek.queue.writeIndex = F)
    (hmoved : Moved c (dev.view s.mem) F s.peek.queue.writeIndex (Complete c (frame crc data))
      (dev.view mem) F') (hholds : Holds c crc (dev.view mem) s.peek.queue.writeIndex data) :
    FifoInv c crc
      (s.enqueued data ⟨s.peek.queue.enqueue.2, s.initDone⟩ (.ok s.peek.queue.writeIndex) mem) F' := by
  have hw := (NoWrap.next_lt hlast hs).2
  have hlt := hmoved.ring.lt_of_valid hholds.status (by decide)
  have hstore := h.enqueued_next data (.ok s.peek.queue.writeIndex) hs hw hmoved.ring hlt
    fun k hk hkF => hmoved.present (h.present hs) hk hkF
  have hpeek := enqueued_peek_next data (.ok s.peek.queue.writeIndex) mem h.peek hw
  have hnext : (s.peek.exec .enqueue).queue.writeIndex = s.peek.queue.writeIndex + 1 :=
    (enqueue_advances h.peek hw).2
  set s' := s.enqueued data ⟨s.peek.queue.enqueue.2, s.initDone⟩ (.ok s.peek.queue.writeIndex) mem with hs'
  have hself : s'.accepted s.peek.queue.writeIndex = some data := Function.update_self _ _ _
  have haccepted : ∀ n, n ≠ s.peek.queue.writeIndex → s'.accepted n = s.accepted n :=
    fun n hn => Function.update_of_ne hn _ _
  have hcut : ∀ n, n ≠ s.peek.queue.writeIndex → s'.cut n = s.cut n :=
    fun n hn => Function.update_of_ne hn _ _
  have hconfirmed : ∀ n, n ≠ s.peek.queue.writeIndex → n ∉ s'.confirmed → n ∉ s.confirmed :=
    fun n hn hc hmem => hc (List.mem_filter.mpr ⟨hmem, by simpa using hn⟩)
  have hunconfirmed : ∀ n, n ≠ s.peek.queue.writeIndex → Unconfirmed s' n → Unconfirmed s n :=
    fun n hn hun => ⟨haccepted n hn ▸ hun.1, hconfirmed n hn hun.2⟩
  have hslotW : c.slot (dev.view mem) s.peek.queue.writeIndex ≠ none := by
    rw [hholds.1]
    exact Option.some_ne_none _
  have hkept : Kept c crc s' (dev.view mem) := by
    refine ⟨fun n hn => ?_, fun n item hacc hconf => ?_, fun e n he hn => ?_⟩
    · rcases hmoved.used hn (by decide) with ⟨hnF, heq⟩ | ⟨rfl, hWF, -⟩
      · have hne : n ≠ s.peek.queue.writeIndex := by omega
        rw [status, heq] at hn
        obtain ⟨item, hitem, hold⟩ := h.flash.items n hn
        rw [haccepted n hne, hcut n hne]
        exact ⟨item, ⟨heq.trans hitem.1, hitem.2⟩, hold⟩
      · exact ⟨data, hWF ▸ hholds, Or.inl (hWF ▸ hself)⟩
    · by_cases hne : n = s.peek.queue.writeIndex
      · rw [hne, hself] at hacc
        obtain rfl := Option.some.inj hacc
        exact hne ▸ hholds
      · rw [haccepted n hne] at hacc
        have hun : Unconfirmed s n := ⟨by rw [hacc]; exact Option.some_ne_none _, hconfirmed n hne hconf⟩
        obtain ⟨hslot, hfits⟩ := h.flash.kept n item hacc hun.2
        exact ⟨(h.flash.slot_eq hover h.ring hmoved hun).trans hslot, hfits⟩
    · rcases hmoved.used he (by decide) with ⟨heF, heq⟩ | ⟨rfl, -, fr, hfr, hslot⟩
      · by_cases hne : n = s.peek.queue.writeIndex
        · omega
        · rw [status, heq] at he
          exact h.flash.order e n he (hunconfirmed n hne hn)
      · rw [status, hslot, hfr.1] at he
        cases he
  refine ⟨hstore, hkept, fun _ n hn => ?_, ?_⟩
  · rw [hpeek, hnext]
    by_cases hne : n = s.peek.queue.writeIndex
    · have h1 := h.peek.win.min_le.trans h.peek.win.next_le
      refine ⟨h.enqueue_passed hs hlast hmoved.ring ?_ (hne ▸ hslotW) hslotW, by omega⟩
      rw [hne]
      exact h1
    · have hun := hunconfirmed n hne hn
      obtain ⟨hmin, hltw⟩ := h.passed hs n hun
      refine ⟨h.enqueue_passed hs hlast hmoved.ring hmin ?_ hslotW, hltw.trans (Nat.lt_succ_self _)⟩
      rw [h.flash.slot_eq hover h.ring hmoved hun]
      obtain ⟨fr, hfr, -⟩ := Option.map_eq_some_iff.mp (h.flash.valid hun)
      rw [hfr]
      exact Option.some_ne_none fr
  · rw [hpeek]
    refine ⟨fun n hn hun => ?_, h.history.issued, h.history.handles, h.history.dropped⟩
    have htrace : Peek.Event.confirmed n ∈ s.peek.trace := hn
    by_cases hne : n = s.peek.queue.writeIndex
    · -- the number was never given out
      have hnone := h.peek.fresh n (by rw [hne]; exact h.peek.win.next_le)
      exact Peek.lastEvent_eq_none.mp hnone _ htrace rfl
    · exact h.history.confirmed n htrace (hunconfirmed n hne hun)

variable (data) in
lemma FifoInv.wp_enqueue (h : FifoInv c crc s F) (hover : c.overwriteOnFull = false)
    (hs : s.initDone = true) (hlast : s.NoWrap c) :
    Dev.wp (faults True True False) (enqueueInitialized dev c.toCircular crc s.store data)
      (fun r mem => (∃ F', FifoInv c crc (s.enqueued data r.1 r.2 mem) F') ∧
        ∀ k, r.2 = .ok k → ∀ n, Unconfirmed s n → n < k)
      (fun _ _ => True)
      (fun mem => ∃ F', FifoInv c crc ({ s with
        cut := Function.update s.cut s.peek.queue.writeIndex
          (data :: s.cut s.peek.queue.writeIndex) }.rebooted c mem) F') s.mem := by
  obtain ⟨hblock, hw⟩ := NoWrap.next_lt hlast hs
  have hpresent : s.peek.queue.writeIndex < F → c.slot (dev.view s.mem) s.peek.queue.writeIndex ≠ none :=
    fun hlt => h.present hs _ le_rfl hlt
  have hcutMem : ∀ n item, item ∈ s.cut n → item ∈ Function.update s.cut s.peek.queue.writeIndex
      (data :: s.cut s.peek.queue.writeIndex) n := by
    intro n item hitem
    by_cases hne : n = s.peek.queue.writeIndex
    · rw [hne, Function.update_self]
      exact List.mem_cons_of_mem _ (hne ▸ hitem)
    · rw [Function.update_of_ne hne]
      exact hitem
  refine wp_enqueueInitialized h.ring (h.next_le hs) hpresent hblock (enqueue_advances h.peek hw).1
    (fun hF mem heff hholds => ?_) (fun hlt => ⟨⟨F, h.skipped hs hlast hlt⟩, fun k hk => by cases hk⟩)
    (fun e => ?_) (fun _ e mem heff => ?_) fun _ mem heff => ?_
  · obtain ⟨F', hmoved⟩ := h.ring.effect heff (fun fr hfr => by rw [hfr.1]; exact fun hc => by cases hc)
      (h.next_le hs) hpresent hblock
    refine ⟨⟨F', h.written hover hs hlast hF hmoved hholds⟩, fun k hk n hn => ?_⟩
    obtain rfl := Except.ok.inj hk
    exact (h.passed hs n hn).2
  · have hstore := h.enqueued_same data (.error e) hs h.ring le_rfl (h.present hs)
    exact ⟨⟨F, h.refused hstore h.flash⟩, fun k hk => by cases hk⟩
  · obtain ⟨F', hmoved⟩ := h.ring.effect heff (fun fr hfr => by rw [hfr]; decide) (h.next_le hs) hpresent
      hblock
    have hstore := h.enqueued_same data (.error e) hs hmoved.ring hmoved.le
      fun k hk hkF => hmoved.present (h.present hs) hk hkF
    have hkept : Kept c crc { s with cut := s.cut } (dev.view mem) :=
      h.flash.effect hover h.ring hmoved (fun fr hfr => by rw [hfr]; decide) (fun _ _ hitem => hitem)
        fun _ fr hfr hst => by rw [hfr] at hst; cases hst
    exact ⟨⟨F', h.refused hstore hkept⟩, fun k hk => by cases hk⟩
  · have hstatus : ∀ fr, (Complete c (frame crc data) fr ∨ Torn fr) →
        fr.status ≠ .empty ∧ fr.status ≠ .obsolete := by
      rintro fr (⟨rfl, -⟩ | hfr)
      · exact ⟨fun hc => (by cases hc), fun hc => (by cases hc)⟩
      · rw [hfr]
        decide
    obtain ⟨F', hmoved⟩ := h.ring.effect heff (fun fr hfr => (hstatus fr hfr).1) (h.next_le hs) hpresent
      hblock
    refine ⟨F', FifoInv.rebooted hmoved.ring (h.flash.effect hover h.ring hmoved
      (fun fr hfr => (hstatus fr hfr).2) hcutMem fun _ fr hfr hst hslot => ⟨data, ?_, ?_⟩)⟩
    · rcases hfr with ⟨rfl, hlen⟩ | hfr
      · rw [length_frame] at hlen
        exact ⟨hslot, hlen⟩
      · rw [hfr] at hst
        cases hst
    · show data ∈ Function.update s.cut s.peek.queue.writeIndex _ s.peek.queue.writeIndex
      rw [Function.update_self]
      exact List.mem_cons_self

end Enqueue

/-! ### Peeking -/

/-- What is not confirmed is not passed by a peek. -/
lemma FifoInv.peek_passed (h : FifoInv c crc s F) (hs : s.initDone = true) {n : ℕ}
    (hn : Unconfirmed s n) : s.peek.queue.peekNext.2.existingRange.1 ≤ n := by
  by_contra hlt
  have hinv := Peek.inv_peekNext h.peek (by decide)
  have hlower : (s.peek.exec .peekNext).lower = s.peek.lower := by
    simp only [Peek.World.exec]
    split <;> rfl
  have htrace : Peek.Event.confirmed n ∈ (s.peek.exec .peekNext).trace := by
    refine hinv.win.past n ?_ ?_
    · rw [hlower]
      exact h.peek.win.lo_le.trans (h.passed hs n hn).1
    · rw [exec_peekNext_queue]
      exact Nat.not_le.mp hlt
  refine h.history.confirmed n ?_ hn
  cases hp : s.peek.queue.peekNext.1 with
  | error e =>
    rw [Peek.World.exec_peekNext_error hp] at htrace
    exact htrace
  | ok k =>
    rw [Peek.World.exec_peekNext_ok hp] at htrace
    rcases List.mem_cons.mp htrace with hc | htrace
    · cases hc
    · exact htrace

lemma FifoInv.afterPeek (h : FifoInv c crc s F) (hs : s.initDone = true) {mem : Mem} {bufferLen : ℕ}
    {p : Peeked} (hbuf : ∀ n data, s.accepted n = some data → data.length ≤ bufferLen)
    (hring : RingInv c (dev.view mem) F)
    (hclean : Cleaned c s.peek.queue.existingRange.1 s.peek.queue.peekNext.2.existingRange.1
      (dev.view s.mem) (dev.view mem))
    (hend : PeekEnd c crc (dev.view mem) bufferLen s.peek.queue.peekNext.1.toOption p) :
    FifoInv c crc (s.afterPeek p mem) F := by
  have hstore := h.toStoreInv.afterPeek hs hring hclean hend.keep
  have hpeek : (s.afterPeek p mem).peek = p.use.exec (s.peek.exec .peekNext) := afterPeek_peek hend.keep
  have hkept := h.flash.cleaned hclean fun n hn => h.peek_passed hs hn
  obtain ⟨hreaders, hwrite, -, -⟩ := use_exec p.use (s.peek.exec .peekNext)
  have hpassed : ∀ n, Unconfirmed s n → (s.afterPeek p mem).peek.queue.existingRange.1 ≤ n ∧
      n < (s.afterPeek p mem).peek.queue.writeIndex := by
    intro n hn
    rw [hpeek, hwrite, exec_peekNext_queue, (Peek.peekNext_mono h.peek (by decide)).2]
    refine ⟨?_, (h.passed hs n hn).2⟩
    simp only [Peek.Queue.existingRange, hreaders, exec_peekNext_queue]
    exact h.peek_passed hs hn
  -- the handle that was confirmed by the peek itself
  have hconfirmed : ∀ n, s.peek.queue.peekNext.1.toOption = some n → p.use = .confirm →
      ¬Unconfirmed s n := by
    intro n hn huse hun
    obtain ⟨data, hdata⟩ := Option.ne_none_iff_exists'.mp hun.1
    have hholds := hkept.kept n data hdata hun.2
    rw [hn] at hend
    cases hend with
    | long _ item hitem hlong =>
      rw [hitem.inj hholds] at hlong
      exact absurd (hbuf n data hdata) (Nat.not_le.mpr hlong)
    | bad _ e hst => exact hst hholds.status
    | failed => cases huse
    | item => cases huse
  refine ⟨hstore, ⟨hkept.items, hkept.kept, hkept.order⟩, fun _ => hpassed, ?_⟩
  rw [hpeek]
  cases hp : s.peek.queue.peekNext.1 with
  | error e =>
    rw [Peek.World.exec_peekNext_error hp]
    rw [hp] at hend
    cases hend with
    | failedNone => exact ⟨h.history.confirmed, h.history.issued, h.history.handles, fun hc => by cases hc⟩
    | nothing => exact h.history
  | ok n =>
    obtain ⟨hkeepT, hkeepH, hconfT, hconfH, hdropT, hdropH⟩ := use_exec_issued hp
    have hconf := hconfirmed n (by rw [hp]; rfl)
    rw [hp] at hend
    cases hend with
    | failed =>
      rw [hdropT, hdropH]
      exact (h.history.issue n).drop (fun hc => by cases hc) (fun hc => by cases hc) (List.Subset.refl _)
    | item =>
      rw [hkeepT, hkeepH]
      exact h.history.deliver n
    | long =>
      rw [hconfT, hconfH]
      exact (h.history.issue n).confirm (hconf rfl) (List.Subset.refl _)
    | bad _ e _ he =>
      rw [hconfT, hconfH]
      rcases he with rfl | rfl
      · exact (h.history.issue n).confirm (hconf rfl) (List.Subset.refl _)
      · exact (h.history.issue n).confirm (hconf rfl) (List.Subset.refl _)

/-- What a peek returns. -/
lemma FifoInv.delivery (h : FifoInv c crc s F) {mem : Mem} {bufferLen n : ℕ} {data : List UInt8}
    {use : HandleUse} (hring : RingInv c (dev.view mem) F) {lo hi : ℕ}
    (hclean : Cleaned c lo hi (dev.view s.mem) (dev.view mem))
    (hend : PeekEnd c crc (dev.view mem) bufferLen s.peek.queue.peekNext.1.toOption
      ⟨.ok (some (data, n)), use⟩) : Delivery c crc True True s mem n data := by
  have hok : s.peek.queue.peekNext.1 = .ok n ∧ Holds c crc (dev.view mem) n data := by
    cases hp : s.peek.queue.peekNext.1 with
    | error e =>
      rw [hp] at hend
      cases hend
    | ok k =>
      rw [hp] at hend
      cases hend with
      | item _ _ hitem => exact ⟨rfl, hitem⟩
  obtain ⟨hn, hholds⟩ := hok
  have hissues := Peek.peekNext_issues h.peek (by decide) hn
  refine ⟨?_, fun hfailed hnew k hk => ?_, fun hold => ?_, hholds.stored hring.own⟩
  · have heq := hclean.of_valid hholds.status
    obtain ⟨item, hitem, hsource⟩ := h.flash.items n (by rw [status, ← heq]; exact hholds.status)
    have hsame : item = data := hitem.inj ⟨heq ▸ hholds.1, hholds.2⟩
    rw [hsame] at hsource
    exact hsource.imp_right fun hcut => ⟨trivial, hcut⟩
  · rcases hissues with hlast | hdropped
    · exact hlast k (h.history.issued k hk)
    · exact absurd (h.history.dropped (hfailed trivial) n (Peek.lastEvent_mem hdropped).1) hnew
  · rcases hissues with hlast | hdropped
    · exact absurd (hlast n (h.history.issued n hold)) (lt_irrefl n)
    · exact hdropped

lemma FifoInv.wp_peekNext (h : FifoInv c crc s F) (hs : s.initDone = true) (bufferLen : ℕ) :
    Dev.wp (faults True True False) (peekInitialized dev c.toCircular crc s.store bufferLen)
      (fun r mem => ((∀ n data, s.accepted n = some data → data.length ≤ bufferLen) →
          FifoInv c crc (s.peeked r.1 r.2 mem) F) ∧
        ∀ data n, r.2.result = .ok (some (data, n)) → Delivery c crc True True s mem n data)
      (fun _ _ => True) (fun mem => FifoInv c crc (s.rebooted c mem) F) s.mem := by
  obtain ⟨hmono, hle⟩ := h.peek_range hs
  refine wp_peekInitialized h.ring hmono hle (fun n hn => ?_)
    (fun mem p hring hclean _ _ hend => ⟨fun hbuf => ?_, fun data n hresult => ?_⟩)
    fun _ mem hring hclean => ?_
  · obtain ⟨data, hdata, -⟩ := h.flash.items n hn
    exact ⟨data, hdata⟩
  · exact h.afterPeek hs hbuf hring hclean hend
  · obtain ⟨result, use⟩ := p
    obtain rfl : result = .ok (some (data, n)) := hresult
    exact h.delivery hring hclean hend
  · exact FifoInv.rebooted hring (h.flash.cleaned hclean fun n hn => h.peek_passed hs hn)

/-! ### Handles -/

lemma FifoInv.settle (h : FifoInv c crc s F) (k : ℕ) (success : Bool) {confirmed : List ℕ}
    (hconf : s.confirmed ⊆ confirmed)
    (hmem : success = true → ∀ n, s.peek.handles[k]? = some n → n ∈ confirmed) :
    FifoInv c crc { s with peek := s.peek.settle k success, confirmed := confirmed } F := by
  have hsub : ∀ n, Unconfirmed { s with peek := s.peek.settle k success, confirmed := confirmed } n →
      Unconfirmed s n := fun n hn => ⟨hn.1, fun hc => hn.2 (hconf hc)⟩
  have hrange := settle_range s.peek k success
  refine ⟨h.toStoreInv.settle k success confirmed,
    ⟨h.flash.items, fun n data hacc hc => ?_, fun e n he hn => ?_⟩,
    fun hs n hn => ?_, ?_⟩
  · exact h.flash.kept n data hacc fun hc' => hc (hconf hc')
  · exact h.flash.order e n he (hsub n hn)
  · obtain ⟨hmin, hlt⟩ := h.passed hs n (hsub n hn)
    exact ⟨(congrArg Prod.fst hrange).le.trans hmin, hlt.trans_eq (congrArg Prod.snd hrange).symm⟩
  · have hold := h.history.mono hsub
    cases hk : s.peek.handles[k]? with
    | none =>
      have hsame : s.peek.settle k success = s.peek := by
        unfold Peek.World.settle
        rw [hk]
      rw [hsame] at hold ⊢
      exact hold
    | some n =>
      have hset : s.peek.settle k success = { s.peek with
          queue := s.peek.queue.settle n success
          handles := s.peek.handles.eraseIdx k
          trace := (if success then .confirmed n else .dropped n) :: s.peek.trace } := by
        unfold Peek.World.settle
        rw [hk]
      have herase : s.peek.handles.eraseIdx k ⊆ s.peek.handles := List.eraseIdx_subset
      rw [hset] at hold ⊢
      cases success with
      | true => exact hold.confirm (fun hlive => hlive.2 (hmem rfl n hk)) herase
      | false => exact hold.drop id (fun _ => h.history.handles n (List.mem_of_getElem? hk)) herase

lemma FifoInv.waitConfirmation (h : FifoInv c crc s F) :
    FifoInv c crc { s with peek := s.peek.exec .waitConfirmation } F := by
  have hrange := waitConfirmation_range s.peek
  refine ⟨h.toStoreInv.waitConfirmation, ⟨h.flash.items, h.flash.kept, h.flash.order⟩,
    fun hs n hn => ?_, h.history⟩
  obtain ⟨hmin, hlt⟩ := h.passed hs n hn
  exact ⟨(congrArg Prod.fst hrange).le.trans hmin, hlt.trans_eq (congrArg Prod.snd hrange).symm⟩

/-! ### Runs -/

lemma FifoInv.exec (h : FifoInv c crc s F) (hover : c.overwriteOnFull = false) (call : StreamCall)
    (hcall : Fitting c s call) : ∃ F', FifoInv c crc (s.exec c crc call) F' := by
  obtain ⟨F₁, hopen, heq⟩ := h.opened
  have hs : (s.opened c).initDone = true := by rw [heq]
  have hmem : (s.opened c).mem = s.mem := by rw [heq]
  have hreboot : ∀ mem, (s.opened c).rebooted c mem = s.rebooted c mem := by
    intro mem
    rw [heq]
    rfl
  cases call with
  | enqueue data plan =>
    have hlast : (s.opened c).NoWrap c := by
      unfold StreamWorld.NoWrap
      rw [opened_of_initDone hs]
      exact hcall
    refine h.exec_enqueue (P := fun s => ∃ F', FifoInv c crc s F') (any_fates plan)
      (hmem ▸ Dev.wp_mono (hopen.wp_enqueue data hover hs hlast) (fun r mem hr => hr.1) (fun _ _ _ => trivial)
        fun mem ⟨F', hoff⟩ => ⟨F', ?_⟩)
    rw [heq] at hoff ⊢
    exact hoff
  | peekNext bufferLen plan =>
    have hbuf : ∀ n data, (s.opened c).accepted n = some data → data.length ≤ bufferLen := by
      rw [heq]
      exact hcall
    refine h.exec_peekNext (P := fun s => ∃ F', FifoInv c crc s F') (any_fates plan)
      (hmem ▸ Dev.wp_mono (hopen.wp_peekNext hs bufferLen) (fun r mem hr => ⟨F₁, hr.1 hbuf⟩)
        (fun _ _ _ => trivial) fun mem hoff => ⟨F₁, ?_⟩)
    rw [← hreboot mem]
    exact hoff
  | confirm k =>
    refine ⟨F, h.settle k true ?_ fun _ n hn => ?_⟩
    · cases s.peek.handles[k]? with
      | none => exact List.Subset.refl _
      | some n => exact List.subset_cons_self n _
    · rw [hn]
      exact List.mem_cons_self
  | drop k => exact ⟨F, h.settle k false (List.Subset.refl _) fun hc => by cases hc⟩
  | waitConfirmation => exact ⟨F, h.waitConfirmation⟩
  | reboot => exact ⟨F, FifoInv.rebooted h.ring h.flash⟩

lemma fifoInv_start {mem : Mem} (hv : ∀ q, dev.view mem (c.chunkBlock q) = none) :
    FifoInv c crc (.start c mem) 0 := by
  have hring := ringInv_zero hv
  have hnone : ∀ n st, status c (dev.view mem) n = some st → st = .empty := by
    intro n st hn
    by_contra hne
    exact Nat.not_lt_zero n (hring.lt_of_valid hn hne)
  refine FifoInv.rebooted (s := .start c mem) hring ⟨fun n hn => ?_, fun n data hn => ?_, fun e n he => ?_⟩
  · cases hnone n _ hn
  · cases hn
  · cases hnone e _ he

lemma FifoInv.persistentFifo (h : FifoInv c crc s F) (hover : c.overwriteOnFull = false) :
    PersistentFifo c crc True True s := by
  obtain ⟨F₁, hopen, heq⟩ := h.opened
  have hs : (s.opened c).initDone = true := by rw [heq]
  have hmem : (s.opened c).mem = s.mem := by rw [heq]
  refine ⟨fun bufferLen plan store use data n d hrun => ?_, fun n data hacc hconf => ?_,
    fun hlast data plan store k d hrun n hn => ?_⟩
  · have hwp := hopen.wp_peekNext hs bufferLen
    rw [hmem] at hwp
    have hpost := hwp ⟨s.mem, plan, []⟩ rfl ⟨any_fates plan, fun _ => rfl⟩
    rw [← h.run_peekNext, hrun] at hpost
    obtain ⟨hitem, hfirst, hagain, hstored⟩ := hpost.2.2 data n rfl
    rw [heq] at hitem hfirst hagain
    refine ⟨hitem, hfirst, fun hdel => ?_, hstored⟩
    cases hinit : s.initDone with
    | true =>
      have := hagain hdel
      rwa [opened_of_initDone hinit] at this
    | false =>
      rw [h.delivered_nil hinit] at hdel
      exact absurd hdel List.not_mem_nil
  · exact (h.flash.kept n data hacc hconf).stored h.ring.own
  · have hlast' : (s.opened c).NoWrap c := by
      unfold StreamWorld.NoWrap
      rw [opened_of_initDone hs]
      exact hlast
    have hwp := hopen.wp_enqueue data hover hs hlast'
    rw [hmem] at hwp
    have hpost := hwp ⟨s.mem, plan, []⟩ rfl ⟨any_fates plan, fun _ => rfl⟩
    rw [← h.run_enqueue, hrun] at hpost
    refine hpost.2.2 k rfl n ?_
    rw [heq]
    exact hn

/-- **A stream without overwriting is a persistent queue**, after any run: apart from the items whose
`enqueue` lost power, and from the order after a `peek_next` that failed. -/
theorem persistentFifo_of_reach (c : RingBuffer dev) (crc : List UInt8 → UInt32)
    (hover : c.overwriteOnFull = false) (mem : Mem) (hv : ∀ q, dev.view mem (c.chunkBlock q) = none)
    (s : StreamWorld) (h : Reach (StreamWorld.exec c crc) (Fitting c) (.start c mem) s) :
    PersistentFifo c crc True True s := by
  obtain ⟨F, hinv⟩ : ∃ F, FifoInv c crc s F :=
    h.invariant (P := fun s => ∃ F, FifoInv c crc s F) ⟨0, fifoInv_start hv⟩
      fun s call hinv hcall => hinv.choose_spec.exec hover call hcall
  exact hinv.persistentFifo hover

/-- What the next `peek_next` returns. -/
def nextItem (c : RingBuffer dev) (crc : List UInt8 → UInt32) (s : StreamWorld) (bufferLen : ℕ) :
    Option (List UInt8 × ℕ) :=
  match (peekNext dev c.toCircular crc s.store bufferLen).run ⟨s.mem, [], []⟩ with
  | .ok (_, ⟨.ok item, _⟩) _ => item
  | _ => none

lemma PersistentFifo.nextItem {cuts fails : Prop} (h : PersistentFifo c crc cuts fails s) {bufferLen n : ℕ}
    {data : List UInt8} (hn : nextItem c crc s bufferLen = some (data, n)) :
    ∃ mem, Delivery c crc cuts fails s mem n data := by
  unfold Stream.nextItem at hn
  split at hn
  next hrun =>
    subst hn
    exact ⟨_, h.delivers _ _ _ _ _ _ _ hrun⟩
  · cases hn

/-- The item of an `enqueue` has room in the buffer. -/
def StreamCall.roomIn (bufferLen : ℕ) : StreamCall → Bool
  | .enqueue data _ => data.length ≤ bufferLen
  | _ => true

lemma opened_accepted (s : StreamWorld) : (s.opened c).accepted = s.accepted := by
  unfold StreamWorld.opened
  split
  · rfl
  · split <;> rfl

/-- Only items of the calls are accepted. -/
lemma accepted_of_calls (bufferLen : ℕ) (calls : List StreamCall) : ∀ s : StreamWorld,
    (∀ n data, s.accepted n = some data → data.length ≤ bufferLen) →
    calls.all (·.roomIn bufferLen) = true →
    ∀ n data, (calls.foldl (StreamWorld.exec c crc) s).accepted n = some data →
      data.length ≤ bufferLen := by
  induction calls with
  | nil => exact fun s hs _ => hs
  | cons call calls ih =>
    intro s hs hcalls
    obtain ⟨hcall, hcalls⟩ := Bool.and_eq_true_iff.mp hcalls
    refine ih (s.exec c crc call) (fun n data hn => ?_) hcalls
    cases call with
    | enqueue item plan =>
      have hitem : item.length ≤ bufferLen := of_decide_eq_true hcall
      simp only [StreamWorld.exec] at hn
      split at hn
      next store result d _ =>
        cases result with
        | error e =>
          change (s.opened c).accepted n = some data at hn
          exact hs n data (opened_accepted s ▸ hn)
        | ok k =>
          change Function.update (s.opened c).accepted k (some item) n = some data at hn
          by_cases hnk : n = k
          · rw [hnk, Function.update_self] at hn
            exact Option.some.inj hn ▸ hitem
          · rw [Function.update_of_ne hnk, opened_accepted] at hn
            exact hs n data hn
      next e _ _ => exact e.elim
      · exact hs n data hn
    | peekNext len plan =>
      simp only [StreamWorld.exec] at hn
      split at hn
      · change (s.opened c).accepted n = some data at hn
        exact hs n data (opened_accepted s ▸ hn)
      next e _ _ => exact e.elim
      · exact hs n data hn
    | confirm k => exact hs n data hn
    | drop k => exact hs n data hn
    | waitConfirmation => exact hs n data hn
    | reboot => exact hs n data hn

lemma fitting_peek (calls : List StreamCall) (plan : List Fate)
    (hcalls : calls.all (·.roomIn 2) = true) :
    Fitting (streamRing false) (streamRun false calls) (.peekNext 2 plan) :=
  accepted_of_calls 2 calls _ (fun n data hn => by cases hn) hcalls

/-- An item is accepted, the second one loses power, and after the restart a third one is. -/
def restartRun : List StreamCall :=
  [.enqueue [1] [], .enqueue [2] [.ok, .offTorn], .enqueue [3] [], .enqueue [3] [], .peekNext 2 [],
    .confirm 0]

theorem persistentFifo_restart :
    Reach (StreamWorld.exec (streamRing false) crc32Cksum) (Fitting (streamRing false))
      (.start (streamRing false) fun _ => erased) (streamRun false restartRun) ∧
    PersistentFifo (streamRing false) crc32Cksum True True (streamRun false restartRun) := by
  have hrun : Reach.Guarded (StreamWorld.exec (streamRing false) crc32Cksum)
      (Fitting (streamRing false)) (.start (streamRing false) fun _ => erased) restartRun :=
    ⟨show _ < _ by decide +kernel, show _ < _ by decide +kernel, show _ < _ by decide +kernel,
      show _ < _ by decide +kernel, fitting_peek (restartRun.take 4) _ rfl, trivial, trivial⟩
  have hreach := Reach.run restartRun Reach.start hrun
  exact ⟨hreach, persistentFifo_of_reach _ _ rfl _ (fun q => congrFun (BlockDevice.view_erased _) _) _
    hreach⟩

/-- Power is lost at the end of an `enqueue`. -/
def cutRun : List StreamCall := [.enqueue [7] (List.replicate 6 .ok ++ [.offAfter])]

/-- A delete fails in the peek that would return item 1. -/
def failedRun : List StreamCall :=
  [.enqueue [0] [], .peekNext 2 [], .peekNext 2 [], .confirm 0, .enqueue [1] [], .enqueue [2] [],
    .peekNext 2 [.error], .peekNext 2 []]

/-- An item that was never accepted is delivered, and item 1 comes after item 2. -/
theorem persistentFifo_fails :
    (Reach (StreamWorld.exec (streamRing false) crc32Cksum) (Fitting (streamRing false))
        (.start (streamRing false) fun _ => erased) (streamRun false cutRun) ∧
      ¬PersistentFifo (streamRing false) crc32Cksum False True (streamRun false cutRun)) ∧
    Reach (StreamWorld.exec (streamRing false) crc32Cksum) (Fitting (streamRing false))
      (.start (streamRing false) fun _ => erased) (streamRun false failedRun) ∧
    ¬PersistentFifo (streamRing false) crc32Cksum True False (streamRun false failedRun) := by
  refine ⟨⟨?_, fun h => ?_⟩, ?_, fun h => ?_⟩
  · exact Reach.run cutRun Reach.start ⟨show _ < _ by decide +kernel, trivial⟩
  · have hnext : nextItem (streamRing false) crc32Cksum (streamRun false cutRun) 2 = some ([7], 0) := by
      decide +kernel
    obtain ⟨mem, hdel⟩ := h.nextItem hnext
    have hnone : (streamRun false cutRun).accepted 0 = none := by decide +kernel
    rcases hdel.item with hacc | ⟨hc, -⟩
    · rw [hnone] at hacc
      cases hacc
    · exact hc
  · exact Reach.run failedRun Reach.start
      ⟨show _ < _ by decide +kernel, fitting_peek (failedRun.take 1) _ rfl,
        fitting_peek (failedRun.take 2) _ rfl, trivial, show _ < _ by decide +kernel,
        show _ < _ by decide +kernel, fitting_peek (failedRun.take 6) _ rfl,
        fitting_peek (failedRun.take 7) _ rfl, trivial⟩
  · have hnext : nextItem (streamRing false) crc32Cksum (streamRun false failedRun) 2 = some ([1], 1) := by
      decide +kernel
    have hdelivered : (streamRun false failedRun).delivered = [2, 0] := by decide +kernel
    obtain ⟨mem, hdel⟩ := h.nextItem hnext
    have hlt := hdel.first False.elim (by rw [hdelivered]; decide) 2 (by rw [hdelivered]; decide)
    exact absurd hlt (by decide)

end SensorLink.Stream
