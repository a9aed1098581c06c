import Mathlib.Data.List.Basic
import SensorLink.Dispatch.Task
import SensorLink.Peek.Safety
import SensorLink.Stream.Steps

/-!
# The calls of a stream, whatever the flash does

The barrier has to hold with a flash that fails. What a call does to the queue and its handles is then
still known: an item is stored or not, the sequence number is counted or not, and a handle that `peek_next`
does not return is confirmed or dropped. `Step` says what the dispatch task needs of a call: the invariant
of the stream is kept, the handles are those before it and those it issued, and nothing that was stored is
forgotten.
-/

namespace SensorLink.Dispatch

open SensorLink.Lib SensorLink.Flash SensorLink.Db SensorLink.Stream

/-! ### The stream store -/

section Store

variable {dev : BlockDevice} {c : Circular} {crc : List UInt8 → UInt32} {s : StreamStore} {m : Mem}

/-- The ends of `peek_next` by the handle that the queue gave out: no handle, an item, or a handle that
was confirmed or dropped. -/
inductive PeekOut : Option ℕ → Peeked → Prop
  | nothing (result : Except Error (Option (List UInt8 × ℕ))) : (∀ item, result ≠ .ok (some item)) →
    PeekOut none ⟨result, .keep⟩
  | item (n : ℕ) (data : List UInt8) : PeekOut (some n) ⟨.ok (some (data, n)), .keep⟩
  | failed (n : ℕ) (e : Error) (use : HandleUse) : use ≠ .keep → PeekOut (some n) ⟨.error e, use⟩

lemma wp_readItem_any {seqNo bufferLen : ℕ} :
    Dev.wp (Dev.allFaults Fate) (readItem dev c crc seqNo bufferLen)
      (fun r _ => (∃ data, r = (.ok data, .keep)) ∨ ∃ e use, r = (.error e, use) ∧ use ≠ .keep)
      (fun _ _ => True) (fun _ => True) m := by
  unfold readItem
  refine Dev.wp_bind (Dev.wp_allFaults (fun header m => ?_) (fun _ _ => trivial) fun _ => trivial)
  cases header with
  | error e =>
    simp only
    split
    · exact Dev.wp_pure (.inr ⟨e, .drop, rfl, by decide⟩)
    · exact Dev.wp_pure (.inr ⟨e, .confirm, rfl, by decide⟩)
  | ok header =>
    simp only
    split
    · exact Dev.wp_pure (.inr ⟨_, .confirm, rfl, by decide⟩)
    · refine Dev.wp_bind (Dev.wp_allFaults (fun data m => ?_) (fun _ _ => trivial) fun _ => trivial)
      cases data with
      | error e => exact Dev.wp_pure (.inr ⟨e, .confirm, rfl, by decide⟩)
      | ok data =>
        simp only
        split
        · exact Dev.wp_pure (.inr ⟨_, .confirm, rfl, by decide⟩)
        · exact Dev.wp_pure (.inl ⟨data, rfl⟩)

lemma wp_peekInitialized_any {bufferLen : ℕ} :
    Dev.wp (Dev.allFaults Fate) (peekInitialized dev c crc s bufferLen)
      (fun r _ => r.1 = ⟨settled s.queue.peekNext.2 s.queue.peekNext.1.toOption r.2.use, s.initDone⟩ ∧
        PeekOut s.queue.peekNext.1.toOption r.2)
      (fun _ _ => True) (fun _ => True) m := by
  unfold peekInitialized
  rcases s.queue.peekNext with ⟨e | n, queue⟩
  · refine Dev.wp_bind (Dev.wp_allFaults (fun cleaned m => ?_) (fun _ _ => trivial) fun _ => trivial)
    cases cleaned with
    | error e' => exact Dev.wp_pure ⟨rfl, .nothing _ fun _ hc => by cases hc⟩
    | ok _ => exact Dev.wp_pure ⟨rfl, .nothing _ fun _ hc => by cases hc⟩
  · refine Dev.wp_bind (Dev.wp_allFaults (fun cleaned m => ?_) (fun _ _ => trivial) fun _ => trivial)
    cases cleaned with
    | error e => exact Dev.wp_pure ⟨rfl, .failed n e .drop (by decide)⟩
    | ok _ =>
      refine Dev.wp_bind (Dev.wp_mono wp_readItem_any (fun r m hr => ?_) (fun _ _ _ => trivial)
        fun _ _ => trivial)
      rcases hr with ⟨data, rfl⟩ | ⟨e, use, rfl, huse⟩
      · exact Dev.wp_pure ⟨rfl, .item n data⟩
      · exact Dev.wp_pure ⟨rfl, .failed n e use huse⟩

/-- What `enqueue` leaves: the number may be counted without an item being stored. -/
inductive EnqueueOut (s : StreamStore) : StreamStore × Except Error ℕ → Prop
  | same (e : Error) : EnqueueOut s (s, .error e)
  | skipped (e : Error) : EnqueueOut s (⟨s.queue.enqueue.2, s.initDone⟩, .error e)
  | stored : EnqueueOut s (⟨s.queue.enqueue.2, s.initDone⟩, .ok s.queue.writeIndex)

lemma wp_enqueueInitialized_any {data : List UInt8} :
    Dev.wp (Dev.allFaults Fate) (enqueueInitialized dev c crc s data) (fun r _ => EnqueueOut s r)
      (fun _ _ => True) (fun _ => True) m := by
  unfold enqueueInitialized
  simp only
  split
  · exact Dev.wp_pure (.same _)
  split
  · exact Dev.wp_pure (.same _)
  refine Dev.wp_bind (Dev.wp_allFaults (fun written m => ?_) (fun _ _ => trivial) fun _ => trivial)
  cases written with
  | error e =>
    simp only
    split
    · exact Dev.wp_pure (.skipped e)
    · exact Dev.wp_pure (.same e)
  | ok _ =>
    rcases he : s.queue.enqueue with ⟨e | i, queue⟩
    · obtain rfl : s.queue.enqueue.2 = queue := by rw [he]
      exact Dev.wp_pure (.skipped _)
    · obtain rfl : s.queue.enqueue.2 = queue := by rw [he]
      exact Dev.wp_pure .stored

end Store

/-! ### A stream with its handles -/

namespace StreamState

variable {cfg : Config} {src : Source} {st st' : StreamState} {d d' : Device Mem Fate}

/-- The invariant of a stream whose sequence numbers do not wrap -/
structure Inv (st : StreamState) : Prop where
  peek : Peek.Inv st.peek
  closed : st.initDone = false → st.peek.Quiet ∧ st.stored = []
  stored_lt : ∀ n ∈ st.stored, n < st.peek.queue.writeIndex

/-- A call that kept the invariant and issued some handles -/
structure Step (st st' : StreamState) (issued : List ℕ) : Prop where
  inv : st'.Inv
  handles : st'.peek.handles.Perm (issued ++ st.peek.handles)
  stored : st.stored ⊆ st'.stored

lemma Inv.start (cfg : Config) (src : Source) : (start cfg src).Inv :=
  ⟨inv_new (cfg.circular src), fun _ => ⟨⟨rfl, rfl⟩, rfl⟩, fun n hn => by cases hn⟩

lemma Inv.refl (h : st.Inv) : Step st st [] := ⟨h, .refl _, fun _ hn => hn⟩

/-- A step of the queue that neither counts nor skips a number. -/
lemma Inv.of_peek (h : st.Inv) (hs : st.initDone = true) {w : Peek.World maxPeeks} (hw : Peek.Inv w)
    (hwrite : w.queue.writeIndex = st.peek.queue.writeIndex) : Inv { st with peek := w } :=
  ⟨hw, fun hc => absurd (hs.symm.trans hc) (by decide), fun n hn => hwrite ▸ h.stored_lt n hn⟩

/-! ### Handles -/

lemma settle_peek (st : StreamState) (n : ℕ) (success : Bool) :
    st.settle n success = { st with peek := st.peek.settle (st.peek.handles.idxOf n) success } := by
  cases success <;> rfl

/-- There is nothing to confirm or to drop. -/
lemma settle_of_handles_eq_nil (h : st.peek.handles = []) (n : ℕ) (success : Bool) :
    st.settle n success = st := by
  rw [settle_peek, Peek.World.settle, h]
  rfl

lemma Inv.initDone_of_mem (h : st.Inv) {n : ℕ} (hn : n ∈ st.peek.handles) : st.initDone = true := by
  cases hs : st.initDone with
  | true => rfl
  | false =>
    rw [(h.closed hs).1.1] at hn
    cases hn

/-- A handle is confirmed or dropped: the others stay. -/
lemma Inv.settle (h : st.Inv) {n : ℕ} (hn : n ∈ st.peek.handles) (success : Bool) :
    (st.settle n success).Inv ∧ st.peek.handles.Perm (n :: (st.settle n success).peek.handles) := by
  have hrange := settle_range st.peek (st.peek.handles.idxOf n) success
  rw [settle_peek]
  refine ⟨h.of_peek (h.initDone_of_mem hn) (Peek.inv_settle h.peek _ success)
    (congrArg Prod.snd hrange), ?_⟩
  simp only [Peek.World.settle, List.getElem?_idxOf hn, List.eraseIdx_idxOf_eq_erase]
  exact List.perm_cons_erase hn

/-! ### Calls -/

lemma opened_cases {result : Except Error Unit} (hs : st.initDone = false)
    (hrun : (opened cfg src st).run d = .ok (st', result) d') :
    (∃ e, result = .error e ∧ st' = st) ∨
    ∃ range, (findCircularRange cfg.dev (cfg.circular src).toCircular).run d = .ok range d' ∧
      result = .ok () ∧ st' = { st with
        peek := st.peek.exec (.reinit (range.start, range.stop))
        initDone := true } := by
  have hclosed : ¬ st.store.initDone = true := by simp [store, hs]
  unfold opened initializeStore at hrun
  rw [if_neg hclosed] at hrun
  simp only [Bind.bind, Dev.attempt] at hrun
  cases hfind : (findCircularRange cfg.dev (cfg.circular src).toCircular).run d with
  | ok range d₁ =>
    rw [hfind] at hrun
    cases hrun
    exact Or.inr ⟨range, rfl, rfl, rfl⟩
  | err e d₁ =>
    rw [hfind] at hrun
    cases hrun
    refine Or.inl ⟨e, rfl, ?_⟩
    simp only [if_neg hclosed]
    rfl
  | off d₁ =>
    rw [hfind] at hrun
    cases hrun

/-- The first call opens the stream, if its range is in order. -/
lemma Inv.opened (h : st.Inv) (hs : st.initDone = false) {range : ℕ × ℕ} (hle : range.1 ≤ range.2)
    (hlt : range.2 < 2 ^ 32) :
    Step st { st with peek := st.peek.exec (.reinit range), initDone := true } [] := by
  obtain ⟨hquiet, hstored⟩ := h.closed hs
  refine ⟨⟨Peek.inv_reinit h.peek hquiet hle hlt, fun hc => (by cases hc), fun n hn => ?_⟩, .refl _,
    fun _ hn => hn⟩
  rw [show st.stored = [] from hstored] at hn
  cases hn

/-- The number of an item was counted, and the item may have been stored. -/
lemma Inv.counted (h : st.Inv) (hs : st.initDone = true)
    (hw : st.peek.queue.writeIndex + 1 < 2 ^ 32) (stored : List ℕ) (hstored : st.stored ⊆ stored)
    (hnew : ∀ n ∈ stored, n = st.peek.queue.writeIndex ∨ n ∈ st.stored) :
    Step st { st with peek := st.peek.exec .enqueue, stored := stored } [] := by
  have hwrite : (st.peek.exec .enqueue).queue.writeIndex = st.peek.queue.writeIndex + 1 :=
    (enqueue_advances h.peek hw).2
  refine ⟨⟨Peek.inv_enqueue h.peek hw, fun hc => absurd (hs.symm.trans hc) (by decide), fun n hn => ?_⟩,
    .refl _, hstored⟩
  simp only [hwrite]
  rcases hnew n hn with rfl | hn
  · omega
  · exact Nat.lt_succ_of_lt (h.stored_lt n hn)

lemma Inv.enqueue (h : st.Inv) (hs : st.initDone = true) (hw : st.peek.queue.writeIndex + 1 < 2 ^ 32)
    {data : List UInt8} {result : Except Error ℕ}
    (hrun : (enqueue cfg src st data).run d = .ok (st', result) d') :
    Step st st' [] ∧ ∀ n, result = .ok n → n ∈ st'.stored := by
  have hwrite := (enqueue_advances h.peek hw).2
  have hne : ¬ st.peek.queue.enqueue.2.writeIndex = st.peek.queue.writeIndex := by omega
  have hwp : Dev.wp (Dev.allFaults Fate) (StreamState.enqueue cfg src st data)
      (fun r _ => Step st r.1 [] ∧ ∀ n, r.2 = .ok n → n ∈ r.1.stored) (fun _ _ => True)
      (fun _ => True) d.mem := by
    unfold StreamState.enqueue
    refine Dev.wp_bind (Dev.wp_mono wp_enqueueInitialized_any (fun r m hr => ?_) (fun _ _ _ => trivial)
      fun _ _ => trivial)
    cases hr with
    | same e =>
      refine Dev.wp_pure ⟨?_, fun n hn => by cases hn⟩
      simp only [store, if_true]
      exact h.refl
    | skipped e =>
      refine Dev.wp_pure ⟨?_, fun n hn => by cases hn⟩
      simp only [store, hne, if_false]
      exact h.counted hs hw st.stored (fun _ hn => hn) fun n hn => Or.inr hn
    | stored =>
      refine Dev.wp_pure ⟨?_, fun n hn => ?_⟩
      · simp only [store, hne, if_false]
        exact h.counted hs hw (st.peek.queue.writeIndex :: st.stored)
          (fun n hn => List.mem_cons_of_mem _ hn) fun n hn => List.mem_cons.mp hn
      · cases hn
        exact List.mem_cons_self
  exact Dev.wp_run hwp hrun

/-- A handle that `peek_next` has used is gone. -/
lemma use_handles {w : Peek.World maxPeeks} {n : ℕ} {use : HandleUse} (hn : w.queue.peekNext.1 = .ok n)
    (huse : use ≠ .keep) : (use.exec (w.exec .peekNext)).handles = w.handles := by
  have hlast : ∀ success, ((w.exec .peekNext).settle ((w.exec .peekNext).handles.length - 1)
      success).handles = w.handles := by
    intro success
    rw [Peek.World.exec_peekNext_ok hn]
    simp [Peek.World.settle, List.eraseIdx_append_of_length_le]
  cases use with
  | keep => exact absurd rfl huse
  | confirm => exact hlast true
  | drop => exact hlast false

lemma Inv.exec_peekNext (h : st.Inv) (hs : st.initDone = true) (use : HandleUse) :
    Inv { st with peek := use.exec (st.peek.exec .peekNext) } := by
  refine h.of_peek hs (inv_use (Peek.inv_peekNext h.peek (by decide)) use) ?_
  rw [(use_exec use _).2.1, exec_peekNext_queue]
  exact (Peek.peekNext_mono h.peek (by decide)).2

/-- The handles after `peek_next`: there is one more if it ends with an item. -/
lemma Inv.peeked (h : st.Inv) (hs : st.initDone = true) {p : Peeked}
    (hout : PeekOut st.peek.queue.peekNext.1.toOption p) :
    (∃ data n, p.result = .ok (some (data, n)) ∧
      Step st { st with peek := p.use.exec (st.peek.exec .peekNext) } [n]) ∨
    (∀ item, p.result ≠ .ok (some item)) ∧
      Step st { st with peek := p.use.exec (st.peek.exec .peekNext) } [] := by
  have hinv := h.exec_peekNext hs p.use
  cases hp : st.peek.queue.peekNext.1 with
  | error e =>
    rw [hp] at hout
    cases hout with
    | nothing result hnone =>
      refine Or.inr ⟨hnone, hinv, ?_, fun _ hn => hn⟩
      rw [Peek.World.exec_peekNext_error hp]
      exact .refl _
  | ok n =>
    rw [hp] at hout
    cases hout with
    | item _ data =>
      refine Or.inl ⟨data, n, rfl, hinv, ?_, fun _ hn => hn⟩
      rw [Peek.World.exec_peekNext_ok hp]
      exact List.perm_append_comm
    | failed _ e use huse =>
      refine Or.inr ⟨fun _ hc => (by cases hc), hinv, ?_, fun _ hn => hn⟩
      simp only [use_handles hp huse]
      exact .refl _

/-- A `peek_next` issues a handle with an item, or none. -/
lemma Inv.peekNext (h : st.Inv) (hs : st.initDone = true)
    {result : Except Error (Option (List UInt8 × ℕ))}
    (hrun : (peekNext cfg src st).run d = .ok (st', result) d') :
    (∃ data n, result = .ok (some (data, n)) ∧ Step st st' [n]) ∨
      (∀ item, result ≠ .ok (some item)) ∧ Step st st' [] := by
  have hwp : Dev.wp (Dev.allFaults Fate) (StreamState.peekNext cfg src st)
      (fun r _ => (∃ data n, r.2 = .ok (some (data, n)) ∧ Step st r.1 [n]) ∨
        (∀ item, r.2 ≠ .ok (some item)) ∧ Step st r.1 []) (fun _ _ => True)
      (fun _ => True) d.mem := by
    unfold StreamState.peekNext
    refine Dev.wp_bind (Dev.wp_mono wp_peekInitialized_any (fun r m hr => ?_) (fun _ _ _ => trivial)
      fun _ _ => trivial)
    obtain ⟨store, p⟩ := r
    obtain ⟨hstore, hout⟩ := hr
    simp only at hstore hout
    subst hstore
    have hqueue : settled st.store.queue.peekNext.2 st.store.queue.peekNext.1.toOption p.use =
        (p.use.exec (st.peek.exec .peekNext)).queue := by
      refine settled_queue fun hnone => ?_
      rw [show st.store.queue = st.peek.queue from rfl, hnone] at hout
      cases hout
      rfl
    simp only [hqueue]
    rcases h.peeked hs hout with ⟨data, n, hitem, hstep⟩ | ⟨hnone, hstep⟩
    · rw [hitem]
      simp only
      split
      · -- too short for a topic header: the handle is confirmed
        refine Dev.wp_pure (Or.inr ⟨fun _ hc => (by cases hc), ?_⟩)
        have hmem : n ∈ (p.use.exec (st.peek.exec .peekNext)).handles :=
          hstep.handles.mem_iff.mpr List.mem_cons_self
        obtain ⟨hinv, hhandles⟩ := hstep.inv.settle hmem true
        exact ⟨hinv, (hhandles.symm.trans hstep.handles).cons_inv, hstep.stored⟩
      · exact Dev.wp_pure (Or.inl ⟨data, n, rfl, hstep⟩)
    · rcases hresult : p.result with e | _ | item
      · exact Dev.wp_pure (Or.inr ⟨fun _ hc => (by cases hc), hstep⟩)
      · exact Dev.wp_pure (Or.inr ⟨fun _ hc => (by cases hc), hstep⟩)
      · exact absurd hresult (hnone item)
  exact Dev.wp_run hwp hrun

/-- No handle is alive, and everything that was not overwritten is confirmed. -/
def Drained (st : StreamState) : Prop :=
  st.peek.handles = [] ∧
    ∀ n, st.peek.lower ≤ n → n < st.peek.queue.writeIndex → st.peek.Confirmed n

lemma Inv.isDrained (h : st.Inv) (hs : st.initDone = true) {result : Except Error Bool}
    (hrun : (isDrained st).run d = .ok (st', result) d') :
    Step st st' [] ∧ (result = .ok true → st'.Drained) := by
  cases hrun
  refine ⟨⟨h.of_peek hs (Peek.inv_drained h.peek) rfl, .refl _, fun _ hn => hn⟩, fun hresult => ?_⟩
  exact (Peek.isDrained_iff_of_inv (by decide) h.peek).mp (Except.ok.inj hresult)

lemma Inv.waitConfirmation (h : st.Inv) (hc : st.peek.queue.confirmChannel ≠ []) :
    Step st st.waitConfirmation [] := by
  have hs : st.initDone = true := by
    cases hs : st.initDone with
    | true => rfl
    | false => exact absurd (h.closed hs).1.2 hc
  refine ⟨h.of_peek hs (Peek.inv_waitConfirmation h.peek) ?_, .refl _, fun _ hn => hn⟩
  exact congrArg Prod.snd (waitConfirmation_range st.peek)

end StreamState

end SensorLink.Dispatch
