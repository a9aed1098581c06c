import Mathlib.Data.List.Count
import Mathlib.Data.Fintype.Card
import SensorLink.Peek.World

/-!
# Confirmations are accounted for

Every sequence number that waits for an answer occupies exactly one `Busy` slot, and every `Busy` slot
waits for exactly one answer. The invariant `Acc` says so for the slots and the list of waiting
sequence numbers; it needs nothing about the indices, so it survives overwrites and the wrap of the
sequence numbers.
-/

set_option linter.unusedSectionVars false

namespace SensorLink.Peek

open SensorLink.Lib PeekQueue

variable {M : ℕ} [NeZero M]

lemma slotOf_eq_iff {a b : ℕ} : slotOf M a = slotOf M b ↔ a % M = b % M := by
  simp [slotOf, Fin.ext_iff]

/-- The sequence number a slot holds, if any. -/
def ReadState.seqNo? : ReadState → Option ℕ
  | .none => Option.none
  | .busy n => some n
  | .abort n => some n

/-- The slots `q` account for the sequence numbers `l` that wait for an answer. -/
structure Acc (q : PeekQueue M) (l : List ℕ) : Prop where
  own : ∀ i n, (q.readerSlots i).seqNo? = some n → i = slotOf M n
  count : ∀ n, l.count n = if q.readerSlots (slotOf M n) = .busy n then 1 else 0
  noBug : q.bugs = 0

namespace Acc

variable {q : PeekQueue M} {l l' : List ℕ}

lemma perm (h : Acc q l) (hl : l.Perm l') : Acc q l' :=
  ⟨h.own, fun n => by rw [← hl.count_eq, h.count], h.noBug⟩

lemma count_le_one (h : Acc q l) (n : ℕ) : l.count n ≤ 1 := by
  rw [h.count]
  split <;> omega

lemma nodup (h : Acc q l) : l.Nodup := List.nodup_iff_count_le_one.mpr h.count_le_one

lemma mem_iff (h : Acc q l) {n : ℕ} : n ∈ l ↔ q.readerSlots (slotOf M n) = .busy n := by
  rw [← List.count_pos_iff, h.count]
  split <;> simp_all

/-- There are at most as many answers to wait for as there are slots. -/
lemma length_le (h : Acc q l) : l.length ≤ M := by
  have hinj : (l.map (slotOf M)).Nodup := by
    refine List.Nodup.map_on (fun a ha b hb hab => ?_) h.nodup
    have ha' := h.mem_iff.mp ha
    rw [hab, h.mem_iff.mp hb] at ha'
    cases ha'
    rfl
  simpa using hinj.length_le_card

lemma slot_eq_of_busy (h : Acc q l) {i : Fin M} {n : ℕ} (hi : q.readerSlots i = .busy n) :
    i = slotOf M n := h.own i n (by rw [hi]; rfl)

/-- As a count over all slots. -/
lemma count_eq_card (h : Acc q l) (n : ℕ) :
    l.count n = (Finset.univ.filter fun i => q.readerSlots i = .busy n).card := by
  rw [h.count]
  split
  next hb =>
    have : (Finset.univ.filter fun i => q.readerSlots i = .busy n) = {slotOf M n} := by
      ext i
      simp only [Finset.mem_filter, Finset.mem_univ, true_and, Finset.mem_singleton]
      exact ⟨h.slot_eq_of_busy, fun hi => hi ▸ hb⟩
    rw [this, Finset.card_singleton]
  next hb =>
    symm
    rw [Finset.card_eq_zero, Finset.filter_eq_empty_iff]
    intro i _ hi
    exact hb (h.slot_eq_of_busy hi ▸ hi)

/-! ### One slot changes -/

/-- A slot that is not busy takes a new sequence number of its own. -/
lemma setBusy (h : Acc q l) {i : Fin M} {n : ℕ} (hi : i = slotOf M n)
    (hfree : ∀ m, q.readerSlots i ≠ .busy m) : Acc (q.setSlot i (.busy n)) (n :: l) := by
  subst hi
  refine ⟨fun j m hj => ?_, fun m => ?_, h.noBug⟩
  · by_cases hji : j = slotOf M n
    · subst hji
      simp only [setSlot, Function.update_self, ReadState.seqNo?, Option.some.injEq] at hj
      rw [hj]
    · simp only [setSlot, Function.update_of_ne hji] at hj
      exact h.own j m hj
  · have hm := h.count m
    by_cases hmn : m = n
    · subst hmn
      rw [if_neg (hfree m)] at hm
      simp [setSlot, hm]
    · rw [List.count_cons_of_ne (fun e => hmn e.symm), hm]
      by_cases hs : slotOf M m = slotOf M n
      · simp only [setSlot, hs, Function.update_self, hfree m, if_false, ReadState.busy.injEq]
        rw [if_neg (fun e => hmn e.symm)]
      · simp only [setSlot, Function.update_of_ne hs]

/-- A busy slot is released, to `None` or to `Abort`. -/
lemma release {n : ℕ} (h : Acc q (n :: l)) {s : ReadState} (hs : ∀ m, s ≠ .busy m)
    (hown : ∀ m, s.seqNo? = some m → m = n) : Acc (q.setSlot (slotOf M n) s) l := by
  have hbusy : q.readerSlots (slotOf M n) = .busy n := h.mem_iff.mp (List.mem_cons_self ..)
  refine ⟨fun j m hj => ?_, fun m => ?_, h.noBug⟩
  · by_cases hji : j = slotOf M n
    · subst hji
      simp only [setSlot, Function.update_self] at hj
      rw [hown m hj]
    · simp only [setSlot, Function.update_of_ne hji] at hj
      exact h.own j m hj
  · have hm := h.count m
    by_cases hmn : m = n
    · subst hmn
      rw [if_pos hbusy, List.count_cons_self] at hm
      simp only [setSlot, Function.update_self, hs m, if_false]
      omega
    · rw [List.count_cons_of_ne (fun e => hmn e.symm)] at hm
      rw [hm]
      by_cases hsl : slotOf M m = slotOf M n
      · simp only [setSlot, hsl, Function.update_self, hs m, hbusy, if_false, ReadState.busy.injEq]
        rw [if_neg (fun e => hmn e.symm)]
      · simp only [setSlot, Function.update_of_ne hsl]

/-- A slot that is not busy is emptied. -/
lemma clear (h : Acc q l) {i : Fin M} (hfree : ∀ m, q.readerSlots i ≠ .busy m) :
    Acc (q.setSlot i .none) l := by
  refine ⟨fun j m hj => ?_, fun m => ?_, h.noBug⟩
  · by_cases hji : j = i
    · subst hji
      simp [setSlot, ReadState.seqNo?] at hj
    · simp only [setSlot, Function.update_of_ne hji] at hj
      exact h.own j m hj
  · rw [h.count]
    by_cases hji : slotOf M m = i
    · subst hji
      simp [setSlot, hfree m]
    · simp only [setSlot, Function.update_of_ne hji]

/-- The indices do not matter. -/
lemma of_slots {q' : PeekQueue M} (h : Acc q l) (hs : q'.readerSlots = q.readerSlots)
    (hb : q'.bugs = q.bugs) : Acc q' l :=
  ⟨by rw [hs]; exact h.own, by rw [hs]; exact h.count, by rw [hb]; exact h.noBug⟩

end Acc

/-! ### The operations of the reader side -/

section Ops

variable {q : PeekQueue M} {l : List ℕ}

@[simp] lemma passEmptySlot_readerSlots (q : PeekQueue M) :
    q.passEmptySlot.readerSlots = q.readerSlots := by
  unfold passEmptySlot
  dsimp only
  split <;> rfl

@[simp] lemma passEmptySlot_bugs (q : PeekQueue M) : q.passEmptySlot.bugs = q.bugs := by
  unfold passEmptySlot
  dsimp only
  split <;> rfl

@[simp] lemma bumpMinIndex_readerSlots (q : PeekQueue M) (min : ℕ) :
    (q.bumpMinIndex min).readerSlots = q.readerSlots := by
  unfold bumpMinIndex
  dsimp only
  split <;> rfl

@[simp] lemma bumpMinIndex_bugs (q : PeekQueue M) (min : ℕ) :
    (q.bumpMinIndex min).bugs = q.bugs := by
  unfold bumpMinIndex
  dsimp only
  split <;> rfl

/-- A message that is accounted for never takes the `BUG` arm. -/
theorem acc_update {c : Confirm} (h : Acc q (c.id :: l)) : Acc (q.update c) l := by
  have hbusy : q.readerSlots (slotOf M c.id) = .busy c.id := h.mem_iff.mp (List.mem_cons_self ..)
  unfold update
  simp only [hbusy, if_true]
  refine h.release (fun m => ?_) (fun m hm => ?_)
  · split <;> simp
  · split at hm
    · cases hm
    · simpa [ReadState.seqNo?] using hm.symm

theorem acc_foldl_update (cs : List Confirm) :
    ∀ {q : PeekQueue M}, Acc q (cs.map Confirm.id ++ l) → Acc (cs.foldl PeekQueue.update q) l := by
  induction cs with
  | nil => intro q h; exact h
  | cons c cs ih => intro q h; exact ih (acc_update h)

/-- One iteration of the search: what it issues, it accounts for. -/
theorem acc_findStep (h : Acc q l) (w : ℕ) :
    (∀ n q', q.findStep w = (some (.ok n), q') → Acc q' (n :: l)) ∧
    (∀ e q', q.findStep w = (some (.error e), q') → Acc q' l) ∧
    (∀ q', q.findStep w = (none, q') → Acc q' l) := by
  have hpass : Acc q.passEmptySlot l := h.of_slots (by simp) (by simp)
  unfold findStep
  dsimp only
  cases hs : q.readerSlots q.slotIndex with
  | busy m =>
    simp only [Prod.mk.injEq]
    exact ⟨by simp, fun e q' he => he.2 ▸ h, by simp⟩
  | none =>
    dsimp only
    split
    · split
      · exact ⟨by simp, by simp, fun q' he => by cases he; exact hpass⟩
      · exact ⟨by simp, fun e q' he => by cases he; exact hpass, by simp⟩
    · split
      next hslot =>
        refine ⟨fun n q' he => ?_, by simp, by simp⟩
        cases he
        exact (hpass.setBusy hslot (by simp [hs])).of_slots rfl rfl
      next => exact ⟨by simp, by simp, fun q' he => by cases he; exact hpass⟩
  | abort m =>
    have hm : q.slotIndex = slotOf M m := h.own _ m (by rw [hs]; rfl)
    dsimp only
    split
    · refine ⟨fun n q' he => ?_, by simp, by simp⟩
      cases he
      have hinc : Acc q.incSlotIndex l := h.of_slots rfl rfl
      exact hinc.setBusy hm (by simp [incSlotIndex, hs])
    · exact ⟨by simp, by simp, fun q' he => by cases he; exact h.clear (by simp [hs])⟩

theorem acc_findLoop (w : ℕ) (k : ℕ) : ∀ {q : PeekQueue M}, Acc q l →
    (∀ n q', findLoop w k q = (.ok n, q') → Acc q' (n :: l)) ∧
    (∀ e q', findLoop w k q = (.error e, q') → Acc q' l) := by
  induction k with
  | zero =>
    intro q h
    simp only [findLoop, Prod.mk.injEq]
    exact ⟨by simp, fun e q' he => he.2 ▸ h⟩
  | succ k ih =>
    intro q h
    obtain ⟨hok, herr, hnone⟩ := acc_findStep h w
    simp only [findLoop]
    rcases hf : q.findStep w with ⟨_ | (e | n), q₁⟩
    · exact ih (hnone q₁ hf)
    · refine ⟨by simp, fun e' q' he => ?_⟩
      cases he
      exact herr _ _ hf
    · refine ⟨fun n' q' he => ?_, by simp⟩
      cases he
      exact hok _ _ hf

end Ops

/-! ### The operations of the world -/

lemma enqueue_readerSlots (q : Queue M) :
    q.enqueue.2.readers.readerSlots = q.readers.readerSlots ∧
    q.enqueue.2.readers.bugs = q.readers.bugs ∧
    q.enqueue.2.confirmChannel = q.confirmChannel := by
  unfold Queue.enqueue
  dsimp only
  split
  · exact ⟨rfl, rfl, rfl⟩
  · split <;> simp

/-- While a handle is alive there is room for its message. -/
lemma length_channel_lt {w : World M} (h : Acc w.queue.readers w.pending) {n : ℕ}
    (hn : n ∈ w.handles) : w.queue.confirmChannel.length < M := by
  have hl := h.length_le
  have hpos := List.length_pos_of_mem hn
  simp only [World.pending, List.length_append, List.length_map] at hl
  omega

theorem acc_settle {w : World M} (h : Acc w.queue.readers w.pending) (k : ℕ) (success : Bool) :
    Acc (w.settle k success).queue.readers (w.settle k success).pending := by
  unfold World.settle
  split
  · exact h
  next n hk =>
    have hlen : k < w.handles.length := by
      by_contra hlt
      rw [List.getElem?_eq_none (by omega)] at hk
      cases hk
    have hn : w.handles[k] = n := by
      rw [List.getElem?_eq_getElem hlen] at hk
      exact Option.some.inj hk
    have hroom := length_channel_lt h (hn ▸ List.getElem_mem hlen)
    refine h.perm ?_
    simp only [World.pending, Queue.settle, trySend, hroom, if_true, List.map_append, List.map_cons,
      List.map_nil]
    have hperm := (List.getElem_cons_eraseIdx_perm hlen).symm
    rw [hn] at hperm
    refine (hperm.append_right _).trans ?_
    rw [← List.append_assoc]
    exact List.perm_append_singleton n _ |>.symm

theorem acc_peekNext {w : World M} (h : Acc w.queue.readers w.pending) :
    Acc (w.exec .peekNext).queue.readers (w.exec .peekNext).pending := by
  have hdrain : Acc w.queue.updateReaderSlots.readers w.handles :=
    acc_foldl_update _ (h.perm List.perm_append_comm)
  obtain ⟨hok, herr⟩ := acc_findLoop w.queue.writeIndex (2 * M) hdrain
  rcases w.exec_peekNext_cases with ⟨-, he⟩ | ⟨-, e, r, hf, he⟩ | ⟨-, n, r, hf, he⟩
  · rw [he]
    exact h
  · rw [he]
    simpa [World.pending, Queue.updateReaderSlots] using herr e r hf
  · rw [he]
    have hacc := (hok n r hf).perm (List.perm_append_singleton n w.handles).symm
    simpa [World.pending, Queue.updateReaderSlots] using hacc

/-- **Accounting is kept** by every operation, a restart apart that happens while something is
pending. -/
theorem acc_exec {w : World M} (h : Acc w.queue.readers w.pending) (op : Op)
    (hquiet : ∀ r, op = .reinit r → w.Quiet) :
    Acc (w.exec op).queue.readers (w.exec op).pending := by
  cases op with
  | enqueue =>
    obtain ⟨hs, hb, hc⟩ := enqueue_readerSlots w.queue
    have := h.of_slots hs hb
    simpa [World.exec, World.pending, hc] using this
  | peekNext => exact acc_peekNext h
  | confirm k => exact acc_settle h k true
  | drop k => exact acc_settle h k false
  | waitConfirmation =>
    simp only [World.exec, Queue.waitConfirmation]
    cases hc : w.queue.confirmChannel with
    | nil => simpa [World.pending, hc] using h
    | cons c rest =>
      simp only [World.pending, hc, List.map_cons] at h
      exact acc_update (h.perm List.perm_middle)
  | isDrained =>
    simp only [World.exec, Queue.isDrained, Queue.updateReaderSlots, World.pending, List.map_nil,
      List.append_nil]
    exact acc_foldl_update _ (h.perm List.perm_append_comm)
  | reinit range =>
    obtain ⟨hh, hc⟩ := hquiet range rfl
    simp only [World.exec, Queue.reinitWithExistingRange, World.pending, hh, hc]
    exact ⟨by simp [PeekQueue.new, ReadState.seqNo?], by simp [PeekQueue.new], rfl⟩

lemma acc_start (capacity granularity : ℕ) :
    Acc (World.start (Queue.withOverwriteSupport M capacity granularity)).queue.readers
      (World.start (Queue.withOverwriteSupport M capacity granularity)).pending :=
  ⟨by simp [World.start, Queue.withOverwriteSupport, PeekQueue.new, ReadState.seqNo?],
    by simp [World.start, Queue.withOverwriteSupport, PeekQueue.new, World.pending], rfl⟩

/-! ### No confirmation is lost -/

/-- The live handles and the messages in the channel are exactly the `Busy` slots, each once; a live
handle finds room in the channel, and `update` never took its `BUG` arm. -/
structure ConfirmationsKept (w : World M) : Prop where
  exactly : ∀ n, w.pending.count n =
    (Finset.univ.filter fun i => w.queue.readers.readerSlots i = .busy n).card
  once : w.pending.Nodup
  room : w.handles ≠ [] → w.queue.confirmChannel.length < M
  noBug : w.queue.readers.bugs = 0

/-- A restart waits until no handle is alive and no message is in the channel. -/
def RestartQuiet (w : World M) : Op → Prop
  | .reinit _ => w.Quiet
  | _ => True

/-- A restart waits until no handle is alive. -/
def RestartUnheld (w : World M) : Op → Prop
  | .reinit _ => w.handles = []
  | _ => True

instance (w : World M) (op : Op) : Decidable (RestartQuiet w op) := by
  unfold RestartQuiet; split <;> infer_instance

instance (w : World M) (op : Op) : Decidable (RestartUnheld w op) := by
  unfold RestartUnheld; split <;> infer_instance

/-- **Confirmations are never lost**, whatever the order of the operations, with or without
overwrites, also when the sequence numbers wrap. -/
theorem confirmationsKept_of_reach (M : ℕ) [NeZero M] (capacity granularity : ℕ) (w : World M)
    (h : Reach World.exec RestartQuiet
      (World.start (Queue.withOverwriteSupport M capacity granularity)) w) :
    ConfirmationsKept w := by
  have hacc : Acc w.queue.readers w.pending :=
    h.invariant (P := fun w => Acc w.queue.readers w.pending) (acc_start capacity granularity)
      fun _ op hs hG => acc_exec hs op (by rintro r rfl; exact hG)
  refine ⟨hacc.count_eq_card, hacc.nodup, fun hne => ?_, hacc.noBug⟩
  obtain ⟨n, hn⟩ := List.exists_mem_of_ne_nil _ hne
  exact length_channel_lt hacc hn

/-- Two peeks, one confirmed and one dropped, and an overwrite while both messages are under way. -/
theorem confirmationsKept_overwrite : ConfirmationsKept
    ([Op.enqueue, .enqueue, .peekNext, .peekNext, .confirm 0, .enqueue, .enqueue, .enqueue, .drop 0].foldl
      World.exec (World.start (Queue.withOverwriteSupport 3 4 2))) :=
  confirmationsKept_of_reach 3 4 2 _ (.run _ .start (by decide))

/-- A restart after a confirmation that is still in the channel: its message meets the new slots, and
`update` takes the `BUG` arm although no handle was alive at the restart. -/
theorem restart_with_pending_message : ¬ ∀ w : World 3,
    Reach World.exec RestartUnheld (World.start (Queue.new 3)) w → ConfirmationsKept w := by
  intro h
  have hbug := (h _ (.run [.enqueue, .peekNext, .confirm 0, .reinit (0, 1), .peekNext] .start
    (by decide))).noBug
  revert hbug
  decide

end SensorLink.Peek
