import SensorLink.Dispatch.StreamCalls

/-!
# Who holds a handle

The invariant of the dispatch task. Each live handle is that of one pending item or upload, or of an item
that the task has in its hand in the middle of a step (`Stock`); each request is answered, waits for its
reply or still sets the flag (`Tickets.Ok`); from the flush on nothing is pending, and a stream that was
found drained stays so, since no handle is left that could change it (`PhaseOk`).
-/

namespace SensorLink.Dispatch

open SensorLink.Lib SensorLink.Flash SensorLink.Db SensorLink.Stream

/-- The barrier flag, and the requests by where they are -/
structure Tickets where
  requested : Bool
  barrierActive : Bool
  requests : ℕ
  flagged : List ℕ
  waiting : List ℕ
  replies : List (List ℕ)

/-- Each request is at one place, and the flags say where there are some. -/
structure Tickets.Ok (t : Tickets) : Prop where
  flagged : t.requested = true ↔ t.flagged ≠ []
  waiting : t.barrierActive = true ↔ t.waiting ≠ []
  once : t.replies.flatten ++ t.waiting ++ t.flagged = List.range t.requests

namespace Tickets.Ok

variable {t : Tickets}

lemma request (h : t.Ok) : Ok { t with
    requested := true
    requests := t.requests + 1
    flagged := t.flagged ++ [t.requests] } := by
  refine ⟨by simp, h.waiting, ?_⟩
  simp only [← List.append_assoc, h.once, List.range_succ]

lemma take (h : t.Ok) (hrequested : t.requested = true) : Ok { t with
    requested := false
    barrierActive := true
    flagged := []
    waiting := t.waiting ++ t.flagged } := by
  refine ⟨by simp, ?_, ?_⟩
  · simp [h.flagged.mp hrequested]
  · simpa using h.once

lemma reply (h : t.Ok) : Ok { t with
    barrierActive := false
    waiting := []
    replies := t.replies ++ [t.waiting] } := by
  refine ⟨h.flagged, by simp, ?_⟩
  simpa using h.once

end Tickets.Ok

/-- A stored item needs nothing more: it was overwritten or confirmed. -/
def StreamState.Settled (st : StreamState) (n : ℕ) : Prop := n < st.peek.lower ∨ st.peek.Confirmed n

instance (st : StreamState) (n : ℕ) : Decidable (st.Settled n) := inferInstanceAs (Decidable (_ ∨ _))

lemma StreamState.Drained.settled {st : StreamState} (hd : st.Drained) (h : st.Inv) {n : ℕ}
    (hn : n ∈ st.stored) : st.Settled n := by
  rcases Nat.lt_or_ge n st.peek.lower with hlt | hge
  · exact Or.inl hlt
  · exact Or.inr (hd.2 n hge (h.stored_lt n hn))

namespace DispatchTask

variable {cfg : Config} {s : DispatchTask} {src : Source} {hand : Source → List ℕ}

def tickets (s : DispatchTask) : Tickets :=
  ⟨s.requested, s.barrierActive, s.requests, s.flagged, s.waiting, s.replies⟩

/-! ### Handles -/

/-- The handle of an item that the task has in its hand -/
def inHand (src : Source) (handle : Option ℕ) (src' : Source) : List ℕ :=
  if src' = src then handle.toList else []

lemma inHand_none (src : Source) : inHand src none = fun _ => [] := by
  funext src'
  unfold inHand
  split <;> rfl

/-- The handles of the uploads of a stream -/
def uploaded (uploads : List (Source × Confirmable)) (src : Source) : List ℕ :=
  uploads.filterMap fun upload => if src = upload.1 then upload.2.confirmHandle else none

/-- The handles of the pending item and of the uploads of a stream -/
def held (s : DispatchTask) (src : Source) : List ℕ :=
  ((s.pending src).bind Confirmable.confirmHandle).toList ++ uploaded s.uploads src

lemma uploaded_perm {uploads rest : List (Source × Confirmable)} {item : Confirmable}
    (h : uploads.Perm ((src, item) :: rest)) (src' : Source) :
    (uploaded uploads src').Perm (inHand src item.confirmHandle src' ++ uploaded rest src') := by
  refine (h.filterMap _).trans ?_
  by_cases hsrc : src' = src
  · cases hitem : item.confirmHandle <;> simp [inHand, uploaded, hsrc, hitem]
  · simp [inHand, uploaded, hsrc]

/-- The streams meet their invariant, and each live handle is held by one owner. -/
structure Stock (s : DispatchTask) (hand : Source → List ℕ) : Prop where
  inv : ∀ src, (s.streams src).Inv
  handles : ∀ src, (s.streams src).peek.handles.Perm (hand src ++ s.held src)
  flushed : ∀ n, some n ∈ s.flushed → n ∈ (s.streams .data).stored

lemma Stock.start (cfg : Config) (mem : Mem) : Stock (start cfg mem) fun _ => [] :=
  ⟨fun src => .start cfg src, fun _ => .refl _, fun n hn => by cases hn⟩

/-- One stream changes, and with it what the task has in its hand. -/
lemma Stock.update {handle handle' : Option ℕ} (h : s.Stock (inHand src handle)) {st : StreamState}
    (hinv : st.Inv) (hhandles : st.peek.handles.Perm (handle'.toList ++ s.held src))
    (hstored : (s.streams src).stored ⊆ st.stored) :
    Stock (s.setStream src st) (inHand src handle') := by
  refine ⟨fun src' => ?_, fun src' => ?_, fun n hn => ?_⟩
  · by_cases hsrc : src' = src
    · subst hsrc
      simpa [DispatchTask.setStream] using hinv
    · simpa [DispatchTask.setStream, hsrc] using h.inv src'
  · by_cases hsrc : src' = src
    · subst hsrc
      simpa [DispatchTask.setStream, held, inHand] using hhandles
    · simpa [DispatchTask.setStream, held, inHand, hsrc] using h.handles src'
  · by_cases hsrc : Source.data = src
    · subst hsrc
      simpa [DispatchTask.setStream] using hstored (h.flushed n hn)
    · simpa [DispatchTask.setStream, hsrc] using h.flushed n hn

/-- A call on a stream that may issue a handle -/
lemma Stock.setStream (h : s.Stock fun _ => []) {st : StreamState} (handle : Option ℕ)
    (hstep : (s.streams src).Step st handle.toList) (mem : Mem) :
    Stock { s.setStream src st with mem := mem } (inHand src handle) := by
  have hhandles := hstep.handles.trans ((h.handles src).append_left handle.toList)
  rw [← inHand_none src] at h
  have hupdate := h.update hstep.inv hhandles hstep.stored
  exact ⟨hupdate.inv, hupdate.handles, hupdate.flushed⟩

/-- What the task has in its hand is confirmed or dropped. -/
lemma Stock.settleItem {item : Confirmable} (h : s.Stock (inHand src item.confirmHandle))
    (success : Bool) : Stock (s.settleItem src item success) fun _ => [] := by
  rw [← inHand_none src]
  unfold DispatchTask.settleItem
  cases hitem : item.confirmHandle with
  | none =>
    rw [hitem] at h
    exact h
  | some n =>
    have hhand := h.handles src
    simp only [inHand, if_true, hitem, Option.toList_some, List.singleton_append] at hhand
    obtain ⟨hinv, hhandles⟩ := (h.inv src).settle (hhand.mem_iff.mpr List.mem_cons_self) success
    exact h.update hinv (hhandles.symm.trans hhand).cons_inv (fun _ hm => hm)

/-- The slot is emptied, or gets an item without a handle. -/
lemma Stock.replace (h : s.Stock fun _ => []) (src : Source) (slot : Option Confirmable)
    (hslot : slot.bind Confirmable.confirmHandle = none) :
    Stock { s with pending := Function.update s.pending src slot }
      (inHand src ((s.pending src).bind Confirmable.confirmHandle)) := by
  refine ⟨h.inv, fun src' => ?_, h.flushed⟩
  by_cases hsrc : src' = src
  · subst hsrc
    simpa [inHand, held, hslot] using h.handles src'
  · simpa [inHand, held, hsrc] using h.handles src'

/-- What the task has in its hand is put in the empty slot. -/
lemma Stock.put {item : Confirmable} (h : s.Stock (inHand src item.confirmHandle))
    (hp : s.pending src = none) :
    Stock { s with pending := Function.update s.pending src (some item) } fun _ => [] := by
  refine ⟨h.inv, fun src' => ?_, h.flushed⟩
  by_cases hsrc : src' = src
  · subst hsrc
    simpa [inHand, held, hp] using h.handles src'
  · simpa [inHand, held, hsrc] using h.handles src'

/-- What the task has in its hand is sent. -/
lemma Stock.send {item : Confirmable} (h : s.Stock (inHand src item.confirmHandle)) :
    Stock { s with uploads := s.uploads ++ [(src, item)] } fun _ => [] := by
  refine ⟨h.inv, fun src' => (h.handles src').trans ?_, h.flushed⟩
  have hperm := uploaded_perm (List.perm_append_singleton (src, item) s.uploads) src'
  exact (List.perm_append_comm_assoc _ _ _).trans (hperm.symm.append_left _)

/-- An upload comes back from the network task. -/
lemma Stock.recall {item : Confirmable} (h : s.Stock fun _ => []) {k : ℕ}
    (hk : s.uploads[k]? = some (src, item)) :
    Stock { s with uploads := s.uploads.eraseIdx k } (inHand src item.confirmHandle) := by
  refine ⟨h.inv, fun src' => (h.handles src').trans ?_, h.flushed⟩
  obtain ⟨hlt, hget⟩ := List.getElem?_eq_some_iff.mp hk
  have hperm := uploaded_perm (hget ▸ (List.getElem_cons_eraseIdx_perm hlt).symm) src'
  exact (hperm.append_left _).trans (List.perm_append_comm_assoc _ _ _)

/-! ### What does not change -/

/-- Only the streams change when an item goes out of scope. -/
lemma settleItem_eq (s : DispatchTask) (src : Source) (item : Confirmable) (success : Bool) :
    s.settleItem src item success = { s with streams := (s.settleItem src item success).streams } := by
  unfold settleItem
  split <;> rfl

/-- A drained stream stays drained: there is no handle that could change it. -/
lemma drained_settleItem (h : (s.streams src).Drained) (src' : Source) (item : Confirmable)
    (success : Bool) : ((s.settleItem src' item success).streams src).Drained := by
  unfold settleItem
  cases item.confirmHandle with
  | none => exact h
  | some n =>
    by_cases hsrc : src = src'
    · subst hsrc
      simpa [setStream, StreamState.settle_of_handles_eq_nil h.1] using h
    · simpa [setStream, hsrc] using h

/-! ### The invariant -/

/-- The parts of the invariant that do not depend on where the task is -/
structure Core (s : DispatchTask) : Prop where
  stock : s.Stock fun _ => []
  tickets : s.tickets.Ok
  stored : none ∉ s.flushed

/-- A request waits for its reply, and nothing is pending. -/
def Waits (s : DispatchTask) : Prop := s.barrierActive = true ∧ ∀ src, s.pending src = none

/-- What holds where the task is -/
def PhaseOk (s : DispatchTask) : Phase → Prop
  | .flush false => s.Waits
  | .store src _ true => src = .data
  | .check .event => s.Waits
  | .check .data => s.Waits ∧ (s.streams .event).Drained
  | .reply => s.Waits ∧ ∀ src, (s.streams src).Drained
  | _ => True

structure Inv (s : DispatchTask) : Prop extends Core s where
  phase : s.PhaseOk s.phase

/-- Changes that the phase does not notice. -/
lemma PhaseOk.mono {s' : DispatchTask} {phase : Phase} (h : s.PhaseOk phase)
    (hactive : s'.barrierActive = s.barrierActive) (hpending : s'.pending = s.pending)
    (hdrained : ∀ src, (s.streams src).Drained → (s'.streams src).Drained) : s'.PhaseOk phase := by
  have hwaits : s.Waits → s'.Waits := by
    unfold Waits
    rw [hactive, hpending]
    exact id
  unfold PhaseOk at h ⊢
  split
  · exact hwaits h
  · exact h
  · exact hwaits h
  · exact ⟨hwaits h.1, hdrained _ h.2⟩
  · exact ⟨hwaits h.1, fun src => hdrained src (h.2 src)⟩
  · trivial

lemma Core.toPhase (h : s.Core) {phase : Phase} (hphase : s.PhaseOk phase) :
    Inv { s with phase := phase } :=
  ⟨⟨⟨h.stock.inv, h.stock.handles, h.stock.flushed⟩, h.tickets, h.stored⟩,
    hphase.mono rfl rfl fun _ hd => hd⟩

lemma Core.loopHead (h : s.Core) : s.loopHead.Inv :=
  ⟨⟨⟨h.stock.inv, h.stock.handles, h.stock.flushed⟩, h.tickets, h.stored⟩, trivial⟩

lemma Core.setStream (h : s.Core) {st : StreamState} (hstep : (s.streams src).Step st []) (mem : Mem) :
    Core { s.setStream src st with mem := mem } := by
  have hstock := h.stock.setStream none hstep mem
  rw [inHand_none] at hstock
  exact ⟨hstock, h.tickets, h.stored⟩

lemma Core.settleItem {item : Confirmable} (hstock : s.Stock (inHand src item.confirmHandle))
    (htickets : s.tickets.Ok) (hstored : none ∉ s.flushed) (success : Bool) :
    (s.settleItem src item success).Core := by
  have hstock' := hstock.settleItem success
  rw [settleItem_eq] at hstock' ⊢
  exact ⟨hstock', htickets, hstored⟩

lemma Inv.settleItem {item : Confirmable} (hstock : s.Stock (inHand src item.confirmHandle))
    (htickets : s.tickets.Ok) (hstored : none ∉ s.flushed) (hphase : s.PhaseOk s.phase)
    (success : Bool) : (s.settleItem src item success).Inv := by
  have hcore := Core.settleItem hstock htickets hstored success
  rw [settleItem_eq] at hcore ⊢
  exact ⟨hcore, hphase.mono rfl rfl fun src' hd => drained_settleItem hd src item success⟩

/-- The network task is done with an upload. -/
lemma Inv.settleUpload (h : s.Inv) (k : ℕ) (success : Bool) : (s.settleUpload k success).Inv := by
  unfold DispatchTask.settleUpload
  cases hk : s.uploads[k]? with
  | none => exact h
  | some upload =>
    exact Inv.settleItem (h.stock.recall hk) h.tickets h.stored
      (h.phase.mono rfl rfl fun _ hd => hd) success

end DispatchTask

end SensorLink.Dispatch
