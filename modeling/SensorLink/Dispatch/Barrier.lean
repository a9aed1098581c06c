import SensorLink.Dispatch.Stock

/-!
# The dispatch barrier

`DispatchDrained` is to be signalled only when everything that was stored, and everything that was flushed
for the barrier, is confirmed or overwritten. Every step keeps the invariant of the task, and a reply is
made only in the phase where it says that both streams are drained.

The barrier does not hold when the store of a flushed packet fails, as the packet is then sent without a
handle, nor when the sequence numbers wrap.
-/

namespace SensorLink.Dispatch

open SensorLink.Lib SensorLink.Flash SensorLink.Db SensorLink.Stream

namespace DispatchTask

variable {cfg : Config} {s : DispatchTask} {src : Source}

/-! ### The condition on a step -/

section Guards

variable (cfg) (s) (src)

/-- The stream is open, or the call finds a range whose sequence numbers do not wrap. -/
def opensInOrder (fates : Fates) : Bool :=
  (s.streams src).initDone ||
    match (findCircularRange cfg.dev (cfg.circular src).toCircular).run
      ⟨s.mem, fates.plan, fates.readPlan⟩ with
    | .ok range _ => range.start ≤ range.stop ∧ range.stop < 2 ^ 32
    | _ => true

/-- The sequence number of the next item does not wrap. -/
def storesInOrder : Bool :=
  !(s.streams src).initDone || (s.streams src).peek.queue.writeIndex + 1 < 2 ^ 32

/-- The step does not wrap the sequence numbers of a stream. -/
def noWrap : Act → Bool
  | .call fates _ =>
    match s.phase with
    | .peek src => s.opensInOrder cfg src fates
    | .store src _ _ => s.opensInOrder cfg src fates && s.storesInOrder src
    | .check src => s.opensInOrder cfg src fates
    | _ => true
  | _ => true

/-- The call that stores an item gives an error. -/
def storeFails (item : List UInt8) (fates : Fates) : Bool :=
  let d : Device Mem Fate := ⟨s.mem, fates.plan, fates.readPlan⟩
  if (s.streams src).initDone then
    match ((s.streams src).enqueue cfg src item).run d with
    | .ok (_, .error _) _ => true
    | _ => false
  else
    match ((s.streams src).opened cfg src).run d with
    | .ok (_, .error _) _ => true
    | _ => false

/-- The step fails to store a packet that was flushed for a barrier. -/
def flushFails : Act → Bool
  | .call fates _ =>
    match s.phase with
    | .store src item true => s.storeFails cfg src item fates
    | _ => false
  | _ => false

/-- Sequence numbers do not wrap, and flushed packets are stored. -/
def Sound (act : Act) : Prop := s.noWrap cfg act = true ∧ s.flushFails cfg act = false

instance (act : Act) : Decidable (s.Sound cfg act) := inferInstanceAs (Decidable (_ ∧ _))

end Guards

/-! ### Steps -/

section Call

variable {α : Type} {fates : Fates} {p : StreamState → Io Empty (StreamState × Except Error α)}
  {k : Except Error α → DispatchTask → DispatchTask}

/-- The ends of a call: the power is lost, the stream was opened, it could not be opened, or the call on
the open stream has ended. -/
lemma call_cases (hinv : (s.streams src).Inv) (horder : s.opensInOrder cfg src fates = true) :
    (∃ mem, s.call cfg src fates p k = { s with mem := mem, phase := .off }) ∨
    (∃ st mem, (s.streams src).Step st [] ∧
      s.call cfg src fates p k = { s.setStream src st with mem := mem }) ∨
    (∃ e d', (s.streams src).initDone = false ∧
      ((s.streams src).opened cfg src).run ⟨s.mem, fates.plan, fates.readPlan⟩ =
        .ok (s.streams src, .error e) d' ∧
      s.call cfg src fates p k =
        k (.error e) { s.setStream src (s.streams src) with mem := d'.mem }) ∨
    ∃ st result d', (s.streams src).initDone = true ∧
      (p (s.streams src)).run ⟨s.mem, fates.plan, fates.readPlan⟩ = .ok (st, result) d' ∧
      s.call cfg src fates p k = k result { s.setStream src st with mem := d'.mem } := by
  unfold call
  cases hs : (s.streams src).initDone with
  | true =>
    rw [if_pos rfl]
    unfold runOn
    cases hrun : (p (s.streams src)).run ⟨s.mem, fates.plan, fates.readPlan⟩ with
    | ok a d' => exact Or.inr (Or.inr (Or.inr ⟨a.1, a.2, d', rfl, rfl, rfl⟩))
    | err e d' => exact e.elim
    | off d' => exact Or.inl ⟨d'.mem, rfl⟩
  | false =>
    rw [if_neg (by decide)]
    unfold runOn
    cases hrun : ((s.streams src).opened cfg src).run ⟨s.mem, fates.plan, fates.readPlan⟩ with
    | ok a d' =>
      obtain ⟨st, result⟩ := a
      rcases StreamState.opened_cases hs hrun with ⟨e, rfl, rfl⟩ | ⟨range, hfind, rfl, rfl⟩
      · exact Or.inr (Or.inr (Or.inl ⟨e, d', rfl, rfl, rfl⟩))
      · simp only [opensInOrder, hs, hfind, Bool.false_or, decide_eq_true_eq] at horder
        exact Or.inr (Or.inl ⟨_, d'.mem, hinv.opened hs horder.1 horder.2, rfl⟩)
    | err e d' => exact e.elim
    | off d' => exact Or.inl ⟨d'.mem, rfl⟩

end Call

lemma Core.off (h : s.Core) (mem : Mem) : Inv { s with mem := mem, phase := .off } :=
  ⟨⟨⟨h.stock.inv, h.stock.handles, h.stock.flushed⟩, h.tickets, h.stored⟩, trivial⟩

lemma Core.afterPeek (h : s.Core) (src : Source) : (s.afterPeek src).Inv := by
  cases src with
  | event => exact h.toPhase trivial
  | data =>
    change s.afterPeeks.Inv
    unfold afterPeeks
    split
    next hnone =>
      split
      next hactive =>
        refine h.toPhase ⟨hactive, fun src => ?_⟩
        cases src with
        | event => exact Option.isNone_iff_eq_none.mp hnone.1
        | data => exact Option.isNone_iff_eq_none.mp hnone.2
      next => exact h.toPhase trivial
    next => exact h.toPhase trivial

lemma Core.storeRetry (h : s.Core) (retry : Bool) : Core { s with storeRetry := retry } :=
  ⟨⟨h.stock.inv, h.stock.handles, h.stock.flushed⟩, h.tickets, h.stored⟩

lemma Core.write (item : Confirmable) (hstock : s.Stock (inHand src item.confirmHandle))
    (htickets : s.tickets.Ok) (hstored : none ∉ s.flushed) (hp : s.pending src = none) (alloc : Bool) :
    (s.write src item alloc).Core := by
  unfold DispatchTask.write
  split
  · exact ⟨hstock.put hp, htickets, hstored⟩
  · exact Core.settleItem hstock htickets hstored false

lemma Core.overwrite (h : s.Core) (data : List UInt8) (alloc : Bool) :
    (s.overwrite src data alloc).Core := by
  have hreplace := h.stock.replace src (some ⟨data, none⟩) rfl
  unfold DispatchTask.overwrite
  split
  · cases hp : s.pending src with
    | none =>
      rw [hp, Option.bind_none, inHand_none] at hreplace
      exact ⟨hreplace, h.tickets, h.stored⟩
    | some item =>
      rw [hp, Option.bind_some] at hreplace
      exact Core.settleItem hreplace h.tickets h.stored false
  · exact h

lemma Inv.peekStep (h : s.Inv) (hphase : s.phase = .peek src) {fates : Fates}
    (horder : s.opensInOrder cfg src fates = true) (alloc : Bool) :
    (s.peekStep cfg src fates alloc).Inv := by
  have hinv := h.stock.inv src
  unfold DispatchTask.peekStep
  split
  next hnone =>
    rcases call_cases hinv horder with ⟨mem, heq⟩ | ⟨st, mem, hstep, heq⟩ | ⟨e, d', -, -, heq⟩ |
      ⟨st, result, d', hs, hrun, heq⟩ <;> rw [heq]
    · exact h.toCore.off mem
    · refine ⟨h.toCore.setStream hstep mem, ?_⟩
      change PhaseOk _ s.phase
      rw [hphase]
      trivial
    · exact ((h.toCore.setStream hinv.refl d'.mem).storeRetry true).afterPeek src
    · rcases hinv.peekNext hs hrun with ⟨data, n, rfl, hstep⟩ | ⟨hitem, hstep⟩
      · have hstock := h.stock.setStream (some n) hstep d'.mem
        exact (Core.write ⟨data, some n⟩ hstock h.tickets h.stored
          (Option.isNone_iff_eq_none.mp hnone.2) alloc).afterPeek src
      · have hcore := h.toCore.setStream hstep d'.mem
        rcases result with e | _ | item
        · exact (hcore.storeRetry true).afterPeek src
        · exact hcore.afterPeek src
        · exact absurd rfl (hitem item)
  next => exact h.toCore.afterPeek src

/-- An item that was flushed has got a sequence number. -/
lemma Core.afterStore (h : s.Core) {flushing : Bool} {seqNo : Option ℕ}
    (hstored : flushing = true → ∃ n, seqNo = some n ∧ n ∈ (s.streams .data).stored) :
    (s.afterStore flushing seqNo).Inv := by
  unfold DispatchTask.afterStore
  split
  next hflushing =>
    obtain ⟨n, rfl, hn⟩ := hstored hflushing
    refine ⟨⟨⟨h.stock.inv, h.stock.handles, fun m hm => ?_⟩, h.tickets, fun hc => ?_⟩, trivial⟩
    · rcases List.mem_cons.mp hm with hm | hm
      · rw [Option.some.inj hm]
        exact hn
      · exact h.stock.flushed m hm
    · rcases List.mem_cons.mp hc with hc | hc
      · cases hc
      · exact h.stored hc
  next => exact h.loopHead

lemma Inv.storeStep (h : s.Inv) {item : List UInt8} {flushing : Bool}
    (hphase : s.phase = .store src item flushing) {fates : Fates}
    (horder : s.opensInOrder cfg src fates = true) (hroom : s.storesInOrder src = true)
    (hfails : flushing = true → s.storeFails cfg src item fates = false) (alloc : Bool) :
    (s.storeStep cfg src item flushing fates alloc).Inv := by
  have hinv := h.stock.inv src
  unfold DispatchTask.storeStep
  rcases call_cases hinv horder with ⟨mem, heq⟩ | ⟨st, mem, hstep, heq⟩ | ⟨e, d', hs, hrun, heq⟩ |
    ⟨st, result, d', hs, hrun, heq⟩ <;> rw [heq]
  · exact h.toCore.off mem
  · refine ⟨h.toCore.setStream hstep mem, ?_⟩
    have hok := h.phase
    change PhaseOk _ s.phase
    rw [hphase] at hok ⊢
    cases flushing with
    | false => trivial
    | true => exact hok
  · refine ((h.toCore.setStream hinv.refl d'.mem).overwrite item alloc).afterStore fun hc => ?_
    have hfail := hfails hc
    simp [storeFails, hs, hrun] at hfail
  · simp only [storesInOrder, hs, Bool.not_true, Bool.false_or, decide_eq_true_eq] at hroom
    obtain ⟨hstep, hstored⟩ := hinv.enqueue hs hroom hrun
    have hcore := h.toCore.setStream hstep d'.mem
    cases result with
    | error e =>
      refine (hcore.overwrite item alloc).afterStore fun hc => ?_
      have hfail := hfails hc
      simp [storeFails, hs, hrun] at hfail
    | ok n =>
      refine hcore.afterStore fun hc => ⟨n, rfl, ?_⟩
      have hok := h.phase
      rw [hphase, hc] at hok
      obtain rfl : src = .data := hok
      simpa [DispatchTask.setStream] using hstored n rfl

lemma Inv.checkStep (h : s.Inv) (hphase : s.phase = .check src) {fates : Fates}
    (horder : s.opensInOrder cfg src fates = true) : (s.checkStep cfg src fates).Inv := by
  have hinv := h.stock.inv src
  have hok := h.phase
  rw [hphase] at hok
  unfold DispatchTask.checkStep
  rcases call_cases hinv horder with ⟨mem, heq⟩ | ⟨st, mem, hstep, heq⟩ | ⟨e, d', -, -, heq⟩ |
    ⟨st, result, d', hs, hrun, heq⟩ <;> rw [heq]
  · exact h.toCore.off mem
  · refine ⟨h.toCore.setStream hstep mem, ?_⟩
    change PhaseOk _ s.phase
    rw [hphase]
    cases src with
    | event => exact hok
    | data => exact ⟨hok.1, by simpa [DispatchTask.setStream] using hok.2⟩
  · exact (h.toCore.setStream hinv.refl d'.mem).toPhase trivial
  · obtain ⟨hstep, hdrained⟩ := hinv.isDrained hs hrun
    have hcore := h.toCore.setStream hstep d'.mem
    rcases result with e | _ | _
    · exact hcore.toPhase trivial
    · exact hcore.toPhase trivial
    · have hd := hdrained rfl
      cases src with
      | event => exact hcore.toPhase ⟨hok, by simpa [DispatchTask.setStream] using hd⟩
      | data =>
        refine hcore.toPhase ⟨hok.1, fun src => ?_⟩
        cases src with
        | event => simpa [DispatchTask.setStream] using hok.2
        | data => simpa [DispatchTask.setStream] using hd

/-- A pending item is sent. -/
lemma Core.send (h : s.Core) {item : Confirmable} (hp : s.pending src = some item) :
    Core { s with
      pending := Function.update s.pending src none
      uploads := s.uploads ++ [(src, item)] } := by
  have hreplace := h.stock.replace src none rfl
  rw [hp] at hreplace
  exact ⟨hreplace.send, h.tickets, h.stored⟩

/-- A pending item is dropped. -/
lemma Core.drop (h : s.Core) {item : Confirmable} (hp : s.pending src = some item) :
    Core (DispatchTask.settleItem { s with pending := Function.update s.pending src none } src item
      false) := by
  have hreplace := h.stock.replace src none rfl
  rw [hp] at hreplace
  exact Core.settleItem hreplace h.tickets h.stored false

lemma Inv.transmitStep (h : s.Inv) {transmitting : Bool} (hphase : s.phase = .select transmitting)
    (sent : Bool) : (s.transmitStep sent).Inv := by
  unfold DispatchTask.transmitStep
  simp only
  cases he : s.pending .event with
  | none =>
    cases hd : s.pending .data with
    | none => exact h
    | some item =>
      cases sent with
      | true => exact (h.toCore.send hd).loopHead
      | false => exact (h.toCore.drop hd).toPhase trivial
  | some item =>
    cases sent with
    | true =>
      cases hd : s.pending .data with
      | none => exact (h.toCore.send he).loopHead
      | some other =>
        refine ⟨h.toCore.send he, ?_⟩
        change PhaseOk _ s.phase
        rw [hphase]
        trivial
    | false => cases s.pending .data <;> exact (h.toCore.drop he).toPhase trivial

lemma Inv.signalStep (h : s.Inv) : s.signalStep.Inv := by
  unfold DispatchTask.signalStep
  split
  · exact ⟨⟨⟨h.stock.inv, h.stock.handles, h.stock.flushed⟩, h.tickets.reply, h.stored⟩, trivial⟩
  · exact h.toCore.toPhase trivial
  · exact h

lemma Inv.selectStep (h : s.Inv) {transmitting : Bool} (hphase : s.phase = .select transmitting)
    (act : Act) : (s.selectStep transmitting act).Inv := by
  unfold DispatchTask.selectStep
  split
  · exact h.toCore.toPhase trivial
  · exact h.toCore.loopHead
  · split
    next hrequested =>
      exact Core.loopHead ⟨⟨h.stock.inv, h.stock.handles, h.stock.flushed⟩,
        h.tickets.take hrequested, h.stored⟩
    next => exact h
  next src =>
    split
    next hchannel =>
      exact (h.toCore.setStream ((h.stock.inv src).waitConfirmation hchannel) s.mem).loopHead
    next => exact h
  next sent =>
    split
    · exact h.transmitStep hphase sent
    · exact h
  · split
    · exact h.toCore.loopHead
    · exact h
  · exact h

/-- **The invariant is kept** by every step that meets the condition. -/
theorem Inv.exec (h : s.Inv) (act : Act) (hsound : s.Sound cfg act) : (s.exec cfg act).Inv := by
  obtain ⟨hwrap, hfails⟩ := hsound
  have hok := h.phase
  unfold DispatchTask.exec
  split
  · exact h
  · exact ⟨⟨⟨h.stock.inv, h.stock.handles, h.stock.flushed⟩, h.tickets.request, h.stored⟩,
      h.phase.mono rfl rfl fun _ hd => hd⟩
  · exact h.settleUpload _ _
  next hphase =>
    simp only [noWrap, hphase] at hwrap
    exact h.peekStep hphase hwrap _
  · exact h.toCore.toPhase rfl
  next flushed hphase =>
    cases flushed with
    | true => exact h.toCore.loopHead
    | false =>
      rw [hphase] at hok
      exact h.toCore.toPhase hok
  next src item flushing fates alloc hphase =>
    simp only [noWrap, hphase, Bool.and_eq_true] at hwrap
    refine h.storeStep hphase hwrap.1 hwrap.2 (fun hflushing => ?_) alloc
    subst hflushing
    simpa only [flushFails, hphase] using hfails
  next hphase =>
    simp only [noWrap, hphase] at hwrap
    exact h.checkStep hphase hwrap
  next hphase _ _ => exact h.selectStep hphase _
  · exact h.signalStep
  · exact h

/-! ### Replies -/

section Replies

variable (cfg) (s) (src)

@[simp] lemma settleItem_replies (item : Confirmable) (success : Bool) :
    (s.settleItem src item success).replies = s.replies := by
  rw [settleItem_eq]

@[simp] lemma afterPeek_replies : (s.afterPeek src).replies = s.replies := by
  cases src with
  | event => rfl
  | data =>
    change s.afterPeeks.replies = s.replies
    unfold afterPeeks
    split
    · split <;> rfl
    · rfl

@[simp] lemma afterStore_replies (flushing : Bool) (seqNo : Option ℕ) :
    (s.afterStore flushing seqNo).replies = s.replies := by
  unfold afterStore
  split <;> rfl

@[simp] lemma write_replies (item : Confirmable) (alloc : Bool) :
    (s.write src item alloc).replies = s.replies := by
  unfold write
  split
  · rfl
  · exact settleItem_replies s src item false

@[simp] lemma overwrite_replies (data : List UInt8) (alloc : Bool) :
    (s.overwrite src data alloc).replies = s.replies := by
  unfold overwrite
  split
  · cases s.pending src with
    | none => rfl
    | some item => exact settleItem_replies _ src item false
  · rfl

lemma call_replies {α : Type} (fates : Fates) (p : StreamState → Io Empty (StreamState × Except Error α))
    {k : Except Error α → DispatchTask → DispatchTask}
    (hk : ∀ result s, (k result s).replies = s.replies) :
    (s.call cfg src fates p k).replies = s.replies := by
  unfold call runOn
  split
  · split
    · exact hk _ _
    next e _ _ => exact e.elim
    · rfl
  · split
    next result _ _ =>
      cases result with
      | ok _ => rfl
      | error e => exact hk _ _
    next e _ _ => exact e.elim
    · rfl

lemma peekStep_replies (fates : Fates) (alloc : Bool) :
    (s.peekStep cfg src fates alloc).replies = s.replies := by
  unfold peekStep
  split
  · refine call_replies cfg s src fates _ fun result s => ?_
    rcases result with e | _ | item
    · exact afterPeek_replies _ src
    · exact afterPeek_replies s src
    · simp
  · exact afterPeek_replies s src

lemma storeStep_replies (item : List UInt8) (flushing : Bool) (fates : Fates) (alloc : Bool) :
    (s.storeStep cfg src item flushing fates alloc).replies = s.replies := by
  unfold storeStep
  refine call_replies cfg s src fates _ fun result s => ?_
  cases result <;> simp

lemma checkStep_replies (fates : Fates) : (s.checkStep cfg src fates).replies = s.replies := by
  unfold checkStep
  refine call_replies cfg s src fates _ fun result s => ?_
  rcases result with e | _ | _
  · rfl
  · rfl
  · cases src <;> rfl

lemma transmitStep_replies (sent : Bool) : (s.transmitStep sent).replies = s.replies := by
  unfold transmitStep
  cases s.pending .event <;> cases s.pending .data <;> cases sent <;> simp [loopHead]

lemma selectStep_replies (transmitting : Bool) (act : Act) :
    (s.selectStep transmitting act).replies = s.replies := by
  unfold selectStep
  split
  · rfl
  · rfl
  · split <;> rfl
  · split <;> rfl
  · split
    · exact transmitStep_replies s _
    · rfl
  · split <;> rfl
  · rfl

lemma settleUpload_replies (k : ℕ) (success : Bool) : (s.settleUpload k success).replies = s.replies := by
  unfold settleUpload
  cases s.uploads[k]? with
  | none => rfl
  | some upload => exact settleItem_replies _ upload.1 upload.2 success

/-- A reply is made only at the signal `DispatchDrained`, and answers the requests that wait. -/
lemma exec_replies (act : Act) : (s.exec cfg act).replies = s.replies ∨
    s.phase = .reply ∧ (s.exec cfg act).replies = s.replies ++ [s.waiting] := by
  unfold exec
  split
  · exact Or.inl rfl
  · exact Or.inl rfl
  · exact Or.inl (settleUpload_replies s _ _)
  · exact Or.inl (peekStep_replies cfg s _ _ _)
  · exact Or.inl rfl
  · split <;> exact Or.inl rfl
  · exact Or.inl (storeStep_replies cfg s _ _ _ _ _)
  · exact Or.inl (checkStep_replies cfg s _ _)
  · exact Or.inl (selectStep_replies s _ _)
  · unfold signalStep
    split
    next hphase => exact Or.inr ⟨hphase, rfl⟩
    · exact Or.inl rfl
    · exact Or.inl rfl
  · exact Or.inl rfl

end Replies

/-! ### Runs -/

lemma Inv.start (cfg : Config) (mem : Mem) : (start cfg mem).Inv :=
  ⟨⟨.start cfg mem, ⟨by simp [tickets, DispatchTask.start], by simp [tickets, DispatchTask.start], rfl⟩,
    List.not_mem_nil⟩, trivial⟩

theorem inv_of_reach {mem : Mem} (h : Reach (exec cfg) (Sound cfg) (start cfg mem) s) : s.Inv :=
  h.invariant (.start cfg mem) fun _ act hinv hsound => hinv.exec act hsound

/-- What the requester may rely on: everything that was stored or flushed is confirmed or overwritten,
nothing is pending, and no upload of a stored item is under way. -/
structure Reached (s : DispatchTask) : Prop where
  stored : ∀ src, ∀ n ∈ (s.streams src).stored, (s.streams src).Settled n
  flushed : ∀ packet ∈ s.flushed, ∃ n, packet = some n ∧ (s.streams .data).Settled n
  pending : ∀ src, s.pending src = none
  uploads : ∀ upload ∈ s.uploads, upload.2.confirmHandle = none

/-- At the signal `DispatchDrained`. -/
lemma Inv.reached (h : s.Inv) (hphase : s.phase = .reply) : s.waiting ≠ [] ∧ s.Reached := by
  have hok := h.phase
  rw [hphase] at hok
  obtain ⟨⟨hactive, hpending⟩, hdrained⟩ := hok
  have hsettled : ∀ src, ∀ n ∈ (s.streams src).stored, (s.streams src).Settled n :=
    fun src n hn => (hdrained src).settled (h.stock.inv src) hn
  refine ⟨h.tickets.waiting.mp hactive, hsettled, fun packet hpacket => ?_, hpending,
    fun upload hupload => ?_⟩
  · cases packet with
    | none => exact absurd hpacket h.stored
    | some n => exact ⟨n, rfl, hsettled .data n (h.stock.flushed n hpacket)⟩
  · cases hitem : upload.2.confirmHandle with
    | none => rfl
    | some n =>
      have hheld : n ∈ uploaded s.uploads upload.1 :=
        List.mem_filterMap.mpr ⟨upload, hupload, by simp [hitem]⟩
      have hlive := (h.stock.handles upload.1).mem_iff.mpr
        (List.mem_append_right [] (List.mem_append_right _ hheld))
      rw [(hdrained upload.1).1] at hlive
      cases hlive

/-- **The dispatch barrier**: in every run in which the sequence numbers do not wrap and flushed packets
are stored, a reply is made only when everything is settled, and it answers the requests that wait, of
which there are some; and each request is answered once, waits for its reply, or was not taken yet. -/
theorem barrier_of_reach (cfg : Config) (mem : Mem) (s : DispatchTask)
    (h : Reach (exec cfg) (Sound cfg) (start cfg mem) s) :
    (∀ act, (s.exec cfg act).replies = s.replies ∨
      (s.exec cfg act).replies = s.replies ++ [s.waiting] ∧ s.waiting ≠ [] ∧ s.Reached) ∧
    s.replies.flatten ++ s.waiting ++ s.flagged = List.range s.requests := by
  have hinv := inv_of_reach h
  refine ⟨fun act => ?_, hinv.tickets.once⟩
  rcases exec_replies cfg s act with hsame | ⟨hphase, hreply⟩
  · exact Or.inl hsame
  · exact Or.inr ⟨hreply, hinv.reached hphase⟩

/-- An event is under way when a barrier is requested, a packet is flushed, and both are confirmed. -/
def flushedActs : List Act :=
  idleActs ++ storeEventActs ++ [.transmit true, .request, callOk, callOk, .signal, .takeRequest, callOk,
    callOk, .flush (some packet), callOk, .flush none] ++ [callOk, callOk, .transmit true,
    .settle 0 true, .settle 0 true, callOk, callOk, .flush none, callOk, callOk]

theorem barrier_of_reach_flushed :
    let s := dispatchRun (fun _ => erased) flushedActs
    (s.exec dispatchConfig .signal).replies = [[0]] ∧ s.flushed = [some 0] ∧ s.Reached := by
  intro s
  have hreplies : (s.exec dispatchConfig .signal).replies = [[0]] ∧ s.replies = [] ∧
      s.flushed = [some 0] := by decide +kernel
  have h := (barrier_of_reach dispatchConfig (fun _ => erased) s
    (.run flushedActs .start (by decide +kernel))).1 .signal
  refine ⟨hreplies.1, hreplies.2.2, ?_⟩
  rcases h with hsame | ⟨-, -, hreached⟩
  · rw [hreplies.1, hreplies.2.1] at hsame
    cases hsame
  · exact hreached

/-- A packet that is flushed cannot be stored, and is sent without a handle. -/
def unstoredRun : DispatchTask :=
  dispatchRun (fun _ => erased) <| idleActs ++ [.request, .takeRequest, callOk, callOk, .flush (some packet),
    .call ⟨[.ok, .error], []⟩ true, .flush none, callOk, callOk] ++ transmitActs ++
    [.flush none, callOk, callOk]

/-- Six events are stored at the numbers `2 ^ 32 - 2` to `3`. The first is dropped twice, the second time
when the others are confirmed. -/
def wrappedRun : DispatchTask :=
  dispatchRun lastEventsMem <| idleActs ++ (List.replicate 6 storeEventActs).flatten ++ transmitActs ++
    [.transmit true, .settle 1 true, .settle 0 false, callOk, callOk] ++
    (List.replicate 4 transmitActs).flatten ++ [.transmit true, .settle 0 false, .settle 0 true,
    .settle 0 true, .settle 0 true, .settle 0 true, .request, callOk, callOk, .signal, .takeRequest,
    callOk, callOk, .flush none, callOk, callOk]

/-- The barrier is reported while the flushed packet is under way, and when an event is not confirmed. -/
theorem barrier_fails :
    ((unstoredRun.exec dispatchConfig .signal).replies = [[0]] ∧ ¬ unstoredRun.Reached ∧
      unstoredRun.flushed = [none] ∧ unstoredRun.uploads = [(.data, ⟨packet, none⟩)]) ∧
    (wrappedRun.exec dispatchConfig .signal).replies = [[0]] ∧ ¬ wrappedRun.Reached ∧
      2 ^ 32 - 2 ∈ (wrappedRun.streams .event).stored ∧
      ¬ (wrappedRun.streams .event).Settled (2 ^ 32 - 2) := by
  have hunstored : (unstoredRun.exec dispatchConfig .signal).replies = [[0]] ∧
      unstoredRun.flushed = [none] ∧ unstoredRun.uploads = [(.data, ⟨packet, none⟩)] := by
    decide +kernel
  have hwrapped : (wrappedRun.exec dispatchConfig .signal).replies = [[0]] ∧
      2 ^ 32 - 2 ∈ (wrappedRun.streams .event).stored ∧
      ¬ (wrappedRun.streams .event).Settled (2 ^ 32 - 2) := by
    decide +kernel
  refine ⟨⟨hunstored.1, fun hreached => ?_, hunstored.2⟩, hwrapped.1, fun hreached => ?_, hwrapped.2⟩
  · obtain ⟨n, hn, -⟩ := hreached.flushed none (by rw [hunstored.2.1]; exact List.mem_cons_self)
    cases hn
  · exact hwrapped.2.2 (hreached.stored .event _ hwrapped.2.1)

end DispatchTask

end SensorLink.Dispatch
