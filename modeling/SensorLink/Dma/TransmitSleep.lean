import SensorLink.Dma.TransmitSent

/-!
# A write does not hang

A task that is suspended in a write or in a flush is woken by what it waits for, by a failed transfer, by an
abort and by `suspend`: no interleaving of the contexts leaves it asleep over any of them.
-/

namespace SensorLink.Dma.Transmit

open SensorLink.Lib

namespace Uart

variable (u : Uart)

/-- The engine works on the transfer, or there is a reason why not. A transfer with nothing left is complete. -/
def Armed : Prop :=
  (u.channel.en = true ∨ u.channel.teif = true ∨ u.oneshotAbort = true) ∧
    (u.channel.ndtr = 0 → u.channel.tcif = true)

/-- The waker that `suspend` and the handler of the peripheral wake is registered, or was woken. -/
def TxSeen : Prop := u.woken = true ∨ u.txWaker = true

/-- The waker of the channel is registered, or was woken. -/
def DmaSeen : Prop := u.woken = true ∨ u.dmaWaker = true

/-- The handler of the channel will run when the transfer ends, runs, or has woken the task. -/
def Interruptible : Prop := u.woken = true ∨ u.channel.ie = true ∨ u.isr = true

/-- The end of the transmission is seen, or interrupts. -/
def Completing : Prop := u.tc = true ∨ u.tcie = true ∨ u.resumed = true

/-- A suspended write: whatever happens to its transfer has woken the task, or is about to. -/
structure Suspended : Prop where
  armed : u.Armed
  tx : u.TxSeen
  dma : u.DmaSeen
  interruptible : u.Interruptible
  abort : u.oneshotAbort = true → u.woken = true ∨ u.control = .halt ∨ u.control = .wakeDma
  halt : u.control = .halt → u.oneshotAbort = true
  suspend : u.state = .suspended → u.woken = true ∨ u.control ≠ .idle

/-- A suspended flush -/
structure Flushing : Prop where
  completing : u.Completing
  tx : u.TxSeen
  interrupt : u.woken = true ∨ u.tcie = true ∨ u.resumed = true
  suspend : u.state = .suspended → u.woken = true ∨ u.control ≠ .idle

/-- What the task knows: in the middle of a poll the control context does not run. -/
def TaskInv : Prop :=
  match u.point with
  | .checkSuspended => u.Armed
  | .registerTx => u.Armed ∧ u.state ≠ .suspended
  | .registerDma => u.Armed ∧ u.state ≠ .suspended ∧ u.TxSeen
  | .flags | .swapAbort => u.Armed ∧ u.state ≠ .suspended ∧ u.TxSeen ∧ u.DmaSeen
  | .reenable => u.Armed ∧ u.state ≠ .suspended ∧ u.TxSeen ∧ u.DmaSeen ∧ u.oneshotAbort = false
  | .pending => u.Suspended
  | .flushSuspended => u.Completing
  | .flushRegister => u.Completing ∧ u.state ≠ .suspended
  | .flushTc => u.Completing ∧ u.state ≠ .suspended ∧ u.TxSeen
  | .flushPending => u.Flushing
  | _ => True

structure Sleep : Prop where
  enabled : u.state ≠ .suspended → u.ue = true
  suspending : u.control ≠ .idle → u.state = .suspended
  task : u.TaskInv

end Uart

namespace Uart

variable {ch : DmaCh} {u u' : Uart}

lemma sleep_new : new.Sleep := by
  refine ⟨?_, ?_, trivial⟩ <;> simp [new]

/-- What the hardware and the handlers do -/
structure Keeps (u u' : Uart) : Prop where
  point : u'.point = u.point
  control : u'.control = u.control
  state : u'.state = .suspended ↔ u.state = .suspended
  abort : u'.oneshotAbort = u.oneshotAbort
  woken : u.woken = true → u'.woken = true
  armed : u.Armed → u'.Armed
  tx : u.TxSeen → u'.TxSeen
  dma : u.DmaSeen → u'.DmaSeen
  interruptible : u.DmaSeen → u.Interruptible → u'.Interruptible
  completing : u.point.down = true → u.Completing → u'.Completing
  interrupt : u.TxSeen → (u.woken = true ∨ u.tcie = true ∨ u.resumed = true) →
    u'.woken = true ∨ u'.tcie = true ∨ u'.resumed = true

lemma Suspended.keep (h : u.Suspended) (hk : Keeps u u') : u'.Suspended where
  armed := hk.armed h.armed
  tx := hk.tx h.tx
  dma := hk.dma h.dma
  interruptible := hk.interruptible h.dma h.interruptible
  abort ha := by
    rw [hk.control]
    exact (h.abort (hk.abort ▸ ha)).imp_left hk.woken
  halt hc := hk.abort.trans (h.halt (hk.control ▸ hc))
  suspend hs := by
    rw [hk.control]
    exact (h.suspend (hk.state.mp hs)).imp_left hk.woken

lemma Flushing.keep (h : u.Flushing) (hdown : u.point.down = true) (hk : Keeps u u') : u'.Flushing where
  completing := hk.completing hdown h.completing
  tx := hk.tx h.tx
  interrupt := hk.interrupt h.tx h.interrupt
  suspend hs := by
    rw [hk.control]
    exact (h.suspend (hk.state.mp hs)).imp_left hk.woken

lemma Sleep.keep (h : u.Sleep) (hk : Keeps u u') (hue : u'.ue = u.ue) : u'.Sleep := by
  have hstate := not_congr hk.state
  refine ⟨fun hs => hue.trans (h.enabled (hstate.mp hs)), fun hc => ?_, ?_⟩
  · exact hk.state.mpr (h.suspending (hk.control ▸ hc))
  · have htask := h.task
    have hcompleting := hk.completing
    unfold TaskInv at htask ⊢
    rw [hk.point]
    cases hp : u.point with
    | checkSuspended =>
      rw [hp] at htask
      exact hk.armed htask
    | registerTx =>
      rw [hp] at htask
      exact ⟨hk.armed htask.1, hstate.mpr htask.2⟩
    | registerDma =>
      rw [hp] at htask
      exact ⟨hk.armed htask.1, hstate.mpr htask.2.1, hk.tx htask.2.2⟩
    | flags | swapAbort =>
      rw [hp] at htask
      exact ⟨hk.armed htask.1, hstate.mpr htask.2.1, hk.tx htask.2.2.1, hk.dma htask.2.2.2⟩
    | reenable =>
      rw [hp] at htask
      obtain ⟨harmed, hs, htx, hdma, habort⟩ := htask
      exact ⟨hk.armed harmed, hstate.mpr hs, hk.tx htx, hk.dma hdma, hk.abort.trans habort⟩
    | pending =>
      rw [hp] at htask
      exact htask.keep hk
    | flushSuspended =>
      rw [hp] at htask hcompleting
      exact hcompleting rfl htask
    | flushRegister =>
      rw [hp] at htask hcompleting
      exact ⟨hcompleting rfl htask.1, hstate.mpr htask.2⟩
    | flushTc =>
      rw [hp] at htask hcompleting
      exact ⟨hcompleting rfl htask.1, hstate.mpr htask.2.1, hk.tx htask.2.2⟩
    | flushPending =>
      rw [hp] at htask
      exact htask.keep (by rw [hp]; rfl) hk
    | _ => trivial

lemma Keeps.refl : Keeps u u :=
  ⟨rfl, rfl, Iff.rfl, rfl, id, id, id, id, fun _ => id, fun _ => id, fun _ => id⟩

lemma keeps_wakeTx {tcie : Bool} (htc : u.tc = true) : Keeps u ({ u with tcie := tcie }.wakeTx) where
  point := rfl
  control := rfl
  state := Iff.rfl
  abort := rfl
  woken h := by simp [wakeTx, h]
  armed := id
  tx h := .inl (by simpa [wakeTx, TxSeen] using h)
  dma h := by
    rcases h with h | h
    · exact .inl (by simp [wakeTx, h])
    · exact .inr h
  interruptible _ h := by
    rcases h with h | h
    · exact .inl (by simp [wakeTx, h])
    · exact .inr h
  completing _ _ := .inl htc
  interrupt h _ := .inl (by simpa [wakeTx, TxSeen] using h)

lemma keeps_active (hs : u.state ≠ .suspended) : Keeps u { u with state := .active } where
  point := rfl
  control := rfl
  state := by simp [hs]
  abort := rfl
  woken := id
  armed := id
  tx := id
  dma := id
  interruptible _ := id
  completing _ := id
  interrupt _ := id

lemma Keeps.trans {u'' : Uart} (h : Keeps u u') (h' : Keeps u' u'') : Keeps u u'' where
  point := h'.point.trans h.point
  control := h'.control.trans h.control
  state := h'.state.trans h.state
  abort := h'.abort.trans h.abort
  woken hw := h'.woken (h.woken hw)
  armed ha := h'.armed (h.armed ha)
  tx ht := h'.tx (h.tx ht)
  dma hd := h'.dma (h.dma hd)
  interruptible hd hi := h'.interruptible (h.dma hd) (h.interruptible hd hi)
  completing hp hc := h'.completing (h.point ▸ hp) (h.completing hp hc)
  interrupt ht hi := h'.interrupt (h.tx ht) (h.interrupt ht hi)

lemma keeps_usartIsr : Keeps u u.usartIsr := by
  unfold usartIsr
  split_ifs with hs hirq hresuming hresuming
  · exact .refl
  · have htc : u.tc = true := by
      simp only [Bool.and_eq_true] at hirq
      exact hirq.1
    exact (keeps_wakeTx htc).trans (keeps_active hs)
  · simp only [Bool.and_eq_true] at hirq
    exact keeps_wakeTx hirq.1
  · exact keeps_active hs
  · exact .refl

/-- The handler of the channel clears the enables when it is entered, and wakes then. -/
lemma keeps_dmaIsr : Keeps u u.stepDmaIsr := by
  unfold stepDmaIsr
  split_ifs
  · refine ⟨rfl, rfl, Iff.rfl, rfl, fun h => by simp [wakeDma, h], id, ?_, ?_, ?_, fun _ => id, ?_⟩
    · rintro (h | h)
      · exact .inl (by simp [wakeDma, h])
      · exact .inr h
    · exact fun h => .inl (by simpa [wakeDma, DmaSeen] using h)
    · exact fun h _ => .inl (by simpa [wakeDma, DmaSeen] using h)
    · rintro - (h | h)
      · exact .inl (by simp [wakeDma, h])
      · exact .inr h
  · exact ⟨rfl, rfl, Iff.rfl, rfl, id, id, id, id, fun _ _ => .inr (.inr rfl), fun _ => id, fun _ => id⟩
  · exact .refl

lemma keeps_beat (hvotes : Votes ch u.clock u.channel u.point) : Keeps u u.beat := by
  unfold beat
  split_ifs with hrun
  · cases hndtr : u.channel.ndtr with
    | zero => exact .refl
    | succ left =>
      have hen : u.channel.en = true := by
        simp only [Bool.and_eq_true] at hrun
        exact hrun.1.1
      refine ⟨rfl, rfl, Iff.rfl, rfl, id, fun h => ⟨h.1, fun hleft => ?_⟩, id, id, fun _ => id, fun hdown => ?_,
        fun _ => id⟩
      · have hzero : left = 0 := hleft
        simp [hzero]
      · rw [(hvotes.unheld (hvotes.down hdown)).1] at hen
        cases hen
  · exact .refl

lemma keeps_fault : Keeps u u.fault := by
  unfold fault
  split_ifs
  · exact ⟨rfl, rfl, Iff.rfl, rfl, id, fun h => ⟨.inr (.inl rfl), h.2⟩, id, id, fun _ => id, fun _ => id,
      fun _ => id⟩
  · exact .refl

lemma keeps_transmitted : Keeps u { u with tc := true } :=
  ⟨rfl, rfl, Iff.rfl, rfl, id, id, id, id, fun _ => id, fun _ _ => .inl rfl, fun _ => id⟩

lemma keeps_clock (k : Clock) : Keeps u { u with clock := k } :=
  ⟨rfl, rfl, Iff.rfl, rfl, id, id, id, id, fun _ => id, fun _ => id, fun _ => id⟩

/-! ### The control context -/

/-- The control context runs while the task is at rest. -/
lemma Sleep.rest (h : u.Sleep) (hrest : u.AtRest) (hpoint : u'.point = u.point)
    (henabled : u'.state ≠ .suspended → u'.ue = true)
    (hsuspending : u'.control ≠ .idle → u'.state = .suspended)
    (hpending : u.Suspended → u'.Suspended) (hflush : u.Flushing → u'.Flushing) : u'.Sleep := by
  refine ⟨henabled, hsuspending, ?_⟩
  have htask := h.task
  unfold TaskInv at htask ⊢
  rw [hpoint]
  rcases hrest with hp | hp | hp <;> rw [hp] at htask ⊢
  · trivial
  · exact hpending htask
  · exact hflush htask

/-- A step of `suspend` -/
lemma Sleep.control (h : u.Sleep) (hrest : u.AtRest) : (u.stepControl ch).Sleep := by
  unfold stepControl
  cases hc : u.control with
  | idle => exact h
  | abort =>
    have hs := h.suspending (by simp [hc])
    refine h.rest hrest rfl h.enabled (fun _ => hs) (fun hp => ?_) (fun hf => ?_)
    · exact ⟨⟨.inr (.inr rfl), hp.armed.2⟩, hp.tx, hp.dma, hp.interruptible, fun _ => .inr (.inl rfl),
        fun _ => rfl,
        fun _ => .inr (by simp)⟩
    · exact ⟨hf.completing, hf.tx, hf.interrupt, fun _ => .inr (by simp)⟩
  | halt =>
    have hs := h.suspending (by simp [hc])
    refine h.rest hrest rfl h.enabled (fun _ => hs) (fun hp => ?_) (fun hf => ?_)
    · exact ⟨⟨.inr (.inr (hp.halt hc)), hp.armed.2⟩, hp.tx, hp.dma, hp.interruptible, fun _ => .inr (.inr rfl),
        by simp, fun _ => .inr (by simp)⟩
    · exact ⟨hf.completing, hf.tx, hf.interrupt, fun _ => .inr (by simp)⟩
  | wakeDma =>
    have hs := h.suspending (by simp [hc])
    refine h.rest hrest rfl h.enabled (fun _ => hs) (fun hp => ?_) (fun hf => ?_)
    · have hwoken : (u.woken || u.dmaWaker) = true := by simpa [DmaSeen] using hp.dma
      exact ⟨hp.armed, .inl hwoken, .inl hwoken, .inl hwoken, fun _ => .inl hwoken, by simp, fun _ => .inl hwoken⟩
    · refine ⟨hf.completing, ?_, ?_, fun _ => .inr (by simp)⟩
      · exact hf.tx.imp_left fun hw => by simp [wakeDma, hw]
      · exact hf.interrupt.imp_left fun hw => by simp [wakeDma, hw]
  | deinit =>
    have hs := h.suspending (by simp [hc])
    refine h.rest hrest rfl (fun hne => absurd hs hne) (fun _ => hs) (fun hp => ?_) (fun hf => ?_)
    · refine ⟨hp.armed, hp.tx, hp.dma, hp.interruptible, fun ha => ?_, by simp, fun _ => .inr (by simp)⟩
      rcases hp.abort ha with hw | hc' | hc'
      · exact .inl hw
      · simp [hc] at hc'
      · simp [hc] at hc'
    · exact ⟨hf.completing, hf.tx, hf.interrupt, fun _ => .inr (by simp)⟩
  | wakeTx =>
    have hs := h.suspending (by simp [hc])
    refine h.rest hrest rfl h.enabled (by simp) (fun hp => ?_) (fun hf => ?_)
    · have hwoken : (u.woken || u.txWaker) = true := by simpa [TxSeen] using hp.tx
      exact ⟨hp.armed, .inl hwoken, .inl hwoken, .inl hwoken, fun _ => .inl hwoken, by simp, fun _ => .inl hwoken⟩
    · have hwoken : (u.woken || u.txWaker) = true := by simpa [TxSeen] using hf.tx
      exact ⟨hf.completing, .inl hwoken, .inl hwoken, fun _ => .inl hwoken⟩

lemma Sleep.request (h : u.Sleep) (hrest : u.AtRest) (hidle : u.control = .idle) (r : Request) :
    (u.request ch r).Sleep := by
  cases r with
  | suspend =>
    simp only [Uart.request]
    split_ifs with hs
    · refine h.rest hrest rfl (by simp) (fun _ => rfl) (fun hp => ?_) (fun hf => ?_)
      · refine ⟨hp.armed, hp.tx, hp.dma, hp.interruptible, fun ha => ?_, by simp, fun _ => .inr (by simp)⟩
        rcases hp.abort ha with hw | hc | hc
        · exact .inl hw
        · simp [hidle] at hc
        · simp [hidle] at hc
      · exact ⟨hf.completing, hf.tx, hf.interrupt, fun _ => .inr (by simp)⟩
    · exact h
  | resume =>
    simp only [Uart.request]
    split_ifs with hs
    · refine h.rest hrest rfl (fun _ => rfl) (fun hc => absurd hidle hc) (fun hp => ?_) (fun hf => ?_)
      -- the task was woken, and not polled since
      · have hwoken : u.woken = true := (hp.suspend hs).resolve_right (by simp [hidle])
        exact ⟨hp.armed, .inl hwoken, .inl hwoken, .inl hwoken, fun _ => .inl hwoken, hp.halt, by simp⟩
      · exact ⟨.inr (.inr rfl), hf.tx, .inr (.inr rfl), by simp⟩
    · exact h
  | setBaudRate =>
    simp only [Uart.request]
    split_ifs with hs
    · exact h
    · refine h.rest hrest rfl h.enabled (fun hc => absurd hidle hc) (fun hp => ?_) (fun hf => ?_)
      · have hwoken : (u.woken || u.dmaWaker) = true := by simpa [DmaSeen] using hp.dma
        exact ⟨⟨.inr (.inr rfl), hp.armed.2⟩, .inl hwoken, .inl hwoken, .inl hwoken, fun _ => .inl hwoken,
          fun _ => rfl, fun _ => .inl hwoken⟩
      · refine ⟨hf.completing, ?_, ?_, fun hs' => absurd hs' hs⟩
        · exact hf.tx.imp_left fun hw => by simp [wakeDma, haltIfClocked, requestAbort, hw]
        · exact hf.interrupt.imp_left fun hw => by simp [wakeDma, haltIfClocked, requestAbort, hw]

/-! ### The task -/

/-- The task goes on, and leaves the control context and the peripheral alone. -/
lemma Sleep.move (h : u.Sleep) (hstate : u'.state = u.state) (hue : u'.ue = u.ue) (hcontrol : u'.control = u.control)
    (htask : u'.TaskInv) : u'.Sleep := by
  refine ⟨fun hs => hue.trans (h.enabled (hstate ▸ hs)), fun hc => ?_, htask⟩
  exact hstate.trans (h.suspending (hcontrol ▸ hc))

lemma Sleep.task_step (h : u.Sleep) (hcalls : Calls u) (empty : Bool) : (u.stepTask ch empty).Sleep := by
  have htask := h.task
  unfold TaskInv at htask
  cases hp : u.point with
  | idle =>
    simp only [stepTask, hp]
    exact h
  | begin | checkChunk =>
    simp only [stepTask, hp]
    split_ifs <;> exact h.move rfl rfl rfl trivial
  | clearAbort | stage | hold | clearFlags | flushBegin =>
    simp only [stepTask, hp]
    (try split_ifs) <;> exact h.move rfl rfl rfl trivial
  | start =>
    have hsent := hcalls.sent
    rw [SentInv, hp] at hsent
    simp only [stepTask, hp]
    refine h.move rfl rfl rfl ⟨.inl rfl, fun hndtr => ?_⟩
    exact absurd (List.length_eq_zero_iff.mp hndtr) hsent.2.1
  | checkSuspended =>
    rw [hp] at htask
    simp only [stepTask, hp]
    split_ifs with hs
    · exact h.move rfl rfl rfl trivial
    · exact h.move rfl rfl rfl ⟨htask, hs⟩
  | registerTx =>
    rw [hp] at htask
    simp only [stepTask, hp]
    exact h.move rfl rfl rfl ⟨htask.1, htask.2, .inr rfl⟩
  | registerDma =>
    rw [hp] at htask
    simp only [stepTask, hp]
    exact h.move rfl rfl rfl ⟨htask.1, htask.2.1, htask.2.2, .inr rfl⟩
  | flags =>
    rw [hp] at htask
    simp only [stepTask, hp]
    split_ifs
    · exact h.move rfl rfl rfl trivial
    · exact h.move rfl rfl rfl trivial
    · exact h.move rfl rfl rfl htask
  | swapAbort =>
    rw [hp] at htask
    simp only [stepTask, hp]
    split_ifs with habort
    · exact h.move rfl rfl rfl trivial
    · refine h.move rfl rfl rfl ⟨⟨?_, htask.1.2⟩, htask.2.1, htask.2.2.1, htask.2.2.2, rfl⟩
      rcases htask.1.1 with hen | hteif | ha
      · exact .inl hen
      · exact .inr (.inl hteif)
      · exact absurd ha habort
  | reenable =>
    rw [hp] at htask
    obtain ⟨harmed, hs, htx, hdma, habort⟩ := htask
    have hidle : u.control = .idle := by
      by_contra hc
      exact hs (h.suspending hc)
    simp only [stepTask, hp]
    exact h.move rfl rfl rfl ⟨harmed, htx, hdma, .inr (.inl rfl), by simp [habort], by simp [hidle],
      fun hs' => absurd hs' hs⟩
  | pending =>
    rw [hp] at htask
    simp only [stepTask, hp]
    exact h.move rfl rfl rfl htask.armed
  | stopping step =>
    simp only [stepTask, hp]
    cases step <;> simp only [stopStep] <;> (try split_ifs) <;> exact h.move rfl rfl rfl trivial
  | dropping step after =>
    simp only [stepTask, hp]
    cases step <;> simp only [cancelStep, stopStep] <;> (try split_ifs) <;> (try cases after) <;>
      exact h.move rfl rfl rfl trivial
  | flushEnable =>
    simp only [stepTask, hp]
    exact h.move rfl rfl rfl (.inr (.inl rfl))
  | flushSuspended =>
    rw [hp] at htask
    simp only [stepTask, hp]
    split_ifs with hs
    · exact h.move rfl rfl rfl trivial
    · exact h.move rfl rfl rfl ⟨htask, hs⟩
  | flushRegister =>
    rw [hp] at htask
    simp only [stepTask, hp]
    exact h.move rfl rfl rfl ⟨htask.1, htask.2, .inr rfl⟩
  | flushTc =>
    rw [hp] at htask
    obtain ⟨hcompleting, hs, htx⟩ := htask
    simp only [stepTask, hp]
    split_ifs with htc
    · exact h.move rfl rfl rfl trivial
    · exact h.move rfl rfl rfl ⟨hcompleting, htx, .inr (hcompleting.resolve_left htc), fun hs' => absurd hs' hs⟩
  | flushPending =>
    rw [hp] at htask
    simp only [stepTask, hp]
    exact h.move rfl rfl rfl htask.completing

lemma Sleep.exec (h : u.Sleep) (hvotes : Votes ch u.clock u.channel u.point) (hcalls : Calls u) (op : Op)
    (hg : u.Guard ch op) : (u.exec ch op).Sleep := by
  cases op with
  | write words =>
    simp only [Uart.exec]
    split_ifs
    · exact h.move rfl rfl rfl trivial
    · exact h
  | flush =>
    simp only [Uart.exec]
    split_ifs
    · exact h.move rfl rfl rfl trivial
    · exact h
  | step empty => exact h.task_step hcalls empty
  | cancel =>
    simp only [Uart.exec]
    split
    · exact h.move rfl rfl rfl trivial
    · exact h.move rfl rfl rfl trivial
    · exact h
  | request r =>
    simp only [Uart.exec]
    split_ifs with hidle
    · exact h.request hg.2 hidle r
    · exact h
  | control => exact h.control hg.2
  | dmaIsr =>
    refine h.keep keeps_dmaIsr ?_
    simp only [Uart.exec, stepDmaIsr]
    split_ifs <;> rfl
  | usartIsr =>
    refine h.keep keeps_usartIsr ?_
    simp only [Uart.exec, usartIsr]
    split_ifs <;> rfl
  | beat =>
    refine h.keep (keeps_beat hvotes) ?_
    simp only [Uart.exec, beat]
    split_ifs
    · cases u.channel.ndtr <;> rfl
    · rfl
  | fault =>
    refine h.keep keeps_fault ?_
    simp only [Uart.exec, fault]
    split_ifs <;> rfl
  | transmitted => exact h.keep keeps_transmitted rfl
  | hold other => exact h.keep (keeps_clock _) rfl
  | release other => exact h.keep (keeps_clock _) rfl

lemma Run.sleep (h : u.Run ch) : u.Sleep := by
  refine (h.invariant (P := fun u => Votes ch u.clock u.channel u.point ∧ Calls u ∧ u.Sleep)
    ⟨votes_new, calls_new, sleep_new⟩ ?_).2.2
  rintro u op ⟨hvotes, hcalls, hsleep⟩ hg
  exact ⟨votes_exec hvotes op hg, hcalls.exec hvotes op, hsleep.exec hvotes hcalls op hg⟩

/-! ### What a suspended task waits for -/

/-- The control context is done, and no handler runs or is about to. -/
def Quiet (u : Uart) : Prop := u.control = .idle ∧ u.Unpreempted ∧ ¬ (u.tc = true ∧ u.tcie = true)

instance (u : Uart) : Decidable u.Quiet := inferInstanceAs (Decidable (_ ∧ _ ∧ _))

/-- The engine moves the rest of the chunk. -/
lemma beats (ch : DmaCh) {n : ℕ} (hndtr : u.channel.ndtr = n + 1) (hen : u.channel.en = true)
    (hon : u.clock.on = true) (hue : u.ue = true) :
    let u' := (List.replicate (n + 1) Op.beat).foldl (exec ch) u
    u'.channel.tcif = true ∧ u'.channel.ie = u.channel.ie ∧ u'.isr = u.isr ∧ u'.dmaWaker = u.dmaWaker := by
  induction n generalizing u with
  | zero => simp [List.replicate, exec, beat, hen, hon, hue, hndtr]
  | succ n ih =>
    rw [List.replicate_succ, List.foldl_cons]
    have hbeat : exec ch u .beat = { u with
        channel := { u.channel with ndtr := n + 1, mar := u.channel.mar + 1, tcif := u.channel.tcif || n + 1 == 0 }
        sent := u.sent ++ (u.scratch.drop u.channel.mar).take 1
        tc := false } := by
      simp [exec, beat, hen, hon, hue, hndtr]
    rw [hbeat]
    exact ih rfl hen hon hue

/-- The handler of a complete transfer runs. -/
lemma woken_of_complete (htcif : u.channel.tcif = true) (hie : u.channel.ie = true) (hisr : u.isr = false)
    (hdma : u.dmaWaker = true) : (([Op.dmaIsr, Op.dmaIsr]).foldl (exec ch) u).woken = true := by
  simp [exec, stepDmaIsr, hisr, Channel.irq, hie, htcif, wakeDma, hdma]

end Uart

open Uart in
/-- **A write does not hang.** In every reachable state in which the control context and the handlers are done, a
task that is suspended in a write and not woken waits for a transfer that is under way: the peripheral and the
channel are enabled and clocked, bytes are left, no abort is requested; and when the engine has moved them, the
handler wakes the task. A task that is suspended in a flush waits for the end of the transmission, which wakes it,
unless the peripheral was suspended and resumed meanwhile. -/
theorem write_wakes {ch : DmaCh} {u : Uart} (h : u.Run ch) (hquiet : u.Quiet) (hasleep : u.woken = false) :
    (u.point = .pending →
      u.state ≠ .suspended ∧ u.ue = true ∧ u.clock.on = true ∧ u.channel.en = true ∧ 0 < u.channel.ndtr ∧
      u.oneshotAbort = false ∧
      ((List.replicate u.channel.ndtr Op.beat ++ [Op.dmaIsr, Op.dmaIsr]).foldl (exec ch) u).woken = true) ∧
    (u.point = .flushPending →
      u.state ≠ .suspended ∧ u.ue = true ∧
      (u.resumed = false → u.tc = false ∧ (([Op.transmitted, .usartIsr]).foldl (exec ch) u).woken = true)) := by
  obtain ⟨hidle, ⟨hisr, hirq⟩, htc⟩ := hquiet
  have hsleep := h.sleep
  have htask := hsleep.task
  have hnot : ¬ u.woken = true := by simp [hasleep]
  refine ⟨fun hp => ?_, fun hp => ?_⟩
  · rw [TaskInv, hp] at htask
    have hstate : u.state ≠ .suspended := by
      intro hs
      exact (htask.suspend hs).elim hnot (absurd hidle)
    have habort : u.oneshotAbort = false := by
      by_contra ha
      rcases htask.abort (by simpa using ha) with hw | hc | hc
      · exact hnot hw
      · simp [hidle] at hc
      · simp [hidle] at hc
    have hie : u.channel.ie = true := by
      rcases htask.interruptible with hw | hie | hi
      · exact absurd hw hnot
      · exact hie
      · simp [hisr] at hi
    obtain ⟨htcif, hteif⟩ : u.channel.tcif = false ∧ u.channel.teif = false := by
      simpa [Channel.irq, hie] using hirq
    have hen : u.channel.en = true := by
      rcases htask.armed.1 with hen | ht | ha
      · exact hen
      · simp [hteif] at ht
      · simp [habort] at ha
    have hleft : 0 < u.channel.ndtr := by
      rcases Nat.eq_zero_or_pos u.channel.ndtr with hz | hpos
      · simp [htask.armed.2 hz] at htcif
      · exact hpos
    have hue := hsleep.enabled hstate
    have hon := (h.held (.inr (.inr hen))).2
    refine ⟨hstate, hue, hon, hen, hleft, habort, ?_⟩
    obtain ⟨n, hn⟩ : ∃ n, u.channel.ndtr = n + 1 := ⟨u.channel.ndtr - 1, by omega⟩
    obtain ⟨hdone, hie', hisr', hdma'⟩ := beats ch hn hen hon hue
    rw [hn, List.foldl_append]
    exact woken_of_complete hdone (hie'.trans hie) (hisr'.trans hisr)
      (hdma'.trans (htask.dma.resolve_left hnot))
  · rw [TaskInv, hp] at htask
    have hstate : u.state ≠ .suspended := by
      intro hs
      exact (htask.suspend hs).elim hnot (absurd hidle)
    refine ⟨hstate, hsleep.enabled hstate, fun hresumed => ?_⟩
    have htcie : u.tcie = true := by
      rcases htask.interrupt with hw | ht | hr
      · exact absurd hw hnot
      · exact ht
      · simp [hresumed] at hr
    refine ⟨by simpa [htcie] using htc, ?_⟩
    have htx := htask.tx.resolve_left hnot
    simp only [List.foldl_cons, List.foldl_nil, exec, usartIsr, hstate, if_false, htcie, Bool.and_self, if_true]
    split_ifs <;> simp [wakeTx, htx]


theorem write_wakes_sample :
    ([Op.beat, Op.beat, Op.dmaIsr, Op.dmaIsr].foldl (Uart.exec txChannel) samplePending).woken = true :=
  ((write_wakes samplePending_run (by decide) (by decide)).1 (by decide)).2.2.2.2.2.2

end SensorLink.Dma.Transmit
