import SensorLink.Dma.Transmit

/-!
# What a write sends

The channel votes for its clock exactly while a transfer lives, and the engine is off outside of it. A write that
succeeds has moved all of its bytes to the data register, each once and in order, and nothing else.
-/

namespace SensorLink.Dma

open SensorLink.Lib

/-! ### Votes -/

section Clock

variable {k : Clock} {ch other : DmaCh}

lemma DmaCh.lt_width : ch.val - 1 < 8 := by
  have h := ch.property
  omega

lemma DmaCh.bit_eq : ch.bit = BitVec.twoPow 8 (ch.val - 1) := by
  rw [DmaCh.bit, BitVec.twoPow_eq]

lemma DmaCh.sub_one_ne (h : other ≠ ch) : ch.val - 1 ≠ other.val - 1 := by
  intro heq
  have h1 := ch.property
  have h2 := other.property
  exact h (Subtype.ext (by omega))

lemma Clock.held_eq : k.held ch = k.hold.getLsbD (ch.val - 1) := by
  rw [Clock.held, DmaCh.bit_eq, BitVec.and_twoPow]
  cases k.hold.getLsbD (ch.val - 1) with
  | false => simp
  | true =>
    have hne : BitVec.twoPow 8 (ch.val - 1) ≠ 0#8 := by
      intro h
      have hbit := congrArg (fun v => v.getLsbD (ch.val - 1)) h
      simp [DmaCh.lt_width] at hbit
    simpa using hne

@[simp] lemma Clock.held_hold : (k.dma1ClkHold ch).held ch = true := by
  rw [Clock.held_eq, Clock.dma1ClkHold, DmaCh.bit_eq]
  simp [DmaCh.lt_width]

@[simp] lemma Clock.held_release : (k.dma1ClkRelease ch).held ch = false := by
  rw [Clock.held_eq, Clock.dma1ClkRelease, DmaCh.bit_eq]
  simp [BitVec.getLsbD_twoPow]

lemma Clock.held_hold_ne (h : other ≠ ch) : (k.dma1ClkHold other).held ch = k.held ch := by
  rw [Clock.held_eq, Clock.held_eq, Clock.dma1ClkHold, DmaCh.bit_eq]
  simp [BitVec.getLsbD_twoPow, Ne.symm (DmaCh.sub_one_ne h)]

lemma Clock.held_release_ne (h : other ≠ ch) : (k.dma1ClkRelease other).held ch = k.held ch := by
  rw [Clock.held_eq, Clock.held_eq, Clock.dma1ClkRelease, DmaCh.bit_eq]
  simpa [DmaCh.lt_width] using fun _ => DmaCh.sub_one_ne h

/-- The clock is on exactly while a channel votes for it. -/
def Clock.Gated (k : Clock) : Prop := k.on = true ↔ k.hold ≠ 0

lemma Clock.Gated.on_of_held (hk : k.Gated) (h : k.held ch = true) : k.on = true := by
  refine hk.mpr fun hzero => ?_
  rw [Clock.held_eq, hzero] at h
  simp at h

lemma Clock.Gated.hold (hk : k.Gated) : (k.dma1ClkHold ch).Gated := by
  have hne : (k.dma1ClkHold ch).hold ≠ 0 := by
    intro hzero
    have hheld : (k.dma1ClkHold ch).held ch = true := Clock.held_hold
    rw [Clock.held_eq, hzero] at hheld
    simp at hheld
  refine ⟨fun _ => hne, fun _ => ?_⟩
  simp only [Clock.dma1ClkHold, Bool.or_eq_true, beq_iff_eq]
  by_cases hzero : k.hold = 0
  · exact .inr hzero
  · exact .inl (hk.mpr hzero)

/-- Without its vote nothing is left of a mask that is empty or the vote alone. -/
lemma Clock.release_eq_zero (hold : BitVec 8) : hold &&& ~~~ch.bit = 0 ↔ hold = 0 ∨ hold = ch.bit := by
  rw [DmaCh.bit_eq]
  constructor
  · intro h
    have hbits : ∀ i, i ≠ ch.val - 1 → hold.getLsbD i = false := by
      intro i hi
      have hbit := congrArg (fun v => v.getLsbD i) h
      by_cases hlt : i < 8
      · rw [BitVec.getLsbD_and, BitVec.getLsbD_not, BitVec.getLsbD_twoPow] at hbit
        simpa [hlt, Ne.symm hi] using hbit
      · exact BitVec.getLsbD_of_ge _ _ (by omega)
    cases hown : hold.getLsbD (ch.val - 1) with
    | false =>
      refine .inl (BitVec.eq_of_getLsbD_eq fun i hi => ?_)
      by_cases heq : i = ch.val - 1
      · rw [heq, hown]
        simp
      · rw [hbits i heq]
        simp
    | true =>
      refine .inr (BitVec.eq_of_getLsbD_eq fun i hi => ?_)
      by_cases heq : i = ch.val - 1
      · rw [heq, hown]
        simp [DmaCh.lt_width]
      · rw [hbits i heq]
        simp [BitVec.getLsbD_twoPow, Ne.symm heq]
  · rintro (rfl | rfl)
    · simp
    · exact BitVec.and_not_self _

lemma Clock.Gated.release (hk : k.Gated) : (k.dma1ClkRelease ch).Gated := by
  simp only [Clock.Gated, Clock.dma1ClkRelease, Bool.and_eq_true, bne_iff_ne, ne_eq, Clock.release_eq_zero, not_or]
  exact and_congr_left fun _ => hk

end Clock

namespace Transmit

/-- No transfer lives: the task has none, or it has released the clock of the last one. -/
def Point.down : Point → Bool
  | .idle | .begin | .checkChunk | .clearAbort | .stage | .hold => true
  | .flushBegin | .flushEnable | .flushSuspended | .flushRegister | .flushTc | .flushPending => true
  | _ => false

/-- The clock is held for a transfer. A transfer that was stopped has released it before it is dropped. -/
def Point.holds : Point → Bool
  | .start | .checkSuspended | .registerTx | .registerDma | .flags | .clearFlags | .swapAbort | .reenable => true
  | .pending | .stopping _ => true
  | .dropping .hold after => after = .nextChunk
  | .dropping _ _ => true
  | _ => false

/-- EN was cleared. -/
def StopStep.cleared : StopStep → Bool
  | .hold | .clearEn => false
  | .waitHalt | .clearFlags | .release => true

def Point.halted : Point → Bool
  | .start => true
  | .stopping step | .dropping step _ => StopStep.cleared step
  | _ => false

/-- The flags were cleared with EN. -/
def Point.acknowledged : Point → Bool
  | .stopping .release | .dropping .release _ => true
  | _ => false

structure Votes (ch : DmaCh) (k : Clock) (c : Channel) (p : Point) : Prop where
  gated : k.Gated
  unheld : k.held ch = false → c.en = false ∧ c.tcif = false ∧ c.teif = false
  held : p.holds = true → k.held ch = true
  down : p.down = true → k.held ch = false
  halted : p.halted = true → c.en = false
  acknowledged : p.acknowledged = true → c.tcif = false ∧ c.teif = false

namespace Uart

variable {ch : DmaCh} {u : Uart}

lemma votes_new : Votes ch new.clock new.channel new.point := by
  refine ⟨?_, ?_, ?_, ?_, ?_, ?_⟩ <;> simp [new, Clock.Gated, Clock.held, Point.holds, Point.halted,
    Point.acknowledged]

end Uart

namespace Votes

variable {ch : DmaCh} {k : Clock} {c : Channel} {p q : Point}

/-- The task goes on and touches neither the registers nor the clock. -/
lemma move (h : Votes ch k c p) (hdown : q.down = p.down) (hholds : q.holds = true → p.holds = true)
    (hhalted : q.halted = false) (hacknowledged : q.acknowledged = false) : Votes ch k c q where
  gated := h.gated
  unheld := h.unheld
  held hq := h.held (hholds hq)
  down hq := h.down (hdown ▸ hq)
  halted hq := by simp [hhalted] at hq
  acknowledged hq := by simp [hacknowledged] at hq

/-- Bits of the channel are cleared. -/
lemma clear {c' : Channel} (h : Votes ch k c p) (hen : c'.en = true → c.en = true)
    (htcif : c'.tcif = true → c.tcif = true) (hteif : c'.teif = true → c.teif = true) : Votes ch k c' p := by
  have hlow : ∀ {a b : Bool}, (a = true → b = true) → b = false → a = false := by
    rintro (_ | _) (_ | _) <;> simp
  refine ⟨h.gated, fun hk => ?_, h.held, h.down, fun hp => hlow hen (h.halted hp), fun hp => ?_⟩
  · obtain ⟨h1, h2, h3⟩ := h.unheld hk
    exact ⟨hlow hen h1, hlow htcif h2, hlow hteif h3⟩
  · exact ⟨hlow htcif (h.acknowledged hp).1, hlow hteif (h.acknowledged hp).2⟩

/-- The engine, while EN is set -/
lemma engine {c' : Channel} (h : Votes ch k c p) (hen : c.en = true) : Votes ch k c' p := by
  have hheld : k.held ch = true := by
    by_contra hk
    rw [(h.unheld (by simpa using hk)).1] at hen
    cases hen
  refine ⟨h.gated, fun hk => ?_, h.held, h.down, fun hp => ?_, fun hp => ?_⟩
  · rw [hheld] at hk
    cases hk
  · rw [h.halted hp] at hen
    cases hen
  · have hhalted : p.halted = true := by
      revert hp
      unfold Point.acknowledged
      split <;> simp [Point.halted, StopStep.cleared]
    rw [h.halted hhalted] at hen
    cases hen

/-- A step of `stop` or of `cancel`, from a point to the next one. -/
lemma hold (h : Votes ch k c p) (hdown : q.down = false)
    (hhalted : q.halted = true → c.en = false) (hacknowledged : q.acknowledged = false) :
    Votes ch (k.dma1ClkHold ch) c q where
  gated := h.gated.hold
  unheld := by simp
  held _ := by simp
  down hq := by simp [hdown] at hq
  halted := hhalted
  acknowledged hq := by simp [hacknowledged] at hq

/-- The clock is released behind the flags. -/
lemma release (h : Votes ch k c p) (hp : p.acknowledged = true) (hhalted : p.halted = true)
    (hholds : q.holds = false) (hq : q.halted = false) (hacknowledged : q.acknowledged = false) :
    Votes ch (k.dma1ClkRelease ch) c q where
  gated := h.gated.release
  unheld _ := ⟨h.halted hhalted, h.acknowledged hp⟩
  held hq := by simp [hholds] at hq
  down _ := by simp
  halted h := by simp [hq] at h
  acknowledged h := by simp [hacknowledged] at h

/-- The task has cleared bits of the channel, while it holds the clock. -/
lemma cleared {c' : Channel} (h : Votes ch k c p) (hp : p.holds = true) (hdown : q.down = false)
    (hhalted : q.halted = true → c'.en = false)
    (hacknowledged : q.acknowledged = true → c'.tcif = false ∧ c'.teif = false) : Votes ch k c' q where
  gated := h.gated
  unheld hk := by simp [h.held hp] at hk
  held _ := h.held hp
  down hq := by simp [hdown] at hq
  halted := hhalted
  acknowledged := hacknowledged

end Votes

namespace Uart

variable {ch : DmaCh} {u : Uart}

/-- A step of `RawChannel::stop` -/
lemma votes_stopping {step : StopStep} (hu : Votes ch u.clock u.channel u.point)
    (hp : u.point = .stopping step) (empty : Bool) :
    let u' := u.stepTask ch empty
    Votes ch u'.clock u'.channel u'.point := by
  rw [hp] at hu
  simp only [stepTask, hp]
  cases step with
  | hold => exact hu.hold rfl (by simp [stopStep, Point.halted, StopStep.cleared]) rfl
  | clearEn => exact hu.cleared rfl rfl (fun _ => rfl) (by simp [stopStep, Point.acknowledged])
  | waitHalt =>
    have hen := hu.halted rfl
    simp only [stopStep, hen, Bool.false_eq_true, if_false]
    exact hu.cleared rfl rfl (fun _ => hen) (by simp [Point.acknowledged])
  | clearFlags => exact hu.cleared rfl rfl (fun _ => hu.halted rfl) (fun _ => ⟨rfl, rfl⟩)
  | release => exact hu.release rfl rfl rfl rfl rfl

/-- A step of `RawChannel::cancel` -/
lemma votes_dropping {step : StopStep} {after : After} (hu : Votes ch u.clock u.channel u.point)
    (hp : u.point = .dropping step after) (empty : Bool) :
    let u' := u.stepTask ch empty
    Votes ch u'.clock u'.channel u'.point := by
  rw [hp] at hu
  simp only [stepTask, hp]
  cases step with
  | hold => exact hu.hold rfl (by simp [cancelStep, stopStep, Point.halted, StopStep.cleared]) rfl
  | clearEn => exact hu.cleared rfl rfl (fun _ => rfl) (by simp [cancelStep, Point.acknowledged])
  | waitHalt =>
    have hen := hu.halted rfl
    simp only [cancelStep, stopStep, hen, Bool.false_eq_true, if_false]
    exact hu.cleared rfl rfl (fun _ => hen) (by simp [Point.acknowledged])
  | clearFlags => exact hu.cleared rfl rfl (fun _ => hu.halted rfl) (fun _ => ⟨rfl, rfl⟩)
  | release => cases after <;> exact hu.release rfl rfl rfl rfl rfl

lemma votes_task (hu : Votes ch u.clock u.channel u.point) (empty : Bool) :
    let u' := u.stepTask ch empty
    Votes ch u'.clock u'.channel u'.point := by
  cases hp : u.point with
  | stopping step => exact votes_stopping hu hp empty
  | dropping step after => exact votes_dropping hu hp empty
  | idle =>
    simpa only [stepTask, hp] using hu
  | begin =>
    rw [hp] at hu
    simp only [stepTask, hp]
    split_ifs <;> exact hu.move rfl (by simp [finish, Point.holds]) rfl rfl
  | checkChunk =>
    rw [hp] at hu
    simp only [stepTask, hp]
    split_ifs <;> exact hu.move rfl (by simp [finish, Point.holds]) rfl rfl
  | reenable =>
    rw [hp] at hu
    simp only [stepTask, hp]
    exact hu.cleared rfl rfl (by simp [Point.halted]) (by simp [Point.acknowledged])
  | clearAbort | stage | registerTx | registerDma | pending | flushEnable | flushRegister | flushPending =>
    rw [hp] at hu
    simp only [stepTask, hp]
    exact hu.move rfl (by simp [Point.holds]) rfl rfl
  | hold =>
    rw [hp] at hu
    simp only [stepTask, hp]
    exact hu.hold rfl (fun _ => (hu.unheld (hu.down rfl)).1) rfl
  | start =>
    rw [hp] at hu
    simp only [stepTask, hp]
    exact hu.cleared rfl rfl (by simp [Point.halted]) (by simp [Point.acknowledged])
  | clearFlags =>
    rw [hp] at hu
    simp only [stepTask, hp]
    exact hu.cleared rfl rfl (by simp [Point.halted, StopStep.cleared]) (by simp [Point.acknowledged])
  | checkSuspended | flags | swapAbort =>
    rw [hp] at hu
    simp only [stepTask, hp]
    split_ifs <;> exact hu.move rfl (by simp [Point.holds]) rfl rfl
  | flushBegin | flushSuspended | flushTc =>
    rw [hp] at hu
    simp only [stepTask, hp]
    split_ifs <;> exact hu.move rfl (by simp [Point.holds]) rfl rfl

lemma votes_exec (hu : Votes ch u.clock u.channel u.point) (op : Op) (hg : u.Guard ch op) :
    Votes ch (u.exec ch op).clock (u.exec ch op).channel (u.exec ch op).point := by
  cases op with
  | write words =>
    simp only [exec]
    split_ifs with hp
    · rw [hp] at hu
      exact hu.move rfl (by simp [Point.holds]) rfl rfl
    · exact hu
  | flush =>
    simp only [exec]
    split_ifs with hp
    · rw [hp] at hu
      exact hu.move rfl (by simp [Point.holds]) rfl rfl
    · exact hu
  | step empty => exact votes_task hu empty
  | cancel =>
    simp only [exec]
    split
    · rename_i hp
      rw [hp] at hu
      exact hu.move rfl (by simp [Point.holds]) rfl rfl
    · rename_i hp
      rw [hp] at hu
      exact hu.move rfl (by simp [Point.holds]) rfl rfl
    · exact hu
  | request request =>
    simp only [exec]
    split_ifs
    · cases request <;> simp only [Uart.request] <;> split_ifs
      · exact hu
      · exact hu
      · exact hu
      · exact hu
      · exact hu
      · exact hu.clear (by simp +contextual [wakeDma, haltIfClocked, requestAbort]) id id
    · exact hu
  | control =>
    simp only [exec, stepControl]
    split
    · exact hu
    · exact hu
    · exact hu.clear (by simp +contextual [haltIfClocked]) id id
    · exact hu
    · exact hu
    · exact hu
  | dmaIsr =>
    simp only [exec, stepDmaIsr]
    split_ifs
    · exact hu
    · exact hu.clear id id id
    · exact hu
  | usartIsr =>
    simp only [exec, usartIsr]
    split_ifs <;> exact hu
  | beat =>
    simp only [exec, beat]
    split_ifs with hrun
    · split
      · exact hu
      · exact hu.engine (by simp_all)
    · exact hu
  | fault =>
    simp only [exec, fault]
    split_ifs with hen
    · exact hu.engine hen
    · exact hu
  | transmitted => exact hu
  | hold other =>
    refine ⟨hu.gated.hold, ?_, ?_, ?_, hu.halted, hu.acknowledged⟩ <;>
      simp only [exec, Clock.held_hold_ne hg]
    · exact hu.unheld
    · exact hu.held
    · exact hu.down
  | release other =>
    refine ⟨hu.gated.release, ?_, ?_, ?_, hu.halted, hu.acknowledged⟩ <;>
      simp only [exec, Clock.held_release_ne hg]
    · exact hu.unheld
    · exact hu.held
    · exact hu.down

lemma Run.votes (h : u.Run ch) : Votes ch u.clock u.channel u.point :=
  h.invariant votes_new fun _ op hu hg => votes_exec hu op hg

end Uart

/-- The task accesses a register of the channel in its next step. -/
def Point.accesses : Point → Bool
  | .start | .flags | .clearFlags | .reenable => true
  | .stopping step | .dropping step _ => step = .clearEn ∨ step = .waitHalt ∨ step = .clearFlags
  | _ => false

lemma Point.holds_of_accesses {p : Point} (h : p.accesses = true) : p.holds = true := by
  cases p with
  | dropping step after => cases step <;> simp_all [Point.accesses, Point.holds]
  | start | flags | clearFlags | reenable | stopping => rfl
  | _ => cases h

/-- Where a register is accessed, an interrupt is pending or the engine is enabled, the channel votes. -/
lemma Uart.Run.held {ch : DmaCh} {u : Uart} (h : u.Run ch)
    (haccess : u.point.accesses = true ∨ u.channel.irq = true ∨ u.channel.en = true) :
    u.clock.held ch = true ∧ u.clock.on = true := by
  have hu := h.votes
  have hheld : u.clock.held ch = true := by
    rcases haccess with hp | hirq | hen
    · exact hu.held (Point.holds_of_accesses hp)
    · by_contra hk
      obtain ⟨-, htcif, hteif⟩ := hu.unheld (by simpa using hk)
      simp [Channel.irq, htcif, hteif] at hirq
    · by_contra hk
      rw [(hu.unheld (by simpa using hk)).1] at hen
      cases hen
  exact ⟨hheld, hu.gated.on_of_held hheld⟩

/-- **The clock is on where it is needed.** In every reachable state the clock of the controller is on exactly
while a channel votes for it. The channel votes wherever the task or the handler accesses a register, and while
the engine is enabled. Where no transfer lives, the channel has dropped its vote, and the engine is off: also
while the next chunk is staged into the scratch that it reads. -/
theorem clock_held {ch : DmaCh} {u : Uart} (h : u.Run ch) :
    (u.clock.on = true ↔ u.clock.hold ≠ 0) ∧
    (u.point.accesses = true ∨ u.channel.irq = true ∨ u.channel.en = true →
      u.clock.held ch = true ∧ u.clock.on = true) ∧
    (u.point.down = true → u.clock.held ch = false ∧ u.channel.en = false) := by
  have hu := h.votes
  refine ⟨hu.gated, fun haccess => h.held haccess, fun hdown => ?_⟩
  exact ⟨hu.down hdown, (hu.unheld (hu.down hdown)).1⟩

theorem clock_held_sample : samplePending.clock.held txChannel = true ∧ samplePending.clock.on = true :=
  (clock_held samplePending_run).2.1 (.inr (.inr (by decide)))

/-! ### What is sent -/

section Chunks

variable {u : Uart}

lemma chunk_length_le : u.chunk.length ≤ txScratchLen := by
  rw [Uart.chunk, List.length_take]
  exact Nat.min_le_left _ _

/-- A byte of the chunk is one of the words. -/
lemma take_chunk {n : ℕ} (hn : n ≤ u.chunk.length) :
    u.words.take u.total ++ u.chunk.take n = u.words.take (u.total + n) := by
  rw [List.take_add, Uart.chunk, List.take_take, Nat.min_eq_left (Nat.le_trans hn chunk_length_le)]

end Chunks

/-- A transfer of a chunk that begins at `total`: it is in the scratch, and the engine has moved `mar` bytes. -/
structure Transfer (chunk scratch words : List UInt8) (total : ℕ) (sent : List UInt8) (mar ndtr : ℕ)
    (tcif : Bool) : Prop where
  bound : total ≤ words.length
  staged : chunk ≠ [] ∧ scratch.take chunk.length = chunk
  length : mar + ndtr = chunk.length
  sent : sent = words.take (total + mar)
  complete : tcif = true → ndtr = 0

namespace Uart

variable (u : Uart)

/-- The chunks before the current one were sent. -/
def Before : Prop := u.total ≤ u.words.length ∧ u.sent = u.words.take u.total

/-- The current chunk is in the scratch. -/
def Staged : Prop := u.chunk ≠ [] ∧ u.scratch.take u.chunk.length = u.chunk

/-- A transfer of the chunk, as far as the engine is -/
def Sending : Prop :=
  Transfer u.chunk u.scratch u.words u.total u.sent u.channel.mar u.channel.ndtr u.channel.tcif

/-- What is sent at a point of the task -/
def SentInv : Prop :=
  match u.point with
  | .idle | .flushBegin | .flushEnable | .flushSuspended | .flushRegister | .flushTc | .flushPending => True
  | .begin => u.total = 0 ∧ u.sent = []
  | .checkChunk => u.Before
  | .clearAbort | .stage => u.Before ∧ u.chunk ≠ []
  | .hold | .start => u.Before ∧ u.Staged
  | .checkSuspended | .registerTx | .registerDma | .flags | .swapAbort | .reenable | .pending | .stopping _ =>
    u.Sending
  | .clearFlags => u.Sending ∧ u.channel.ndtr = 0
  | .dropping _ after => u.Sending ∧ (after = .nextChunk → u.channel.ndtr = 0)

end Uart

/-- A call that succeeds has sent its words, and every call sends only words of its own, in order. It reports an
overrun only if it was disturbed. -/
structure Outcome.Faithful (o : Outcome) : Prop where
  ok : ∀ n, o.result = some (.ok n) → n = o.words.length ∧ o.sent = o.words
  sent : o.sent <+: o.words
  overrun : o.result = some (.error .overrun) → o.disturbed = true

/-- A request to abort that is found from here on was made during the call. -/
def Point.armed : Point → Bool
  | .stage | .hold | .start | .checkSuspended | .registerTx | .registerDma | .flags | .swapAbort => true
  | .reenable | .pending => true
  | _ => false

/-- The call is about to report an overrun. -/
def Point.failed : Point → Bool
  | .stopping _ => true
  | .dropping _ after => after = .fail .overrun
  | _ => false

structure Calls (u : Uart) : Prop where
  sent : u.SentInv
  fault : u.channel.teif = true → u.disturbed = true
  abort : u.point.armed = true → u.oneshotAbort = true → u.disturbed = true
  failed : u.point.failed = true → u.disturbed = true
  outcomes : ∀ o ∈ u.outcomes, o.Faithful

namespace Uart

variable {ch : DmaCh} {u : Uart}

/-- The transfer is complete: the chunks up to this one were sent. -/
lemma Sending.before (h : u.Sending) (hndtr : u.channel.ndtr = 0) :
    Before { u with point := .checkChunk, total := u.total + u.chunk.length } := by
  have hmar : u.channel.mar = u.chunk.length := by
    rw [← h.length, hndtr, Nat.add_zero]
  refine ⟨?_, ?_⟩
  · have hlen : u.chunk.length ≤ u.words.length - u.total := by
      rw [chunk, List.length_take, List.length_drop]
      exact Nat.min_le_right _ _
    have hbound := h.bound
    dsimp only
    omega
  · rw [← hmar]
    exact h.sent

/-- The engine moves the next byte. -/
lemma Sending.beat (h : u.Sending) {left : ℕ} (hndtr : u.channel.ndtr = left + 1) (c : Bool)
    (hc : c = true → left = 0) :
    Sending { u with
      channel := { u.channel with ndtr := left, mar := u.channel.mar + 1, tcif := c }
      sent := u.sent ++ (u.scratch.drop u.channel.mar).take 1
      tc := false } where
  bound := h.bound
  staged := h.staged
  length := by
    have hlength := h.length
    change u.channel.mar + 1 + left = u.chunk.length
    omega
  sent := by
    have hle : u.channel.mar + 1 ≤ u.chunk.length := by
      have hlength := h.length
      omega
    have hbyte : (u.scratch.drop u.channel.mar).take 1 = (u.chunk.drop u.channel.mar).take 1 := by
      conv_rhs => rw [← h.staged.2]
      rw [List.drop_take, List.take_take, Nat.min_eq_left (by omega)]
    have hchunk := take_chunk hle
    have hbefore := take_chunk (u := u) (n := u.channel.mar) (by omega)
    change u.sent ++ (u.scratch.drop u.channel.mar).take 1 = u.words.take (u.total + (u.channel.mar + 1))
    rw [hbyte, h.sent, ← hbefore, ← hchunk, List.take_add, List.append_assoc]
  complete hc' := hc hc'

lemma Before.sent_part (h : u.Before) : u.sent <+: u.words := by
  rw [h.2]
  exact List.take_prefix _ _

lemma Sending.sent_part (h : u.Sending) : u.sent <+: u.words := by
  rw [h.sent]
  exact List.take_prefix _ _

/-- Nothing is left to send. -/
lemma Before.all (h : u.Before) (hchunk : u.chunk = []) : u.total = u.words.length ∧ u.sent = u.words := by
  have hrest : u.words.drop u.total = [] := by
    rcases List.take_eq_nil_iff.mp hchunk with hlen | hrest
    · cases hlen
    · exact hrest
  have htotal : u.total = u.words.length := Nat.le_antisymm h.1 (List.drop_eq_nil_iff.mp hrest)
  exact ⟨htotal, by rw [h.2, htotal, List.take_length]⟩

end Uart

namespace Calls

variable {ch : DmaCh} {u : Uart}

lemma step {u' : Uart} (hu : Calls u) (hsent : u'.SentInv) (hdisturbed : u'.disturbed = u.disturbed)
    (hfault : u'.channel.teif = true → u.channel.teif = true)
    (habort : u'.point.armed = true → u'.oneshotAbort = true → u.disturbed = true)
    (hfailed : u'.point.failed = true → u.disturbed = true) (houtcomes : u'.outcomes = u.outcomes) :
    Calls u' where
  sent := hsent
  fault h := hdisturbed ▸ hu.fault (hfault h)
  abort h h' := hdisturbed ▸ habort h h'
  failed h := hdisturbed ▸ hfailed h
  outcomes := houtcomes ▸ hu.outcomes

lemma finish (hu : Calls u) {result : Option (Except Error ℕ)}
    (hok : ∀ n, result = some (.ok n) → n = u.words.length ∧ u.sent = u.words) (hsent : u.sent <+: u.words)
    (hoverrun : result = some (.error .overrun) → u.disturbed = true) : Calls (u.finish result) where
  sent := trivial
  fault := hu.fault
  abort h := by cases h
  failed h := by cases h
  outcomes o ho := by
    rcases List.mem_append.mp ho with hin | hnew
    · exact hu.outcomes o hin
    · rw [List.mem_singleton.mp hnew]
      exact ⟨hok, hsent, hoverrun⟩

/-- A step of `RawChannel::stop` -/
lemma stopping {step : StopStep} (hu : Calls u) (hp : u.point = .stopping step) (empty : Bool) :
    Calls (u.stepTask ch empty) := by
  have hsent := hu.sent
  have hdisturbed := hu.failed (by rw [hp]; rfl)
  rw [Uart.SentInv, hp] at hsent
  simp only [Uart.stepTask, hp]
  cases step with
  | hold | clearEn => exact hu.step hsent rfl id (by simp [Uart.stopStep, Point.armed]) (fun _ => hdisturbed) rfl
  | waitHalt =>
    cases hen : u.channel.en <;> simp only [Uart.stopStep, hen, if_true, Bool.false_eq_true, if_false] <;>
      exact hu.step hsent rfl id (by simp [Point.armed]) (fun _ => hdisturbed) rfl
  | clearFlags =>
    refine hu.step ?_ rfl (by simp [Uart.stopStep, Uart.clearFlags]) (by simp [Uart.stopStep, Point.armed])
      (fun _ => hdisturbed) rfl
    exact ⟨hsent.bound, hsent.staged, hsent.length, hsent.sent, by simp [Uart.stopStep, Uart.clearFlags]⟩
  | release =>
    exact hu.step ⟨hsent, fun h => by cases h⟩ rfl id (by simp [Uart.stopStep, Point.armed]) (fun _ => hdisturbed)
      rfl

/-- A step of `RawChannel::cancel` -/
lemma dropping {step : StopStep} {after : After} (hu : Calls u) (hp : u.point = .dropping step after)
    (empty : Bool) : Calls (u.stepTask ch empty) := by
  have hsent := hu.sent
  have hfailed : ∀ {step : StopStep}, (Point.dropping step after).failed = true → u.disturbed = true := by
    intro step hstep
    exact hu.failed (by rw [hp]; exact hstep)
  rw [Uart.SentInv, hp] at hsent
  simp only [Uart.stepTask, hp]
  cases step with
  | hold | clearEn =>
    exact hu.step hsent rfl id (by simp [Uart.cancelStep, Uart.stopStep, Point.armed]) hfailed rfl
  | waitHalt =>
    cases hen : u.channel.en <;>
      simp only [Uart.cancelStep, Uart.stopStep, hen, if_true, Bool.false_eq_true, if_false] <;>
      exact hu.step hsent rfl id (by simp [Point.armed]) hfailed rfl
  | clearFlags =>
    refine hu.step ?_ rfl (by simp [Uart.cancelStep, Uart.stopStep, Uart.clearFlags])
      (by simp [Uart.cancelStep, Uart.stopStep, Point.armed]) hfailed rfl
    refine ⟨⟨hsent.1.bound, hsent.1.staged, hsent.1.length, hsent.1.sent, ?_⟩, hsent.2⟩
    simp [Uart.cancelStep, Uart.stopStep, Uart.clearFlags]
  | release =>
    have hclock : Calls { u with clock := u.clock.dma1ClkRelease ch } :=
      ⟨hu.sent, hu.fault, hu.abort, hu.failed, hu.outcomes⟩
    cases after with
    | nextChunk =>
      refine hu.step ?_ rfl id (by simp [Uart.cancelStep, Uart.stopStep, Uart.afterDrop, Point.armed])
        (by simp [Uart.cancelStep, Uart.stopStep, Uart.afterDrop, Point.failed]) rfl
      exact hsent.1.before (hsent.2 rfl)
    | fail error =>
      refine hclock.finish (by simp) hsent.1.sent_part fun hresult => @hfailed .hold ?_
      simpa [Point.failed] using hresult
    | cancelled => exact hclock.finish (by simp) hsent.1.sent_part (by simp)

lemma task (hu : Calls u) (empty : Bool) : Calls (u.stepTask ch empty) := by
  have hsent := hu.sent
  unfold Uart.SentInv at hsent
  cases hp : u.point with
  | idle =>
    simp only [Uart.stepTask, hp]
    exact hu
  | begin =>
    rw [hp] at hsent
    simp only [Uart.stepTask, hp]
    obtain ⟨htotal, hnone⟩ := hsent
    split_ifs with hwords
    · refine hu.finish (fun n hn => ?_) (by simp [hnone]) (by simp)
      cases hn
      simp [hwords, hnone]
    · exact hu.finish (by simp) (by simp [hnone]) (by simp)
    · refine hu.step ?_ rfl id (by simp [Point.armed]) (by simp [Point.failed]) rfl
      exact ⟨by simp [htotal], by simp [hnone, htotal]⟩
  | checkChunk =>
    rw [hp] at hsent
    simp only [Uart.stepTask, hp]
    split_ifs with hchunk
    · refine hu.finish (fun n hn => ?_) hsent.sent_part (by simp)
      cases hn
      exact hsent.all hchunk
    · exact hu.finish (by simp) hsent.sent_part (by simp)
    · exact hu.step ⟨hsent, hchunk⟩ rfl id (by simp [Point.armed]) (by simp [Point.failed]) rfl
  | clearAbort =>
    rw [hp] at hsent
    simp only [Uart.stepTask, hp]
    exact hu.step hsent rfl id (by simp) (by simp [Point.failed]) rfl
  | stage =>
    rw [hp] at hsent
    simp only [Uart.stepTask, hp]
    refine hu.step ⟨hsent.1, hsent.2, ?_⟩ rfl id (fun _ => hu.abort (by rw [hp]; rfl)) (by simp [Point.failed])
      rfl
    exact List.take_left
  | hold =>
    rw [hp] at hsent
    simp only [Uart.stepTask, hp]
    exact hu.step hsent rfl id (fun _ => hu.abort (by rw [hp]; rfl)) (by simp [Point.failed]) rfl
  | start =>
    rw [hp] at hsent
    simp only [Uart.stepTask, hp]
    obtain ⟨hbefore, hstaged⟩ := hsent
    refine hu.step ?_ rfl (by simp [Uart.startOneshot]) (fun _ => hu.abort (by rw [hp]; rfl))
      (by simp [Point.failed]) rfl
    exact ⟨hbefore.1, hstaged, Nat.zero_add _, hbefore.2, by simp [Uart.startOneshot]⟩
  | checkSuspended =>
    rw [hp] at hsent
    simp only [Uart.stepTask, hp]
    split_ifs
    · exact hu.step ⟨hsent, by simp⟩ rfl id (by simp [Point.armed]) (by simp [Point.failed]) rfl
    · exact hu.step hsent rfl id (fun _ => hu.abort (by rw [hp]; rfl)) (by simp [Point.failed]) rfl
  | registerTx | registerDma | reenable | pending =>
    rw [hp] at hsent
    simp only [Uart.stepTask, hp]
    exact hu.step hsent rfl id (fun _ => hu.abort (by rw [hp]; rfl)) (by simp [Point.failed]) rfl
  | flags =>
    rw [hp] at hsent
    simp only [Uart.stepTask, hp]
    split_ifs with hteif htcif
    · exact hu.step hsent rfl id (by simp [Point.armed]) (fun _ => hu.fault hteif) rfl
    · exact hu.step ⟨hsent, hsent.complete htcif⟩ rfl id (by simp [Point.armed]) (by simp [Point.failed]) rfl
    · exact hu.step hsent rfl id (fun _ => hu.abort (by rw [hp]; rfl)) (by simp [Point.failed]) rfl
  | clearFlags =>
    rw [hp] at hsent
    simp only [Uart.stepTask, hp]
    refine hu.step ⟨?_, fun _ => hsent.2⟩ rfl (by simp [Uart.clearFlags]) (by simp [Point.armed])
      (by simp [Point.failed]) rfl
    exact ⟨hsent.1.bound, hsent.1.staged, hsent.1.length, hsent.1.sent, by simp [Uart.clearFlags]⟩
  | swapAbort =>
    rw [hp] at hsent
    simp only [Uart.stepTask, hp]
    split_ifs with habort
    · exact hu.step hsent rfl id (by simp) (fun _ => hu.abort (by rw [hp]; rfl) habort) rfl
    · exact hu.step hsent rfl id (by simp) (by simp [Point.failed]) rfl
  | stopping step => exact stopping hu hp empty
  | dropping step after => exact dropping hu hp empty
  | flushBegin | flushSuspended | flushTc =>
    simp only [Uart.stepTask, hp]
    split_ifs <;> exact hu.step trivial rfl id (by simp [Point.armed]) (by simp [Point.failed]) rfl
  | flushEnable | flushRegister | flushPending =>
    simp only [Uart.stepTask, hp]
    exact hu.step trivial rfl id (by simp [Point.armed]) (by simp [Point.failed]) rfl

/-- What the invariant is about stays, or the call is disturbed. -/
lemma other {u' : Uart} (hu : Calls u) (hsent : u'.SentInv) (hpoint : u'.point = u.point)
    (hdisturbed : u'.disturbed = true ∨ u'.disturbed = u.disturbed ∧ u'.channel.teif = u.channel.teif ∧
      u'.oneshotAbort = u.oneshotAbort) (houtcomes : u'.outcomes = u.outcomes) : Calls u' := by
  rcases hdisturbed with hd | ⟨hd, hteif, habort⟩
  · exact ⟨hsent, fun _ => hd, fun _ _ => hd, fun _ => hd, houtcomes ▸ hu.outcomes⟩
  · refine ⟨hsent, ?_, ?_, ?_, houtcomes ▸ hu.outcomes⟩
    · rw [hd, hteif]
      exact hu.fault
    · rw [hd, hpoint, habort]
      exact hu.abort
    · rw [hd, hpoint]
      exact hu.failed

lemma beat (hu : Calls u) (hvotes : Votes ch u.clock u.channel u.point) : Calls u.beat := by
  have hsent := hu.sent
  unfold Uart.beat
  split_ifs with hrun
  · cases hndtr : u.channel.ndtr with
    | zero => exact hu
    | succ left =>
      have hen : u.channel.en = true := by
        simp only [Bool.and_eq_true] at hrun
        exact hrun.1.1
      have hheld : u.clock.held ch = true := by
        by_contra hk
        rw [(hvotes.unheld (by simpa using hk)).1] at hen
        cases hen
      have hdown : u.point.down = false := by
        by_contra hp
        rw [hvotes.down (by simpa using hp)] at hheld
        cases hheld
      have hsending : u.Sending → Uart.Sending _ := fun h => h.beat hndtr (u.channel.tcif || left == 0) fun hc => by
        rcases (Bool.or_eq_true _ _).mp hc with htcif | hleft
        · rw [h.complete htcif] at hndtr
          cases hndtr
        · simpa using hleft
      refine hu.other ?_ rfl (.inr ⟨rfl, rfl, rfl⟩) rfl
      unfold Uart.SentInv at hsent ⊢
      dsimp only
      cases hp : u.point with
      | idle | begin | checkChunk | clearAbort | stage | hold => simp [hp, Point.down] at hdown
      | flushBegin | flushEnable | flushSuspended | flushRegister | flushTc | flushPending => trivial
      | start =>
        rw [hvotes.halted (by rw [hp]; rfl)] at hen
        cases hen
      | checkSuspended | registerTx | registerDma | flags | swapAbort | reenable | pending | stopping step =>
        rw [hp] at hsent
        exact hsending hsent
      | clearFlags =>
        rw [hp] at hsent
        rw [hsent.2] at hndtr
        cases hndtr
      | dropping step after =>
        rw [hp] at hsent
        refine ⟨hsending hsent.1, fun hafter => ?_⟩
        rw [hsent.2 hafter] at hndtr
        cases hndtr
  · exact hu

lemma exec (hu : Calls u) (hvotes : Votes ch u.clock u.channel u.point) (op : Op) : Calls (u.exec ch op) := by
  have hsent := hu.sent
  cases op with
  | write words =>
    simp only [Uart.exec]
    split_ifs with hp
    · refine ⟨⟨rfl, rfl⟩, ?_, by simp [Point.armed], by simp [Point.failed], hu.outcomes⟩
      simp [(hvotes.unheld (hvotes.down (by rw [hp]; rfl))).2.2]
    · exact hu
  | flush =>
    simp only [Uart.exec]
    split_ifs
    · exact hu.step trivial rfl id (by simp [Point.armed]) (by simp [Point.failed]) rfl
    · exact hu
  | step empty => exact hu.task empty
  | cancel =>
    simp only [Uart.exec]
    split
    · rename_i hp
      rw [Uart.SentInv, hp] at hsent
      exact hu.step ⟨hsent, by simp⟩ rfl id (by simp [Point.armed]) (by simp [Point.failed]) rfl
    · exact hu.step trivial rfl id (by simp [Point.armed]) (by simp [Point.failed]) rfl
    · exact hu
  | request request =>
    simp only [Uart.exec]
    split_ifs
    · cases request <;> simp only [Uart.request] <;> split_ifs
      · exact hu.other hsent rfl (.inr ⟨rfl, rfl, rfl⟩) rfl
      · exact hu
      · exact hu.other hsent rfl (.inr ⟨rfl, rfl, rfl⟩) rfl
      · exact hu
      · exact hu
      · exact hu.other hsent rfl (.inl rfl) rfl
    · exact hu
  | control =>
    simp only [Uart.exec, Uart.stepControl]
    split
    · exact hu
    · exact hu.other hsent rfl (.inl rfl) rfl
    · exact hu.other hsent rfl (.inr ⟨rfl, rfl, rfl⟩) rfl
    · exact hu.other hsent rfl (.inr ⟨rfl, rfl, rfl⟩) rfl
    · exact hu.other hsent rfl (.inr ⟨rfl, rfl, rfl⟩) rfl
    · exact hu.other hsent rfl (.inr ⟨rfl, rfl, rfl⟩) rfl
  | dmaIsr =>
    simp only [Uart.exec, Uart.stepDmaIsr]
    split_ifs
    · exact hu.other hsent rfl (.inr ⟨rfl, rfl, rfl⟩) rfl
    · exact hu.other hsent rfl (.inr ⟨rfl, rfl, rfl⟩) rfl
    · exact hu
  | usartIsr =>
    simp only [Uart.exec, Uart.usartIsr]
    split_ifs
    · exact hu
    all_goals exact hu.other hsent rfl (.inr ⟨rfl, rfl, rfl⟩) rfl
  | beat => exact hu.beat hvotes
  | fault =>
    simp only [Uart.exec, Uart.fault]
    split_ifs
    · exact hu.other hsent rfl (.inl rfl) rfl
    · exact hu
  | transmitted => exact hu.other hsent rfl (.inr ⟨rfl, rfl, rfl⟩) rfl
  | hold other => exact hu.other hsent rfl (.inr ⟨rfl, rfl, rfl⟩) rfl
  | release other => exact hu.other hsent rfl (.inr ⟨rfl, rfl, rfl⟩) rfl

end Calls

lemma calls_new : Calls Uart.new := by
  refine ⟨trivial, ?_, ?_, ?_, ?_⟩ <;> simp [Uart.new, Point.armed, Point.failed]

lemma Uart.Run.calls {ch : DmaCh} {u : Uart} (h : u.Run ch) : Calls u := by
  refine (h.invariant (P := fun u => Votes ch u.clock u.channel u.point ∧ Calls u)
    ⟨Uart.votes_new, calls_new⟩ ?_).2
  rintro u op ⟨hvotes, hcalls⟩ hg
  exact ⟨Uart.votes_exec hvotes op hg, hcalls.exec hvotes op⟩

/-- **A write sends its bytes.** In every run, a write that returned a number of bytes has sent all of its words to
the data register, each once and in order; and whatever it ended with, and also when its future was dropped, it has
sent a part of its words from the first on, and nothing else: no byte of an earlier call. It reports an overrun
only if a transfer failed or was to be aborted during the call: a stale request to abort ends no transfer. -/
theorem write_sends {ch : DmaCh} {u : Uart} (h : u.Run ch) {o : Outcome} (ho : o ∈ u.outcomes) :
    (∀ n, o.result = some (.ok n) → n = o.words.length ∧ o.sent = o.words) ∧ o.sent <+: o.words ∧
    (o.result = some (.error .overrun) → o.disturbed = true) :=
  have hfaithful := h.calls.outcomes o ho
  ⟨hfaithful.ok, hfaithful.sent, hfaithful.overrun⟩

lemma sample_outcome : ⟨[65, 84], [65, 84], some (.ok 2), false⟩ ∈ sample.outcomes :=
  List.mem_iff_getElem?.mpr ⟨0, rfl⟩

theorem write_sends_sample : ∃ o ∈ sample.outcomes, o.result = some (.ok 2) ∧ o.sent = o.words :=
  ⟨_, sample_outcome, rfl, ((write_sends sample_run sample_outcome).1 2 rfl).2⟩

end Transmit

end SensorLink.Dma
