import SensorLink.Dma.Handoff
import SensorLink.Lib.Reach

/-!
# Stopping the circular receiver

The consumer accesses the registers with the clock vote held, in every run. A stop leaves the channel down,
unless it cancels a request to re-arm that was made while the channel was armed: the request has hidden the
armed state from it.
-/

namespace SensorLink.Dma.Handoff

open SensorLink.Lib

/-! ### The invariant -/

/-- `RawChannel::stop` has cleared the enable bit. -/
def cleared (w : Handoff) : StopStep → Prop
  | .hold | .clearEn => True
  | .waitHalt | .clearFlags | .release => w.enabled = false

/-- What the consumer knows at each point -/
def ConsumerInv (w : Handoff) : Prop :=
  match w.consumer with
  | .idle | .enter | .serviceLoad => w.state ≠ .reading ∧ w.state ≠ .stopReq
  | .reading | .exit => w.held = true ∧ w.state ≠ .idle ∧ w.state ≠ .armed
  | .armReset | .armHold => w.state = .rearmReq ∨ w.state = .idle
  | .armStart | .armExchange | .armLoad => w.held = true ∧ (w.state = .rearmReq ∨ w.state = .idle)
  | .armStore => w.held = true ∧ w.state = .rearmReq
  | .stopping step => w.state ≠ .armed ∧ w.state ≠ .reading ∧ w.cleared step
  | .stopExchange => w.state ≠ .armed ∧ w.state ≠ .reading ∧ w.enabled = false ∧ w.held = false

/-- What the control context knows at each point -/
def ControlInv (w : Handoff) : Prop :=
  match w.control with
  | .idle => w.last = some .stop → w.state = .idle ∨ w.state = .stopReq
  | .exchangeArmed | .exchangeReading | .exchangeRearm => w.last = some .stop
  | .stopping step => w.last = some .stop ∧ w.state = .idle ∧ w.consumer.outside = true ∧ w.cleared step
  | .halt => w.last = some .stop ∧ (w.state = .idle ∨ w.state = .stopReq)
  | .storeRearm => w.last = some .rearm

/-- An idle channel is down, unless one of the two is about to stop it. -/
structure Inv (w : Handoff) : Prop where
  clocked : w.enabled = true → w.held = true
  armed : w.state = .armed → w.held = true
  consumer : w.ConsumerInv
  control : w.ControlInv
  down : w.state = .idle → w.enabled = false ∧ w.held = false ∨ w.control.isStopping = true ∨
    w.consumer.willUndo = true

lemma inv_create : create.Inv := by
  refine ⟨?_, ?_, ?_, ?_, ?_⟩ <;> simp [create, ConsumerInv, ControlInv]

variable {w : Handoff}

/-- While the control context stops the channel, the consumer has nothing to do with it. -/
lemma Inv.not_stopping (h : w.Inv) (houtside : w.consumer.outside = false) :
    w.control.isStopping = false := by
  have hcontrol := h.control
  unfold ControlInv at hcontrol
  cases hpoint : w.control with
  | stopping step =>
    rw [hpoint] at hcontrol
    rw [hcontrol.2.2.1] at houtside
    cases houtside
  | idle | exchangeArmed | exchangeReading | exchangeRearm | halt | storeRearm => rfl

/-- What the control context knows stays, when the consumer keeps out of its way. -/
lemma ControlInv.keep {held enabled : Bool} {c : ConsumerPoint} (h : w.ControlInv)
    (hstop : w.control.isStopping = true → c.outside = true ∧ enabled = w.enabled) :
    ControlInv { w with held := held, enabled := enabled, consumer := c } := by
  unfold ControlInv at h ⊢
  cases hpoint : w.control with
  | stopping step =>
    rw [hpoint] at h hstop
    obtain ⟨hlast, hstate, -, hcleared⟩ := h
    obtain ⟨houtside, rfl⟩ := hstop rfl
    refine ⟨hlast, hstate, houtside, ?_⟩
    cases step <;> exact hcleared
  | idle | exchangeArmed | exchangeReading | exchangeRearm | halt | storeRearm =>
    rw [hpoint] at h
    exact h

/-- The consumer changes the state while the control context is not stopping the channel. -/
lemma ControlInv.move {state : RxState} {c : ConsumerPoint} (h : w.ControlInv)
    (hstop : w.control.isStopping = false)
    (hstate : w.state = .idle ∨ w.state = .stopReq → state = .idle ∨ state = .stopReq) :
    ControlInv { w with state := state, consumer := c } := by
  unfold ControlInv at h ⊢
  cases hpoint : w.control with
  | idle =>
    rw [hpoint] at h
    exact fun hlast => hstate (h hlast)
  | stopping step =>
    rw [hpoint] at hstop
    cases hstop
  | halt =>
    rw [hpoint] at h
    exact ⟨h.1, hstate h.2⟩
  | exchangeArmed | exchangeReading | exchangeRearm | storeRearm =>
    rw [hpoint] at h
    exact h

/-- Outside of the channel the consumer only knows that it is in no reading span. -/
lemma consumerInv_of_outside (hout : w.consumer.outside = true)
    (hstate : w.state ≠ .reading ∧ w.state ≠ .stopReq) : w.ConsumerInv := by
  unfold ConsumerInv
  cases hpoint : w.consumer <;> first | exact hstate | (rw [hpoint] at hout; cases hout)

/-- The consumer goes on outside of the channel. -/
lemma Inv.outside (h : w.Inv) {c : ConsumerPoint} (hc : c.outside = true)
    (hstate : w.state ≠ .reading ∧ w.state ≠ .stopReq)
    (hdown : w.state = .idle → w.consumer.willUndo = true → w.enabled = false ∧ w.held = false) :
    Handoff.Inv { w with consumer := c } where
  clocked := h.clocked
  armed := h.armed
  consumer := consumerInv_of_outside hc hstate
  control := h.control.keep fun _ => ⟨hc, rfl⟩
  down := by
    intro hidle
    rcases h.down hidle with hd | hd | hd
    · exact .inl hd
    · exact .inr (.inl hd)
    · exact .inl (hdown hidle hd)

/-- The consumer goes on with the channel. -/
lemma Inv.inside (h : w.Inv) {held enabled : Bool} {c : ConsumerPoint}
    (hstop : w.control.isStopping = false) (hclocked : enabled = true → held = true)
    (harmed : w.state = .armed → held = true)
    (hconsumer : ConsumerInv { w with held := held, enabled := enabled, consumer := c })
    (hdown : w.state = .idle → enabled = false ∧ held = false ∨ c.willUndo = true) :
    Handoff.Inv { w with held := held, enabled := enabled, consumer := c } where
  clocked := hclocked
  armed := harmed
  consumer := hconsumer
  control := by
    refine h.control.keep fun hstopping => ?_
    rw [hstop] at hstopping
    cases hstopping
  down := by
    intro hidle
    rcases hdown hidle with hd | hd
    · exact .inl hd
    · exact .inr (.inr hd)

/-- The consumer has armed the channel. -/
lemma Inv.arm (h : w.Inv) (hstop : w.control.isStopping = false) (hheld : w.held = true)
    (hstate : w.state = .rearmReq ∨ w.state = .reading) :
    Handoff.Inv { w with state := .armed, consumer := .idle } where
  clocked := h.clocked
  armed _ := hheld
  consumer := by simp [ConsumerInv]
  control := by
    refine h.control.move hstop fun hs => ?_
    rcases hs with hs | hs <;> rcases hstate with hs' | hs' <;> rw [hs] at hs' <;> cases hs'
  down := by simp

/-- A step of `RawChannel::stop` by the consumer -/
lemma Inv.consumer_stopping (h : w.Inv) {step : StopStep} (hpoint : w.consumer = .stopping step)
    (done : Bool) : (w.consumerStep done).Inv := by
  have hknow := h.consumer
  unfold ConsumerInv at hknow
  rw [hpoint] at hknow
  obtain ⟨harmed, hreading, hcleared⟩ := hknow
  have hstop := h.not_stopping (by rw [hpoint]; rfl)
  unfold consumerStep
  simp only [hpoint]
  cases step with
  | hold => exact h.inside hstop (fun _ => rfl) (fun _ => rfl) ⟨harmed, hreading, trivial⟩ fun _ => .inr rfl
  | clearEn => exact h.inside hstop (by simp) h.armed ⟨harmed, hreading, rfl⟩ fun _ => .inr rfl
  | waitHalt =>
    simp only [stopStep, show w.enabled = false from hcleared, Bool.false_eq_true, if_false]
    exact h.inside hstop (by simp) h.armed ⟨harmed, hreading, rfl⟩ fun _ => .inr rfl
  | clearFlags => exact h.inside hstop h.clocked h.armed ⟨harmed, hreading, hcleared⟩ fun _ => .inr rfl
  | release =>
    have hdown : w.enabled = false := hcleared
    refine h.inside hstop (by simp [hdown]) (fun hs => absurd hs harmed) ?_ fun _ => .inl ⟨hdown, rfl⟩
    exact ⟨harmed, hreading, hdown, rfl⟩

/-- The consumer goes on into the channel, with nothing changed but its own point. -/
lemma Inv.advance (h : w.Inv) {c : ConsumerPoint} (hout : w.consumer.outside = false)
    (hconsumer : ConsumerInv { w with consumer := c })
    (hdown : w.state = .idle → w.enabled = false ∧ w.held = false ∨ c.willUndo = true) :
    Handoff.Inv { w with consumer := c } :=
  h.inside (h.not_stopping hout) h.clocked h.armed hconsumer hdown

/-- The consumer takes up a request: the control context is not stopping the channel. -/
lemma Inv.not_stopping_of_request (h : w.Inv) (hstate : w.state ≠ .idle) :
    w.control.isStopping = false := by
  have hcontrol := h.control
  unfold ControlInv at hcontrol
  cases hpoint : w.control with
  | stopping step =>
    rw [hpoint] at hcontrol
    exact absurd hcontrol.2.1 hstate
  | idle | exchangeArmed | exchangeReading | exchangeRearm | halt | storeRearm => rfl

/-- The consumer enters its reading span. -/
lemma Inv.enter (h : w.Inv) (hstate : w.state = .armed) :
    Handoff.Inv { w with state := .reading, consumer := .reading } where
  clocked := h.clocked
  armed := by simp
  consumer := ⟨h.armed hstate, by simp, by simp⟩
  control := by
    refine h.control.move (h.not_stopping_of_request (by rw [hstate]; simp)) fun hs => ?_
    rcases hs with hs | hs <;> rw [hs] at hstate <;> cases hstate
  down := by simp

/-- The consumer has completed a parked stop. -/
lemma Inv.settle (h : w.Inv) (hstate : w.state = .stopReq) (hen : w.enabled = false)
    (hheld : w.held = false) : Handoff.Inv { w with state := .idle, consumer := .idle } where
  clocked := h.clocked
  armed := by simp
  consumer := by simp [ConsumerInv]
  control := h.control.move (h.not_stopping_of_request (by rw [hstate]; simp)) fun _ => .inl rfl
  down _ := .inl ⟨hen, hheld⟩

lemma inv_consumerStep (done : Bool) (h : w.Inv) : (w.consumerStep done).Inv := by
  have hknow := h.consumer
  unfold ConsumerInv at hknow
  cases hpoint : w.consumer with
  | idle =>
    rw [hpoint] at hknow
    simp only [consumerStep, hpoint]
    exact h.outside rfl hknow (by simp [hpoint, ConsumerPoint.willUndo])
  | enter =>
    rw [hpoint] at hknow
    simp only [consumerStep, hpoint]
    split
    · next hs => exact h.enter hs
    · exact h.outside rfl hknow (by simp [hpoint, ConsumerPoint.willUndo])
  | reading =>
    rw [hpoint] at hknow
    simp only [consumerStep, hpoint]
    refine h.advance (by rw [hpoint]; rfl) ?_ fun hs => absurd hs hknow.2.1
    cases done <;> exact hknow
  | exit =>
    rw [hpoint] at hknow
    obtain ⟨hheld, hidle, harmed⟩ := hknow
    have hout : w.consumer.outside = false := by rw [hpoint]; rfl
    simp only [consumerStep, hpoint]
    split
    · next hs => exact h.arm (h.not_stopping hout) hheld (.inr hs)
    · next hs =>
      refine h.advance hout ⟨harmed, ?_, trivial⟩ fun _ => .inr rfl
      rw [hs]
      simp
    · next hreading hstop => exact h.outside rfl ⟨hreading, hstop⟩ fun hs => absurd hs hidle
  | serviceLoad =>
    rw [hpoint] at hknow
    obtain ⟨hreading, hparked⟩ := hknow
    simp only [consumerStep, hpoint]
    split
    · next hs =>
      have hstop := h.not_stopping_of_request (by rw [hs]; simp)
      exact h.inside hstop h.clocked h.armed (.inl hs) fun _ => .inr rfl
    · next hs => exact absurd hs hparked
    · exact h.outside rfl ⟨hreading, hparked⟩ (by simp [hpoint, ConsumerPoint.willUndo])
  | armReset =>
    rw [hpoint] at hknow
    simp only [consumerStep, hpoint]
    exact h.advance (by rw [hpoint]; rfl) hknow fun _ => .inr rfl
  | armHold =>
    rw [hpoint] at hknow
    have hstop := h.not_stopping (by rw [hpoint]; rfl)
    simp only [consumerStep, hpoint]
    exact h.inside hstop (fun _ => rfl) (fun _ => rfl) ⟨rfl, hknow⟩ fun _ => .inr rfl
  | armStart =>
    rw [hpoint] at hknow
    have hstop := h.not_stopping (by rw [hpoint]; rfl)
    simp only [consumerStep, hpoint]
    exact h.inside hstop (fun _ => hknow.1) h.armed hknow fun _ => .inr rfl
  | armExchange =>
    rw [hpoint] at hknow
    obtain ⟨hheld, hstate⟩ := hknow
    have hout : w.consumer.outside = false := by rw [hpoint]; rfl
    simp only [consumerStep, hpoint]
    split
    · next hs => exact h.arm (h.not_stopping hout) hheld (.inl hs)
    · exact h.advance hout ⟨hheld, hstate⟩ fun _ => .inr rfl
  | armLoad =>
    rw [hpoint] at hknow
    obtain ⟨hheld, hstate⟩ := hknow
    have hout : w.consumer.outside = false := by rw [hpoint]; rfl
    simp only [consumerStep, hpoint]
    split
    · next hs =>
      refine h.advance hout ⟨?_, ?_, trivial⟩ fun _ => .inr rfl <;> rw [hs] <;> simp
    · next hs =>
      refine h.advance hout ⟨?_, ?_, trivial⟩ fun _ => .inr rfl <;> rw [hs] <;> simp
    · next _ hidle =>
      have hrearm : w.state = .rearmReq := hstate.resolve_right hidle
      refine h.advance hout ⟨hheld, hrearm⟩ fun hs => absurd hs hidle
  | armStore =>
    rw [hpoint] at hknow
    simp only [consumerStep, hpoint]
    exact h.arm (h.not_stopping (by rw [hpoint]; rfl)) hknow.1 (.inl hknow.2)
  | stopping step => exact h.consumer_stopping hpoint done
  | stopExchange =>
    rw [hpoint] at hknow
    obtain ⟨harmed, hreading, hen, hheld⟩ := hknow
    simp only [consumerStep, hpoint]
    split
    · next hs => exact h.settle hs hen hheld
    · next hs => exact h.outside rfl ⟨hreading, hs⟩ fun _ _ => ⟨hen, hheld⟩

/-- The control context goes on with its request, and touches nothing. -/
lemma Inv.request (h : w.Inv) {p : ControlPoint} {last : Option Request}
    (hfrom : w.control.isStopping = false)
    (hcontrol : ControlInv { w with control := p, last := last }) :
    Handoff.Inv { w with control := p, last := last } where
  clocked := h.clocked
  armed := h.armed
  consumer := h.consumer
  control := hcontrol
  down := by
    intro hidle
    rcases h.down hidle with hd | hd | hd
    · exact .inl hd
    · rw [hfrom] at hd
      cases hd
    · exact .inr (.inr hd)

/-- Nobody has to do with an armed channel. -/
lemma Inv.outside_of_armed (h : w.Inv) (hstate : w.state = .armed) : w.consumer.outside = true := by
  have hconsumer := h.consumer
  unfold ConsumerInv at hconsumer
  cases hpoint : w.consumer <;> rw [hpoint] at hconsumer <;> simp_all [ConsumerPoint.outside]

/-- The control context wins an armed channel. -/
lemma Inv.win (h : w.Inv) (hstate : w.state = .armed) (hlast : w.last = some .stop) :
    Handoff.Inv { w with state := .idle, control := .stopping .hold } where
  clocked := h.clocked
  armed := by simp
  consumer := consumerInv_of_outside (h.outside_of_armed hstate) (by simp)
  control := ⟨hlast, rfl, h.outside_of_armed hstate, trivial⟩
  down _ := .inr (.inl rfl)

/-- The control context parks a stop. -/
lemma Inv.park (h : w.Inv) (hstate : w.state = .reading) (hlast : w.last = some .stop) :
    Handoff.Inv { w with state := .stopReq, control := .halt } where
  clocked := h.clocked
  armed := by simp
  consumer := by
    have hconsumer := h.consumer
    unfold ConsumerInv at hconsumer ⊢
    cases hpoint : w.consumer <;> rw [hpoint] at hconsumer <;> simp_all
  control := ⟨hlast, .inr rfl⟩
  down := by simp

/-- The control context cancels a request, and somebody undoes what was armed. -/
lemma Inv.cancel (h : w.Inv) (hstate : w.state = .rearmReq)
    (hguard : w.held = false ∨ w.consumer.willUndo = true) :
    Handoff.Inv { w with state := .idle, control := .idle } where
  clocked := h.clocked
  armed := by simp
  consumer := by
    have hconsumer := h.consumer
    unfold ConsumerInv at hconsumer ⊢
    cases hpoint : w.consumer <;> rw [hpoint] at hconsumer hguard <;>
      simp_all [ConsumerPoint.willUndo]
    exact hconsumer
  control _ := .inl rfl
  down := by
    intro _
    rcases hguard with hheld | hundo
    · refine .inl ⟨?_, hheld⟩
      by_contra hen
      rw [h.clocked (by simpa using hen)] at hheld
      cases hheld
    · exact .inr (.inr hundo)

/-- A step of `RawChannel::stop` by the control context -/
lemma Inv.control_stopping (h : w.Inv) {step : StopStep} (hpoint : w.control = .stopping step)
    (request : Request) : (w.controlStep request).Inv := by
  have hknow := h.control
  unfold ControlInv at hknow
  rw [hpoint] at hknow
  obtain ⟨hlast, hstate, hout, hcleared⟩ := hknow
  have hne : w.state ≠ .reading ∧ w.state ≠ .stopReq := by
    rw [hstate]
    simp
  unfold controlStep
  simp only [hpoint]
  cases step with
  | hold =>
    exact ⟨fun _ => rfl, fun _ => rfl, consumerInv_of_outside hout hne, ⟨hlast, hstate, hout, trivial⟩,
      fun _ => .inr (.inl rfl)⟩
  | clearEn =>
    exact ⟨by simp [stopStep], h.armed, consumerInv_of_outside hout hne, ⟨hlast, hstate, hout, rfl⟩,
      fun _ => .inr (.inl rfl)⟩
  | waitHalt =>
    simp only [stopStep, show w.enabled = false from hcleared, Bool.false_eq_true, if_false]
    exact ⟨by simp, h.armed, consumerInv_of_outside hout hne, ⟨hlast, hstate, hout, rfl⟩,
      fun _ => .inr (.inl rfl)⟩
  | clearFlags =>
    exact ⟨h.clocked, h.armed, consumerInv_of_outside hout hne, ⟨hlast, hstate, hout, hcleared⟩,
      fun _ => .inr (.inl rfl)⟩
  | release =>
    have hdown : w.enabled = false := hcleared
    refine ⟨?_, ?_, consumerInv_of_outside hout hne, fun _ => .inl hstate, fun _ => .inl ⟨hdown, rfl⟩⟩
    · simp [stopStep, hdown]
    · simp [stopStep, hstate]

/-- The control context halts the channel whose stop it has parked. -/
lemma Inv.halt (h : w.Inv) (hpoint : w.control = .halt) :
    Handoff.Inv { w with enabled := w.enabled && !w.held, control := .idle } where
  clocked := by
    intro hen
    exact h.clocked (Bool.and_eq_true_iff.mp hen).1
  armed := h.armed
  consumer := by
    have hconsumer := h.consumer
    unfold ConsumerInv at hconsumer ⊢
    cases hc : w.consumer <;> rw [hc] at hconsumer
    case stopping step =>
      obtain ⟨harmed, hreading, hcleared⟩ := hconsumer
      refine ⟨harmed, hreading, ?_⟩
      cases step <;> simp_all [cleared]
    all_goals simp_all
  control := by
    have hcontrol := h.control
    unfold ControlInv at hcontrol
    rw [hpoint] at hcontrol
    exact fun _ => hcontrol.2
  down := by
    intro hidle
    rcases h.down hidle with ⟨hen, hheld⟩ | hd | hd
    · exact .inl ⟨by simp [hen], hheld⟩
    · rw [hpoint] at hd
      cases hd
    · exact .inr (.inr hd)

/-- The control context requests to re-arm. -/
lemma Inv.rearm (h : w.Inv) (hlast : w.last = some .rearm) :
    Handoff.Inv { w with state := .rearmReq, control := .idle } where
  clocked := h.clocked
  armed := by simp
  consumer := by
    have hconsumer := h.consumer
    unfold ConsumerInv at hconsumer ⊢
    cases hc : w.consumer <;> rw [hc] at hconsumer <;> simp_all
    exact hconsumer.2.2
  control := by
    intro hstop
    rw [show w.last = some .stop from hstop] at hlast
    cases hlast
  down := by simp

lemma inv_controlStep (request : Request) (h : w.Inv) (hguard : w.Guard (.control request)) :
    (w.controlStep request).Inv := by
  have hknow := h.control
  unfold ControlInv at hknow
  cases hpoint : w.control with
  | idle =>
    have hfrom : w.control.isStopping = false := by rw [hpoint]; rfl
    simp only [controlStep, hpoint]
    cases request <;> exact h.request hfrom rfl
  | exchangeArmed =>
    rw [hpoint] at hknow
    have hfrom : w.control.isStopping = false := by rw [hpoint]; rfl
    simp only [controlStep, hpoint]
    split
    · next hs => exact h.win hs hknow
    · exact h.request hfrom hknow
    · exact h.request hfrom hknow
    · next harmed hreading hrearm =>
      refine h.request hfrom fun _ => ?_
      show w.state = .idle ∨ w.state = .stopReq
      cases hs : w.state <;> simp_all
  | exchangeReading =>
    rw [hpoint] at hknow
    have hfrom : w.control.isStopping = false := by rw [hpoint]; rfl
    simp only [controlStep, hpoint]
    split
    · next hs => exact h.park hs hknow
    · exact h.request hfrom hknow
  | exchangeRearm =>
    rw [hpoint] at hknow
    have hfrom : w.control.isStopping = false := by rw [hpoint]; rfl
    simp only [controlStep, hpoint]
    split
    · next hs => exact h.cancel hs (hguard hpoint hs)
    · exact h.request hfrom hknow
  | stopping step => exact h.control_stopping hpoint request
  | halt =>
    simp only [controlStep, hpoint]
    exact h.halt hpoint
  | storeRearm =>
    rw [hpoint] at hknow
    simp only [controlStep, hpoint]
    exact h.rearm hknow

lemma inv_exec (op : HandoffOp) (h : w.Inv) (hguard : w.Guard op) : (w.exec op).Inv := by
  cases op with
  | consumer done => exact inv_consumerStep done h
  | control request => exact inv_controlStep request h hguard

/-! ### Every run -/

/-- A read of an idle channel touches nothing. -/
lemma readOnce_of_idle (hstate : w.state = .idle) (hpoint : w.consumer = .idle) : w.readOnce = w := by
  obtain ⟨state, held, enabled, consumer, control, last⟩ := w
  obtain rfl : state = .idle := hstate
  obtain rfl : consumer = .idle := hpoint
  rfl

lemma Inv.handoffOk (h : w.Inv) : w.HandoffOk where
  clocked := by
    intro hspan
    have hconsumer := h.consumer
    unfold ConsumerInv at hconsumer
    cases hpoint : w.consumer <;> rw [hpoint] at hconsumer hspan <;> first | exact hconsumer.1 | cases hspan
  stopped := by
    intro hconsumer hcontrol hlast
    -- Between two reads no stop is parked, so the state is idle.
    have hknow : w.state = .idle ∨ w.state = .stopReq := by
      have h' := h.control
      unfold ControlInv at h'
      rw [hcontrol] at h'
      exact h' hlast
    have hparked : w.state ≠ .stopReq := by
      have h' := h.consumer
      unfold ConsumerInv at h'
      rw [hconsumer] at h'
      exact h'.2
    have hidle : w.state = .idle := hknow.resolve_right hparked
    rw [readOnce_of_idle hidle hconsumer]
    refine ⟨hknow, hidle, ?_⟩
    rcases h.down hidle with hd | hd | hd
    · exact hd
    · rw [hcontrol] at hd
      cases hd
    · rw [hconsumer] at hd
      cases hd

/-- The registers are clocked in the reading span, and a stop leaves the channel down, in every run in which
`stop` never cancels a request to re-arm while the channel runs and the consumer will not undo it. -/
theorem handoff_of_reach {w : Handoff} (h : Reach exec Guard create w) : w.HandoffOk := by
  refine Inv.handoffOk (h.invariant inv_create ?_)
  intro s op hs hguard
  exact inv_exec op hs hguard

/-- The first read arms the channel; it is stopped during the second one, which completes the stop. -/
def parkedRun : List HandoffOp :=
  List.replicate 7 (.consumer true) ++ List.replicate 3 (.consumer false) ++
    List.replicate 4 (.control .stop) ++ List.replicate 8 (.consumer true)

theorem handoff_of_reach_parked : HandoffOk (parkedRun.foldl exec create) :=
  handoff_of_reach (Reach.run parkedRun .start (by decide))

/-- An armed channel is to be re-armed, and then stopped before the next read. -/
def cancelledRun : List HandoffOp :=
  List.replicate 7 (.consumer true) ++ List.replicate 2 (.control .rearm) ++
    List.replicate 3 (.control .stop)

/-- The stop only cancels the request: the channel runs on. -/
theorem handoff_cancelled : ¬∀ w, Reach exec (fun _ _ => True) create w → HandoffOk w := by
  intro h
  have hreach : Reach exec (fun _ _ => True) create (cancelledRun.foldl exec create) :=
    Reach.run cancelledRun .start (by decide)
  have hstopped := (h _ hreach).stopped (by decide) (by decide) (by decide)
  exact absurd hstopped.2.2.1 (by decide)

end SensorLink.Dma.Handoff
