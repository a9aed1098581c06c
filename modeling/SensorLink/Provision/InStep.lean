import SensorLink.Provision.Worker

/-!
# The window and the worker are in step

The window only sends what the worker waits for, although each goes on without the other: the last message from the
worker that the window acts on comes before the next one that it sends.
-/

namespace SensorLink.Provision

open SensorLink.Lib SensorLink.Firmware

/-! ### What the window makes of an event -/

/-- What the operator can do -/
inductive Stage
  | setup (starting : Bool)
  | isOpen
  | running
  | failed (index : ℕ)
deriving DecidableEq

def Phase.stage : Phase → Stage
  | .idle | .confirm .. => .isOpen
  | .running => .running
  | .failed index _ => .failed index

def Screen.stage : Screen → Stage
  | .setup s => .setup s.starting
  | .session s => s.phase.stage

lemma Phase.stage_ne_setup (phase : Phase) (starting : Bool) : phase.stage ≠ .setup starting := by
  cases phase <;> exact Stage.noConfusion

/-- The window changes its stage. -/
def Event.decisive : Event → Bool
  | .sessionReady _ | .sessionFailed _ | .deviceFinished _ => true
  | .step index (.failed _) => index < stepRtt
  | _ => false

lemma Screen.stage_handle (screen : Screen) {event : Event} (h : event.decisive = false) :
    (screen.handle event).stage = screen.stage := by
  cases screen with
  | setup s =>
    cases event with
    | sessionReady | sessionFailed | deviceFinished => cases h
    | probes | rtt | step => rfl
  | session s =>
    cases event with
    | sessionReady | sessionFailed | deviceFinished => cases h
    | probes | rtt => rfl
    | step index state =>
      cases state with
      | failed message =>
        have hindex : ¬index < stepRtt := by simpa [Event.decisive] using h
        simp only [Screen.handle, if_neg hindex, Screen.stage]
      | pending | running | done | skipped => rfl

/-- The session after an act: nothing is sent and the stage is the same, or a device is started, or the operator
answers. -/
lemma Session.act_cases (s : Session) (log : Option Text) (a : Act) :
    ((s.act log a).1.phase.stage = s.phase.stage ∧ (s.act log a).2 = none) ∨
    (s.act log a).1.phase = .running ∧
      ((s.phase.stage = .isOpen ∧ ∃ request, (s.act log a).2 = some (.provision request)) ∨
        ∃ index, s.phase.stage = .failed index ∧ ((s.act log a).2 = some .retry ∨ (s.act log a).2 = some .skip)) := by
  cases a with
  | edit uid icc =>
    left
    refine ⟨?_, rfl⟩
    simp only [Session.act]
    split <;> rfl
  | check checks =>
    left
    refine ⟨?_, rfl⟩
    simp only [Session.act]
    split <;> rfl
  | prepare readable =>
    left
    refine ⟨?_, rfl⟩
    simp only [Session.act]
    split
    · next hopen =>
      have hstage : s.phase.stage = .isOpen := by
        unfold Session.isOpen at hopen
        split at hopen
        · next h => rw [h]; rfl
        · next h => rw [h]; rfl
        · cases hopen
      simp only [Session.prepareStart]
      split
      · rfl
      · rw [hstage]
        rfl
    · rfl
  | cancel =>
    left
    simp only [Session.act]
    split
    · next h => exact ⟨by rw [h]; rfl, rfl⟩
    · exact ⟨rfl, rfl⟩
  | proceed =>
    simp only [Session.act]
    split
    · next h => exact .inr ⟨rfl, .inl ⟨by rw [h]; rfl, _, rfl⟩⟩
    · exact .inl ⟨rfl, rfl⟩
  | retry =>
    simp only [Session.act]
    split
    · next h => exact .inr ⟨rfl, .inr ⟨_, by rw [h]; rfl, .inl rfl⟩⟩
    · exact .inl ⟨rfl, rfl⟩
  | skip =>
    simp only [Session.act]
    split
    · next h => exact .inr ⟨rfl, .inr ⟨_, by rw [h]; rfl, .inr rfl⟩⟩
    · exact .inl ⟨rfl, rfl⟩

/-! ### The stages of the window and the points of the worker -/

def AllProbes (commands : List Command) : Prop := ∀ command ∈ commands, command = .listProbes

lemma allProbes_nil : AllProbes [] := fun _ h => absurd h List.not_mem_nil

lemma AllProbes.concat {commands : List Command} (h : AllProbes commands) :
    AllProbes (commands ++ [.listProbes]) := by
  intro command hmem
  rcases List.mem_append.mp hmem with hmem | hmem
  · exact h command hmem
  · exact List.mem_singleton.mp hmem

/-- A session is being started; `news` are the events on their way that change the stage. -/
def Starting (point : Point) (commands : List Command) (news : List Event) (session : Option Profile) : Prop :=
  match point with
  | .recv =>
    (news = [] ∧ ∃ before after, AllProbes before ∧ AllProbes after ∧ commands = before ++ .startSession :: after) ∨
    AllProbes commands ∧ ((∃ message, news = [.sessionFailed message]) ∨
      session.isSome ∧ ∃ info, news = [.sessionReady info])
  | .starting => AllProbes commands ∧ news = []
  | _ => False

/-- A device is on its way to the worker, in its hands, or reported. -/
def Busy (point : Point) (commands : List Command) (news : List Event) : Prop :=
  match point with
  | .recv =>
    (news = [] ∧ ∃ before request, AllProbes before ∧ commands = before ++ [.provision request]) ∨
    commands = [] ∧ ∃ report, news = [.deviceFinished report]
  | .run _ index => index < stepRtt ∧ commands = [] ∧ news = []
  | .wait _ index =>
    index < stepRtt ∧ ((commands = [] ∧ ∃ message, news = [.step index (.failed message)]) ∨
      news = [] ∧ (commands = [.retry] ∨ commands = [.skip]))
  | .reset _ | .rtt .. | .mqtt .. => commands = [] ∧ news = []
  | .starting | .panicked => False

def Agree (stage : Stage) (point : Point) (commands : List Command) (news : List Event) (session : Option Profile) :
    Prop :=
  match stage with
  | .setup false => point = .recv ∧ AllProbes commands ∧ news = []
  | .setup true => Starting point commands news session
  | .isOpen => session.isSome ∧ point = .recv ∧ AllProbes commands ∧ news = []
  | .running => session.isSome ∧ Busy point commands news
  | .failed index =>
    session.isSome ∧ index < stepRtt ∧ (∃ d, point = .wait d index) ∧ commands = [] ∧ news = []

namespace World

/-- The events on their way that change the stage of the window -/
def news (w : World) : List Event := (w.events ++ w.outbox).filter Event.decisive

structure InStep (w : World) : Prop where
  agree : Agree w.screen.stage w.point w.commands w.news w.session
  ignored : w.ignored = []

lemma inStep_new (log : Option Text) : (new log).InStep :=
  ⟨⟨rfl, fun _ => List.mem_singleton.mp, rfl⟩, rfl⟩

variable {w : World}

lemma InStep.rescan (hw : w.InStep) {s : Setup} (hscreen : w.screen = .setup s) :
    InStep { w with commands := w.commands ++ [.listProbes] } := by
  refine ⟨?_, hw.ignored⟩
  have hagree := hw.agree
  rw [hscreen] at hagree
  show Agree w.screen.stage w.point _ w.news w.session
  rw [hscreen]
  cases hs : s.starting with
  | false =>
    simp only [Screen.stage, hs, Agree] at hagree ⊢
    exact ⟨hagree.1, hagree.2.1.concat, hagree.2.2⟩
  | true =>
    simp only [Screen.stage, hs, Agree] at hagree ⊢
    unfold Starting at hagree ⊢
    split at hagree
    · rcases hagree with ⟨hnews, before, after, hbefore, hafter, hcommands⟩ | ⟨hprobes, hnews⟩
      · exact .inl ⟨hnews, before, after ++ [.listProbes], hbefore, hafter.concat, by simp [hcommands]⟩
      · exact .inr ⟨hprobes.concat, hnews⟩
    · exact ⟨hagree.1.concat, hagree.2⟩
    · exact hagree

lemma InStep.start (hw : w.InStep) {s : Setup} (hscreen : w.screen = .setup s) (hs : s.starting = false) :
    InStep { w with screen := .setup ⟨true, none⟩, commands := w.commands ++ [.startSession] } := by
  refine ⟨?_, hw.ignored⟩
  have hagree := hw.agree
  rw [hscreen] at hagree
  simp only [Screen.stage, hs, Agree] at hagree
  obtain ⟨hpoint, hprobes, hnews⟩ := hagree
  show Starting w.point _ w.news w.session
  rw [hpoint]
  exact .inl ⟨hnews, w.commands, [], hprobes, allProbes_nil, rfl⟩

lemma InStep.act (hw : w.InStep) (a : Act) : (w.act a).InStep := by
  refine ⟨?_, ?_⟩
  · cases hscreen : w.screen with
    | setup s => simpa only [World.act, hscreen] using hw.agree
    | session s =>
      have hagree := hw.agree
      rw [hscreen, Screen.stage] at hagree
      simp only [World.act, hscreen]
      show Agree (s.act w.log a).1.phase.stage w.point _ w.news w.session
      rcases s.act_cases w.log a with ⟨hstage, hnone⟩ | ⟨hrunning, ⟨hstage, request, hsome⟩ | ⟨index, hstage, hsome⟩⟩
      · rw [hstage, hnone, Option.toList_none, List.append_nil]
        exact hagree
      · rw [hstage] at hagree
        obtain ⟨hsession, hpoint, hprobes, hnews⟩ := hagree
        rw [hrunning, hsome, hpoint]
        exact ⟨hsession, .inl ⟨hnews, w.commands, request, hprobes, rfl⟩⟩
      · rw [hstage] at hagree
        obtain ⟨hsession, hindex, ⟨d, hpoint⟩, hcommands, hnews⟩ := hagree
        rw [hrunning, hpoint, hcommands]
        refine ⟨hsession, hindex, .inr ⟨hnews, ?_⟩⟩
        rcases hsome with hsome | hsome <;> rw [hsome]
        · exact .inl rfl
        · exact .inr rfl
  · unfold World.act
    split <;> exact hw.ignored

/-- At most one event on its way changes the stage: the answer to what the operator waits for. -/
lemma InStep.first_news (hw : w.InStep) {event : Event} {more : List Event} (hnews : w.news = event :: more) :
    more = [] ∧ AllProbes w.commands ∧
    ((w.screen.stage = .setup true ∧ w.point = .recv ∧
        ((∃ message, event = .sessionFailed message) ∨ w.session.isSome ∧ ∃ info, event = .sessionReady info)) ∨
      w.screen.stage = .running ∧ w.session.isSome ∧ w.commands = [] ∧
        ((w.point = .recv ∧ ∃ report, event = .deviceFinished report) ∨
          ∃ d index message, w.point = .wait d index ∧ index < stepRtt ∧ event = .step index (.failed message))) := by
  have hagree := hw.agree
  rw [hnews] at hagree
  cases hstage : w.screen.stage with
  | setup starting =>
    rw [hstage] at hagree
    cases starting with
    | false => exact absurd hagree.2.2 (List.cons_ne_nil _ _)
    | true =>
      simp only [Agree, Starting] at hagree
      split at hagree
      · next hpoint =>
        rcases hagree with ⟨hnil, -⟩ | ⟨hprobes, ⟨message, hfailed⟩ | ⟨hsession, info, hready⟩⟩
        · exact absurd hnil (List.cons_ne_nil _ _)
        · obtain ⟨hevent, hmore⟩ := List.cons.inj hfailed
          exact ⟨hmore, hprobes, .inl ⟨rfl, hpoint, .inl ⟨message, hevent⟩⟩⟩
        · obtain ⟨hevent, hmore⟩ := List.cons.inj hready
          exact ⟨hmore, hprobes, .inl ⟨rfl, hpoint, .inr ⟨hsession, info, hevent⟩⟩⟩
      · exact absurd hagree.2 (List.cons_ne_nil _ _)
      · exact hagree.elim
  | isOpen =>
    rw [hstage] at hagree
    exact absurd hagree.2.2.2 (List.cons_ne_nil _ _)
  | failed index =>
    rw [hstage] at hagree
    exact absurd hagree.2.2.2.2 (List.cons_ne_nil _ _)
  | running =>
    rw [hstage] at hagree
    obtain ⟨hsession, hbusy⟩ := hagree
    cases hpoint : w.point with
    | recv =>
      rw [hpoint] at hbusy
      rcases hbusy with ⟨hnil, -⟩ | ⟨hcommands, report, hreport⟩
      · exact absurd hnil (List.cons_ne_nil _ _)
      · obtain ⟨hevent, hmore⟩ := List.cons.inj hreport
        exact ⟨hmore, hcommands ▸ allProbes_nil, .inr ⟨rfl, hsession, hcommands, .inl ⟨rfl, report, hevent⟩⟩⟩
    | wait d index =>
      rw [hpoint] at hbusy
      obtain ⟨hindex, ⟨hcommands, message, hfailed⟩ | ⟨hnil, -⟩⟩ := hbusy
      · obtain ⟨hevent, hmore⟩ := List.cons.inj hfailed
        exact ⟨hmore, hcommands ▸ allProbes_nil,
          .inr ⟨rfl, hsession, hcommands, .inr ⟨d, index, message, rfl, hindex, hevent⟩⟩⟩
      · exact absurd hnil (List.cons_ne_nil _ _)
    | run _ _ =>
      rw [hpoint] at hbusy
      exact absurd hbusy.2.2 (List.cons_ne_nil _ _)
    | reset _ | rtt _ _ | mqtt _ _ =>
      rw [hpoint] at hbusy
      exact absurd hbusy.2 (List.cons_ne_nil _ _)
    | starting | panicked =>
      rw [hpoint] at hbusy
      exact hbusy.elim

lemma InStep.handle (hw : w.InStep) {event : Event} {rest : List Event} (hevents : w.events = event :: rest) :
    InStep { w with events := rest, screen := w.screen.handle event } := by
  refine ⟨?_, hw.ignored⟩
  have hnews : w.news = [event].filter Event.decisive ++ (rest ++ w.outbox).filter Event.decisive := by
    rw [news, hevents, ← List.filter_append]
    rfl
  show Agree (w.screen.handle event).stage w.point w.commands ((rest ++ w.outbox).filter Event.decisive) w.session
  cases hdecisive : event.decisive with
  | false =>
    rw [List.filter_singleton, hdecisive, cond_false, List.nil_append] at hnews
    rw [w.screen.stage_handle hdecisive, ← hnews]
    exact hw.agree
  | true =>
    rw [List.filter_singleton, hdecisive, cond_true, List.singleton_append] at hnews
    obtain ⟨hnil, hprobes, ⟨hstage, hpoint, hevent⟩ | ⟨hstage, hsession, hcommands, hevent⟩⟩ := hw.first_news hnews
    · rw [hnil, hpoint]
      cases hscreen : w.screen with
      | setup s =>
        rcases hevent with ⟨message, rfl⟩ | ⟨hsession, info, rfl⟩
        · exact ⟨rfl, hprobes, rfl⟩
        · exact ⟨hsession, rfl, hprobes, rfl⟩
      | session s =>
        rw [hscreen] at hstage
        exact absurd hstage (Phase.stage_ne_setup s.phase true)
    · rw [hnil]
      cases hscreen : w.screen with
      | setup s =>
        rw [hscreen] at hstage
        cases hstage
      | session s =>
        rcases hevent with ⟨hpoint, report, rfl⟩ | ⟨d, index, message, hpoint, hindex, rfl⟩
        · exact ⟨hsession, hpoint, hprobes, rfl⟩
        · simp only [Screen.handle, if_pos hindex, Screen.stage, Phase.stage]
          exact ⟨hsession, hindex, ⟨d, hpoint⟩, hcommands, rfl⟩

lemma InStep.send (hw : w.InStep) {event : Event} {rest : List Event} (houtbox : w.outbox = event :: rest) :
    InStep { w with events := w.events ++ [event], outbox := rest } := by
  have hnews : news { w with events := w.events ++ [event], outbox := rest } = w.news := by
    rw [news, news, houtbox, List.append_assoc, List.singleton_append]
  exact ⟨hnews ▸ hw.agree, hw.ignored⟩

/-! ### The worker -/

/-- The worker has a device in its hands, and has nothing left to send. -/
structure Holds (w : World) : Prop where
  stage : w.screen.stage = .running
  session : w.session.isSome
  commands : w.commands = []
  events : w.events.filter Event.decisive = []
  ignored : w.ignored = []

/-- What the worker has just done is still to be sent. -/
lemma Holds.busy (hw : w.Holds) {w' : World} (hscreen : w'.screen = w.screen) (hsession : w'.session = w.session)
    (hevents : w'.events = w.events) (hignored : w'.ignored = w.ignored)
    (hbusy : Busy w'.point w'.commands (w'.outbox.filter Event.decisive)) : w'.InStep := by
  refine ⟨?_, hignored.trans hw.ignored⟩
  have hnews : w'.news = w'.outbox.filter Event.decisive := by
    rw [news, hevents, List.filter_append, hw.events, List.nil_append]
  rw [hscreen, hw.stage, hsession, hnews]
  exact ⟨hw.session, hbusy⟩

lemma Holds.finish (hw : w.Holds) {events : List Event} (hevents : events.filter Event.decisive = []) (d : Device)
    (outcome : Outcome) (rttLog : Text) (error : Option Text) : (w.finish events d outcome rttLog error).InStep := by
  let report : Report := ⟨d.request.uid, outcome, d.request.reprovision, rttLog, error⟩
  refine hw.busy rfl rfl rfl rfl (.inr ⟨hw.commands, report, ?_⟩)
  rw [World.finish, List.filter_append, hevents]
  rfl

lemma Holds.stepped (hw : w.Holds) (d : Device) {index : ℕ} (hindex : index < stepRtt) (result : Except Text Unit) :
    (w.stepped d index result).InStep := by
  cases result with
  | ok =>
    refine hw.busy rfl rfl rfl rfl ?_
    simp only [World.stepped]
    split
    · next hlog => exact ⟨Nat.succ_lt_succ hlog, hw.commands, rfl⟩
    · exact ⟨hw.commands, rfl⟩
  | error message =>
    refine hw.busy rfl rfl rfl rfl ⟨hindex, .inl ⟨hw.commands, message, ?_⟩⟩
    simp only [World.stepped, List.filter_singleton, Event.decisive, decide_eq_true hindex, cond_true]

lemma Holds.booted (hw : w.Holds) (d : Device) (boot : BootLog) (result : Except Text Unit) :
    (w.booted d boot result).InStep := by
  cases result with
  | error message => exact hw.finish rfl d _ _ _
  | ok =>
    simp only [World.booted]
    split
    · exact hw.busy rfl rfl rfl rfl ⟨hw.commands, rfl⟩
    · exact hw.finish rfl d _ _ _

lemma Holds.connected (hw : w.Holds) (d : Device) (boot : BootLog) (result : Except Text Unit) :
    (w.connected d boot result).InStep := by
  cases result <;> exact hw.finish rfl d _ _ _

lemma updates_quiet (updated : Bool) (boot : BootLog) : (updates updated boot).filter Event.decisive = [] := by
  cases updated <;> rfl

/-- The image of a config is built without a panic. -/
lemma build_ne_panic (uid : String) (deviceType : UInt8) (certPem keyPem : List UInt8) :
    build uid deviceType certPem keyPem ≠ .error .panic := by
  unfold build
  dsimp only
  split
  · intro h
    cases h
  next hcert =>
  split
  · intro h
    cases h
  next hkey =>
  split
  · intro h
    cases h
  next serial _ =>
  rw [FirmwareConfig.asBytes_eq ⟨not_lt.mp hcert, not_lt.mp hkey⟩ List.length_replicate]
  intro h
  cases h

lemma Holds.built (hw : w.Holds) {d : Device} (hpoint : w.point = .run d 1) (houtbox : w.outbox = []) :
    (w.built d).InStep := by
  unfold World.built
  split
  · refine hw.busy rfl rfl rfl rfl ?_
    rw [hpoint, houtbox]
    exact ⟨by decide, hw.commands, rfl⟩
  · split
    · exact hw.stepped _ (by decide) _
    · exact hw.stepped _ (by decide) _
    · next hpanic => exact absurd hpanic (build_ne_panic _ _ _ _)

lemma Holds.appended (hw : w.Holds) {d : Device} (hpoint : w.point = .run d 6) (houtbox : w.outbox = [])
    (ts : Timestamp) (result : Except (Text × ℕ) Unit) : (w.appended d ts result).InStep := by
  have hlog (log : Option Text) : Holds { w with log := log } :=
    ⟨hw.stage, hw.session, hw.commands, hw.events, hw.ignored⟩
  unfold World.appended
  split
  · exact (hlog _).stepped d (by decide) _
  · exact (hlog _).stepped d (by decide) _
  · exact hw.stepped d (by decide) _
  · refine hw.busy rfl rfl rfl rfl ?_
    rw [hpoint, houtbox]
    exact ⟨by decide, hw.commands, rfl⟩

lemma Holds.reset (hw : w.Holds) (houtbox : w.outbox = []) (d : Device) (result : Except Text Unit) :
    (w.reset d result).InStep := by
  cases result with
  | ok => exact hw.busy rfl rfl rfl rfl ⟨hw.commands, by rw [World.reset, houtbox]; rfl⟩
  | error message => exact hw.booted d (.new d.profile.bootBanner) (.error message)

variable {std : Std}

lemma Holds.rttTurn (hw : w.Holds) (d : Device) (boot : BootLog) (turn : Turn) :
    (w.rttTurn std d boot turn).InStep := by
  unfold World.rttTurn
  split
  · exact hw.busy rfl rfl rfl rfl ⟨hw.commands, updates_quiet _ _⟩
  · exact hw.booted d _ _

lemma Holds.mqttTurn (hw : w.Holds) (d : Device) (boot : BootLog) (turn : Turn) :
    (w.mqttTurn std d boot turn).InStep := by
  unfold World.mqttTurn
  split
  · exact hw.busy rfl rfl rfl rfl ⟨hw.commands, updates_quiet _ _⟩
  · exact hw.connected d _ _

/-- The stage of the window while the worker has a device -/
lemma InStep.with_device (hw : w.InStep) (hrecv : w.point ≠ .recv) (hstarting : w.point ≠ .starting) :
    (w.screen.stage = .running ∧ w.session.isSome ∧ Busy w.point w.commands w.news) ∨
      (∃ d index, w.point = .wait d index) ∧ w.commands = [] := by
  have hagree := hw.agree
  cases hstage : w.screen.stage with
  | setup starting =>
    rw [hstage] at hagree
    cases starting with
    | false => exact absurd hagree.1 hrecv
    | true =>
      cases hpoint : w.point with
      | recv => exact absurd hpoint hrecv
      | starting => exact absurd hpoint hstarting
      | run _ _ | wait _ _ | reset _ | rtt _ _ | mqtt _ _ | panicked =>
        rw [hpoint] at hagree
        exact hagree.elim
  | isOpen =>
    rw [hstage] at hagree
    exact absurd hagree.2.1 hrecv
  | failed index =>
    rw [hstage] at hagree
    obtain ⟨-, -, ⟨d, hwait⟩, hcommands, -⟩ := hagree
    exact .inr ⟨⟨d, index, hwait⟩, hcommands⟩
  | running =>
    rw [hstage] at hagree
    exact .inl ⟨rfl, hagree⟩

lemma InStep.holds (hw : w.InStep) (houtbox : w.outbox = [])
    (hpoint : match w.point with
      | .run .. | .reset _ | .rtt .. | .mqtt .. => True
      | _ => False) : w.Holds := by
  have hnews : w.news = w.events.filter Event.decisive := by rw [news, houtbox, List.append_nil]
  have hrecv : w.point ≠ .recv := fun h => by simp [h] at hpoint
  have hstarting : w.point ≠ .starting := fun h => by simp [h] at hpoint
  rcases hw.with_device hrecv hstarting with ⟨hstage, hsession, hbusy⟩ | ⟨⟨d, index, hwait⟩, -⟩
  · rw [hnews] at hbusy
    cases hp : w.point with
    | run d index =>
      rw [hp] at hbusy
      exact ⟨hstage, hsession, hbusy.2.1, hbusy.2.2, hw.ignored⟩
    | reset _ | rtt _ _ | mqtt _ _ =>
      rw [hp] at hbusy
      exact ⟨hstage, hsession, hbusy.1, hbusy.2, hw.ignored⟩
    | recv | starting | wait _ _ | panicked =>
      rw [hp] at hpoint
      exact hpoint.elim
  · rw [hwait] at hpoint
    exact hpoint.elim

/-- The stage of the window while the worker starts a session -/
lemma InStep.starting (hw : w.InStep) (hpoint : w.point = .starting) :
    w.screen.stage = .setup true ∧ AllProbes w.commands ∧ w.news = [] := by
  have hagree := hw.agree
  rw [hpoint] at hagree
  cases hstage : w.screen.stage with
  | setup starting =>
    rw [hstage] at hagree
    cases starting with
    | false => cases hagree.1
    | true => exact ⟨rfl, hagree⟩
  | isOpen =>
    rw [hstage] at hagree
    cases hagree.2.1
  | running =>
    rw [hstage] at hagree
    exact hagree.2.elim
  | failed index =>
    rw [hstage] at hagree
    obtain ⟨-, -, ⟨d, hwait⟩, -⟩ := hagree
    cases hwait

lemma InStep.started (hw : w.InStep) (hpoint : w.point = .starting) (houtbox : w.outbox = [])
    (result : Except (Text × Option ℕ) Profile) : (w.started result).InStep := by
  obtain ⟨hstage, hprobes, hevents⟩ := hw.starting hpoint
  rw [news, houtbox, List.append_nil] at hevents
  refine ⟨?_, by cases result <;> exact hw.ignored⟩
  have hscreen : (w.started result).screen = w.screen := by cases result <;> rfl
  rw [hscreen, hstage]
  cases result with
  | error e =>
    refine .inr ⟨hprobes, .inl ⟨e.1, ?_⟩⟩
    rw [news, World.started, List.filter_append, hevents]
    rfl
  | ok profile =>
    refine .inr ⟨hprobes, .inr ⟨rfl, profile.info, ?_⟩⟩
    rw [news, World.started, List.filter_append, hevents]
    rfl

/-- The worker has listed the probes. -/
lemma InStep.listed (hw : w.InStep) (houtbox : w.outbox = []) {rest : List Command}
    (hagree : Agree w.screen.stage w.point rest w.news w.session) :
    InStep { w with commands := rest, outbox := [.probes] } := by
  refine ⟨?_, hw.ignored⟩
  have hnews : news { w with commands := rest, outbox := [.probes] } = w.news := by
    rw [news, news, List.filter_append, houtbox, List.append_nil]
    exact List.append_nil _
  rw [hnews]
  exact hagree

/-- **Each command at the channel is expected.** -/
lemma InStep.dispatch (hw : w.InStep) (hpoint : w.point = .recv) (houtbox : w.outbox = []) {command : Command}
    {rest : List Command} (hcommands : w.commands = command :: rest) :
    (dispatch { w with commands := rest } command).InStep := by
  have hagree := hw.agree
  rw [hpoint, hcommands] at hagree
  have hlisted (hrest : Agree w.screen.stage .recv rest w.news w.session) :
      InStep { w with commands := rest, outbox := [.probes] } := hw.listed houtbox (hpoint ▸ hrest)
  have htail {command : Command} {rest : List Command} (h : AllProbes (command :: rest)) :
      command = .listProbes ∧ AllProbes rest := List.forall_mem_cons.mp h
  cases hstage : w.screen.stage with
  | setup starting =>
    rw [hstage] at hagree hlisted
    cases starting with
    | false =>
      obtain ⟨-, hprobes, hnil⟩ := hagree
      obtain ⟨rfl, hrest⟩ := htail hprobes
      exact hlisted ⟨rfl, hrest, hnil⟩
    | true =>
      rcases hagree with ⟨hnil, before, after, hbefore, hafter, heq⟩ | ⟨hprobes, hanswer⟩
      · cases before with
        | nil =>
          obtain ⟨rfl, rfl⟩ := List.cons.inj heq
          refine ⟨?_, hw.ignored⟩
          show Agree w.screen.stage .starting rest w.news w.session
          rw [hstage]
          exact ⟨hafter, hnil⟩
        | cons first before =>
          obtain ⟨rfl, rfl⟩ := List.cons.inj heq
          obtain ⟨rfl, hbefore'⟩ := htail hbefore
          exact hlisted (.inl ⟨hnil, before, after, hbefore', hafter, rfl⟩)
      · obtain ⟨rfl, hrest⟩ := htail hprobes
        exact hlisted (.inr ⟨hrest, hanswer⟩)
  | isOpen =>
    rw [hstage] at hagree hlisted
    obtain ⟨hsession, -, hprobes, hnil⟩ := hagree
    obtain ⟨rfl, hrest⟩ := htail hprobes
    exact hlisted ⟨hsession, rfl, hrest, hnil⟩
  | failed index =>
    rw [hstage] at hagree
    obtain ⟨-, -, ⟨d, hwait⟩, -⟩ := hagree
    cases hwait
  | running =>
    rw [hstage] at hagree hlisted
    obtain ⟨hsession, ⟨hnil, before, request, hbefore, heq⟩ | ⟨heq, -⟩⟩ := hagree
    · cases before with
      | nil =>
        obtain ⟨rfl, rfl⟩ := List.cons.inj heq
        obtain ⟨profile, hprofile⟩ := Option.isSome_iff_exists.mp hsession
        have hevents : w.events.filter Event.decisive = [] := by
          rwa [news, houtbox, List.append_nil] at hnil
        have hholds : Holds { w with commands := [] } := ⟨hstage, hsession, rfl, hevents, hw.ignored⟩
        simp only [World.dispatch, World.provision, hprofile]
        exact hholds.busy rfl hprofile.symm rfl rfl ⟨by decide, rfl, rfl⟩
      | cons first before =>
        obtain ⟨rfl, rfl⟩ := List.cons.inj heq
        obtain ⟨rfl, hbefore'⟩ := htail hbefore
        exact hlisted ⟨hsession, .inl ⟨hnil, before, request, hbefore', rfl⟩⟩
    · cases heq

/-- **Each command for a step that failed is an answer.** -/
lemma InStep.answer (hw : w.InStep) {d : Device} {index : ℕ} (hpoint : w.point = .wait d index)
    (houtbox : w.outbox = []) {command : Command} {rest : List Command} (hcommands : w.commands = command :: rest) :
    (answer { w with commands := rest } d index command).InStep := by
  have hrecv : w.point ≠ .recv := fun h => by simp [h] at hpoint
  have hstarting : w.point ≠ .starting := fun h => by simp [h] at hpoint
  obtain ⟨hstage, hsession, hbusy⟩ := (hw.with_device hrecv hstarting).resolve_right fun ⟨_, hnil⟩ => by
    rw [hcommands] at hnil
    cases hnil
  rw [hpoint, hcommands] at hbusy
  obtain ⟨hindex, ⟨hnil, -⟩ | ⟨hnil, hanswer⟩⟩ := hbusy
  · exact absurd hnil (List.cons_ne_nil _ _)
  · have hevents : w.events.filter Event.decisive = [] := by
      rwa [news, houtbox, List.append_nil] at hnil
    rcases hanswer with heq | heq
    · obtain ⟨rfl, rfl⟩ := List.cons.inj heq
      have hholds : Holds { w with commands := [] } := ⟨hstage, hsession, rfl, hevents, hw.ignored⟩
      exact hholds.busy rfl rfl rfl rfl ⟨hindex, rfl, rfl⟩
    · obtain ⟨rfl, rfl⟩ := List.cons.inj heq
      have hholds : Holds { w with commands := [] } := ⟨hstage, hsession, rfl, hevents, hw.ignored⟩
      exact hholds.finish rfl d _ _ _

lemma InStep.recv (hw : w.InStep) (houtbox : w.outbox = []) : w.recv.InStep := by
  unfold World.recv
  split
  · exact hw
  next command rest hcommands =>
  split
  · next hpoint => exact hw.dispatch hpoint houtbox hcommands
  · next hpoint => exact hw.answer hpoint houtbox hcommands
  · exact hw

lemma InStep.call (hw : w.InStep) (houtbox : w.outbox = []) (c : Call) : (w.call std c).InStep := by
  cases c with
  | recv => exact hw.recv houtbox
  | started result =>
    simp only [World.call]
    split
    · next hpoint => exact hw.started hpoint houtbox result
    · exact hw
  | issued result =>
    simp only [World.call]
    split
    · next hpoint => exact (hw.holds houtbox (by rw [hpoint]; trivial)).stepped _ (by decide) _
    · next hpoint => exact (hw.holds houtbox (by rw [hpoint]; trivial)).stepped _ (by decide) _
    · exact hw
  | built =>
    simp only [World.call]
    split
    · next hpoint => exact (hw.holds houtbox (by rw [hpoint]; trivial)).built hpoint houtbox
    · exact hw
  | called result =>
    simp only [World.call]
    split
    · next hpoint =>
      split
      · next hindex =>
        exact (hw.holds houtbox (by rw [hpoint]; trivial)).stepped _ (hindex.2.trans (by decide)) _
      · exact hw
    · exact hw
  | appended ts result =>
    simp only [World.call]
    split
    · next hpoint => exact (hw.holds houtbox (by rw [hpoint]; trivial)).appended hpoint houtbox ts result
    · exact hw
  | reset result =>
    simp only [World.call]
    split
    · next hpoint => exact (hw.holds houtbox (by rw [hpoint]; trivial)).reset houtbox _ result
    · exact hw
  | turn turn =>
    simp only [World.call]
    split
    · next hpoint => exact (hw.holds houtbox (by rw [hpoint]; trivial)).rttTurn _ _ turn
    · next hpoint => exact (hw.holds houtbox (by rw [hpoint]; trivial)).mqttTurn _ _ turn
    · exact hw

lemma InStep.exec (hw : w.InStep) (op : Op) : (w.exec std op).InStep := by
  cases op with
  | rescan =>
    simp only [World.exec]
    split
    · next hscreen => exact hw.rescan hscreen
    · exact hw
  | start =>
    simp only [World.exec]
    split
    · next hscreen =>
      split
      · exact hw
      · next hs => exact hw.start hscreen (by simpa using hs)
    · exact hw
  | act a => exact hw.act a
  | handle =>
    simp only [World.exec]
    split
    · exact hw
    · next hevents => exact hw.handle hevents
  | call c =>
    simp only [World.exec]
    split
    · next houtbox => exact hw.call houtbox c
    · exact hw
  | send =>
    simp only [World.exec]
    split
    · exact hw
    · next houtbox => exact hw.send houtbox

/-- Nothing happens until the operator does something. -/
def Quiet (w : World) : Prop :=
  w.events = [] ∧ w.outbox = [] ∧ match w.point with
    | .recv | .wait .. => w.commands = []
    | .panicked => True
    | _ => False

lemma InStep.not_panicked (hw : w.InStep) : w.point ≠ .panicked := by
  intro hpoint
  have hrecv : w.point ≠ .recv := fun h => by simp [h] at hpoint
  have hstarting : w.point ≠ .starting := fun h => by simp [h] at hpoint
  rcases hw.with_device hrecv hstarting with ⟨-, -, hbusy⟩ | ⟨⟨d, index, hwait⟩, -⟩
  · rw [hpoint] at hbusy
    exact hbusy
  · rw [hpoint] at hwait
    cases hwait

/-- What the operator waits for is on its way. -/
lemma InStep.not_quiet (hw : w.InStep) (hstage : w.screen.stage = .setup true ∨ w.screen.stage = .running) :
    ¬w.Quiet := by
  rintro ⟨hevents, houtbox, hquiet⟩
  have hnews : w.news = [] := by rw [news, hevents, houtbox]; rfl
  have hagree := hw.agree
  rw [hnews] at hagree
  rcases hstage with hstage | hstage <;> rw [hstage] at hagree
  · simp only [Agree, Starting] at hagree
    split at hagree
    · next hpoint =>
      rw [hpoint] at hquiet
      rcases hagree with ⟨-, before, after, -, -, heq⟩ | ⟨-, ⟨message, heq⟩ | ⟨-, info, heq⟩⟩
      · exact absurd (heq.symm.trans hquiet) (by simp)
      · cases heq
      · cases heq
    · next hpoint =>
      rw [hpoint] at hquiet
      exact hquiet.elim
    · exact hagree.elim
  · obtain ⟨-, hbusy⟩ := hagree
    cases hpoint : w.point with
    | recv =>
      rw [hpoint] at hbusy hquiet
      rcases hbusy with ⟨-, before, request, -, heq⟩ | ⟨-, report, heq⟩
      · exact absurd (heq.symm.trans hquiet) (by simp)
      · cases heq
    | wait d index =>
      rw [hpoint] at hbusy hquiet
      obtain ⟨-, ⟨-, message, heq⟩ | ⟨-, hanswer⟩⟩ := hbusy
      · cases heq
      · rw [show w.commands = [] from hquiet] at hanswer
        rcases hanswer with heq | heq <;> cases heq
    | run _ _ | reset _ | rtt _ _ | mqtt _ _ | starting =>
      rw [hpoint] at hquiet
      exact hquiet.elim
    | panicked => exact hw.not_panicked hpoint

end World

def sampleProfile : Profile := ⟨7, 5, 9, ⟨true, true⟩, "# Starting".toList, 10, "connected".toList, 60⟩

def failedRun : List Op :=
  [.call .recv, .send, .handle, .start, .rescan, .call .recv, .call (.started (.ok sampleProfile)), .send, .handle,
    .act (.edit "abc123".toList "89310410106543789305".toList), .act (.prepare true), .act .proceed, .call .recv,
    .send, .call .recv] ++ List.replicate 10 .send ++ [.handle, .call (.issued (.error "no CA key".toList)), .send] ++
    List.replicate 11 .handle

def failedStation : World := failedRun.foldl (World.exec · asciiStd) (.new none)

lemma failedStation_run : failedStation.Run asciiStd (fun _ _ => True) none :=
  Reach.run failedRun .start (by decide)

end SensorLink.Provision
