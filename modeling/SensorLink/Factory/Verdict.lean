import SensorLink.Factory.Guards

/-!
# What the sequence and the deadline task leave, each alone

The sequence shows Phase::Pass only behind eight good steps; the deadline task fails the run and the jig.
-/

namespace SensorLink.Factory

open Lib

variable {α : Type}

/-! ### What the operations keep -/

/-- The step's bit is set in REPORTED. -/
def Atomics.Reported (s : Atomics) (step : Step) : Prop := s.reported &&& step.bit ≠ 0

/-- The step's bit is set in FAILED. -/
def Atomics.Failed (s : Atomics) (step : Step) : Prop := s.failed &&& step.bit ≠ 0

/-- What one finds later -/
structure Grows (s s' : Atomics) : Prop where
  reported : ∀ step, s.Reported step → s'.Reported step
  failed : s.failed ≠ 0 → s'.failed ≠ 0
  zones : ∀ zone, s.zonePhase zone = .fail → s'.zonePhase zone = .fail

lemma Grows.refl (s : Atomics) : Grows s s := ⟨fun _ => id, id, fun _ => id⟩

lemma Grows.trans {s s' s'' : Atomics} (h : Grows s s') (h' : Grows s' s'') : Grows s s'' :=
  ⟨fun step hs => h'.reported step (h.reported step hs), fun hs => h'.failed (h.failed hs),
    fun zone hs => h'.zones zone (h.zones zone hs)⟩

lemma or_and_ne_zero {m bits bit : ℕ} (h : m &&& bit ≠ 0) : (m ||| bits) &&& bit ≠ 0 := by
  rw [Nat.and_or_distrib_right]
  exact fun hzero => h (Nat.or_eq_zero_iff.mp hzero).1

/-- What is known about the zones is true. -/
def KnownOk (known : Option Zone) (s : Atomics) : Prop := ∀ zone ∈ known, s.zonePhase zone ≠ .fail

lemma act_grows {known : Option Zone} {o : Op} {s : Atomics} (hstore : MayStore known o)
    (hknown : KnownOk known s) : Grows s (act o s).2 := by
  cases o with
  | orReported bits => exact ⟨fun step hs => or_and_ne_zero hs, id, fun _ => id⟩
  | orFailed bits => exact ⟨fun _ => id, fun hs hzero => hs (Nat.or_eq_zero_iff.mp hzero).1, fun _ => id⟩
  | storeZonePhase zone p =>
    refine ⟨fun _ => id, id, fun zone' hs => ?_⟩
    by_cases hz : zone' = zone
    · subst hz
      rcases hstore with rfl | rfl
      · exact Function.update_self _ _ _
      · exact absurd hs (hknown zone' rfl)
    · exact (Function.update_of_ne hz _ _).trans hs
  | exchangeZoneFault fault =>
    show Grows s (if _ then _ else _)
    split_ifs
    · exact ⟨fun _ => id, id, fun _ => id⟩
    · exact .refl s
  | _ => exact ⟨fun _ => id, id, fun _ => id⟩

lemma act_known (o : Op) (s : Atomics) : KnownOk (learned o (act o s).1) (act o s).2 := by
  cases o with
  | loadZonePhase zone =>
    intro zone' hz
    change zone' ∈ (if s.zonePhase zone = .fail then none else some zone) at hz
    split_ifs at hz with hfail
    · exact absurd hz (Option.not_mem_none zone')
    · cases Option.mem_some_iff.mp hz
      exact hfail
  | _ => exact fun zone hz => absurd hz (Option.not_mem_none zone)

lemma act_phase {o : Op} (h : ¬o.StoresPhase) (s : Atomics) : (act o s).2.phase = s.phase := by
  cases o with
  | storePhase p => exact absurd trivial h
  | exchangeZoneFault fault =>
    show (if _ then _ else _ : Atomics).phase = _
    split_ifs <;> rfl
  | _ => rfl

/-- The first fault that is recorded for a zone stays. -/
lemma act_zoneFault (o : Op) {s : Atomics} {zone : Zone} (h : s.zoneFault zone ≠ 0) :
    (act o s).2.zoneFault zone = s.zoneFault zone := by
  cases o with
  | exchangeZoneFault fault =>
    show (if _ then _ else _ : Atomics).zoneFault zone = _
    split_ifs with hnone
    · refine Function.update_of_ne (fun hz => h ?_) _ _
      rw [hz, hnone]
    · rfl
  | _ => rfl

lemma Guards.grows {known : Option Zone} {t : FactoryTask α} (ht : Guards known t) {s : Atomics}
    (hs : KnownOk known s) : Grows s (t.exec act s).2 := by
  induction t generalizing known s with
  | done a => exact .refl s
  | next o k ih => exact (act_grows ht.1 hs).trans (ih _ (ht.2 _) (act_known o s))

lemma Tame.grows {t : FactoryTask α} (ht : Tame t) (s : Atomics) : Grows s (t.exec act s).2 :=
  ht.guards.grows fun zone hz => absurd hz (Option.not_mem_none zone)

lemma Tame.phase {t : FactoryTask α} (ht : Tame t) (s : Atomics) : (t.exec act s).2.phase = s.phase :=
  ht.silent.exec (fun _ s' ho hs' => (act_phase ho s').trans hs') rfl

/-! ### A task alone -/

lemma exec_setZonePhase_fail (zone : Zone) (s : Atomics) :
    (setZonePhase zone .fail).exec act s =
      ((), { s with zonePhase := Function.update s.zonePhase zone .fail }) := by
  show Task.exec act (if s.zonePhase zone = .fail ∧ ZonePhase.fail ≠ .fail then pure ()
    else atomic (.storeZonePhase zone .fail)) s = _
  rw [if_neg fun h => h.2 rfl]
  rfl

/-- A failed step is marked, and its zone. -/
lemma record_spec (step : Step) (ok : Bool) (s : Atomics) :
    ((record step ok).exec act s).2.Reported step ∧
      (ok = false → ((record step ok).exec act s).2.failed ≠ 0) := by
  have hbit : step.bit ≠ 0 := by cases step <;> decide
  have hreported : ({ s with reported := s.reported ||| step.bit } : Atomics).Reported step := by
    show (s.reported ||| step.bit) &&& step.bit ≠ 0
    rw [Nat.and_or_distrib_right, Nat.and_self]
    exact fun hzero => hbit (Nat.or_eq_zero_iff.mp hzero).2
  cases ok with
  | true => exact ⟨hreported, nofun⟩
  | false =>
    have hgrows := (tame_setZonePhase step.zone .fail).grows
      { s with reported := s.reported ||| step.bit, failed := s.failed ||| step.bit }
    exact ⟨hgrows.reported step hreported,
      fun _ => hgrows.failed fun hzero => hbit (Nat.or_eq_zero_iff.mp hzero).2⟩

lemma fail_spec (fault : Fault) (s : Atomics) :
    ((fail fault).exec act s).2.zonePhase fault.zone = .fail := by
  rw [fail, Task.exec_bind, exec_setZonePhase_fail]
  exact Function.update_self _ _ _

/-- The end of run: a failing step without a fault gets its default one. -/
lemma default_spec {O : Type} [Outcome O] (step : Step) (outcome : O) (s : Atomics) :
    let rest : FactoryTask O := do
      if !Outcome.passed outcome then
        if (← zoneFault step.zone).isNone then fail step.defaultFault
      return outcome
    (rest.exec act s).1 = outcome ∧ Grows s (rest.exec act s).2 := by
  refine ⟨?_, Tame.grows (.ite ((tame_zoneFault step.zone).bind fun _ =>
    .ite ((tame_fail step.defaultFault).bind fun _ => .pure _) (.pure _)) (.pure _)) s⟩
  split_ifs
  · rw [Task.exec_bind]
    split_ifs
    · rw [Task.exec_bind]
      rfl
    · rfl
  · rfl

lemma run_spec {O : Type} [Outcome O] (step : Step) (check : Check O) (s : Atomics) :
    ((run step check).exec act s).2.Reported step ∧
      (Outcome.passed ((run step check).exec act s).1 = false →
        ((run step check).exec act s).2.failed ≠ 0) := by
  unfold run
  rw [Task.exec_bind, Task.exec_bind, Task.exec_bind]
  dsimp only
  rw [Task.exec_bind]
  generalize ((check.marks.forM Mark.perform).exec act _).2 = s'
  generalize check.outcome.getD Outcome.timedOut = outcome
  obtain ⟨hreported, hfailed⟩ := record_spec step (Outcome.passed outcome) s'
  obtain ⟨heq, hgrows⟩ := default_spec step outcome ((record step (Outcome.passed outcome)).exec act s').2
  dsimp only at heq hgrows
  rw [heq]
  exact ⟨hgrows.reported step hreported, fun hok => hgrows.failed (hfailed hok)⟩

/-- All that a verdict may rest on -/
def Settled (s : Atomics) : Prop :=
  (∀ step, s.Reported step) ∨ s.failed ≠ 0 ∨ ∃ zone, s.zonePhase zone = .fail

lemma Settled.grows {s s' : Atomics} (h : Settled s) (hgrows : Grows s s') : Settled s' := by
  rcases h with hall | hfailed | ⟨zone, hzone⟩
  · exact .inl fun step => hgrows.reported step (hall step)
  · exact .inr (.inl (hgrows.failed hfailed))
  · exact .inr (.inr ⟨zone, hgrows.zones zone hzone⟩)

lemma run_grows {O : Type} [Outcome O] (step : Step) (check : Check O) (s : Atomics) :
    Grows s ((run step check).exec act s).2 := (tame_run step check).grows s

/-- The modem's steps all report, or one of them fails. -/
lemma modemSteps_settled (checks : Checks) {s : Atomics}
    (hboard : ∀ step, step.zone = .board → s.Reported step) :
    Settled ((modemSteps checks).exec act s).2 := by
  obtain ⟨hrail, hrailFailed⟩ := run_spec .modemRail checks.modemRail s
  have hgrail := run_grows .modemRail checks.modemRail s
  rw [modemSteps, Task.exec_bind]
  generalize (run .modemRail checks.modemRail).exec act s = r at hrail hrailFailed hgrail ⊢
  obtain ⟨passed, s₁⟩ := r
  cases passed with
  | false => exact .inr (.inl (hrailFailed rfl))
  | true =>
    obtain ⟨hat, hatFailed⟩ := run_spec .modemAt checks.modemAt s₁
    have hgat := run_grows .modemAt checks.modemAt s₁
    simp only [Bool.not_true, Bool.false_eq_true, if_false]
    rw [Task.exec_bind]
    generalize (run .modemAt checks.modemAt).exec act s₁ = r at hat hatFailed hgat ⊢
    obtain ⟨passed, s₂⟩ := r
    cases passed with
    | false =>
      refine Settled.grows (.inr (.inl (hatFailed rfl))) (Tame.grows ?_ s₂)
      exact (tame_run _ _).bind fun _ => .pure _
    | true =>
      have hgsim := run_grows .modemSim checks.modemSim s₂
      obtain ⟨hsim, -⟩ := run_spec .modemSim checks.modemSim s₂
      rw [if_pos rfl, Task.exec_bind]
      generalize ((run .modemSim checks.modemSim).exec act s₂).2 = s₃ at hsim hgsim ⊢
      have hgcurrent := run_grows .modemCurrent checks.modemCurrent s₃
      obtain ⟨hcurrent, -⟩ := run_spec .modemCurrent checks.modemCurrent s₃
      rw [Task.exec_bind]
      have hlate := hgsim.trans hgcurrent
      refine .inl fun step => ?_
      cases step with
      | modemRail => exact (hgat.trans hlate).reported _ hrail
      | modemAt => exact hlate.reported _ hat
      | modemSim => exact hgcurrent.reported _ hsim
      | modemCurrent => exact hcurrent
      | _ => exact (hgrail.trans (hgat.trans hlate)).reported _ (hboard _ rfl)

lemma judgeModem_settled (checks : Checks) {s : Atomics} {baseline : Option ℤ}
    (hboard : ∀ step, step.zone = .board → s.Reported step) (hrails : baseline = none → s.failed ≠ 0) :
    Settled ((judgeModem checks baseline).exec act s).2 := by
  cases baseline with
  | none => exact .inr (.inl (hrails rfl))
  | some mA =>
    show Settled (Task.exec act (if s.zonePhase .board ≠ .fail then modemSteps checks else pure ()) s).2
    split_ifs with hfail
    · exact modemSteps_settled checks hboard
    · exact .inr (.inr ⟨.board, not_not.mp hfail⟩)

/-! ### The verdict alone -/

lemma anythingFailed_spec (s : Atomics) :
    (anythingFailed.exec act s).2 = s ∧
      ((anythingFailed.exec act s).1 = true ↔ s.failed ≠ 0 ∨ ∃ zone, s.zonePhase zone = .fail) := by
  have hrun : anythingFailed.exec act s = Task.exec act
    (if s.failed ≠ 0 then pure true
      else Zone.all.anyM fun zone => return (← zonePhase zone) = .fail : FactoryTask Bool) s := rfl
  rw [hrun]
  by_cases hfailed : s.failed ≠ 0
  · rw [if_pos hfailed]
    exact ⟨rfl, fun _ => .inl hfailed, fun _ => rfl⟩
  rw [if_neg hfailed]
  have hany (zones : List Zone) :
      Task.exec act (zones.anyM fun zone => return (← zonePhase zone) = .fail : FactoryTask Bool) s =
        (zones.any fun zone => s.zonePhase zone = .fail, s) := by
    induction zones with
    | nil => rfl
    | cons zone zones ih =>
      rw [List.anyM, Task.exec_bind]
      show Task.exec act (match decide (s.zonePhase zone = .fail) with
        | true => pure true
        | false => zones.anyM fun zone => return (← zonePhase zone) = .fail : FactoryTask Bool) s = _
      rw [List.any_cons]
      cases decide (s.zonePhase zone = .fail) with
      | true => rfl
      | false => exact ih
  rw [hany]
  refine ⟨rfl, List.any_eq_true.trans ?_⟩
  constructor
  · rintro ⟨zone, -, hzone⟩
    exact .inr ⟨zone, of_decide_eq_true hzone⟩
  · rintro (h | ⟨zone, hzone⟩)
    · exact absurd h hfailed
    · exact ⟨zone, by cases zone <;> decide, decide_eq_true hzone⟩

/-- A zone's phase in a verdict -/
def ZonePhase.settled : ZonePhase → ZonePhase
  | .running => .pass
  | p => p

lemma settled_eq_fail (p : ZonePhase) : p.settled = .fail ↔ p = .fail := by cases p <;> decide

lemma settle_spec (zone : Zone) (s : Atomics) :
    (Task.exec act (do if (← zonePhase zone) = .running then setZonePhase zone .pass) s).2 =
      { s with zonePhase := Function.update s.zonePhase zone (s.zonePhase zone).settled } := by
  show (Task.exec act (if s.zonePhase zone = .running then setZonePhase zone .pass else pure ()) s).2 = _
  split_ifs with hrunning
  · show (Task.exec act (if s.zonePhase zone = .fail ∧ ZonePhase.pass ≠ .fail then pure ()
      else atomic (.storeZonePhase zone .pass)) s).2 = _
    have hsettled : ¬(s.zonePhase zone = .fail ∧ ZonePhase.pass ≠ .fail) := by
      rw [hrunning]
      decide
    rw [if_neg hsettled, hrunning]
    rfl
  · have hsame : (s.zonePhase zone).settled = s.zonePhase zone := by
      cases hz : s.zonePhase zone with
      | running => exact absurd hz hrunning
      | _ => rfl
    rw [hsame, Function.update_eq_self]
    rfl

/-- The loop of publish_verdict -/
lemma settleAll_spec (s : Atomics) :
    (Task.exec act (Zone.all.forM fun zone => do
      if (← zonePhase zone) = .running then setZonePhase zone .pass) s).2 =
      { s with zonePhase := fun zone => (s.zonePhase zone).settled } := by
  have hzones (body : Zone → FactoryTask PUnit) :
      Zone.all.forM body = body .board >>= fun _ => body .modem >>= fun _ => pure ⟨⟩ := rfl
  rw [hzones, Task.exec_bind, settle_spec, Task.exec_bind, settle_spec]
  show ({ s with zonePhase := Function.update _ _ _ } : Atomics) = _
  congr 1
  funext zone
  cases zone <;> rfl

lemma publish_spec (s : Atomics) :
    (∀ step, (publish.exec act s).2.Reported step ↔ s.Reported step) ∧
    (publish.exec act s).2.failed = s.failed ∧
    (∀ zone, (publish.exec act s).2.zonePhase zone = .fail ↔ s.zonePhase zone = .fail) ∧
    (publish.exec act s).2.phase ≠ .running ∧
    ((publish.exec act s).2.phase = .pass → s.failed = 0 ∧ ∀ zone, s.zonePhase zone ≠ .fail) := by
  rw [publish, Task.exec_bind, settleAll_spec, Task.exec_bind]
  obtain ⟨hstate, hvalue⟩ :=
    anythingFailed_spec { s with zonePhase := fun zone => (s.zonePhase zone).settled }
  rw [hstate]
  refine ⟨fun _ => Iff.rfl, rfl, fun zone => settled_eq_fail _, ?_, fun hpass => ?_⟩
  · show (if _ then Phase.fail else .pass) ≠ _
    split_ifs <;> decide
  · change (if _ then Phase.fail else .pass) = Phase.pass at hpass
    split_ifs at hpass with hfailed
    rw [hvalue, not_or, not_not] at hfailed
    exact ⟨hfailed.1, fun zone hzone => hfailed.2 ⟨zone, (settled_eq_fail _).mpr hzone⟩⟩

lemma publishVerdict_running {s : Atomics} (h : s.phase = .running) :
    publishVerdict.exec act s = publish.exec act s := by
  show Task.exec act (if s.phase ≠ .running then pure () else publish) s = _
  rw [if_neg (not_not.mpr h)]

/-- What Phase::Pass says: all eight steps have reported ok, and no zone has been failed. -/
def Shown (s : Atomics) : Prop :=
  s.phase = .pass → (∀ step, s.Reported step ∧ ¬s.Failed step) ∧ ∀ zone, s.zonePhase zone ≠ .fail

lemma publishVerdict_shown {s : Atomics} (hrunning : s.phase = .running) (hsettled : Settled s) :
    Shown (publishVerdict.exec act s).2 := by
  rw [publishVerdict_running hrunning]
  obtain ⟨hreported, hfailed, hzones, -, hpass⟩ := publish_spec s
  intro h
  obtain ⟨hnone, hnotFailed⟩ := hpass h
  refine ⟨fun step => ⟨(hreported step).mpr ?_, fun hbit => ?_⟩, fun zone hz =>
    hnotFailed zone ((hzones zone).mp hz)⟩
  · rcases hsettled with hall | hne | ⟨zone, hzone⟩
    · exact hall step
    · exact absurd hnone hne
    · exact absurd hzone (hnotFailed zone)
  · rw [Atomics.Failed, hfailed, hnone, Nat.zero_and] at hbit
    exact hbit rfl

/-- The sequence alone, whatever the outcomes -/
lemma sequence_shown (panicked : Bool) (checks : Checks) :
    Shown ((sequence panicked checks).exec act initial).2 := by
  unfold sequence
  split_ifs
  · rw [Task.exec_bind, Task.exec_bind]
    refine publishVerdict_shown ?_ (.inr (.inr ⟨.board, fail_spec _ _⟩))
    rw [(tame_fail _).phase, (tame_setCurrent _).phase]
    rfl
  · rw [Task.exec_bind, Task.exec_bind, Task.exec_bind, Task.exec_bind, Task.exec_bind]
    have hrunning : initial.phase = .running := rfl
    obtain ⟨hboot, -⟩ := run_spec .boot checks.boot initial
    have hp₁ := (tame_run .boot checks.boot).phase initial
    generalize ((run .boot checks.boot).exec act initial).2 = s₁ at hboot hp₁ ⊢
    obtain ⟨hcharger, -⟩ := run_spec .charger checks.charger s₁
    have hg₂ := run_grows .charger checks.charger s₁
    have hp₂ := (tame_run .charger checks.charger).phase s₁
    generalize ((run .charger checks.charger).exec act s₁).2 = s₂ at hcharger hg₂ hp₂ ⊢
    obtain ⟨hrails, hrailsFailed⟩ := run_spec .rails checks.rails s₂
    have hg₃ := run_grows .rails checks.rails s₂
    have hp₃ := (tame_run .rails checks.rails).phase s₂
    generalize (run .rails checks.rails).exec act s₂ = r at hrails hrailsFailed hg₃ hp₃ ⊢
    obtain ⟨baseline, s₃⟩ := r
    obtain ⟨htemperature, -⟩ := run_spec .temperature checks.temperature s₃
    have hg₄ := run_grows .temperature checks.temperature s₃
    have hp₄ := (tame_run .temperature checks.temperature).phase s₃
    generalize ((run .temperature checks.temperature).exec act s₃).2 = s₄ at htemperature hg₄ hp₄ ⊢
    refine publishVerdict_shown ?_ (judgeModem_settled checks (fun step hzone => ?_) fun hnone => ?_)
    · rw [(tame_judgeModem _ _).phase, hp₄, hp₃, hp₂, hp₁]
      rfl
    · cases step with
      | boot => exact (hg₂.trans (hg₃.trans hg₄)).reported _ hboot
      | charger => exact (hg₃.trans hg₄).reported _ hcharger
      | rails => exact hg₄.reported _ hrails
      | temperature => exact htemperature
      | _ => cases hzone
    · refine hg₄.failed (hrailsFailed ?_)
      rw [show baseline = none from hnone]
      rfl

/-! ### The deadline alone -/

/-- The zones that the deadline task fails: that of the jig, and that of a step that has not reported -/
def DeadlineFails (s : Atomics) (zone : Zone) : Prop :=
  zone = .board ∨ ∃ step, step.zone = zone ∧ ¬s.Reported step

lemma record_false (step : Step) (s : Atomics) : ((record step false).exec act s).2 =
    { s with
      reported := s.reported ||| step.bit
      failed := s.failed ||| step.bit
      zonePhase := Function.update s.zonePhase step.zone .fail } :=
  congrArg Prod.snd (exec_setZonePhase_fail step.zone
    { s with reported := s.reported ||| step.bit, failed := s.failed ||| step.bit })

lemma failStep_spec (step : Step) (s : Atomics) :
    (Task.exec act (do
      if ← reported step then return
      else record step false) s).2 =
        if s.reported &&& step.bit != 0 then s else ((record step false).exec act s).2 := by
  show (Task.exec act (if s.reported &&& step.bit != 0 then pure () else record step false) s).2 = _
  split_ifs <;> rfl

/-- A zone whose steps have all reported is left alone. -/
lemma failSteps_zone (steps : List Step) {s : Atomics} {zone : Zone}
    (h : ∀ step, step.zone = zone → s.Reported step) :
    (Task.exec act (steps.forM fun step => do
      if ← reported step then return
      else record step false) s).2.zonePhase zone = s.zonePhase zone := by
  induction steps generalizing s with
  | nil => rfl
  | cons step steps ih =>
    rw [Task.forM_cons, Task.exec_bind, failStep_spec]
    split_ifs with hreported
    · exact ih h
    · have hgrows := (tame_record step false).grows s
      rw [ih fun step' hz => hgrows.reported step' (h step' hz), record_false]
      refine Function.update_of_ne (fun hz => hreported ?_) _ _
      exact bne_iff_ne.mpr (h step hz.symm)

lemma deadline_spec {s : Atomics} (hrunning : s.phase = .running) :
    (deadline.exec act s).2.phase = .fail ∧ (deadline.exec act s).2.zonePhase .board = .fail ∧
    ∀ zone, ¬DeadlineFails s zone → s.zonePhase zone ≠ .fail →
      (deadline.exec act s).2.zonePhase zone ≠ .fail := by
  have hrun : deadline.exec act s = Task.exec act (if s.phase ≠ .running then pure () else do
    failUnreported
    fail (.board .firmware)
    publishVerdict) s := rfl
  rw [hrun, if_neg (not_not.mpr hrunning), Task.exec_bind, Task.exec_bind]
  have hp₁ := tame_failUnreported.phase s
  have hzones (zone : Zone) (h : ∀ step, step.zone = zone → s.Reported step) :
      (failUnreported.exec act s).2.zonePhase zone = s.zonePhase zone := failSteps_zone Step.all h
  generalize (failUnreported.exec act s).2 = s₁ at hp₁ hzones ⊢
  have hp₂ := (tame_fail (.board .firmware)).phase s₁
  have hboard := fail_spec (.board .firmware) s₁
  have hothers (zone : Zone) (h : zone ≠ .board) :
      ((fail (.board .firmware)).exec act s₁).2.zonePhase zone = s₁.zonePhase zone := by
    rw [fail, Task.exec_bind, exec_setZonePhase_fail]
    refine (Function.update_of_ne h _ _).trans ?_
    show (if _ then _ else _ : Atomics).zonePhase zone = _
    split_ifs <;> rfl
  generalize ((fail (.board .firmware)).exec act s₁).2 = s₂ at hp₂ hboard hothers ⊢
  rw [publishVerdict_running (hp₂.trans (hp₁.trans hrunning))]
  obtain ⟨-, -, hfails, hnotRunning, hpass⟩ := publish_spec s₂
  refine ⟨?_, (hfails .board).mpr hboard, fun zone hspared hzone hz => ?_⟩
  · cases hphase : (publish.exec act s₂).2.phase with
    | running => exact absurd hphase hnotRunning
    | pass => exact absurd hboard ((hpass hphase).2 .board)
    | fail => rfl
  · rw [DeadlineFails, not_or, not_exists] at hspared
    have hreported (step : Step) (h : step.zone = zone) : s.Reported step :=
      not_not.mp fun hnot => hspared.2 step ⟨h, hnot⟩
    rw [hfails, hothers zone hspared.1, hzones zone hreported] at hz
    exact hzone hz

end SensorLink.Factory
