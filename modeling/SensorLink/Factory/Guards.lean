import SensorLink.Factory.Result

/-!
# What the tasks of the factory test check before they store

Each store of a zone's phase rests on the load right before it, PHASE is stored by the last operation of a
task, and only Fail is stored there if the board's zone is found failed.
-/

namespace SensorLink.Factory

open Lib

variable {α β : Type}

/-! ### What a task checks before it stores -/

/-- The zone that an answer shows not to have failed -/
def learned : (o : Op) → o.Answer → Option Zone
  | .loadZonePhase zone, p => if p = .fail then none else some zone
  | _, _ => none

/-- A phase other than Fail may be stored for the zone that is known not to have failed. -/
def MayStore (known : Option Zone) : Op → Prop
  | .storeZonePhase zone p => p = .fail ∨ known = some zone
  | _ => True

/-- Each store of a zone's phase rests on the operation right before it. -/
def Guards : Option Zone → FactoryTask α → Prop
  | _, .done _ => True
  | known, .next o k => MayStore known o ∧ ∀ v, Guards (learned o v) (k v)

/-- What the board's phase is found to be if its zone has failed -/
def BoardFails : (o : Op) → o.Answer → Prop
  | .loadZonePhase .board, p => p = .fail
  | _, _ => True

/-- Of the phases, only Fail is stored. -/
def Op.KeepsFail (o : Op) : Prop := ∀ p, o = .storePhase p → p = .fail

/-- While the board's zone is failed, Phase::Pass is not stored. -/
def NoPass : FactoryTask α → Prop
  | .done _ => True
  | .next o k => o.KeepsFail ∧ ∀ v, BoardFails o v → NoPass (k v)

/-- Phase::Pass is not stored without another load of the board's phase before. -/
def ReadsBoard : FactoryTask α → Prop
  | .done _ => True
  | .next o k => o = .loadZonePhase .board ∨ o.KeepsFail ∧ ∀ v, ReadsBoard (k v)

/-- Once the board's zone is found failed, Phase::Pass is not stored. -/
def Honest : FactoryTask α → Prop
  | .done _ => True
  | .next o k => ∀ v, Honest (k v) ∧ (o = .loadZonePhase .board → BoardFails o v → NoPass (k v))

def Op.StoresPhase : Op → Prop
  | .storePhase _ => True
  | _ => False

/-- PHASE is only stored by the last operation. -/
def PhaseLast : FactoryTask α → Prop
  | .done _ => True
  | .next o k => (o.StoresPhase → ∃ a, ∀ v, k v = .done a) ∧ ∀ v, PhaseLast (k v)

abbrev Silent (t : FactoryTask α) : Prop := t.All fun o => ¬o.StoresPhase

lemma MayStore.weaken {o : Op} (h : MayStore none o) (known : Option Zone) : MayStore known o := by
  cases o with
  | storeZonePhase zone p => exact .inl (h.resolve_right (Option.some_ne_none _).symm)
  | _ => trivial

lemma Guards.weaken {t : FactoryTask α} (h : Guards none t) (known : Option Zone) : Guards known t := by
  cases t with
  | done a => trivial
  | next o k => exact ⟨h.1.weaken known, h.2⟩

lemma Guards.bind {known : Option Zone} {t : FactoryTask α} {f : α → FactoryTask β} (ht : Guards known t)
    (hf : ∀ a, Guards none (f a)) : Guards known (t >>= f) := by
  induction t generalizing known with
  | done a => exact (hf a).weaken known
  | next o k ih => exact ⟨ht.1, fun v => ih v (ht.2 v)⟩

lemma Guards.forM {γ : Type} {f : γ → FactoryTask PUnit} (hf : ∀ c, Guards none (f c)) (l : List γ) :
    Guards none (l.forM f) := by
  induction l with
  | nil => trivial
  | cons c l ih => exact (hf c).bind fun _ => ih

lemma Guards.atomic {o : Op} (h : MayStore none o) : Guards none (atomic o) := ⟨h, fun _ => trivial⟩

lemma Silent.noPass {t : FactoryTask α} {f : α → FactoryTask β} (ht : Silent t) (hf : ∀ a, NoPass (f a)) :
    NoPass (t >>= f) := by
  induction t with
  | done a => exact hf a
  | next o k ih =>
    refine ⟨fun p heq => absurd ?_ ht.1, fun v _ => ih v (ht.2 v)⟩
    rw [heq]
    trivial

lemma Silent.honest {t : FactoryTask α} {f : α → FactoryTask β} (ht : Silent t) (hf : ∀ a, NoPass (f a))
    (hf' : ∀ a, Honest (f a)) : Honest (t >>= f) := by
  induction t with
  | done a => exact hf' a
  | next o k ih =>
    exact fun v => ⟨ih v (ht.2 v), fun _ _ => Silent.noPass (ht.2 v) hf⟩

lemma Silent.phaseLast {t : FactoryTask α} {f : α → FactoryTask β} (ht : Silent t)
    (hf : ∀ a, PhaseLast (f a)) : PhaseLast (t >>= f) := by
  induction t with
  | done a => exact hf a
  | next o k ih => exact ⟨fun h => absurd h ht.1, fun v => ih v (ht.2 v)⟩

lemma Honest.noPass {t : FactoryTask α} (h : Honest t) (hreads : ReadsBoard t) : NoPass t := by
  induction t with
  | done a => trivial
  | next o k ih =>
    rcases hreads with rfl | ⟨hpass, hreads⟩
    · exact ⟨nofun, fun v hv => (h v).2 rfl hv⟩
    · exact ⟨hpass, fun v _ => ih v (h v).1 (hreads v)⟩

/-- A task that checks before it stores a zone's phase, and leaves the overall one alone -/
structure Tame (t : FactoryTask α) : Prop where
  guards : Guards none t
  silent : Silent t

lemma Tame.pure (a : α) : Tame (pure a : FactoryTask α) := ⟨trivial, trivial⟩

lemma Tame.bind {t : FactoryTask α} {f : α → FactoryTask β} (ht : Tame t) (hf : ∀ a, Tame (f a)) :
    Tame (t >>= f) :=
  ⟨ht.guards.bind fun a => (hf a).guards, ht.silent.bind fun a => (hf a).silent⟩

lemma Tame.forM {γ : Type} {f : γ → FactoryTask PUnit} (hf : ∀ c, Tame (f c)) (l : List γ) :
    Tame (l.forM f) :=
  ⟨Guards.forM (fun c => (hf c).guards) l, Task.All.forM (fun c => (hf c).silent) l⟩

lemma Tame.atomic (o : Op) (hstore : MayStore none o) (hphase : ¬o.StoresPhase) : Tame (atomic o) :=
  ⟨Guards.atomic hstore, Task.All.perform hphase⟩

lemma Tame.ite {c : Prop} [Decidable c] {t t' : FactoryTask α} (ht : Tame t) (ht' : Tame t') :
    Tame (if c then t else t') := by
  split_ifs
  · exact ht
  · exact ht'

/-! ### The functions -/

lemma tame_setCurrent (step : Step) : Tame (setCurrent step) := .atomic _ trivial id

lemma tame_zonePhase (zone : Zone) : Tame (zonePhase zone) := .atomic _ trivial id

/-- The check of set_zone_phase is what its store needs. -/
lemma tame_setZonePhase (zone : Zone) (p : ZonePhase) : Tame (setZonePhase zone p) := by
  constructor
  · refine ⟨trivial, fun q => ?_⟩
    show Guards _ (if q = .fail ∧ p ≠ .fail then pure () else Factory.atomic (.storeZonePhase zone p))
    split_ifs with h
    · trivial
    · refine ⟨?_, fun _ => trivial⟩
      by_cases hq : q = .fail
      · exact .inl (not_not.mp fun hp => h ⟨hq, hp⟩)
      · exact .inr (if_neg hq)
  · refine ⟨id, fun q => ?_⟩
    show Silent (if q = .fail ∧ p ≠ .fail then pure () else Factory.atomic (.storeZonePhase zone p))
    split_ifs
    · trivial
    · exact ⟨id, fun _ => trivial⟩

lemma tame_zoneFault (zone : Zone) : Tame (zoneFault zone) :=
  (Tame.atomic (.loadZoneFault zone) trivial id).bind fun code => by
    cases code with
    | zero => exact .pure _
    | succ code => exact .pure _

lemma tame_record (step : Step) (ok : Bool) : Tame (record step ok) :=
  (Tame.atomic (.orReported step.bit) trivial id).bind fun _ => .ite
    ((Tame.atomic (.orFailed step.bit) trivial id).bind fun _ => tame_setZonePhase step.zone .fail) (.pure _)

lemma tame_armFault (fault : Fault) : Tame (armFault fault) := .atomic _ trivial id

lemma tame_fail (fault : Fault) : Tame (fail fault) :=
  (tame_armFault fault).bind fun _ => tame_setZonePhase fault.zone .fail

lemma tame_failUnreported : Tame failUnreported :=
  .forM (fun step => ((Tame.atomic .loadReported trivial id).bind fun _ => .pure _).bind fun _ =>
    .ite (.pure _) (tame_record step false)) _

lemma tame_mark (mark : Mark) : Tame mark.perform := by
  cases mark with
  | arm fault => exact tame_armFault fault
  | fail fault => exact tame_fail fault

lemma tame_run {O : Type} [Outcome O] (step : Step) (check : Check O) : Tame (run step check) :=
  (tame_setCurrent step).bind fun _ => (tame_setZonePhase step.zone .running).bind fun _ =>
    (Tame.forM tame_mark _).bind fun _ => (tame_record step _).bind fun _ =>
      .ite ((tame_zoneFault step.zone).bind fun _ =>
        .ite ((tame_fail step.defaultFault).bind fun _ => .pure _) (.pure _)) (.pure _)

lemma tame_modemSteps (checks : Checks) : Tame (modemSteps checks) :=
  (tame_run _ _).bind fun _ => .ite (.pure _) ((tame_run _ _).bind fun _ =>
    .ite ((tame_run _ _).bind fun _ => (tame_run _ _).bind fun _ => .pure _)
      ((tame_run _ _).bind fun _ => .pure _))

lemma tame_judgeModem (checks : Checks) (baseline : Option ℤ) : Tame (judgeModem checks baseline) := by
  cases baseline with
  | none => exact .pure _
  | some mA => exact (tame_zonePhase .board).bind fun _ => .ite (tame_modemSteps checks) (.pure _)

lemma tame_anyZone (zones : List Zone) :
    Tame (zones.anyM fun zone => return (← zonePhase zone) = .fail) := by
  induction zones with
  | nil => exact .pure _
  | cons zone zones ih =>
    refine ((tame_zonePhase zone).bind fun _ => .pure _).bind fun failed => ?_
    cases failed with
    | true => exact .pure _
    | false => exact ih

lemma tame_anythingFailed : Tame anythingFailed :=
  (Tame.atomic .loadFailed trivial id).bind fun _ => .ite (.pure _) (tame_anyZone _)

/-! ### The verdict -/

/-- The loop of publish_verdict -/
lemma tame_settle : Tame (Zone.all.forM fun zone => do
    if (← zonePhase zone) = .running then setZonePhase zone .pass) :=
  .forM (fun zone => (tame_zonePhase zone).bind fun _ => .ite (tame_setZonePhase zone .pass) (.pure _)) _

lemma noPass_setPhase : NoPass (setPhase .fail) := by
  refine ⟨fun p heq => ?_, fun _ _ => trivial⟩
  cases heq
  rfl

/-- The board's zone is the first one that anything_failed looks at. -/
lemma noPass_verdict :
    NoPass (do let failed ← anythingFailed; setPhase (if failed then .fail else .pass)) := by
  refine ⟨nofun, fun v _ => ?_⟩
  show NoPass ((if v ≠ 0 then pure true
    else Zone.all.anyM fun zone => return (← zonePhase zone) = .fail : FactoryTask Bool) >>=
      fun failed => setPhase (if failed then .fail else .pass))
  by_cases hfailed : v ≠ 0
  · rw [if_pos hfailed]
    exact noPass_setPhase
  · rw [if_neg hfailed]
    refine ⟨nofun, fun p hp => ?_⟩
    cases hp
    exact noPass_setPhase

lemma honest_verdict :
    Honest (do let failed ← anythingFailed; setPhase (if failed then .fail else .pass)) := by
  refine fun v => ⟨?_, nofun⟩
  show Honest ((if v ≠ 0 then pure true
    else Zone.all.anyM fun zone => return (← zonePhase zone) = .fail : FactoryTask Bool) >>=
      fun failed => setPhase (if failed then .fail else .pass))
  by_cases hfailed : v ≠ 0
  · rw [if_pos hfailed]
    exact fun _ => ⟨trivial, nofun⟩
  · rw [if_neg hfailed]
    refine fun p => ⟨?_, fun _ hp => ?_⟩
    · cases p with
      | fail => exact fun _ => ⟨trivial, nofun⟩
      | _ =>
        refine fun q => ⟨?_, nofun⟩
        cases q <;> exact fun _ => ⟨trivial, nofun⟩
    · cases hp
      exact noPass_setPhase

/-- What a task needs that ends with the verdict -/
structure Judges (t : FactoryTask Unit) : Prop where
  guards : Guards none t
  phaseLast : PhaseLast t
  noPass : NoPass t
  honest : Honest t

lemma Judges.done : Judges (pure ()) := ⟨trivial, trivial, trivial, trivial⟩

lemma Judges.bind {t : FactoryTask α} {f : α → FactoryTask Unit} (ht : Tame t) (hf : ∀ a, Judges (f a)) :
    Judges (t >>= f) :=
  ⟨ht.guards.bind fun a => (hf a).guards, ht.silent.phaseLast fun a => (hf a).phaseLast,
    ht.silent.noPass fun a => (hf a).noPass,
    ht.silent.honest (fun a => (hf a).noPass) fun a => (hf a).honest⟩

lemma judges_publish : Judges publish :=
  .bind tame_settle fun _ =>
    { guards := tame_anythingFailed.guards.bind fun _ => Guards.atomic trivial
      phaseLast := tame_anythingFailed.silent.phaseLast fun _ =>
        ⟨fun _ => ⟨(), fun _ => rfl⟩, fun _ => trivial⟩
      noPass := noPass_verdict
      honest := honest_verdict }

lemma judges_publishVerdict : Judges publishVerdict :=
  .bind (.atomic .loadPhase trivial id) fun p => by
    split_ifs
    · exact .done
    · exact judges_publish

lemma judges_sequence (panicked : Bool) (checks : Checks) : Judges (sequence panicked checks) := by
  unfold sequence
  split_ifs
  · exact .bind (tame_setCurrent .boot) fun _ => .bind (tame_fail _) fun _ => judges_publishVerdict
  · exact .bind (tame_run _ _) fun _ => .bind (tame_run _ _) fun _ => .bind (tame_run _ _) fun baseline =>
      .bind (tame_run _ _) fun _ => .bind (tame_judgeModem checks baseline) fun _ => judges_publishVerdict

lemma judges_deadline : Judges deadline :=
  .bind (.atomic .loadPhase trivial id) fun p => by
    split_ifs
    · exact .done
    · exact .bind tame_failUnreported fun _ => .bind (tame_fail _) fun _ => judges_publishVerdict

end SensorLink.Factory
