import SensorLink.Factory.Verdict
import SensorLink.Lib.Reach

/-!
# When the verdict of the factory test latches

A zone that failed, an overall failure and a fault code stay, and Pass is only shown behind eight good
steps, in every run in which the deadline task does not come between a check of the sequence and the store
that rests on it.
-/

namespace SensorLink.Factory

open Lib

/-! ### Sequence and deadline -/

/-- A task that has run alone so far, which ends with the verdict -/
structure Alone (t₀ : FactoryTask Unit) (s₀ : Atomics) (t : FactoryTask Unit) (s : Atomics) : Prop where
  ends : t.exec act s = t₀.exec act s₀
  phaseLast : PhaseLast t
  running : s.phase = .running ∨ t = .done ()

lemma Alone.next {t₀ : FactoryTask Unit} {s₀ s : Atomics} {o : Op} {k : o.Answer → FactoryTask Unit}
    (h : Alone t₀ s₀ (.next o k) s) : Alone t₀ s₀ (k (act o s).1) (act o s).2 := by
  have hrunning : s.phase = .running := h.running.resolve_right nofun
  refine ⟨h.ends, h.phaseLast.2 _, ?_⟩
  by_cases ho : o.StoresPhase
  · obtain ⟨_, hdone⟩ := h.phaseLast.1 ho
    exact .inr (hdone _)
  · exact .inl ((act_phase ho s).trans hrunning)

/-- What is left of a task rests on what is true. -/
def Rests (t : FactoryTask Unit) (s : Atomics) : Prop := ∃ known, Guards known t ∧ KnownOk known s

lemma Rests.next {s : Atomics} {o : Op} {k : o.Answer → FactoryTask Unit} (h : Rests (.next o k) s) :
    Rests (k (act o s).1) (act o s).2 := by
  obtain ⟨known, hguards, -⟩ := h
  exact ⟨_, hguards.2 _, act_known o s⟩

/-- What the verdict latches -/
structure Latched (s s' : Atomics) : Prop where
  zones : ∀ zone, s.zonePhase zone = .fail → s'.zonePhase zone = .fail
  phase : s.phase = .fail → s'.phase = .fail
  faults : ∀ zone, s.zoneFault zone ≠ 0 → s'.zoneFault zone = s.zoneFault zone

lemma Latched.refl (s : Atomics) : Latched s s := ⟨fun _ => id, id, fun _ _ => rfl⟩

lemma Latched.trans {s s' s'' : Atomics} (h : Latched s s') (h' : Latched s' s'') : Latched s s'' := by
  refine ⟨fun zone hs => h'.zones zone (h.zones zone hs), fun hs => h'.phase (h.phase hs),
    fun zone hs => ?_⟩
  rw [← h.faults zone hs]
  refine h'.faults zone ?_
  rw [h.faults zone hs]
  exact hs

lemma Rests.latched {s : Atomics} {o : Op} {k : o.Answer → FactoryTask Unit} (h : Rests (.next o k) s)
    (hphase : s.phase = .fail → (act o s).2.phase = .fail) : Latched s (act o s).2 := by
  obtain ⟨known, hguards, hknown⟩ := h
  exact ⟨(act_grows hguards.1 hknown).zones, hphase, fun zone => act_zoneFault o⟩

/-- The deadline task does not come between a check and its store: if it comes while the run has not ended,
the sequence is not about to store a phase other than Fail for a zone that the deadline fails, and reads
the board's phase once more before it stores Phase::Pass. -/
def Timely (c : Tasks Op Op.Answer Atomics) (turn : Tasks.Turn) : Prop :=
  turn = .arrive → c.high = none → c.state.phase = .running →
    (∀ zone p k, c.low = .next (.storeZonePhase zone p) k → p ≠ .fail → ¬DeadlineFails c.state zone) ∧
      ReadsBoard c.low

/-- What is left of the sequence rests on what is true behind the deadline, too. -/
def Spared (t : FactoryTask Unit) (s : Atomics) : Prop :=
  ∃ known, Guards known t ∧ ∀ zone ∈ known, s.zonePhase zone ≠ .fail ∧ ¬DeadlineFails s zone

lemma Rests.spared {t : FactoryTask Unit} {s : Atomics} (h : Rests t s)
    (hstore : ∀ zone p k, t = .next (.storeZonePhase zone p) k → p ≠ .fail → ¬DeadlineFails s zone) :
    Spared t s := by
  obtain ⟨known, hguards, hknown⟩ := h
  have hnone (h : Guards none t) : Spared t s :=
    ⟨none, h, fun zone hz => absurd hz (Option.not_mem_none zone)⟩
  cases t with
  | done a => exact hnone trivial
  | next o k =>
    cases o with
    | storeZonePhase zone p =>
      by_cases hp : p = .fail
      · exact hnone ⟨.inl hp, hguards.2⟩
      · refine ⟨some zone, ⟨.inr rfl, hguards.2⟩, fun zone' hz => ?_⟩
        cases Option.mem_some_iff.mp hz
        exact ⟨hknown zone (hguards.1.resolve_left hp), hstore zone p k rfl hp⟩
    | _ => exact hnone ⟨trivial, hguards.2⟩

/-- Before the deadline has come, while it runs, and behind it; or the run had ended before -/
inductive Inv (sequence : FactoryTask Unit) : Tasks Op Op.Answer Atomics → Prop
  | before {s : Atomics} {t : FactoryTask Unit} {log : List Op} (halone : Alone sequence initial t s)
    (hrests : Rests t s) (hhonest : Honest t) : Inv sequence ⟨s, t, none, log⟩
  | during {s₀ s : Atomics} {t d : FactoryTask Unit} {log : List Op} (hrunning : s₀.phase = .running)
    (halone : Alone deadline s₀ d s) (hrests : Rests d s) (hspared : Spared t s₀) (hpass : NoPass t) :
    Inv sequence ⟨s, t, some d, log⟩
  | behind {s : Atomics} {t : FactoryTask Unit} {log : List Op} (hfail : s.phase = .fail)
    (hboard : s.zonePhase .board = .fail) (hrests : Rests t s) (hpass : NoPass t) :
    Inv sequence ⟨s, t, some (.done ()), log⟩
  | ended {s : Atomics} {d : FactoryTask Unit} {log : List Op} (hphase : s.phase ≠ .running)
    (hshown : Shown s) (hd : d = deadline ∨ d = .done ()) : Inv sequence ⟨s, .done (), some d, log⟩

section Step

variable {sequence : FactoryTask Unit} {c : Tasks Op Op.Answer Atomics}

/-- Behind the deadline, the sequence goes on with the jig failed. -/
lemma Alone.deadline_done {s₀ s : Atomics} {t : FactoryTask Unit} (hrunning : s₀.phase = .running)
    (halone : Alone deadline s₀ (.done ()) s) (hspared : Spared t s₀) :
    s.phase = .fail ∧ s.zonePhase .board = .fail ∧ Rests t s := by
  obtain ⟨hfail, hboard, hothers⟩ := deadline_spec hrunning
  have hs : s = (deadline.exec act s₀).2 := congrArg Prod.snd halone.ends
  obtain ⟨known, hguards, hknown⟩ := hspared
  rw [hs]
  exact ⟨hfail, hboard, known, hguards,
    fun zone hz => hothers zone (hknown zone hz).2 (hknown zone hz).1⟩

lemma boardFails_act {s : Atomics} (h : s.zonePhase .board = .fail) (o : Op) : BoardFails o (act o s).1 := by
  cases o with
  | loadZonePhase zone =>
    cases zone with
    | board => exact h
    | modem => trivial
  | _ => trivial

lemma Op.KeepsFail.act {o : Op} (ho : o.KeepsFail) {s : Atomics} (h : s.phase = .fail) :
    (act o s).2.phase = .fail := by
  cases o with
  | storePhase p => exact ho p rfl
  | _ => exact (act_phase id s).trans h

/-- The sequence behind the deadline -/
lemma Inv.low_behind {s : Atomics} {t : FactoryTask Unit} {log : List Op} (hfail : s.phase = .fail)
    (hboard : s.zonePhase .board = .fail) (hrests : Rests t s) (hpass : NoPass t) :
    Inv sequence (Tasks.turn act deadline ⟨s, t, some (.done ()), log⟩ .low) ∧
      Latched s (Tasks.turn act deadline ⟨s, t, some (.done ()), log⟩ .low).state := by
  cases t with
  | done a => exact ⟨.behind hfail hboard hrests hpass, .refl _⟩
  | next o k =>
    have hlatched := hrests.latched hpass.1.act
    exact ⟨.behind (hlatched.phase hfail) (hlatched.zones .board hboard) hrests.next
      (hpass.2 _ (boardFails_act hboard o)), hlatched⟩

lemma Inv.arrive (hshown : Shown (sequence.exec act initial).2) (h : Inv sequence c)
    (htimely : Timely c .arrive) :
    Inv sequence (c.turn act deadline .arrive) ∧ Latched c.state (c.turn act deadline .arrive).state := by
  cases h with
  | @before s t log halone hrests hhonest =>
    refine ⟨?_, .refl s⟩
    by_cases hrunning : s.phase = .running
    · obtain ⟨hstore, hreads⟩ := htimely rfl rfl hrunning
      exact .during hrunning ⟨rfl, judges_deadline.phaseLast, .inl hrunning⟩
        ⟨none, judges_deadline.guards, fun zone hz => absurd hz (Option.not_mem_none zone)⟩
        (hrests.spared hstore) (hhonest.noPass hreads)
    · obtain rfl := halone.running.resolve_left hrunning
      refine .ended hrunning ?_ (.inl rfl)
      rw [← halone.ends] at hshown
      exact hshown
  | during hrunning halone hrests hspared hpass =>
    exact ⟨.during hrunning halone hrests hspared hpass, .refl _⟩
  | behind hfail hboard hrests hpass => exact ⟨.behind hfail hboard hrests hpass, .refl _⟩
  | ended hphase hshown hd => exact ⟨.ended hphase hshown hd, .refl _⟩

lemma Inv.high (h : Inv sequence c) :
    Inv sequence (c.turn act deadline .high) ∧ Latched c.state (c.turn act deadline .high).state := by
  cases h with
  | before halone hrests hhonest => exact ⟨.before halone hrests hhonest, .refl _⟩
  | @during s₀ s t d log hrunning halone hrests hspared hpass =>
    cases d with
    | done a => exact ⟨.during hrunning halone hrests hspared hpass, .refl _⟩
    | next o k =>
      have hphase : s.phase = .running := halone.running.resolve_right nofun
      exact ⟨.during hrunning halone.next hrests.next hspared hpass,
        hrests.latched fun hfail => by rw [hphase] at hfail; cases hfail⟩
  | behind hfail hboard hrests hpass => exact ⟨.behind hfail hboard hrests hpass, .refl _⟩
  | @ended s d log hphase hshown hd =>
    rcases hd with rfl | rfl
    · refine ⟨.ended hphase hshown (.inr ?_), .refl _⟩
      exact if_pos hphase
    · exact ⟨.ended hphase hshown (.inr rfl), .refl _⟩

lemma Inv.low (h : Inv sequence c) :
    Inv sequence (c.turn act deadline .low) ∧ Latched c.state (c.turn act deadline .low).state := by
  cases h with
  | @before s t log halone hrests hhonest =>
    cases t with
    | done a => exact ⟨.before halone hrests hhonest, .refl _⟩
    | next o k =>
      have hphase : s.phase = .running := halone.running.resolve_right nofun
      exact ⟨.before halone.next hrests.next (hhonest _).1,
        hrests.latched fun hfail => by rw [hphase] at hfail; cases hfail⟩
  | @during s₀ s t d log hrunning halone hrests hspared hpass =>
    cases d with
    | next o k => exact ⟨.during hrunning halone hrests hspared hpass, .refl _⟩
    | done a =>
      obtain ⟨hfail, hboard, hrests⟩ := halone.deadline_done hrunning hspared
      exact Inv.low_behind hfail hboard hrests hpass
  | behind hfail hboard hrests hpass => exact Inv.low_behind hfail hboard hrests hpass
  | ended hphase hshown hd =>
    rcases hd with rfl | rfl
    · exact ⟨.ended hphase hshown (.inl rfl), .refl _⟩
    · exact ⟨.ended hphase hshown (.inr rfl), .refl _⟩

lemma Inv.turn (hshown : Shown (sequence.exec act initial).2) (h : Inv sequence c) (turn : Tasks.Turn)
    (htimely : Timely c turn) :
    Inv sequence (c.turn act deadline turn) ∧ Latched c.state (c.turn act deadline turn).state := by
  cases turn with
  | low => exact h.low
  | arrive => exact h.arrive hshown htimely
  | high => exact h.high

lemma Inv.shown (hshown : Shown (sequence.exec act initial).2) (h : Inv sequence c) : Shown c.state := by
  cases h with
  | before halone hrests hhonest =>
    rcases halone.running with hphase | rfl
    · exact fun hpass => by rw [hphase] at hpass; cases hpass
    · rw [← halone.ends] at hshown
      exact hshown
  | during hrunning halone hrests hspared hpass =>
    rcases halone.running with hphase | rfl
    · exact fun hpass => by rw [hphase] at hpass; cases hpass
    · obtain ⟨hfail, -, -⟩ := halone.deadline_done hrunning hspared
      exact fun hpass => by rw [hfail] at hpass; cases hpass
  | behind hfail hboard hrests hpass => exact fun hpass => by rw [hfail] at hpass; cases hpass
  | ended hphase hshown hd => exact hshown

end Step

/-! ### The first fault -/

def Op.fault? : Op → Option Fault
  | .exchangeZoneFault fault => some fault
  | _ => none

/-- The code of the first fault that was recorded for a zone, or zero -/
def firstFault (zone : Zone) (log : List Op) : ℕ :=
  ((log.filterMap Op.fault?).find? fun fault => fault.zone = zone).elim 0 Fault.code

lemma act_firstFault {s : Atomics} {zone : Zone} {log : List Op}
    (h : s.zoneFault zone = firstFault zone log) (o : Op) :
    (act o s).2.zoneFault zone = firstFault zone (log ++ [o]) := by
  have hcode (fault : Fault) : fault.code ≠ 0 := by
    rcases fault with f | f <;> cases f <;> decide
  rw [firstFault, List.filterMap_append, List.find?_append]
  rw [firstFault] at h
  cases hfirst : (log.filterMap Op.fault?).find? fun fault => fault.zone = zone with
  | some fault =>
    rw [hfirst] at h
    rw [act_zoneFault o (h.trans_ne (hcode fault)), h]
    rfl
  | none =>
    rw [hfirst] at h
    cases o with
    | exchangeZoneFault fault =>
      have hzero : s.zoneFault zone = 0 := h
      show (if s.zoneFault fault.zone = 0 then _ else _ : Atomics).zoneFault zone =
        ([fault].find? fun fault => fault.zone = zone).elim 0 Fault.code
      rw [List.find?_singleton]
      by_cases hz : fault.zone = zone
      · rw [if_pos ((congrArg s.zoneFault hz).trans hzero), if_pos (decide_eq_true hz), ← hz]
        exact Function.update_self _ _ _
      · rw [if_neg fun hd => hz (of_decide_eq_true hd)]
        split_ifs
        · exact (Function.update_of_ne (Ne.symm hz) _ _).trans hzero
        · exact hzero
    | _ => exact h

/-- Each turn performs one operation or none. -/
lemma turn_log (c : Tasks Op Op.Answer Atomics) (turn : Tasks.Turn) :
    ((c.turn act deadline turn).state = c.state ∧ (c.turn act deadline turn).log = c.log) ∨
      ∃ o, (c.turn act deadline turn).state = (act o c.state).2 ∧
        (c.turn act deadline turn).log = c.log ++ [o] := by
  obtain ⟨s, t, d, log⟩ := c
  cases turn with
  | arrive => cases d <;> exact .inl ⟨rfl, rfl⟩
  | high =>
    rcases d with _ | ⟨_ | ⟨o, k⟩⟩
    · exact .inl ⟨rfl, rfl⟩
    · exact .inl ⟨rfl, rfl⟩
    · exact .inr ⟨o, rfl, rfl⟩
  | low =>
    rcases d with _ | ⟨_ | ⟨o, k⟩⟩
    · cases t with
      | done a => exact .inl ⟨rfl, rfl⟩
      | next o k => exact .inr ⟨o, rfl, rfl⟩
    · cases t with
      | done a => exact .inl ⟨rfl, rfl⟩
      | next o k => exact .inr ⟨o, rfl, rfl⟩
    · exact .inl ⟨rfl, rfl⟩

/-! ### Every run -/

/-- What every state of a run in which the deadline comes at a good moment satisfies -/
structure Kept (sequence : FactoryTask Unit) (c : Tasks Op Op.Answer Atomics) : Prop where
  inv : Inv sequence c
  faults : ∀ zone, c.state.zoneFault zone = firstFault zone c.log

lemma Kept.turn {sequence : FactoryTask Unit} {c : Tasks Op Op.Answer Atomics}
    (hshown : Shown (sequence.exec act initial).2) (h : Kept sequence c) {turn : Tasks.Turn}
    (htimely : Timely c turn) : Kept sequence (c.turn act deadline turn) := by
  refine ⟨(h.inv.turn hshown turn htimely).1, fun zone => ?_⟩
  rcases turn_log c turn with ⟨hstate, hlog⟩ | ⟨o, hstate, hlog⟩
  · rw [hstate, hlog]
    exact h.faults zone
  · rw [hstate, hlog]
    exact act_firstFault (h.faults zone) o

lemma kept_start (panicked : Bool) (checks : Checks) :
    Kept (sequence panicked checks) (Tasks.start initial (sequence panicked checks)) := by
  have hjudges := judges_sequence panicked checks
  exact ⟨.before ⟨rfl, hjudges.phaseLast, .inl rfl⟩
    ⟨none, hjudges.guards, fun zone hz => absurd hz (Option.not_mem_none zone)⟩ hjudges.honest,
    fun _ => rfl⟩

/-- **The verdict latches** from any state of a run to any later one, the fault code of a zone is that of
the first fault recorded for it, and Phase::Pass is only shown behind eight good steps. -/
theorem verdict_latches {panicked : Bool} {checks : Checks} {c c' : Tasks Op Op.Answer Atomics}
    (hc : Reach (Tasks.turn act deadline) Timely (Tasks.start initial (sequence panicked checks)) c)
    (hc' : Reach (Tasks.turn act deadline) Timely c c') :
    Latched c.state c'.state ∧ (∀ zone, c'.state.zoneFault zone = firstFault zone c'.log) ∧
      Shown c'.state := by
  have hshown := sequence_shown panicked checks
  have hkept : Kept (sequence panicked checks) c :=
    hc.invariant (kept_start panicked checks) fun c turn h => h.turn hshown
  obtain ⟨hkept', hlatched⟩ := hc'.invariant
    (P := fun c' => Kept (sequence panicked checks) c' ∧ Latched c.state c'.state) ⟨hkept, .refl _⟩
    fun c' turn h htimely =>
      ⟨h.1.turn hshown htimely, h.2.trans (h.1.inv.turn hshown turn htimely).2⟩
  exact ⟨hlatched, hkept'.faults, hkept'.inv.shown hshown⟩

/-- One task alone for some turns -/
def repeated (turn : Tasks.Turn) (n : ℕ) (c : Tasks Op Op.Answer Atomics) : Tasks Op Op.Answer Atomics :=
  (fun c => c.turn act deadline turn)^[n] c

lemma reach_repeated {G : Tasks Op Op.Answer Atomics → Tasks.Turn → Prop}
    {c₀ c : Tasks Op Op.Answer Atomics} (turn : Tasks.Turn) (hG : ∀ c, G c turn) (n : ℕ)
    (h : Reach (Tasks.turn act deadline) G c₀ c) :
    Reach (Tasks.turn act deadline) G c₀ (repeated turn n c) := by
  induction n generalizing c with
  | zero => exact h
  | succ n ih => exact ih (.step turn h (hG c))

/-- Checks that all pass -/
def passingChecks : Checks where
  boot := ⟨[], some true⟩
  charger := ⟨[], some true⟩
  rails := ⟨[], some (some 40)⟩
  temperature := ⟨[], some true⟩
  modemRail := ⟨[], some true⟩
  modemAt := ⟨[], some true⟩
  modemSim := ⟨[], some true⟩
  modemCurrent := ⟨[], some true⟩

/-- The deadline comes when the sequence has performed n operations, and runs. -/
def interrupted (n : ℕ) : Tasks Op Op.Answer Atomics :=
  repeated .high 60
    ((repeated .low n (Tasks.start initial (sequence false passingChecks))).turn act deadline .arrive)

/-- The deadline comes right before the first check of set_zone_phase: all steps pass, but the run stays
failed. -/
theorem verdict_latches_early :
    ((interrupted 1).state.phase = .fail ∧ (interrupted 1).state.zonePhase .board = .fail ∧
      (interrupted 1).state.zoneFault .board = 6) ∧
    (repeated .low 60 (interrupted 1)).state.phase = .fail ∧
    (repeated .low 60 (interrupted 1)).state.zonePhase .board = .fail ∧
    (repeated .low 60 (interrupted 1)).state.zoneFault .board = 6 := by
  have hfailed : (interrupted 1).state.phase = .fail ∧ (interrupted 1).state.zonePhase .board = .fail ∧
      (interrupted 1).state.zoneFault .board = 6 := by decide +kernel
  have hstart : Reach (Tasks.turn act deadline) Timely
      (Tasks.start initial (sequence false passingChecks)) (interrupted 1) :=
    reach_repeated .high (fun _ => nofun) 60
      (.step .arrive (reach_repeated .low (fun _ => nofun) 1 .start)
        fun _ _ _ => ⟨fun _ _ _ => nofun, .inl rfl⟩)
  obtain ⟨hlatched, -, -⟩ := verdict_latches hstart
    (reach_repeated .low (fun _ => nofun) 60 .start)
  exact ⟨hfailed, hlatched.phase hfailed.1, hlatched.zones .board hfailed.2.1,
    (hlatched.faults .board (by rw [hfailed.2.2]; decide)).trans hfailed.2.2⟩

/-- The deadline comes between the check that the board's zone has not failed and the store of its
ZonePhase::Pass: the zone is painted over, and so is the verdict. -/
theorem verdict_repainted :
    Reach (Tasks.turn act deadline) (fun _ _ => True)
      (Tasks.start initial (sequence false passingChecks)) (interrupted 36) ∧
    Reach (Tasks.turn act deadline) (fun _ _ => True) (interrupted 36)
      (repeated .low 8 (interrupted 36)) ∧
    ((interrupted 36).state.zonePhase .board = .fail ∧ (interrupted 36).state.phase = .fail) ∧
    (repeated .low 8 (interrupted 36)).state.zonePhase .board = .pass ∧
    (repeated .low 8 (interrupted 36)).state.phase = .pass := by
  refine ⟨?_, ?_, by decide +kernel, by decide +kernel⟩
  · exact reach_repeated .high (fun _ => trivial) 60
      (.step .arrive (reach_repeated .low (fun _ => trivial) 36 .start) trivial)
  · exact reach_repeated .low (fun _ => trivial) 8 .start

end SensorLink.Factory
