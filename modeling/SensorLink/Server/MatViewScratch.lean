import SensorLink.Server.MatViewUpdate
import Mathlib.Algebra.BigOperators.Group.Multiset.Defs

/-!
# The views are the same as from scratch

Each level is settled with respect to the one below: its documents before its latest one are final. New
samples are not older than the latest document, and a level changes only from its latest document on, so
that the levels above stay settled whatever a failed run has left behind.
-/

namespace SensorLink.Server

open SensorLink.Lib SensorLink.Lib.Rollup

variable {DC V : Type} [DecidableEq DC] {f : Multiset V → V}

/-- A level, the one below and its bucket -/
inductive IsLevel : TimeResolution → TimeResolution → ℤ → Prop
  | seconds : IsLevel .native .seconds 1000
  | minutes : IsLevel .seconds .minutes 60000
  | hours : IsLevel .minutes .hours 3600000

namespace IsLevel

variable {src dest : TimeResolution} {unit : ℤ}

lemma pos (h : IsLevel src dest unit) : 0 < unit := by
  cases h <;> decide

lemma dateGroup (h : IsLevel src dest unit) : dest.dateGroup = some unit := by
  cases h <;> rfl

lemma ne (h : IsLevel src dest unit) : src ≠ dest := by
  cases h <;> decide

lemma ne_native (h : IsLevel src dest unit) : dest ≠ .native := by
  cases h <;> decide

end IsLevel

/-! ### One data set -/

section Levels

/-- What the level above is made of: the samples before the epoch are left out. -/
def source (d : TimeResolution → Multiset (Doc (MetaData DC) V)) :
    TimeResolution → Multiset (Doc (MetaData DC) V)
  | .native => fromEpoch (d .native)
  | resolution => d resolution

variable (f) (d : TimeResolution → Multiset (Doc (MetaData DC) V))

/-- A level is as from scratch. -/
def Fresh (resolution : TimeResolution) : Prop :=
  d resolution = fromScratch f (source d .native) resolution

/-- The levels up to this one are as from scratch. -/
def FreshTo : TimeResolution → Prop
  | .native => True
  | .seconds => Fresh f d .seconds
  | .minutes => Fresh f d .seconds ∧ Fresh f d .minutes
  | .hours => Fresh f d .seconds ∧ Fresh f d .minutes ∧ Fresh f d .hours

/-- What a run has done: it is at a level, and when it was not disturbed, the levels below are done. -/
def RunInv (run : UpdateRun) : Prop :=
  match run.point with
  | .idle => True
  | .findLatest src dest => (∃ unit, IsLevel src dest unit) ∧ (run.undisturbed = true → FreshTo f d src)
  | .build src dest date => (∃ unit, IsLevel src dest unit) ∧ date = latest (d dest) ∧
    (run.undisturbed = true → FreshTo f d src)
  | .completed => run.undisturbed = true → FreshTo f d .hours

/-- The levels of a data set and the run for it. -/
structure SetInv (run : UpdateRun) : Prop where
  settled : ∀ {src dest unit}, IsLevel src dest unit → Settled f unit (source d src) (d dest)
  run : RunInv f d run

variable {f d} {run : UpdateRun}

lemma setInv_create : SetInv f (fun _ => (0 : Multiset (Doc (MetaData DC) V))) ⟨.idle, false⟩ where
  settled := by
    intro src dest unit hlevel
    cases hlevel <;> exact Settled.empty
  run := trivial

/-- The source of a level is nowhere negative. -/
lemma SetInv.source_nonneg (h : SetInv f d run) {src dest : TimeResolution} {unit : ℤ}
    (hlevel : IsLevel src dest unit) : ∀ s ∈ source d src, 0 ≤ s.time := by
  intro s hs
  cases hlevel with
  | seconds => exact (Multiset.mem_filter.mp hs).2
  | minutes => exact (h.settled .seconds).nonneg s hs
  | hours => exact (h.settled .minutes).nonneg s hs

/-- A sample is inserted that is not older than the others. -/
lemma SetInv.insert (h : SetInv f d run) {doc : Doc (MetaData DC) V}
    (hlast : ∀ x ∈ d .native, x.time ≤ doc.time) :
    SetInv f (Function.update d .native (d .native + {doc})) { run with undisturbed := false } := by
  set d' := Function.update d .native (d .native + {doc}) with hd'
  have hother : ∀ r, r ≠ .native → d' r = d r := fun r hr => Function.update_of_ne hr _ _
  have hnative : d' .native = d .native + {doc} := Function.update_self _ _ _
  refine ⟨?_, ?_⟩
  · intro src dest unit hlevel
    have hsettled := h.settled hlevel
    rw [hother dest hlevel.ne_native]
    cases hlevel with
    | seconds =>
      have hsource : source d' .native = source d .native + fromEpoch {doc} := by
        simp only [source, hnative, fromEpoch, Multiset.filter_add]
      refine hsettled.change (by decide) ?_ ?_
      · intro s hs
        rw [hsource]
        exact ⟨s, Multiset.mem_add.mpr (.inl hs), rfl⟩
      · rw [hsource, Multiset.filter_add]
        -- The new sample is not before the latest document.
        have hnew : (fromEpoch {doc}).filter (·.time < latest (d .seconds)) = 0 := by
          refine Multiset.filter_eq_nil.mpr fun x hx => not_lt.mpr ?_
          obtain ⟨hx, hepoch⟩ := Multiset.mem_filter.mp hx
          rw [Multiset.mem_singleton.mp hx] at hepoch ⊢
          rcases latest_eq (d .seconds) with heq | ⟨y, hy, heq⟩
          · exact heq ▸ hepoch
          · obtain ⟨s, hs, hkey⟩ := hsettled.source y hy
            have htime : bucket 1000 s.time = y.time := congrArg Prod.fst hkey
            rw [← heq, ← htime]
            exact (bucket_le (by decide)).trans (hlast s (Multiset.mem_filter.mp hs).1)
        rw [hnew, add_zero]
    | minutes =>
      have hsource : source d' .seconds = source d .seconds := hother .seconds (by decide)
      rwa [hsource]
    | hours =>
      have hsource : source d' .minutes = source d .minutes := hother .minutes (by decide)
      rwa [hsource]
  · have hrun := h.run
    unfold RunInv at hrun ⊢
    cases hpoint : run.point with
    | idle => trivial
    | findLatest src dest =>
      rw [hpoint] at hrun
      exact ⟨hrun.1, by simp⟩
    | build src dest date =>
      rw [hpoint] at hrun
      obtain ⟨⟨unit, hlevel⟩, hdate, -⟩ := hrun
      exact ⟨⟨unit, hlevel⟩, by rw [hother dest hlevel.ne_native, hdate], by simp⟩
    | completed => simp

/-- The documents from the latest one on are those at or after the epoch. -/
lemma SetInv.refresh_source (h : SetInv f d run) {src dest : TimeResolution} {unit : ℤ}
    (hlevel : IsLevel src dest unit) :
    refresh f unit (d src) (d dest) (latest (d dest)) =
      refresh f unit (source d src) (d dest) (latest (d dest)) := by
  cases hlevel with
  | seconds =>
    have hpos := (h.settled .seconds).latest_nonneg
    unfold refresh source fromEpoch
    rw [Multiset.filter_filter]
    congr 2
    refine Multiset.filter_congr fun x _ => (and_iff_left_of_imp fun hle => ?_).symm
    exact hpos.trans hle
  | minutes => rfl
  | hours => rfl

/-- A level is built from the one below. -/
lemma SetInv.build (h : SetInv f d run) {src dest : TimeResolution} {unit : ℤ}
    (hlevel : IsLevel src dest unit)
    (hfresh : run.undisturbed = true → FreshTo f d src) :
    SetInv f (Function.update d dest (refresh f unit (d src) (d dest) (latest (d dest))))
      { run with point := ChannelViews.nextPoint dest } := by
  have hsettled := h.settled hlevel
  rw [h.refresh_source hlevel]
  set new := refresh f unit (source d src) (d dest) (latest (d dest)) with hnew
  have hgroup : new = group f unit (source d src) := hsettled.refresh_eq hlevel.pos
  set d' := Function.update d dest new with hd'
  have hself : d' dest = new := Function.update_self _ _ _
  have hother : ∀ r, r ≠ dest → d' r = d r := fun r hr => Function.update_of_ne hr _ _
  have hsource : ∀ r, r ≠ dest → source d' r = source d r := by
    intro r hr
    cases r <;> simp only [source, hother _ hr]
  have hlevelDest : Settled f unit (source d' src) (d' dest) := by
    rw [hself, hsource src hlevel.ne, hgroup]
    exact Settled.group hlevel.pos (h.source_nonneg hlevel)
  -- The level above is settled still, as its source changes only from the latest document on.
  have habove : ∀ {top unit'}, IsLevel dest top unit' → Settled f unit' (source d' dest) (d' top) := by
    intro top unit' htop
    have hsettled' := h.settled htop
    have hdest : source d dest = d dest := by cases htop <;> first | rfl | exact absurd rfl hlevel.ne_native
    have hdest' : source d' dest = new := by
      rw [← hself]
      cases htop <;> first | rfl | exact absurd rfl hlevel.ne_native
    rw [hother top htop.ne.symm]
    rw [hdest] at hsettled'
    refine hsettled'.change htop.pos ?_ ?_
    · intro s hs
      rw [hdest']
      exact exists_ident_refresh hs
    · rw [hdest']
      exact refresh_filter_lt hlevel.pos hsettled.dvd_latest
        (hsettled'.latest_le htop.pos hsettled.latest_nonneg)
  refine ⟨?_, ?_⟩
  · intro src' dest' unit' hlevel'
    by_cases hsame : dest' = dest
    · subst hsame
      cases hlevel <;> cases hlevel' <;> exact hlevelDest
    · by_cases htop : src' = dest
      · subst htop
        exact habove hlevel'
      · rw [hsource src' htop, hother dest' hsame]
        exact h.settled hlevel'
  · have hscratch : run.undisturbed = true → FreshTo f d' dest := by
      intro hrun
      have hbelow := hfresh hrun
      have hnative : source d' .native = source d .native := hsource .native hlevel.ne_native.symm
      unfold FreshTo Fresh at hbelow ⊢
      cases hlevel with
      | seconds => rw [hself, hnative, hgroup]; rfl
      | minutes =>
        refine ⟨by rw [hother .seconds (by decide), hnative, hbelow], ?_⟩
        rw [hself, hnative, hgroup]
        show group f 60000 (d .seconds) = _
        rw [hbelow]
        rfl
      | hours =>
        refine ⟨by rw [hother .seconds (by decide), hnative, hbelow.1],
          by rw [hother .minutes (by decide), hnative, hbelow.2], ?_⟩
        rw [hself, hnative, hgroup]
        show group f 3600000 (d .minutes) = _
        rw [hbelow.2]
        rfl
    unfold RunInv
    cases hlevel with
    | seconds => exact ⟨⟨_, .minutes⟩, hscratch⟩
    | minutes => exact ⟨⟨_, .hours⟩, hscratch⟩
    | hours => exact hscratch

end Levels

/-! ### All data sets -/

section OfDataSet

variable {dataSetId other : String} {docs dest : Multiset (Doc (MetaData DC) V)} {unit date : ℤ}

/-- The groups of the samples of a data set have its id. -/
lemma dataSetId_of_mem_group {d : Doc (MetaData DC) V}
    (h : d ∈ group f unit ((ofDataSet dataSetId docs).filter (date ≤ ·.time))) :
    d.label.dataSetId = some dataSetId := by
  obtain ⟨⟨s, hs, hkey⟩, -⟩ := mem_group.mp h
  have hset := (Multiset.mem_filter.mp (Multiset.mem_filter.mp hs).1).2
  rwa [show s.label = d.label from congrArg Prod.snd hkey] at hset

/-- A refresh with the samples of a data set, seen from the data set. -/
lemma ofDataSet_refresh_self : ofDataSet dataSetId (refresh f unit (ofDataSet dataSetId docs) dest date) =
    refresh f unit (ofDataSet dataSetId docs) (ofDataSet dataSetId dest) date := by
  have hnew : (group f unit ((ofDataSet dataSetId docs).filter (date ≤ ·.time))).filter
      (·.label.dataSetId = some dataSetId) =
        group f unit ((ofDataSet dataSetId docs).filter (date ≤ ·.time)) :=
    Multiset.filter_eq_self.mpr fun d hd => dataSetId_of_mem_group hd
  have hdest : ∀ p : Doc (MetaData DC) V → Prop, [DecidablePred p] →
      ofDataSet dataSetId (dest.filter p) = (ofDataSet dataSetId dest).filter p := by
    intro p _
    exact Multiset.filter_comm _ _ _
  unfold refresh merge
  rw [← hdest, ofDataSet, Multiset.filter_add, hnew]
  rfl

/-- A refresh with the samples of another data set -/
lemma ofDataSet_refresh_ne (hne : other ≠ dataSetId) :
    ofDataSet other (refresh f unit (ofDataSet dataSetId docs) dest date) = ofDataSet other dest := by
  have hnew : (group f unit ((ofDataSet dataSetId docs).filter (date ≤ ·.time))).filter
      (·.label.dataSetId = some other) = 0 := by
    refine Multiset.filter_eq_nil.mpr fun d hd hother => hne ?_
    exact Option.some.inj (hother.symm.trans (dataSetId_of_mem_group hd))
  unfold refresh merge
  rw [ofDataSet, Multiset.filter_add, hnew, add_zero, Multiset.filter_filter]
  refine Multiset.filter_congr fun d _ => and_iff_left_of_imp fun hother hk => hne ?_
  obtain ⟨x, hx, hident⟩ := Multiset.mem_map.mp hk
  have hlabel : x.label = d.label := congrArg Prod.snd hident
  exact Option.some.inj (hother.symm.trans (hlabel ▸ dataSetId_of_mem_group hx))

end OfDataSet

namespace ChannelViews

variable {w : ChannelViews DC V} {dataSetId : String}

lemma docs_insert_self {doc : Doc (MetaData DC) V} (h : doc.label.dataSetId = some dataSetId) :
    (w.exec f (.insert doc)).docs dataSetId =
      Function.update (w.docs dataSetId) .native (w.docs dataSetId .native + {doc}) := by
  funext r
  cases r with
  | native =>
    rw [Function.update_self]
    show ofDataSet dataSetId (w.collection .native + {doc}) = _
    rw [ofDataSet, Multiset.filter_add]
    congr 1
    exact Multiset.filter_eq_self.mpr fun x hx => by rwa [Multiset.mem_singleton.mp hx]
  | seconds | minutes | hours => rfl

lemma docs_insert_ne {doc : Doc (MetaData DC) V} (h : doc.label.dataSetId ≠ some dataSetId) :
    (w.exec f (.insert doc)).docs dataSetId = w.docs dataSetId := by
  funext r
  cases r with
  | native =>
    have hnone : ({doc} : Multiset (Doc (MetaData DC) V)).filter (·.label.dataSetId = some dataSetId) = 0 :=
      Multiset.filter_eq_nil.mpr fun x hx => by rwa [Multiset.mem_singleton.mp hx]
    show ofDataSet dataSetId (w.collection .native + {doc}) = _
    rw [ofDataSet, Multiset.filter_add, hnone, add_zero]
    rfl
  | seconds | minutes | hours => rfl

lemma docs_build_self (source dest : TimeResolution) (date unit : ℤ) :
    (w.buildMaterializedViewAverage f dataSetId source dest date unit).docs dataSetId =
      Function.update (w.docs dataSetId) dest
        (refresh f unit (w.docs dataSetId source) (w.docs dataSetId dest) date) := by
  funext r
  unfold docs buildMaterializedViewAverage
  by_cases hr : r = dest
  · subst hr
    simp only [Function.update_self]
    exact ofDataSet_refresh_self
  · simp only [Function.update_of_ne hr]

lemma docs_build_ne {other : String} (hne : other ≠ dataSetId) (source dest : TimeResolution)
    (date unit : ℤ) :
    (w.buildMaterializedViewAverage f dataSetId source dest date unit).docs other = w.docs other := by
  funext r
  unfold docs buildMaterializedViewAverage
  by_cases hr : r = dest
  · subst hr
    simp only [Function.update_self]
    exact ofDataSet_refresh_ne hne
  · simp only [Function.update_of_ne hr]

instance (op : ViewOp DC V) : Decidable (w.Guard op) :=
  match op with
  | .insert _ => inferInstanceAs (Decidable (∀ x ∈ w.collection .native, _))
  | .begin _ => isTrue trivial
  | .step _ => isTrue trivial
  | .fail _ => isTrue trivial

variable (f w) in
/-- Each data set has its invariant. -/
def Inv : Prop := ∀ dataSetId, SetInv f (w.docs dataSetId) (w.runs dataSetId)

/-- A run comes to another point, and its data set has the invariant there. -/
lemma Inv.goTo (h : w.Inv f) {point : UpdatePoint}
    (hrun : RunInv f (w.docs dataSetId) { w.runs dataSetId with point := point }) :
    (w.goTo dataSetId point).Inv f := by
  intro other
  show SetInv f (w.docs other) (Function.update w.runs dataSetId _ other)
  by_cases hne : other = dataSetId
  · subst hne
    rw [Function.update_self]
    exact ⟨(h other).settled, hrun⟩
  · rw [Function.update_of_ne hne]
    exact h other

/-- A run goes on. -/
lemma inv_updateMaterializedViews (h : w.Inv f) : (w.updateMaterializedViews f dataSetId).Inv f := by
  have hrun := (h dataSetId).run
  unfold RunInv at hrun
  unfold updateMaterializedViews
  cases hpoint : (w.runs dataSetId).point with
  | idle | completed => exact h
  | findLatest source dest =>
    rw [hpoint] at hrun
    exact h.goTo ⟨hrun.1, rfl, hrun.2⟩
  | build source dest date =>
    rw [hpoint] at hrun
    obtain ⟨⟨unit, hlevel⟩, rfl, hfresh⟩ := hrun
    simp only [hlevel.dateGroup]
    intro other
    by_cases hne : other = dataSetId
    · subst hne
      show SetInv f ((w.buildMaterializedViewAverage f other source dest _ unit).docs other)
        (Function.update w.runs other _ other)
      rw [docs_build_self, Function.update_self]
      exact (h other).build hlevel hfresh
    · show SetInv f ((w.buildMaterializedViewAverage f dataSetId source dest _ unit).docs other)
        (Function.update w.runs dataSetId _ other)
      rw [docs_build_ne hne, Function.update_of_ne hne]
      exact h other

lemma inv_exec (op : ViewOp DC V) (h : w.Inv f) (hguard : w.Guard op) : (w.exec f op).Inv f := by
  cases op with
  | insert doc =>
    intro dataSetId
    by_cases hset : doc.label.dataSetId = some dataSetId
    · rw [docs_insert_self hset]
      have hruns : (w.exec f (.insert doc)).runs dataSetId =
          { w.runs dataSetId with undisturbed := false } := by
        simp [exec, hset]
      rw [hruns]
      refine (h dataSetId).insert fun x hx => ?_
      obtain ⟨hx, hxset⟩ := Multiset.mem_filter.mp hx
      exact hguard x hx (hxset.trans hset.symm)
    · rw [docs_insert_ne hset]
      have hruns : (w.exec f (.insert doc)).runs dataSetId = w.runs dataSetId := by
        simp [exec, hset]
      rw [hruns]
      exact h dataSetId
  | begin dataSetId =>
    have hbegin : ChannelViews.Inv f { w with
        runs := Function.update w.runs dataSetId ⟨.findLatest .native .seconds, true⟩ } := by
      intro other
      show SetInv f (w.docs other) (Function.update w.runs dataSetId _ other)
      by_cases hne : other = dataSetId
      · subst hne
        rw [Function.update_self]
        exact ⟨(h other).settled, ⟨_, .seconds⟩, fun _ => trivial⟩
      · rw [Function.update_of_ne hne]
        exact h other
    cases hpoint : (w.runs dataSetId).point with
    | idle | completed =>
      simp only [exec, hpoint]
      exact hbegin
    | findLatest | build =>
      simp only [exec, hpoint]
      exact h
  | step dataSetId => exact inv_updateMaterializedViews h
  | fail dataSetId => exact h.goTo trivial

lemma reach_inv (h : Reach (exec f) Guard (create : ChannelViews DC V) w) : w.Inv f := by
  apply h.invariant
  · exact fun _ => setInv_create
  · intro w op hinv hguard
    exact inv_exec op hinv hguard

/-- No operation but an insertion changes the native samples. -/
lemma docs_native_exec {op : ViewOp DC V} (hop : ∀ doc, op ≠ .insert doc) (h : w.Inv f) :
    (w.exec f op).docs dataSetId .native = w.docs dataSetId .native := by
  cases op with
  | insert doc => exact absurd rfl (hop doc)
  | begin other =>
    cases hpoint : (w.runs other).point <;> simp only [exec, hpoint] <;> rfl
  | fail other => rfl
  | step other =>
    have hrun := (h other).run
    unfold RunInv at hrun
    show (w.updateMaterializedViews f other).docs dataSetId .native = _
    unfold updateMaterializedViews
    cases hpoint : (w.runs other).point with
    | idle | completed | findLatest => rfl
    | build source dest date =>
      rw [hpoint] at hrun
      obtain ⟨⟨unit, hlevel⟩, -⟩ := hrun
      simp only [hlevel.dateGroup]
      show ofDataSet dataSetId (Function.update w.collection dest _ .native) = _
      rw [Function.update_of_ne hlevel.ne_native.symm]
      rfl

variable (w dataSetId) in
/-- The last run for the data set has completed, and no sample of it was inserted since it began. -/
def Completed : Prop := w.runs dataSetId = ⟨.completed, true⟩

instance : Decidable (w.Completed dataSetId) := inferInstanceAs (Decidable (_ = _))

lemma docs_of_completed (h : Reach (exec f) Guard (create : ChannelViews DC V) w)
    (hrun : w.Completed dataSetId) (resolution : TimeResolution) (hview : resolution ≠ .native) :
    w.docs dataSetId resolution = fromScratch f (fromEpoch (w.docs dataSetId .native)) resolution := by
  have hinv := (reach_inv h dataSetId).run
  rw [hrun] at hinv
  obtain ⟨hseconds, hminutes, hhours⟩ := hinv rfl
  cases resolution with
  | native => exact absurd rfl hview
  | seconds => exact hseconds
  | minutes => exact hminutes
  | hours => exact hhours

/-- **The views are the same as from scratch**, computed from the samples at or after the epoch, whatever
other runs have left behind; and another run changes nothing. -/
theorem views_of_reach (f : Multiset V → V) {w : ChannelViews DC V} {dataSetId : String}
    (h : Reach (exec f) Guard create w) (hrun : w.Completed dataSetId) (resolution : TimeResolution)
    (hview : resolution ≠ .native) :
    w.docs dataSetId resolution = fromScratch f (fromEpoch (w.docs dataSetId .native)) resolution ∧
    ∀ w', Reach (exec f) (fun _ op => ∀ doc, op ≠ .insert doc) w w' → w'.Completed dataSetId →
      w'.docs dataSetId resolution = w.docs dataSetId resolution := by
  refine ⟨docs_of_completed h hrun resolution hview, ?_⟩
  intro w' hlater hrun'
  have hboth : Reach (exec f) Guard create w' ∧ w'.docs dataSetId .native = w.docs dataSetId .native := by
    refine hlater.invariant (P := fun w' => Reach (exec f) Guard create w' ∧
      w'.docs dataSetId .native = w.docs dataSetId .native) ⟨h, rfl⟩ ?_
    rintro v op ⟨hv, hnative⟩ hop
    refine ⟨hv.step op ?_, ?_⟩
    · cases op with
      | insert doc => exact absurd rfl (hop doc)
      | begin | step | fail => trivial
    · rw [docs_native_exec hop (reach_inv hv), hnative]
  rw [docs_of_completed hboth.1 hrun' resolution hview, hboth.2, docs_of_completed h hrun resolution hview]

/-! ### Runs with a few samples -/

/-- A sample of the data set "set" -/
def sampleDoc (time : ℤ) (value : ℕ) : Doc (MetaData Unit) ℕ :=
  ⟨time, ⟨none, none, some "set", none⟩, value⟩

/-- A whole run for the data set "set" -/
def wholeRun : List (ViewOp Unit ℕ) := .begin "set" :: List.replicate 6 (.step "set")

/-- Two samples, a run that fails after its first level, two more samples, and a whole run. -/
def sampleOps : List (ViewOp Unit ℕ) :=
  [.insert (sampleDoc 500 1), .insert (sampleDoc 900 2), .begin "set", .step "set", .step "set", .fail "set",
    .insert (sampleDoc 900 3), .insert (sampleDoc 3600100 4)] ++ wholeRun

/-- The same, where the values of a group are added up. -/
def sampleViews : ChannelViews Unit ℕ := sampleOps.foldl (exec Multiset.sum) create

theorem views_of_reach_sample : sampleViews.docs "set" .minutes = {sampleDoc 0 6, sampleDoc 3600000 4} ∧
    sampleViews.docs "set" .minutes =
      fromScratch Multiset.sum (fromEpoch (sampleViews.docs "set" .native)) .minutes :=
  ⟨by decide +kernel, (views_of_reach Multiset.sum (Reach.run sampleOps .start (by decide +kernel))
    (by decide +kernel) .minutes (by decide)).1⟩

/-- A sample half a second before the epoch, and a whole run. -/
def epochOps : List (ViewOp Unit ℕ) := .insert (sampleDoc (-500) 1) :: wholeRun

theorem views_before_epoch : ¬∀ w : ChannelViews Unit ℕ, Reach (exec Multiset.sum) Guard create w →
    w.Completed "set" →
    w.docs "set" .seconds = fromScratch Multiset.sum (w.docs "set" .native) .seconds := by
  intro h
  have hrun := h _ (Reach.run epochOps .start (by decide +kernel)) (by decide +kernel)
  exact absurd hrun (by decide +kernel)

end ChannelViews

end SensorLink.Server
