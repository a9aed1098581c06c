import Mathlib.Data.Finset.Card
import SensorLink.Provision.Reports

/-!
# What the window counts

A device counts once, however often it is provisioned: as OK, as unverified or as failed. These are the counters of a
session against the issuance log, where the window looks up each UID before its device is started.
-/

namespace SensorLink.Provision

open SensorLink.Lib SensorLink.Firmware

/-! ### One report more -/

/-- Each UID that was tried, and was not in the log from the start, is in one of three sets; those in the log by now
are not in the one of failed devices. -/
structure Tally (base logged tried fine : Text → Prop) (counts : Counts) (done : Finset Text) : Prop where
  ok : counts.ok = done.card
  unverified : ∀ uid ∈ counts.unverified, uid ∉ done
  failed : ∀ uid ∈ counts.failed, uid ∉ done ∧ uid ∉ counts.unverified
  fine : ∀ uid, uid ∈ done ↔ fine uid ∧ ¬base uid
  tried : ∀ uid, (uid ∈ done ∨ uid ∈ counts.unverified ∨ uid ∈ counts.failed) ↔ tried uid ∧ ¬base uid
  logged : ∀ uid, logged uid ↔ base uid ∨ uid ∈ done ∨ uid ∈ counts.unverified

namespace Tally

variable {base logged tried fine : Text → Prop} {counts : Counts} {done : Finset Text} {uid : Text}

lemma empty : Tally base base (fun _ => False) (fun _ => False) ⟨0, ∅, ∅⟩ ∅ := by
  constructor <;> simp

/-- A device that is tried anew, or is in the log, without a change of the counters -/
lemma same (h : Tally base logged tried fine counts done) (huid : logged uid) :
    Tally base logged (fun u => tried u ∨ u = uid) fine counts done := by
  refine ⟨h.ok, h.unverified, h.failed, h.fine, fun u => ?_, h.logged⟩
  rw [h.tried]
  constructor
  · exact fun hu => ⟨.inl hu.1, hu.2⟩
  · rintro ⟨hu | rfl, hbase⟩
    · exact ⟨hu, hbase⟩
    · have hin := ((h.logged u).mp huid).resolve_left hbase
      exact (h.tried u).mp (hin.elim .inl fun hin => .inr (.inl hin))

/-- A device that is OK once more -/
lemma again (h : Tally base logged tried fine counts done) (huid : base uid ∨ uid ∈ done) :
    Tally base logged (fun u => tried u ∨ u = uid) (fun u => fine u ∨ u = uid) counts done := by
  have hsame := h.same ((h.logged uid).mpr (huid.imp_right .inl))
  refine ⟨hsame.ok, hsame.unverified, hsame.failed, fun u => ?_, hsame.tried, hsame.logged⟩
  rw [h.fine]
  constructor
  · exact fun hu => ⟨.inl hu.1, hu.2⟩
  · rintro ⟨hu | rfl, hbase⟩
    · exact ⟨hu, hbase⟩
    · exact (h.fine u).mp (huid.resolve_left hbase)

/-- A device counts as OK that did not before. -/
lemma provisioned (h : Tally base logged tried fine counts done) (hdone : uid ∉ done) (hbase : ¬base uid) :
    Tally base (fun u => logged u ∨ u = uid) (fun u => tried u ∨ u = uid) (fun u => fine u ∨ u = uid)
      ⟨counts.ok + 1, counts.unverified.erase uid, counts.failed.erase uid⟩ (insert uid done) := by
  refine ⟨?_, fun u hu => ?_, fun u hu => ?_, fun u => ?_, fun u => ?_, fun u => ?_⟩
  · rw [Finset.card_insert_of_notMem hdone, h.ok]
  · obtain ⟨hne, hu⟩ := Finset.mem_erase.mp hu
    rw [Finset.mem_insert, not_or]
    exact ⟨hne, h.unverified u hu⟩
  · obtain ⟨hne, hu⟩ := Finset.mem_erase.mp hu
    rw [Finset.mem_insert, not_or]
    exact ⟨⟨hne, (h.failed u hu).1⟩, fun hin => (h.failed u hu).2 (Finset.mem_erase.mp hin).2⟩
  · rw [Finset.mem_insert, h.fine]
    by_cases hu : u = uid
    · subst hu
      simp [hbase]
    · simp [hu]
  · have := h.tried u
    simp only [Finset.mem_insert, Finset.mem_erase]
    by_cases hu : u = uid
    · subst hu
      simp [hbase]
    · simpa [hu] using this
  · have := h.logged u
    simp only [Finset.mem_insert, Finset.mem_erase]
    by_cases hu : u = uid
    · simp [hu]
    · simpa [hu] using this

/-- A device counts as unverified, which was not provisioned before. -/
lemma unconfirmed (h : Tally base logged tried fine counts done) (hdone : uid ∉ done) (hbase : ¬base uid) :
    Tally base (fun u => logged u ∨ u = uid) (fun u => tried u ∨ u = uid) fine
      { counts with unverified := insert uid counts.unverified, failed := counts.failed.erase uid } done := by
  refine ⟨h.ok, fun u hu => ?_, fun u hu => ?_, h.fine, fun u => ?_, fun u => ?_⟩
  · rcases Finset.mem_insert.mp hu with rfl | hu
    · exact hdone
    · exact h.unverified u hu
  · obtain ⟨hne, hu⟩ := Finset.mem_erase.mp hu
    refine ⟨(h.failed u hu).1, ?_⟩
    rw [Finset.mem_insert, not_or]
    exact ⟨hne, (h.failed u hu).2⟩
  · have := h.tried u
    simp only [Finset.mem_insert, Finset.mem_erase]
    by_cases hu : u = uid
    · subst hu
      simp [hbase]
    · simpa [hu] using this
  · have := h.logged u
    simp only [Finset.mem_insert]
    by_cases hu : u = uid
    · simp [hu]
    · simpa [hu] using this

/-- A device failed, which is not in the log. -/
lemma skipped (h : Tally base logged tried fine counts done) (huid : ¬logged uid) :
    Tally base logged (fun u => tried u ∨ u = uid) fine { counts with failed := insert uid counts.failed } done := by
  rw [h.logged, not_or, not_or] at huid
  obtain ⟨hbase, hdone, hunverified⟩ := huid
  refine ⟨h.ok, h.unverified, fun u hu => ?_, h.fine, fun u => ?_, h.logged⟩
  · rcases Finset.mem_insert.mp hu with rfl | hu
    · exact ⟨hdone, hunverified⟩
    · exact h.failed u hu
  · have := h.tried u
    simp only [Finset.mem_insert]
    by_cases hu : u = uid
    · subst hu
      simp [hbase]
    · simpa [hu] using this

/-- **One report more**, of a device that was looked up in the log before -/
lemma record (h : Tally base logged tried fine counts done) (outcome : Outcome) {reprovision : Bool}
    (hreprovision : reprovision = true ↔ logged uid) :
    ∃ done, Tally base (fun u => logged u ∨ outcome ≠ .fail ∧ u = uid) (fun u => tried u ∨ u = uid)
      (fun u => fine u ∨ outcome = .ok ∧ u = uid) (counts.record uid outcome reprovision) done := by
  have hlogged : logged uid → ∀ u, (logged u ∨ u = uid) ↔ logged u := by
    rintro huid u
    exact or_iff_left_of_imp fun hu => hu ▸ huid
  have hnew : reprovision = false → ¬logged uid := by
    rintro rfl huid
    cases hreprovision.mpr huid
  cases outcome with
  | ok =>
    simp only [ne_eq, reduceCtorEq, not_false_eq_true, true_and, Counts.record]
    by_cases hcounts : reprovision = false ∨ uid ∈ counts.unverified ∨ uid ∈ counts.failed
    · rw [if_pos hcounts]
      refine ⟨_, h.provisioned ?_ ?_⟩
      · rcases hcounts with hfalse | hin | hin
        · exact fun hdone => hnew hfalse ((h.logged uid).mpr (.inr (.inl hdone)))
        · exact h.unverified uid hin
        · exact (h.failed uid hin).1
      · rcases hcounts with hfalse | hin | hin
        · exact fun hbase => hnew hfalse ((h.logged uid).mpr (.inl hbase))
        · exact ((h.tried uid).mp (.inr (.inl hin))).2
        · exact ((h.tried uid).mp (.inr (.inr hin))).2
    · rw [if_neg hcounts]
      simp only [not_or, Bool.not_eq_false] at hcounts
      obtain ⟨htrue, hunverified, hfailed⟩ := hcounts
      have huid := hreprovision.mp htrue
      rw [Finset.erase_eq_of_notMem hunverified, Finset.erase_eq_of_notMem hfailed]
      simp only [hlogged huid]
      exact ⟨done, h.again (((h.logged uid).mp huid).imp_right fun hin => hin.resolve_right hunverified)⟩
  | unverified =>
    simp only [ne_eq, reduceCtorEq, not_false_eq_true, true_and, false_and, or_false, Counts.record]
    by_cases hcounts : uid ∈ counts.failed ∨ reprovision = false
    · rw [if_pos hcounts]
      refine ⟨done, h.unconfirmed ?_ ?_⟩
      · rcases hcounts with hin | hfalse
        · exact (h.failed uid hin).1
        · exact fun hdone => hnew hfalse ((h.logged uid).mpr (.inr (.inl hdone)))
      · rcases hcounts with hin | hfalse
        · exact ((h.tried uid).mp (.inr (.inr hin))).2
        · exact fun hbase => hnew hfalse ((h.logged uid).mpr (.inl hbase))
    · rw [if_neg hcounts]
      simp only [not_or, Bool.not_eq_false] at hcounts
      have huid := hreprovision.mp hcounts.2
      rw [Finset.erase_eq_of_notMem hcounts.1]
      simp only [hlogged huid]
      exact ⟨done, h.same huid⟩
  | fail =>
    simp only [ne_eq, reduceCtorEq, not_true_eq_false, false_and, or_false, Counts.record]
    cases reprovision with
    | true => exact ⟨done, h.same (hreprovision.mp rfl)⟩
    | false => exact ⟨done, h.skipped (hnew rfl)⟩

end Tally

/-! ### From the lookup to the report -/

/-- A device that was looked up: what was found then, and whether it is in the log by now -/
structure Try where
  uid : Text
  reprovision : Bool
  logged : Bool

def Request.tried (logged : Bool) (request : Request) : Try := ⟨request.uid, request.reprovision, logged⟩

def Report.tried (report : Report) : Try := ⟨report.uid, report.reprovision, decide (report.outcome ≠ .fail)⟩

def Point.tries : Point → List Try
  | .run d _ | .wait d _ => [d.request.tried false]
  | .reset d | .rtt d _ | .mqtt d _ => [d.request.tried true]
  | .recv | .starting | .panicked => []

/-- What keeps a device in its own row, and its UID in its column -/
def Request.Plain (request : Request) : Prop := (',' ∉ request.uid ∧ '\n' ∉ request.uid) ∧ '\n' ∉ request.icc

instance (request : Request) : Decidable request.Plain := inferInstanceAs (Decidable (_ ∧ _))

lemma IsHex.plain {c : Char} (h : IsHex c) : c ≠ '\n' ∧ c ≠ '\r' := by
  constructor <;> rintro rfl <;> revert h <;> decide

lemma Device.row_clean {d : Device} (h : d.request.Plain) (issued : IssuedCert) :
    IssuanceLog.Clean (d.row issued) where
  uid := h.1
  icc := h.2
  serial hmem := (issued.hex.1 _ hmem).plain.1 rfl
  sha256 := ⟨fun hmem => (issued.hex.2 _ hmem).plain.1 rfl, fun hmem => (issued.hex.2 _ hmem).plain.2 rfl⟩

lemma Session.act_command (s : Session) (log : Option Text) {a : Act} (ha : a ≠ .proceed) (request : Request) :
    (s.act log a).2 ≠ some (.provision request) := by
  cases a with
  | proceed => exact absurd rfl ha
  | edit | check | prepare => exact Option.some_ne_none _ ∘ Eq.symm
  | cancel | retry | skip =>
    simp only [Session.act]
    split <;> simp

namespace World

/-- The devices that the counters do not have yet -/
def tries (w : World) : List Try :=
  w.point.tries ++ (w.commands.filterMap Command.request?).map (Request.tried false) ++ w.onWay.map Report.tried

/-- An operation where the log can be relied on: it ends with a newline when the session starts, it can be read when a
UID is looked up, the UID and the ICCID of a device fit in a row, and an error leaves no part of a row behind. -/
def Clean (w : World) : Op → Prop
  | .call (.started (.ok _)) => ∀ text ∈ w.log, IssuanceLog.Whole text
  | .act (.prepare readable) => readable = true
  | .act .proceed => ∀ request ∈ (w.act .proceed).sent, request.Plain
  | .call (.appended _ (.error (_, written))) => written = 0
  | _ => True

instance (text : Text) : Decidable (IssuanceLog.Whole text) := inferInstanceAs (Decidable (['\n'] <:+ text))

instance (w : World) : (op : Op) → Decidable (w.Clean op)
  | .call c => match c with
    | .started result => match result with
      | .ok _ => inferInstanceAs (Decidable (∀ text ∈ w.log, IssuanceLog.Whole text))
      | .error _ => .isTrue trivial
    | .appended _ result => match result with
      | .ok _ => .isTrue trivial
      | .error (_, written) => inferInstanceAs (Decidable (written = 0))
    | .recv | .issued _ | .built | .called _ | .reset _ | .turn _ => .isTrue trivial
  | .act a => match a with
    | .prepare readable => inferInstanceAs (Decidable (readable = true))
    | .proceed => inferInstanceAs (Decidable (∀ request ∈ (w.act .proceed).sent, request.Plain))
    | .edit .. | .check _ | .cancel | .retry | .skip => .isTrue trivial
  | .rescan | .start | .handle | .send => .isTrue trivial

/-- What has been counted in a session: `before` is the log when it started, `text` is the log by now. -/
def Adds (w : World) (counts : Counts) (before text : Text) : Prop :=
  ∃ logged tried done shown, w.reports.map Prod.snd = shown ++ w.onWay ∧
    Tally (fun uid => IssuanceLog.containsUid (some before) uid = true) logged tried
      (fun uid => ∃ report ∈ shown, report.outcome = .ok ∧ uid = report.uid) counts done ∧
    (∀ t ∈ w.tries, t.reprovision = true ↔ logged t.uid) ∧
    (∀ uid, IssuanceLog.containsUid (some text) uid = true ↔
      logged uid ∨ ∃ t ∈ w.tries, t.logged = true ∧ uid = t.uid) ∧
    ∀ uid, (∃ request ∈ w.sent, request.uid = uid) ↔ tried uid ∨ ∃ t ∈ w.tries, uid = t.uid

/-- What the operator is asked to confirm has been looked up in the log. -/
def Looked (phase : Phase) (text : Text) : Prop :=
  ∀ warnings uid icc reprovision, phase = .confirm warnings uid icc reprovision →
    (reprovision = true ↔ IssuanceLog.containsUid (some text) uid = true)

structure Counted (w : World) (s : Session) (before text : Text) : Prop where
  base : w.base = some before
  log : w.log = some text
  whole : IssuanceLog.Whole text
  looked : Looked s.phase text
  adds : w.Adds s.counts before text

structure Tallied (w : World) : Prop where
  plain : ∀ request ∈ w.sent, request.Plain
  setup : ∀ s, w.screen = .setup s → w.sent = [] ∧
    (w.session.isSome → ∃ text, w.base = some text ∧ w.log = some text ∧ IssuanceLog.Whole text)
  session : ∀ s, w.screen = .session s → ∃ before text, w.Counted s before text

variable {std : Std} {w w' : World}

lemma tallied_new (log : Option Text) : (new log).Tallied :=
  ⟨fun _ h => absurd h List.not_mem_nil, fun _ _ => ⟨rfl, fun h => by cases h⟩, fun _ h => by cases h⟩

/-! ### What is on its way at a stage -/

lemma onWay_eq (w : World) : w.onWay = w.news.filterMap Event.report? := by
  rw [onWay, news, List.filterMap_filter]
  congr 1
  funext event
  cases event with
  | step index state => cases state <;> simp [Event.report?]
  | probes | rtt | sessionReady | sessionFailed | deviceFinished => rfl

lemma tries_of_point (hpoint : w.point = .recv) (hprobes : AllProbes w.commands) :
    w.tries = (w.news.filterMap Event.report?).map Report.tried := by
  rw [tries, hpoint, requests_probes hprobes, onWay_eq]
  rfl

lemma news_of_events {event : Event} {rest : List Event} (hevents : w.events = event :: rest)
    (hdecisive : event.decisive = true) : ∃ more, w.news = event :: more := by
  rw [news, hevents, List.cons_append, List.filter_cons_of_pos hdecisive]
  exact ⟨_, rfl⟩

lemma tries_eq_nil (h : w.tries = []) :
    w.point.tries = [] ∧ w.commands.filterMap Command.request? = [] ∧ w.onWay = [] := by
  simpa [tries] using h

lemma InStep.tries_open (hw : w.InStep) (hstage : w.screen.stage = .isOpen) : w.tries = [] := by
  have hagree := hw.agree
  rw [hstage] at hagree
  rw [tries_of_point hagree.2.1 hagree.2.2.1, hagree.2.2.2]
  rfl

lemma InStep.ready (hw : w.InStep) {info : SessionInfo} {rest : List Event}
    (hevents : w.events = .sessionReady info :: rest) : w.session.isSome ∧ w.tries = [] := by
  obtain ⟨more, hnews⟩ := news_of_events hevents rfl
  obtain ⟨rfl, hprobes, ⟨-, hpoint, ⟨_, heq⟩ | ⟨hsession, -⟩⟩ | ⟨-, -, -, ⟨-, _, heq⟩ | ⟨_, _, _, -, -, heq⟩⟩⟩ :=
    hw.first_news hnews
  · cases heq
  · rw [tries_of_point hpoint hprobes, hnews]
    exact ⟨hsession, rfl⟩
  · cases heq
  · cases heq

/-- What a session acts on is a step that failed, or the report of the only device on its way. -/
lemma InStep.decisive_cases (hw : w.InStep) {s : Session} (hscreen : w.screen = .session s) {event : Event}
    {rest : List Event} (hevents : w.events = event :: rest) (hdecisive : event.decisive = true) :
    (∃ index message, event = .step index (.failed message)) ∨
      ∃ report, event = .deviceFinished report ∧ w.tries = [report.tried] := by
  obtain ⟨more, hnews⟩ := news_of_events hevents hdecisive
  obtain ⟨rfl, hprobes, ⟨hstage, -⟩ | ⟨-, -, -, ⟨hpoint, report, rfl⟩ | ⟨_, index, message, -, -, heq⟩⟩⟩ :=
    hw.first_news hnews
  · rw [hscreen] at hstage
    exact absurd hstage (Phase.stage_ne_setup s.phase true)
  · refine .inr ⟨report, rfl, ?_⟩
    rw [tries_of_point hpoint hprobes, hnews]
    rfl
  · exact .inl ⟨index, message, heq⟩

lemma InStep.not_starting (hw : w.InStep) {s : Session} (hscreen : w.screen = .session s) : w.point ≠ .starting := by
  intro hpoint
  have hstage := (hw.starting hpoint).1
  rw [hscreen] at hstage
  exact s.phase.stage_ne_setup true hstage

/-! ### Where the log and the window stay the same -/

structure Steady (w w' : World) : Prop where
  screen : w'.screen = w.screen
  session : w'.session = w.session
  log : w'.log = w.log
  base : w'.base = w.base
  sent : w'.sent = w.sent
  reports : ∃ new, w'.reports.map Prod.snd = w.reports.map Prod.snd ++ new ∧ w'.onWay = w.onWay ++ new
  tries : ∀ t, t ∈ w'.tries ↔ t ∈ w.tries

section

variable {counts : Counts} {before text : Text}

lemma Adds.next (h : w.Adds counts before text) (hsent : w'.sent = w.sent)
    (hreports : ∃ new, w'.reports.map Prod.snd = w.reports.map Prod.snd ++ new ∧ w'.onWay = w.onWay ++ new)
    (htries : ∀ t, t ∈ w'.tries ↔ t ∈ w.tries) : w'.Adds counts before text := by
  obtain ⟨logged, tried, done, shown, hshown, h⟩ := h
  obtain ⟨new, hnew, honWay⟩ := hreports
  refine ⟨logged, tried, done, shown, by rw [hnew, honWay, hshown, List.append_assoc], ?_⟩
  simp only [htries, hsent]
  exact h

lemma adds_new (hsent : w.sent = []) (hreports : w.reports = []) (honWay : w.onWay = []) (htries : w.tries = [])
    (text : Text) : w.Adds ⟨0, ∅, ∅⟩ text text := by
  refine ⟨fun uid => IssuanceLog.containsUid (some text) uid = true, fun _ => False, ∅, [],
    by rw [hreports, honWay]; rfl, ?_, ?_, fun uid => ?_, fun uid => ?_⟩
  · simpa using Tally.empty
  · rw [htries]
    exact fun t ht => absurd ht List.not_mem_nil
  · rw [htries]
    simp
  · rw [htries, hsent]
    simp

/-- A device is looked up and started. -/
lemma Adds.start (h : w.Adds counts before text) (hnone : w.tries = []) (request : Request)
    (hrequest : request.reprovision = true ↔ IssuanceLog.containsUid (some text) request.uid = true)
    (hsent : w'.sent = w.sent ++ [request]) (hreports : w'.reports = w.reports) (honWay : w'.onWay = w.onWay)
    (htries : w'.tries = [request.tried false]) : w'.Adds counts before text := by
  obtain ⟨logged, tried, done, shown, hshown, htally, -, hlogged, hsent'⟩ := h
  rw [hnone] at hlogged hsent'
  simp only [List.not_mem_nil, false_and, exists_false, or_false] at hlogged hsent'
  refine ⟨logged, tried, done, shown, by rw [hreports, honWay, hshown], htally, fun t ht => ?_, fun uid => ?_,
    fun uid => ?_⟩
  · rw [htries, List.mem_singleton] at ht
    rw [ht, ← hlogged]
    exact hrequest
  · rw [htries, hlogged]
    simp [Request.tried]
  · rw [htries, hsent]
    simp only [List.mem_append, List.mem_singleton, or_and_right, exists_or, exists_eq_left, hsent', Request.tried]
    rw [eq_comm]

/-- The row of the device is appended. -/
lemma Adds.append {text' : Text} (h : w.Adds counts before text) (request : Request) (others : List Try)
    (htries : w.tries = request.tried false :: others) (htries' : w'.tries = request.tried true :: others)
    (hsent : w'.sent = w.sent) (hreports : w'.reports = w.reports) (honWay : w'.onWay = w.onWay)
    (happend : ∀ uid, IssuanceLog.containsUid (some text') uid = true ↔
      IssuanceLog.containsUid (some text) uid = true ∨ uid = request.uid) : w'.Adds counts before text' := by
  obtain ⟨logged, tried, done, shown, hshown, htally, hreprovision, hlogged, hsent'⟩ := h
  rw [htries] at hreprovision hlogged hsent'
  simp only [List.mem_cons, forall_eq_or_imp, exists_eq_or_imp, Request.tried, Bool.false_eq_true, false_and,
    false_or] at hreprovision hlogged hsent'
  refine ⟨logged, tried, done, shown, by rw [hreports, honWay, hshown], htally, ?_, fun uid => ?_, fun uid => ?_⟩
  · rw [htries']
    simpa only [List.mem_cons, forall_eq_or_imp, Request.tried] using hreprovision
  · rw [htries', happend, hlogged, or_assoc]
    simp only [List.mem_cons, exists_eq_or_imp, Request.tried, true_and]
    rw [or_comm (b := uid = _)]
  · rw [htries', hsent]
    simpa only [List.mem_cons, exists_eq_or_imp, Request.tried] using hsent' uid

/-- The window counts the device that was reported. -/
lemma Adds.record (h : w.Adds counts before text) {report : Report} (htries : w.tries = [report.tried])
    (hnone : w'.tries = []) (hsent : w'.sent = w.sent) (hreports : w'.reports = w.reports)
    (honWay : w.onWay = report :: w'.onWay) :
    w'.Adds (counts.record report.uid report.outcome report.reprovision) before text := by
  obtain ⟨logged, tried, done, shown, hshown, htally, hreprovision, hlogged, hsent'⟩ := h
  rw [htries] at hreprovision hlogged hsent'
  simp only [List.mem_singleton, forall_eq, exists_eq_left, Report.tried, decide_eq_true_eq]
    at hreprovision hlogged hsent'
  obtain ⟨done, htally⟩ := htally.record report.outcome hreprovision
  refine ⟨fun uid => logged uid ∨ report.outcome ≠ .fail ∧ uid = report.uid, fun uid => tried uid ∨ uid = report.uid,
    done, shown ++ [report], ?_, ?_, ?_, fun uid => ?_, fun uid => ?_⟩
  · rw [hreports, hshown, honWay, List.append_assoc]
    rfl
  · simpa only [List.mem_append, List.mem_singleton, or_and_right, exists_or, exists_eq_left] using htally
  · rw [hnone]
    exact fun t ht => absurd ht List.not_mem_nil
  · rw [hnone, hlogged]
    simp
  · rw [hnone, hsent, hsent']
    simp

end

lemma Tallied.steady (hw : w.Tallied) (h : Steady w w') : w'.Tallied := by
  refine ⟨?_, ?_, ?_⟩
  · rw [h.sent]
    exact hw.plain
  · rw [h.screen, h.sent, h.session, h.base, h.log]
    exact hw.setup
  · rw [h.screen]
    intro s hscreen
    obtain ⟨before, text, hs⟩ := hw.session s hscreen
    exact ⟨before, text, h.base.trans hs.base, h.log.trans hs.log, hs.whole, hs.looked,
      hs.adds.next h.sent h.reports h.tries⟩

lemma mem_tries {t : Try} : t ∈ w.tries ↔ t ∈ w.point.tries ∨
    (∃ request ∈ w.commands.filterMap Command.request?, request.tried false = t) ∨
    ∃ report ∈ w.onWay, report.tried = t := by
  rw [tries, List.mem_append, List.mem_append, List.mem_map, List.mem_map, or_assoc]

lemma reports_same (hreports : w'.reports = w.reports) (honWay : w'.onWay = w.onWay) :
    ∃ new, w'.reports.map Prod.snd = w.reports.map Prod.snd ++ new ∧ w'.onWay = w.onWay ++ new :=
  ⟨[], by rw [hreports, List.append_nil], by rw [honWay, List.append_nil]⟩

lemma Steady.refl (w : World) : Steady w w :=
  ⟨rfl, rfl, rfl, rfl, rfl, reports_same rfl rfl, fun _ => Iff.rfl⟩

lemma steady_next (hscreen : w'.screen = w.screen) (hsession : w'.session = w.session) (hlog : w'.log = w.log)
    (hbase : w'.base = w.base) (hsent : w'.sent = w.sent) (hreports : w'.reports = w.reports)
    (hpoint : w'.point.tries = w.point.tries)
    (hcommands : w'.commands.filterMap Command.request? = w.commands.filterMap Command.request?)
    (honWay : w'.onWay = w.onWay) : Steady w w' :=
  ⟨hscreen, hsession, hlog, hbase, hsent, reports_same hreports honWay,
    fun t => by rw [mem_tries, mem_tries, hpoint, hcommands, honWay]⟩

lemma onWay_outbox (houtbox : w.outbox = []) (hevents : w'.events = w.events)
    (hnew : w'.outbox.filterMap Event.report? = []) : w'.onWay = w.onWay := by
  rw [onWay, onWay, hevents, houtbox, List.filterMap_append, hnew, List.append_nil, List.append_nil]

lemma steady_finish (houtbox : w.outbox = []) {d : Device} {logged : Bool}
    (hpoint : w.point.tries = [d.request.tried logged]) {commands : List Command}
    (hcommands : commands.filterMap Command.request? = w.commands.filterMap Command.request?)
    {events : List Event} (hevents : events.filterMap Event.report? = []) {outcome : Outcome}
    (houtcome : decide (outcome ≠ .fail) = logged) (rttLog : Text) (error : Option Text) :
    Steady w (World.finish { w with commands := commands } events d outcome rttLog error) := by
  let report : Report := ⟨d.request.uid, outcome, d.request.reprovision, rttLog, error⟩
  have honWay : onWay (World.finish { w with commands := commands } events d outcome rttLog error) =
      w.onWay ++ [report] := by
    rw [onWay, onWay, houtbox]
    simp only [World.finish, List.filterMap_append, hevents, List.append_nil, List.nil_append]
    rfl
  refine ⟨rfl, rfl, rfl, rfl, rfl, ⟨[report], List.map_append, honWay⟩, fun t => ?_⟩
  have htried : report.tried = d.request.tried logged := by rw [Report.tried, Request.tried, houtcome]
  rw [mem_tries, mem_tries, honWay, hpoint, ← htried]
  simp only [World.finish, Point.tries, hcommands, List.not_mem_nil, false_or, List.mem_append, List.mem_singleton,
    or_and_right, exists_or, exists_eq_left]
  rw [← or_assoc, or_comm, eq_comm]

lemma steady_stepped (houtbox : w.outbox = []) {d : Device} (hpoint : w.point.tries = [d.request.tried false])
    {log : Option Text} (hlog : log = w.log) (d' : Device) (hrequest : d'.request = d.request) {index : ℕ}
    {result : Except Text Unit} (hresult : index < stepLog ∨ ∃ message, result = .error message) :
    Steady w (World.stepped { w with log := log } d' index result) := by
  cases result with
  | ok =>
    have hindex : index < stepLog := hresult.resolve_right fun ⟨_, h⟩ => by cases h
    refine steady_next rfl rfl hlog rfl rfl rfl ?_ rfl (onWay_outbox houtbox rfl rfl)
    simp only [World.stepped, if_pos hindex, hpoint, ← hrequest]
    rfl
  | error message =>
    refine steady_next rfl rfl hlog rfl rfl rfl ?_ rfl (onWay_outbox houtbox rfl rfl)
    rw [hpoint, ← hrequest]
    rfl

lemma steady_booted (houtbox : w.outbox = []) {d : Device} (hpoint : w.point.tries = [d.request.tried true])
    (boot : BootLog) (result : Except Text Unit) : Steady w (w.booted d boot result) := by
  cases result with
  | error message => exact steady_finish houtbox hpoint rfl rfl rfl _ _
  | ok =>
    simp only [World.booted]
    split
    · exact steady_next rfl rfl rfl rfl rfl rfl hpoint.symm rfl (onWay_outbox houtbox rfl rfl)
    · exact steady_finish houtbox hpoint rfl rfl rfl _ _

lemma steady_connected (houtbox : w.outbox = []) {d : Device} (hpoint : w.point.tries = [d.request.tried true])
    (boot : BootLog) (result : Except Text Unit) : Steady w (w.connected d boot result) := by
  cases result <;> exact steady_finish houtbox hpoint rfl rfl rfl _ _

lemma steady_rttTurn (houtbox : w.outbox = []) {d : Device} (hpoint : w.point.tries = [d.request.tried true])
    (boot : BootLog) (turn : Turn) : Steady w (w.rttTurn std d boot turn) := by
  unfold World.rttTurn
  split
  · exact steady_next rfl rfl rfl rfl rfl rfl hpoint.symm rfl (onWay_outbox houtbox rfl (updates_report _ _))
  · exact steady_booted houtbox hpoint _ _

lemma steady_mqttTurn (houtbox : w.outbox = []) {d : Device} (hpoint : w.point.tries = [d.request.tried true])
    (boot : BootLog) (turn : Turn) : Steady w (w.mqttTurn std d boot turn) := by
  unfold World.mqttTurn
  split
  · exact steady_next rfl rfl rfl rfl rfl rfl hpoint.symm rfl (onWay_outbox houtbox rfl (updates_report _ _))
  · exact steady_connected houtbox hpoint _ _

lemma steady_dispatch (houtbox : w.outbox = []) (hpoint : w.point = .recv) {command : Command} {rest : List Command}
    (hcommands : w.commands = command :: rest)
    (hignored : (dispatch { w with commands := rest } command).ignored = []) :
    Steady w (dispatch { w with commands := rest } command) := by
  cases command with
  | listProbes =>
    refine steady_next rfl rfl rfl rfl rfl rfl rfl ?_ (onWay_outbox houtbox rfl rfl)
    rw [hcommands]
    rfl
  | startSession =>
    refine steady_next rfl rfl rfl rfl rfl rfl ?_ ?_ rfl
    · rw [hpoint]
      rfl
    · rw [hcommands]
      rfl
  | provision request =>
    cases hsession : w.session with
    | none =>
      unfold World.dispatch World.provision at hignored
      rw [hsession] at hignored
      exact absurd hignored (List.append_ne_nil_of_right_ne_nil _ (List.cons_ne_nil _ _))
    | some profile =>
      simp only [World.dispatch, World.provision]
      have honWay : onWay { w with
          commands := rest
          outbox := pendings ++ [.step 0 .running]
          point := .run (.new request profile) 0
          session := some profile } = w.onWay := onWay_outbox houtbox rfl rfl
      refine ⟨rfl, hsession.symm, rfl, rfl, rfl, reports_same rfl honWay, fun t => ?_⟩
      rw [mem_tries, mem_tries, honWay, hpoint, hcommands]
      simp only [Point.tries, Device.new, List.not_mem_nil, false_or, List.filterMap_cons,
        Command.request?, List.mem_cons, or_and_right, exists_or, exists_eq_left, eq_comm (a := t), or_assoc]
  | retry | skip => exact absurd hignored (by simp [World.dispatch])

lemma steady_answer (houtbox : w.outbox = []) {d : Device} {index : ℕ} (hpoint : w.point = .wait d index)
    {command : Command} {rest : List Command} (hcommands : w.commands = command :: rest)
    (hignored : (answer { w with commands := rest } d index command).ignored = []) :
    Steady w (answer { w with commands := rest } d index command) := by
  have htries : w.point.tries = [d.request.tried false] := by rw [hpoint]; rfl
  cases command with
  | retry =>
    refine steady_next rfl rfl rfl rfl rfl rfl htries.symm ?_ (onWay_outbox houtbox rfl rfl)
    rw [hcommands]
    rfl
  | skip => exact steady_finish houtbox htries (by rw [hcommands]; rfl) rfl rfl _ _
  | listProbes | startSession | provision _ => exact absurd hignored (by simp [World.answer])

lemma steady_recv (houtbox : w.outbox = []) (hignored : w.recv.ignored = []) : Steady w w.recv := by
  revert hignored
  unfold World.recv
  split
  · exact fun _ => .refl w
  next command rest hcommands =>
  split
  · next hpoint => exact steady_dispatch houtbox hpoint hcommands
  · next hpoint => exact steady_answer houtbox hpoint hcommands
  · exact fun _ => .refl w

/-- The row of a device has been appended. -/
def Logged (w w' : World) : Prop :=
  ∃ d issued text ts, w.point = .run d stepLog ∧ w.log = some text ∧
    w' = World.stepped { w with log := some (text ++ (d.row issued).text ts) } d stepLog (.ok ())

lemma InStep.call_cases (hw : w.InStep) (houtbox : w.outbox = []) {c : Call} (hclean : w.Clean (.call c)) :
    Steady w (w.call std c) ∨ Logged w (w.call std c) ∨
      ∃ result, c = .started result ∧ w.point = .starting ∧ w.call std c = w.started result := by
  cases c with
  | recv => exact .inl (steady_recv houtbox (hw.recv houtbox).ignored)
  | started result =>
    simp only [World.call]
    split
    · next hpoint => exact .inr (.inr ⟨result, rfl, hpoint, rfl⟩)
    · exact .inl (.refl w)
  | issued result =>
    left
    simp only [World.call]
    split
    · next d issued keyPem hpoint =>
      exact steady_stepped houtbox (d := d) (by rw [hpoint]; rfl) rfl
        { d with issued := some issued, keyPem := keyPem } rfl (.inl (Nat.zero_lt_succ 5))
    · next d message hpoint =>
      exact steady_stepped houtbox (by rw [hpoint]; rfl) rfl d rfl (.inr ⟨message, rfl⟩)
    · exact .refl w
  | built =>
    left
    simp only [World.call]
    split
    · next d hpoint =>
      have htries : w.point.tries = [d.request.tried false] := by rw [hpoint]; rfl
      unfold World.built
      split
      · exact .refl w
      split
      · next config _ =>
        exact steady_stepped houtbox htries rfl { d with config := config } rfl (.inl (Nat.one_lt_succ_succ 4))
      · exact steady_stepped houtbox htries rfl d rfl (.inr ⟨_, rfl⟩)
      · next hpanic => exact absurd hpanic (build_ne_panic _ _ _ _)
    · exact .refl w
  | called result =>
    left
    simp only [World.call]
    split
    · next d index hpoint =>
      split
      · next hindex => exact steady_stepped houtbox (by rw [hpoint]; rfl) rfl d rfl (.inl hindex.2)
      · exact .refl w
    · exact .refl w
  | appended ts result =>
    simp only [World.call]
    split
    · next d hpoint =>
      have htries : w.point.tries = [d.request.tried false] := by rw [hpoint]; rfl
      unfold World.appended
      split
      · next text issued _ hlog hissued => exact .inr (.inl ⟨d, issued, text, ts, hpoint, hlog, rfl⟩)
      · next text issued message written hlog hissued =>
        left
        obtain rfl : written = 0 := hclean
        refine steady_stepped houtbox htries ?_ d rfl (.inr ⟨message, rfl⟩)
        rw [List.take_zero, List.append_nil, hlog]
      · next message _ _ => exact .inl (steady_stepped houtbox htries rfl d rfl (.inr ⟨message, rfl⟩))
      · exact .inl (.refl w)
    · exact .inl (.refl w)
  | reset result =>
    left
    simp only [World.call]
    split
    · next d hpoint =>
      have htries : w.point.tries = [d.request.tried true] := by rw [hpoint]; rfl
      cases result with
      | ok => exact steady_next rfl rfl rfl rfl rfl rfl htries.symm rfl rfl
      | error message => exact steady_booted houtbox htries (.new d.profile.bootBanner) (.error message)
    · exact .refl w
  | turn turn =>
    left
    simp only [World.call]
    split
    · next hpoint => exact steady_rttTurn houtbox (by rw [hpoint]; rfl) _ turn
    · next hpoint => exact steady_mqttTurn houtbox (by rw [hpoint]; rfl) _ turn
    · exact .refl w

/-! ### What a run of the station keeps -/

lemma looked_of_running {phase : Phase} (h : phase.stage = .running) (text : Text) : Looked phase text := by
  intro warnings uid icc reprovision hphase
  rw [hphase] at h
  cases h

lemma Tallied.logged (hw : w.Tallied) (hstep : w.InStep) (hreported : w.Reported std) (houtbox : w.outbox = [])
    (h : Logged w w') : w'.Tallied := by
  obtain ⟨d, issued, text, ts, hpoint, hlog, rfl⟩ := h
  have hplain : d.request.Plain := by
    refine hw.plain _ ?_
    rw [hreported.sent, inFlight, hpoint]
    exact List.mem_append_right _ List.mem_cons_self
  have hstage : w.screen.stage = .running := (hstep.holds houtbox (by rw [hpoint]; trivial)).stage
  refine ⟨hw.plain, fun s hscreen => ?_, fun s hscreen => ?_⟩
  · rw [show w.screen = .setup s from hscreen] at hstage
    cases hstage
  · obtain ⟨before, text', hs⟩ := hw.session s hscreen
    obtain rfl := Option.some.inj (hlog.symm.trans hs.log)
    rw [show w.screen = .session s from hscreen] at hstage
    refine ⟨before, _, hs.base, rfl, IssuanceLog.whole_append text, looked_of_running hstage _, ?_⟩
    have honWay : onWay (World.stepped { w with log := some (text ++ (d.row issued).text ts) } d stepLog (.ok ())) =
        w.onWay := onWay_outbox houtbox rfl rfl
    refine hs.adds.append d.request
      ((w.commands.filterMap Command.request?).map (Request.tried false) ++ w.onWay.map Report.tried) ?_ ?_ rfl rfl
      honWay (IssuanceLog.containsUid_append hs.whole (Device.row_clean hplain issued))
    · rw [tries, hpoint]
      rfl
    · rw [tries, honWay]
      rfl

lemma Tallied.started (hw : w.Tallied) (hstep : w.InStep) (hpoint : w.point = .starting)
    {result : Except (Text × Option ℕ) Profile} (hclean : w.Clean (.call (.started result))) :
    (w.started result).Tallied := by
  cases result with
  | ok profile =>
    refine ⟨hw.plain, fun s hscreen => ⟨(hw.setup s hscreen).1, fun _ => ⟨IssuanceLog.init w.log, rfl, rfl, ?_⟩⟩,
      fun s hscreen => absurd hpoint (hstep.not_starting hscreen)⟩
    cases hlog : w.log with
    | none => exact IssuanceLog.whole_header
    | some text => exact hclean text hlog
  | error e =>
    refine ⟨hw.plain, fun s hscreen => ⟨(hw.setup s hscreen).1, fun hsession => ?_⟩,
      fun s hscreen => absurd hpoint (hstep.not_starting hscreen)⟩
    obtain ⟨text, hbase, hlog, hwhole⟩ := (hw.setup s hscreen).2 hsession
    refine ⟨text, hbase, ?_, hwhole⟩
    simp [World.started, hlog]

/-- A command that starts no device leaves the devices on their way as they are. -/
lemma tries_append (w : World) (screen : Screen) (sent : List Request) {commands : List Command}
    (h : commands.filterMap Command.request? = []) :
    tries { w with screen := screen, sent := sent, commands := w.commands ++ commands } = w.tries := by
  rw [tries, List.filterMap_append, h, List.append_nil]
  rfl

lemma Counted.act {s : Session} {before text : Text} (hs : w.Counted s before text) (hstep : w.InStep)
    (hscreen : w.screen = .session s) {a : Act} (hclean : w.Clean (.act a)) :
    (w.act a).Counted (s.act w.log a).1 before text := by
  have hkeep : ∀ (s' : Session) (commands : List Command) (sent : List Request), sent = w.sent →
      commands.filterMap Command.request? = [] → s'.counts = s.counts → Looked s'.phase text →
      Counted { w with screen := .session s', sent := sent, commands := w.commands ++ commands } s' before text := by
    intro s' commands sent hsent hcommands hcounts hlooked
    refine ⟨hs.base, hs.log, hs.whole, hlooked, ?_⟩
    rw [hcounts]
    exact hs.adds.next hsent (reports_same rfl rfl) fun t => by rw [tries_append w _ _ hcommands]
  have hsent : w.sent ++ [] = w.sent := List.append_nil _
  simp only [World.act, hscreen]
  cases a with
  | edit uid icc =>
    refine hkeep _ [] _ hsent rfl ?_ ?_
    · simp only [Session.act]
      split <;> rfl
    · simp only [Session.act]
      split <;> exact hs.looked
  | check checks =>
    refine hkeep _ [] _ hsent rfl ?_ ?_
    · simp only [Session.act]
      split <;> rfl
    · simp only [Session.act]
      split <;> exact hs.looked
  | prepare readable =>
    obtain rfl : readable = true := hclean
    refine hkeep _ [] _ hsent rfl ?_ ?_
    · simp only [Session.act, Session.prepareStart]
      split
      · split <;> rfl
      · rfl
    · simp only [Session.act, Session.prepareStart]
      split
      · split
        · exact hs.looked
        · intro warnings uid icc reprovision hphase
          cases hphase
          rw [if_pos trivial, hs.log]
      · exact hs.looked
  | cancel =>
    simp only [Session.act]
    split
    · exact hkeep _ [] _ hsent rfl rfl fun _ _ _ _ h => Phase.noConfusion h
    · exact hkeep _ [] _ hsent rfl rfl hs.looked
  | retry =>
    simp only [Session.act]
    split
    · exact hkeep _ [.retry] _ hsent rfl rfl fun _ _ _ _ h => Phase.noConfusion h
    · exact hkeep _ [] _ hsent rfl rfl hs.looked
  | skip =>
    simp only [Session.act]
    split
    · exact hkeep _ [.skip] _ hsent rfl rfl fun _ _ _ _ h => Phase.noConfusion h
    · exact hkeep _ [] _ hsent rfl rfl hs.looked
  | proceed =>
    simp only [Session.act]
    split
    · next warnings uid icc reprovision hphase =>
      have hnone : w.tries = [] := hstep.tries_open (by rw [hscreen, Screen.stage, hphase]; rfl)
      obtain ⟨hpoint, hcommands, honWay⟩ := tries_eq_nil hnone
      refine ⟨hs.base, hs.log, hs.whole, fun _ _ _ _ h => Phase.noConfusion h,
        hs.adds.start hnone ⟨uid, icc, reprovision, s.checks⟩ (hs.looked _ _ _ _ hphase) rfl rfl rfl ?_⟩
      rw [tries, List.filterMap_append, hcommands]
      show w.point.tries ++ _ ++ w.onWay.map Report.tried = _
      rw [hpoint, honWay]
      rfl
    · exact hkeep _ [] _ hsent rfl rfl hs.looked

lemma act_sent {a : Act} (ha : a ≠ .proceed) : (w.act a).sent = w.sent := by
  unfold World.act
  split
  · next s _ =>
    dsimp only
    split
    · next request hsome => exact absurd hsome (s.act_command w.log ha request)
    · exact List.append_nil _
  · rfl

lemma Tallied.act (hw : w.Tallied) (hstep : w.InStep) {a : Act} (hclean : w.Clean (.act a)) : (w.act a).Tallied := by
  cases hscreen : w.screen with
  | setup s => simpa only [World.act, hscreen] using hw
  | session s =>
    obtain ⟨before, text, hs⟩ := hw.session s hscreen
    have hcounted := hs.act hstep hscreen hclean
    have hscreen' : (w.act a).screen = .session (s.act w.log a).1 := by simp only [World.act, hscreen]
    refine ⟨?_, fun s' h => ?_, fun s' h => ?_⟩
    · by_cases ha : a = .proceed
      · subst ha
        exact hclean
      · rw [act_sent ha]
        exact hw.plain
    · rw [hscreen'] at h
      cases h
    · rw [hscreen'] at h
      cases h
      exact ⟨before, text, hcounted⟩

lemma onWay_handle {event : Event} {rest : List Event} (hevents : w.events = event :: rest)
    (hreport : event.report? = none) (screen : Screen) :
    onWay { w with events := rest, screen := screen } = w.onWay := by
  rw [onWay, onWay, hevents, List.cons_append, List.filterMap_cons_none hreport]

lemma tries_handle {event : Event} {rest : List Event} (hevents : w.events = event :: rest)
    (hreport : event.report? = none) (screen : Screen) :
    tries { w with events := rest, screen := screen } = w.tries := by
  rw [tries, onWay_handle hevents hreport]
  rfl

lemma onWay_reported {report : Report} {rest : List Event} (hevents : w.events = .deviceFinished report :: rest)
    (screen : Screen) : w.onWay = report :: onWay { w with events := rest, screen := screen } := by
  rw [onWay, onWay, hevents]
  rfl

lemma tries_reported {report : Report} {rest : List Event} (hevents : w.events = .deviceFinished report :: rest)
    (htries : w.tries = [report.tried]) (screen : Screen) :
    tries { w with events := rest, screen := screen } = [] := by
  rw [tries, onWay_reported hevents screen] at htries
  have hlength := congrArg List.length htries
  simp only [List.length_append, List.length_map, List.length_cons, List.length_nil] at hlength
  refine List.eq_nil_of_length_eq_zero ?_
  rw [tries]
  simp only [List.length_append, List.length_map]
  omega

lemma Tallied.handle (hw : w.Tallied) (hstep : w.InStep) (hreported : w.Reported std) {event : Event}
    {rest : List Event} (hevents : w.events = event :: rest) :
    Tallied { w with events := rest, screen := w.screen.handle event } := by
  cases hscreen : w.screen with
  | setup s =>
    obtain ⟨hsent, hbase⟩ := hw.setup s hscreen
    cases event with
    | sessionReady info =>
      obtain ⟨hsession, hnone⟩ := hstep.ready hevents
      obtain ⟨text, hbase, hlog, hwhole⟩ := hbase hsession
      refine ⟨hw.plain, fun s' h => (by cases h), fun s' h => ?_⟩
      cases h
      have hreports : w.reports = [] := by
        have hnil := hreported.sent.symm.trans hsent
        exact List.map_eq_nil_iff.mp (List.append_eq_nil_iff.mp hnil).1
      refine ⟨text, text, hbase, hlog, hwhole, fun _ _ _ _ h => Phase.noConfusion h, adds_new ?_ ?_ ?_ ?_ text⟩
      · exact hsent
      · exact hreports
      · exact (onWay_handle hevents rfl _).trans (tries_eq_nil hnone).2.2
      · exact (tries_handle hevents rfl _).trans hnone
    | probes | rtt | sessionFailed | step | deviceFinished =>
      exact ⟨hw.plain, fun s' _ => ⟨hsent, hbase⟩, fun s' h => by cases h⟩
  | session s =>
    obtain ⟨before, text, hs⟩ := hw.session s hscreen
    have hkeep : ∀ s' : Session, event.report? = none → s'.counts = s.counts → Looked s'.phase text →
        Counted { w with events := rest, screen := .session s' } s' before text := by
      intro s' hreport hcounts hlooked
      refine ⟨hs.base, hs.log, hs.whole, hlooked, ?_⟩
      rw [hcounts]
      exact hs.adds.next rfl (reports_same rfl (onWay_handle hevents hreport _))
        fun t => by rw [tries_handle hevents hreport]
    refine ⟨hw.plain, fun s' h => ?_, fun s' h => ?_⟩
    · cases event <;> cases h
    cases event with
    | sessionReady info =>
      rcases hstep.decisive_cases hscreen hevents rfl with ⟨_, _, heq⟩ | ⟨_, heq, -⟩ <;> cases heq
    | deviceFinished report =>
      rcases hstep.decisive_cases hscreen hevents rfl with ⟨_, _, heq⟩ | ⟨_, heq, htries⟩
      · cases heq
      · cases heq
        cases h
        exact ⟨before, text, hs.base, hs.log, hs.whole, fun _ _ _ _ h => Phase.noConfusion h,
          hs.adds.record htries (tries_reported hevents htries _) rfl rfl (onWay_reported hevents _)⟩
    | step index state =>
      cases h
      refine ⟨before, text, hkeep _ rfl rfl ?_⟩
      cases state with
      | failed message =>
        dsimp only
        split
        · exact fun _ _ _ _ h => Phase.noConfusion h
        · exact hs.looked
      | pending | running | done | skipped => exact hs.looked
    | probes | rtt | sessionFailed =>
      cases h
      exact ⟨before, text, hkeep _ rfl rfl hs.looked⟩

lemma Tallied.exec (hw : w.Tallied) (hstep : w.InStep) (hreported : w.Reported std) {op : Op} (hclean : w.Clean op) :
    (w.exec std op).Tallied := by
  cases op with
  | rescan =>
    simp only [World.exec]
    split
    · refine hw.steady ⟨rfl, rfl, rfl, rfl, rfl, reports_same rfl rfl, fun t => ?_⟩
      rw [show tries { w with commands := w.commands ++ [.listProbes] } = w.tries from
        tries_append w w.screen w.sent rfl]
    · exact hw
  | start =>
    simp only [World.exec]
    split
    · next s hscreen =>
      split
      · exact hw
      · exact ⟨hw.plain, fun _ _ => hw.setup s hscreen, fun _ h => by cases h⟩
    · exact hw
  | act a => exact hw.act hstep hclean
  | handle =>
    simp only [World.exec]
    split
    · exact hw
    · next hevents => exact hw.handle hstep hreported hevents
  | call c =>
    simp only [World.exec]
    split
    · next houtbox =>
      rcases hstep.call_cases houtbox hclean with hsteady | hlogged | ⟨result, rfl, hpoint, heq⟩
      · exact hw.steady hsteady
      · exact hw.logged hstep hreported houtbox hlogged
      · rw [heq]
        exact hw.started hstep hpoint hclean
    · exact hw
  | send =>
    simp only [World.exec]
    split
    · exact hw
    · next houtbox =>
      refine hw.steady (steady_next rfl rfl rfl rfl rfl rfl rfl rfl ?_)
      rw [onWay, onWay, houtbox, List.append_assoc]
      rfl

end World

/-- **The counters of the window add up.** In every run where the log can be relied on, whenever the inputs are open:
the devices of this session that were not in the log before are counted once each, as OK, as unverified or as failed.
Those counted as OK are the ones that were reported as OK, and with those counted as unverified they are the ones that
have a row in the log by now. -/
theorem counts_add_up {std : Std} {log : Option Text} {w : World} (h : w.Run std World.Clean log) {s : Session}
    (hscreen : w.screen = .session s) (hopen : s.phase.stage = .isOpen) :
    ∃ done : Finset Text, s.counts.ok = done.card ∧ Disjoint done s.counts.unverified ∧
      Disjoint (done ∪ s.counts.unverified) s.counts.failed ∧
      (∀ uid, uid ∈ done ↔ (∃ p ∈ w.reports, p.2.outcome = .ok ∧ uid = p.2.uid) ∧
        IssuanceLog.containsUid w.base uid = false) ∧
      (∀ uid, uid ∈ done ∪ s.counts.unverified ∪ s.counts.failed ↔
        (∃ request ∈ w.sent, request.uid = uid) ∧ IssuanceLog.containsUid w.base uid = false) ∧
      ∀ uid, uid ∈ done ∪ s.counts.unverified ↔
        IssuanceLog.containsUid w.log uid = true ∧ IssuanceLog.containsUid w.base uid = false := by
  have hw : (w.InStep ∧ w.Reported std) ∧ w.Tallied :=
    h.invariant (P := fun w => (w.InStep ∧ w.Reported std) ∧ w.Tallied)
      ⟨⟨World.inStep_new log, World.reported_new log⟩, World.tallied_new log⟩ fun _ op hw hclean =>
        ⟨⟨hw.1.1.exec op, hw.1.2.exec op (hw.1.1.exec op).ignored⟩, hw.2.exec hw.1.1 hw.1.2 hclean⟩
  obtain ⟨before, text, hs⟩ := hw.2.session s hscreen
  have hstage : w.screen.stage = .isOpen := by
    rw [hscreen]
    exact hopen
  have hnone := hw.1.1.tries_open hstage
  obtain ⟨logged, tried, done, shown, hshown, htally, -, hlogged, hsent⟩ := hs.adds
  simp only [hnone, List.not_mem_nil, false_and, exists_false, or_false] at hlogged hsent
  rw [(World.tries_eq_nil hnone).2.2, List.append_nil] at hshown
  refine ⟨done, htally.ok, ?_, ?_, fun uid => ?_, fun uid => ?_, fun uid => ?_⟩
  · exact Finset.disjoint_right.mpr htally.unverified
  · refine Finset.disjoint_right.mpr fun uid huid hin => ?_
    rcases Finset.mem_union.mp hin with hin | hin
    · exact (htally.failed uid huid).1 hin
    · exact (htally.failed uid huid).2 hin
  · rw [htally.fine, hs.base, ← hshown, Bool.not_eq_true]
    simp only [List.mem_map, exists_exists_and_eq_and]
  · rw [hsent, hs.base, ← Bool.not_eq_true, ← htally.tried, Finset.mem_union, Finset.mem_union, or_assoc]
  · have htried := htally.tried uid
    rw [hs.log, hs.base, hlogged, htally.logged, ← Bool.not_eq_true, Finset.mem_union]
    tauto

/-! The device of the run above is shown as done. -/

def countedStation : World := (reportedRun ++ List.replicate 24 Op.handle).foldl (World.exec · asciiStd) (.new none)

lemma countedStation_run : countedStation.Run asciiStd World.Clean none :=
  Reach.run (reportedRun ++ List.replicate 24 Op.handle) .start (by decide +kernel)

theorem counts_add_up_one : ∃ s, countedStation.screen = .session s ∧ ∃ done : Finset Text,
    s.counts.ok = done.card ∧ ∀ uid, uid ∈ done ∪ s.counts.unverified ↔
      IssuanceLog.containsUid countedStation.log uid = true ∧
        IssuanceLog.containsUid countedStation.base uid = false := by
  have hstage : countedStation.screen.stage = .isOpen := by decide +kernel
  cases hscreen : countedStation.screen with
  | setup s =>
    rw [hscreen] at hstage
    cases hstage
  | session s =>
    rw [hscreen] at hstage
    obtain ⟨done, hok, -, -, -, -, hlogged⟩ := counts_add_up countedStation_run hscreen hstage
    exact ⟨s, rfl, done, hok, hlogged⟩

end SensorLink.Provision
