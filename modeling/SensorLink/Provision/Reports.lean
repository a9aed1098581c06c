import SensorLink.Provision.InStep

/-!
# What the worker reports of a device

Each device that the operator starts is reported once, and the report says what was done: the steps ran in order, the
row in the log names the certificate in the config, and the boot log showed what was looked for.
-/

namespace SensorLink.Provision

open SensorLink.Lib SensorLink.Firmware

/-- The steps before the given one succeeded, each behind those before it and never again. -/
inductive InOrder : List (ℕ × Bool) → ℕ → Prop
  | nil : InOrder [] 0
  | failed {runs : List (ℕ × Bool)} {n : ℕ} : InOrder runs n → InOrder (runs ++ [(n, false)]) n
  | done {runs : List (ℕ × Bool)} {n : ℕ} : InOrder runs n → InOrder (runs ++ [(n, true)]) (n + 1)

namespace Device

/-- The firmware reads from the config what the certificate was issued for. -/
def ReadsBack (d : Device) (issued : IssuedCert) : Prop :=
  0 ∉ strBytes (.ofList d.request.uid) → ∀ rest, ∃ serial : SerialString, serial.str = .ofList d.request.uid ∧
    FirmwareConfig.tryFromBytes (d.config ++ rest) = .ok (⟨serial, utf8 issued.pem, utf8 d.keyPem,
      ⟨d.profile.deviceType⟩⟩ : FirmwareConfig ProfileDeviceType)

/-- The row of the device is in the log, and names the certificate in its config. -/
structure Provisioned (d : Device) (log : Option Text) : Prop where
  runs : InOrder d.runs stepRtt
  logged : ∃ issued text ts, d.issued = some issued ∧ log = some text ∧ (d.row issued).text ts <:+: text ∧
    d.ReadsBack issued

/-- At some time the UID was in a line of the log so far, from the last line with the boot banner on. (In a log
without the banner any line counts.) -/
def Seen (std : Std) (d : Device) (log : Text) : Prop :=
  ∃ front, front <+: log ∧ seenAfterBanner std front d.profile.bootBanner d.request.uid = true

end Device

/-- A report says what was done for the device. -/
def Truthful (std : Std) (log : Option Text) (d : Device) (report : Report) : Prop :=
  report.uid = d.request.uid ∧ report.reprovision = d.request.reprovision ∧
  match report.outcome with
  | .ok =>
    d.Provisioned log ∧ report.error = none ∧ d.Seen std report.rttLog ∧
      (d.request.checks.mqtt = true →
        seenAfterBanner std report.rttLog d.profile.bootBanner d.profile.mqttMarker = true)
  | .unverified => d.Provisioned log ∧ report.error.isSome
  | .fail => report.error.isSome ∧
      ∃ index runs, index < stepRtt ∧ d.runs = runs ++ [(index, false)] ∧ InOrder runs index

/-! ### The log only grows -/

def Grows (log log' : Option Text) : Prop := ∀ text, log = some text → ∃ more, log' = some (text ++ more)

lemma grows_refl (log : Option Text) : Grows log log := fun text h => ⟨[], by rw [h, List.append_nil]⟩

lemma grows_append {log : Option Text} {text : Text} (h : log = some text) (more : Text) :
    Grows log (some (text ++ more)) := by
  intro text' h'
  obtain rfl := Option.some.inj (h.symm.trans h')
  exact ⟨more, rfl⟩

section

variable {log log' : Option Text} {d : Device} {n : ℕ}

lemma Grows.row (h : Grows log log') {row : Text} (hrow : ∃ text, log = some text ∧ row <:+: text) :
    ∃ text, log' = some text ∧ row <:+: text := by
  obtain ⟨text, hlog, hinfix⟩ := hrow
  obtain ⟨more, hmore⟩ := h text hlog
  exact ⟨text ++ more, hmore, hinfix.trans (List.prefix_append _ _).isInfix⟩

lemma Device.Provisioned.mono (h : d.Provisioned log) (hgrows : Grows log log') : d.Provisioned log' := by
  obtain ⟨hruns, issued, text, ts, hissued, hlog, hrow, hreads⟩ := h
  obtain ⟨text', hlog', hrow'⟩ := hgrows.row ⟨text, hlog, hrow⟩
  exact ⟨hruns, issued, text', ts, hissued, hlog', hrow', hreads⟩

lemma Truthful.mono {std : Std} {report : Report} (h : Truthful std log d report) (hgrows : Grows log log') :
    Truthful std log' d report := by
  obtain ⟨huid, hreprovision, h⟩ := h
  refine ⟨huid, hreprovision, ?_⟩
  cases houtcome : report.outcome with
  | ok =>
    rw [houtcome] at h
    exact ⟨h.1.mono hgrows, h.2⟩
  | unverified =>
    rw [houtcome] at h
    exact ⟨h.1.mono hgrows, h.2⟩
  | fail =>
    rw [houtcome] at h
    exact h

/-! ### A device on its way -/

/-- What the steps before the given one have made -/
structure Device.Made (d : Device) (log : Option Text) (n : ℕ) : Prop where
  runs : InOrder d.runs n
  config : 1 < n → ∃ issued, d.issued = some issued ∧
    build (.ofList d.request.uid) d.profile.deviceType (utf8 issued.pem) (utf8 d.keyPem) = .ok d.config
  row : stepLog < n → ∃ issued ts, d.issued = some issued ∧ ∃ text, log = some text ∧ (d.row issued).text ts <:+: text

namespace Device.Made

lemma start (request : Request) (profile : Profile) : (Device.new request profile).Made log 0 :=
  ⟨.nil, fun h => absurd h (by decide), fun h => absurd h (by decide)⟩

lemma mono (h : d.Made log n) (hgrows : Grows log log') : d.Made log' n := by
  refine ⟨h.runs, h.config, fun hn => ?_⟩
  obtain ⟨issued, ts, hissued, hrow⟩ := h.row hn
  exact ⟨issued, ts, hissued, hgrows.row hrow⟩

lemma failed (h : d.Made log n) : (d.ran n false).Made log n := ⟨h.runs.failed, h.config, h.row⟩

lemma called (h : d.Made log n) (hn : 2 ≤ n ∧ n < stepLog) : (d.ran n true).Made log (n + 1) :=
  ⟨h.runs.done, fun _ => h.config hn.1, fun hlog => absurd hlog (by omega)⟩

lemma signed (h : d.Made log 0) (issued : IssuedCert) (keyPem : Text) :
    Made ({ d with issued := some issued, keyPem := keyPem }.ran 0 true) log 1 :=
  ⟨h.runs.done, fun hn => absurd hn (by decide), fun hn => absurd hn (by decide)⟩

lemma built (h : d.Made log 1) {issued : IssuedCert} (hissued : d.issued = some issued) {config : List UInt8}
    (hbuild : build (.ofList d.request.uid) d.profile.deviceType (utf8 issued.pem) (utf8 d.keyPem) = .ok config) :
    Made ({ d with config := config }.ran 1 true) log 2 :=
  ⟨h.runs.done, fun _ => ⟨issued, hissued, hbuild⟩, fun hn => absurd hn (by decide)⟩

lemma appended (h : d.Made log stepLog) {issued : IssuedCert} (hissued : d.issued = some issued) (ts : Timestamp)
    (text : Text) : (d.ran stepLog true).Made (some (text ++ (d.row issued).text ts)) stepRtt :=
  ⟨h.runs.done, fun _ => h.config (by decide),
    fun _ => ⟨issued, ts, hissued, _, rfl, (List.suffix_append _ _).isInfix⟩⟩

lemma provisioned (h : d.Made log stepRtt) : d.Provisioned log := by
  obtain ⟨issued, ts, hissued, text, hlog, hrow⟩ := h.row (by decide)
  obtain ⟨issued', hissued', hbuild⟩ := h.config (by decide)
  obtain rfl := Option.some.inj (hissued.symm.trans hissued')
  exact ⟨h.runs, issued, text, ts, hissued, hlog, hrow, fun h0 rest => tryFromBytes_build h0 hbuild rest⟩

end Device.Made

end

lemma BootLog.turn_spec {std : Std} {boot boot' : BootLog} {needle : Text} {turn : Turn} {updated : Bool}
    {result : Option (Except Text Bool)} (h : boot.turn std needle turn = (boot', updated, result)) :
    boot'.banner = boot.banner ∧ boot.log <+: boot'.log ∧
      (result = some (.ok true) → seenAfterBanner std boot'.log boot'.banner needle = true) := by
  cases turn with
  | deadline =>
    simp only [BootLog.turn, Prod.mk.injEq] at h
    obtain ⟨rfl, -, rfl⟩ := h
    exact ⟨rfl, List.prefix_rfl, fun h => by simpa using h⟩
  | poll answer message =>
    simp only [BootLog.turn] at h
    split at h
    · next hseen =>
      simp only [Prod.mk.injEq] at h
      obtain ⟨rfl, -, rfl⟩ := h
      exact ⟨rfl, List.prefix_rfl, fun _ => hseen⟩
    · split at h
      · simp only [Prod.mk.injEq] at h
        obtain ⟨rfl, -, rfl⟩ := h
        exact ⟨rfl, List.prefix_rfl, fun h => by cases h⟩
      · next polled hpoll =>
        simp only [Prod.mk.injEq] at h
        obtain ⟨rfl, -, rfl⟩ := h
        obtain ⟨hbanner, reads, hreads⟩ := BootLog.poll_spec hpoll
        exact ⟨hbanner, hreads ▸ List.prefix_append _ _, fun h => by cases h⟩

/-! ### Every device is reported -/

def Point.device? : Point → Option Device
  | .run d _ | .wait d _ | .reset d | .rtt d _ | .mqtt d _ => some d
  | _ => none

def Command.request? : Command → Option Request
  | .provision request => some request
  | _ => none

def Event.report? : Event → Option Report
  | .deviceFinished report => some report
  | _ => none

/-- What is known of the device in the hands of the worker -/
def Point.Made (std : Std) (log : Option Text) : Point → Prop
  | .run d index => index < stepRtt ∧ d.Made log index
  | .wait d index => index < stepRtt ∧ d.Made log index ∧
      ∃ runs, d.runs = runs ++ [(index, false)] ∧ InOrder runs index
  | .reset d => d.Made log stepRtt
  | .rtt d boot => d.Made log stepRtt ∧ boot.banner = d.profile.bootBanner
  | .mqtt d boot => d.Made log stepRtt ∧ boot.banner = d.profile.bootBanner ∧ d.Seen std boot.log
  | .recv | .starting | .panicked => True

lemma Point.Made.mono {std : Std} {log log' : Option Text} {point : Point} (h : point.Made std log)
    (hgrows : Grows log log') : point.Made std log' := by
  cases point with
  | run d index => exact ⟨h.1, h.2.mono hgrows⟩
  | wait d index => exact ⟨h.1, h.2.1.mono hgrows, h.2.2⟩
  | reset d => exact Device.Made.mono h hgrows
  | rtt d boot => exact ⟨h.1.mono hgrows, h.2⟩
  | mqtt d boot => exact ⟨h.1.mono hgrows, h.2⟩
  | recv | starting | panicked => trivial

namespace World

/-- Devices that are in the hands of the worker, or still in the channel -/
def inFlight (w : World) : List Request :=
  (w.point.device?.map Device.request).toList ++ w.commands.filterMap Command.request?

/-- Reports that the window has not seen yet -/
def onWay (w : World) : List Report := (w.events ++ w.outbox).filterMap Event.report?

structure Reported (std : Std) (w : World) : Prop where
  point : w.point.Made std w.log
  reports : ∀ p ∈ w.reports, Truthful std w.log p.1 p.2
  sent : w.sent = w.reports.map (fun p => p.1.request) ++ w.inFlight
  shown : ∃ shown, w.reports.map Prod.snd = shown ++ w.onWay

variable {std : Std} {w w' : World}

lemma reported_new (log : Option Text) : (new log).Reported std :=
  ⟨trivial, fun _ h => absurd h List.not_mem_nil, rfl, [], rfl⟩

/-- Nothing is reported. -/
lemma Reported.next (hw : w.Reported std) (hgrows : Grows w.log w'.log) (hpoint : w'.point.Made std w'.log)
    (hreports : w'.reports = w.reports) (hsent : w'.sent = w.sent) (hflight : w'.inFlight = w.inFlight)
    (honWay : w'.onWay = w.onWay) : w'.Reported std := by
  refine ⟨hpoint, fun p hp => ?_, ?_, ?_⟩
  · rw [hreports] at hp
    exact (hw.reports p hp).mono hgrows
  · rw [hsent, hreports, hflight, hw.sent]
  · rw [hreports, honWay]
    exact hw.shown

/-- The worker goes on with its device. -/
lemma Reported.goesOn (hw : w.Reported std) (houtbox : w.outbox = []) {d : Device}
    (hdevice : w.point.device? = some d) (hgrows : Grows w.log w'.log)
    (hpoint : w'.point.Made std w'.log) (d' : Device) (hdevice' : w'.point.device? = some d')
    (hrequest : d'.request = d.request)
    (hcommands : w'.commands = w.commands) (hreports : w'.reports = w.reports) (hsent : w'.sent = w.sent)
    (hevents : w'.events = w.events) (hnew : w'.outbox.filterMap Event.report? = []) : w'.Reported std := by
  refine hw.next hgrows hpoint hreports hsent ?_ ?_
  · rw [inFlight, inFlight, hdevice, hdevice', hcommands, Option.map_some, Option.map_some, hrequest]
  · rw [onWay, onWay, hevents, houtbox, List.filterMap_append, hnew, List.append_nil, List.append_nil]

/-- The worker reports its device. -/
lemma Reported.finish (hw : w.Reported std) (houtbox : w.outbox = []) {d : Device}
    (hdevice : w.point.device? = some d) {commands : List Command}
    (hcommands : commands.filterMap Command.request? = w.commands.filterMap Command.request?)
    {events : List Event} (hevents : events.filterMap Event.report? = []) {outcome : Outcome} {rttLog : Text}
    {error : Option Text}
    (htruthful : Truthful std w.log d ⟨d.request.uid, outcome, d.request.reprovision, rttLog, error⟩) :
    (World.finish { w with commands := commands } events d outcome rttLog error).Reported std := by
  refine ⟨trivial, fun p hp => ?_, ?_, ?_⟩
  · rcases List.mem_append.mp hp with hp | hp
    · exact hw.reports p hp
    · rw [List.mem_singleton.mp hp]
      exact htruthful
  · show w.sent = (w.reports ++ [(d, _)]).map _ ++ inFlight { w with commands := commands, point := .recv }
    rw [hw.sent, inFlight, inFlight, hdevice, hcommands, List.map_append, List.append_assoc]
    rfl
  · obtain ⟨shown, hshown⟩ := hw.shown
    refine ⟨shown, ?_⟩
    rw [onWay, houtbox, List.append_nil] at hshown
    simp only [World.finish, onWay, List.map_append, hshown, List.filterMap_append, hevents, List.append_assoc,
      List.nil_append]
    rfl

lemma Reported.stepped (hw : w.Reported std) (houtbox : w.outbox = []) {d : Device}
    (hdevice : w.point.device? = some d) {log : Option Text} (hgrows : Grows w.log log) (d' : Device)
    (hrequest : d'.request = d.request) {index : ℕ} (hindex : index < stepRtt) {result : Except Text Unit}
    (hok : result = .ok () → (d'.ran index true).Made log (index + 1))
    (herror : ∀ message, result = .error message → d'.Made log index) :
    (World.stepped { w with log := log } d' index result).Reported std := by
  cases result with
  | ok =>
    have hmade := hok rfl
    by_cases hlog : index < stepLog
    · refine hw.goesOn houtbox hdevice hgrows ?_ (d'.ran index true) ?_ hrequest rfl rfl rfl rfl rfl <;>
        simp only [World.stepped, if_pos hlog]
      · exact ⟨Nat.succ_lt_succ hlog, hmade⟩
      · rfl
    · have heq : index = stepLog := by
        unfold stepRtt at hindex
        unfold stepLog at hlog ⊢
        omega
      subst heq
      exact hw.goesOn houtbox hdevice hgrows hmade (d'.ran stepLog true) rfl hrequest rfl rfl rfl rfl rfl
  | error message =>
    have hmade := herror message rfl
    exact hw.goesOn houtbox hdevice hgrows ⟨hindex, hmade.failed, d'.runs, rfl, hmade.runs⟩ (d'.ran index false) rfl
      hrequest rfl rfl rfl rfl rfl

lemma Reported.booted (hw : w.Reported std) (houtbox : w.outbox = []) {d : Device}
    (hdevice : w.point.device? = some d) (hmade : d.Made w.log stepRtt) {boot : BootLog}
    (hbanner : boot.banner = d.profile.bootBanner) {result : Except Text Unit}
    (hseen : result = .ok () → d.Seen std boot.log) :
    (w.booted d boot result).Reported std := by
  cases result with
  | error message => exact hw.finish houtbox hdevice rfl rfl ⟨rfl, rfl, hmade.provisioned, rfl⟩
  | ok =>
    simp only [World.booted]
    split
    · exact hw.goesOn houtbox hdevice (grows_refl _) ⟨hmade, hbanner, hseen rfl⟩ d rfl rfl rfl rfl rfl rfl rfl
    · next hmqtt =>
      exact hw.finish houtbox hdevice rfl rfl ⟨rfl, rfl, hmade.provisioned, rfl, hseen rfl, fun h => absurd h hmqtt⟩

lemma Reported.connected (hw : w.Reported std) (houtbox : w.outbox = []) {d : Device}
    (hdevice : w.point.device? = some d) (hmade : d.Made w.log stepRtt) {boot : BootLog}
    (hseen : d.Seen std boot.log) {result : Except Text Unit}
    (hok : result = .ok () →
      seenAfterBanner std boot.log d.profile.bootBanner d.profile.mqttMarker = true) :
    (w.connected d boot result).Reported std := by
  cases result with
  | error message => exact hw.finish houtbox hdevice rfl rfl ⟨rfl, rfl, hmade.provisioned, rfl⟩
  | ok => exact hw.finish houtbox hdevice rfl rfl ⟨rfl, rfl, hmade.provisioned, rfl, hseen, fun _ => hok rfl⟩

lemma ensureSeen_ok {message : Text} {result : Except Text Bool} (h : ensureSeen message result = .ok ()) :
    result = .ok true := by
  unfold ensureSeen at h
  split at h
  · rfl
  · cases h
  · cases h

lemma updates_report (updated : Bool) (boot : BootLog) : (updates updated boot).filterMap Event.report? = [] := by
  cases updated <;> rfl

lemma Reported.rttTurn (hw : w.Reported std) (houtbox : w.outbox = []) {d : Device} {boot : BootLog}
    (hpoint : w.point = .rtt d boot) (turn : Turn) : (w.rttTurn std d boot turn).Reported std := by
  have hmade := hw.point
  rw [hpoint] at hmade
  have hdevice : w.point.device? = some d := by rw [hpoint]; rfl
  unfold World.rttTurn
  split
  · next hturn =>
    obtain ⟨hbanner, -, -⟩ := BootLog.turn_spec hturn
    exact hw.goesOn houtbox hdevice (grows_refl _) ⟨hmade.1, hbanner.trans hmade.2⟩ d rfl rfl rfl rfl rfl rfl
      (updates_report _ _)
  · next hturn =>
    obtain ⟨hbanner, -, hseen⟩ := BootLog.turn_spec hturn
    refine hw.booted houtbox hdevice hmade.1 (hbanner.trans hmade.2) fun hok => ?_
    have hfound := hseen (congrArg some (ensureSeen_ok hok))
    rw [hbanner, hmade.2] at hfound
    exact ⟨_, List.prefix_rfl, hfound⟩

lemma Reported.mqttTurn (hw : w.Reported std) (houtbox : w.outbox = []) {d : Device} {boot : BootLog}
    (hpoint : w.point = .mqtt d boot) (turn : Turn) : (w.mqttTurn std d boot turn).Reported std := by
  have hmade := hw.point
  rw [hpoint] at hmade
  obtain ⟨hmade, hboot, front, hfront, hfound⟩ := hmade
  have hdevice : w.point.device? = some d := by rw [hpoint]; rfl
  unfold World.mqttTurn
  split
  · next hturn =>
    obtain ⟨hbanner, hlog, -⟩ := BootLog.turn_spec hturn
    exact hw.goesOn houtbox hdevice (grows_refl _)
      ⟨hmade, hbanner.trans hboot, front, hfront.trans hlog, hfound⟩ d rfl rfl rfl rfl rfl rfl (updates_report _ _)
  · next hturn =>
    obtain ⟨hbanner, hlog, hseen⟩ := BootLog.turn_spec hturn
    refine hw.connected houtbox hdevice hmade ⟨front, hfront.trans hlog, hfound⟩ fun hok => ?_
    have hmarker := hseen (congrArg some (ensureSeen_ok hok))
    rwa [hbanner, hboot] at hmarker

lemma Reported.reset (hw : w.Reported std) (houtbox : w.outbox = []) {d : Device} (hpoint : w.point = .reset d)
    (result : Except Text Unit) : (w.reset d result).Reported std := by
  have hmade := hw.point
  rw [hpoint] at hmade
  have hdevice : w.point.device? = some d := by rw [hpoint]; rfl
  cases result with
  | ok =>
    refine hw.goesOn houtbox hdevice (grows_refl _) ⟨hmade, rfl⟩ d rfl rfl rfl rfl rfl rfl ?_
    rw [World.reset, houtbox]
    rfl
  | error message =>
    show (w.booted d (.new d.profile.bootBanner) (.error message)).Reported std
    exact hw.booted houtbox hdevice hmade rfl fun h => by cases h

lemma Reported.built (hw : w.Reported std) (houtbox : w.outbox = []) {d : Device} (hpoint : w.point = .run d 1) :
    (w.built d).Reported std := by
  have hmade := hw.point
  rw [hpoint] at hmade
  have hdevice : w.point.device? = some d := by rw [hpoint]; rfl
  unfold World.built
  split
  · exact hw
  next issued hissued =>
  split
  · next config hbuild =>
    have hbuilt := hmade.2.built hissued hbuild
    exact hw.stepped houtbox hdevice (grows_refl _) { d with config := config } rfl (by decide) (fun _ => hbuilt)
      fun _ h => by cases h
  · exact hw.stepped houtbox hdevice (grows_refl _) d rfl (by decide) (fun h => by cases h) fun _ _ => hmade.2
  · next hpanic => exact absurd hpanic (build_ne_panic _ _ _ _)

lemma Reported.appended (hw : w.Reported std) (houtbox : w.outbox = []) {d : Device} (hpoint : w.point = .run d 6)
    (ts : Timestamp) (result : Except (Text × ℕ) Unit) : (w.appended d ts result).Reported std := by
  have hmade := hw.point
  rw [hpoint] at hmade
  have hdevice : w.point.device? = some d := by rw [hpoint]; rfl
  unfold World.appended
  split
  · next hlog hissued =>
    exact hw.stepped houtbox hdevice (grows_append hlog _) d rfl (by decide)
      (fun _ => hmade.2.appended hissued ts _) fun _ h => by cases h
  · next hlog hissued =>
    exact hw.stepped houtbox hdevice (grows_append hlog _) d rfl (by decide) (fun h => by cases h)
      fun _ _ => hmade.2.mono (grows_append hlog _)
  · exact hw.stepped houtbox hdevice (grows_refl _) d rfl (by decide) (fun h => by cases h) fun _ _ => hmade.2
  · exact hw

lemma Reported.dispatch (hw : w.Reported std) (houtbox : w.outbox = []) (hpoint : w.point = .recv)
    {command : Command} {rest : List Command} (hcommands : w.commands = command :: rest)
    (hignored : (dispatch { w with commands := rest } command).ignored = []) :
    (dispatch { w with commands := rest } command).Reported std := by
  have hflight : w.inFlight = (command :: rest).filterMap Command.request? := by
    rw [inFlight, hpoint, hcommands]
    rfl
  cases command with
  | listProbes =>
    refine hw.next (grows_refl _) hw.point rfl rfl ?_ ?_
    · rw [hflight, inFlight]
      simp only [World.dispatch, hpoint]
      rfl
    · rw [onWay, onWay, houtbox, List.filterMap_append, List.append_nil]
      exact List.append_nil _
  | startSession =>
    refine hw.next (grows_refl _) trivial rfl rfl ?_ rfl
    rw [hflight]
    rfl
  | provision request =>
    cases hsession : w.session with
    | none =>
      unfold World.dispatch World.provision at hignored
      rw [hsession] at hignored
      exact absurd hignored (List.append_ne_nil_of_right_ne_nil _ (List.cons_ne_nil _ _))
    | some profile =>
      simp only [World.dispatch, World.provision]
      refine hw.next (grows_refl _) ⟨by decide, Device.Made.start request profile⟩ rfl rfl ?_ ?_
      · rw [hflight]
        rfl
      · rw [onWay, onWay, houtbox, List.filterMap_append, List.append_nil]
        exact List.append_nil _
  | retry | skip => exact absurd hignored (by simp [World.dispatch])

lemma Reported.answer (hw : w.Reported std) (houtbox : w.outbox = []) {d : Device} {index : ℕ}
    (hpoint : w.point = .wait d index) {command : Command} {rest : List Command}
    (hcommands : w.commands = command :: rest)
    (hignored : (answer { w with commands := rest } d index command).ignored = []) :
    (answer { w with commands := rest } d index command).Reported std := by
  have hmade := hw.point
  rw [hpoint] at hmade
  obtain ⟨hindex, hmade, runs, hruns, horder⟩ := hmade
  have hdevice : w.point.device? = some d := by rw [hpoint]; rfl
  cases command with
  | retry =>
    refine hw.next (grows_refl _) ⟨hindex, hmade⟩ rfl rfl ?_ ?_
    · rw [inFlight, inFlight, hdevice, hcommands]
      rfl
    · rw [onWay, onWay, houtbox, List.filterMap_append, List.append_nil]
      exact List.append_nil _
  | skip =>
    refine hw.finish houtbox hdevice (by rw [hcommands]; rfl) rfl ?_
    exact ⟨rfl, rfl, rfl, index, runs, hindex, hruns, horder⟩
  | listProbes | startSession | provision _ => exact absurd hignored (by simp [World.answer])

lemma Reported.recv (hw : w.Reported std) (houtbox : w.outbox = []) (hignored : w.recv.ignored = []) :
    w.recv.Reported std := by
  revert hignored
  unfold World.recv
  split
  · exact fun _ => hw
  next command rest hcommands =>
  split
  · next hpoint => exact hw.dispatch houtbox hpoint hcommands
  · next hpoint => exact hw.answer houtbox hpoint hcommands
  · exact fun _ => hw

lemma Reported.started (hw : w.Reported std) (houtbox : w.outbox = []) (hpoint : w.point = .starting)
    (result : Except (Text × Option ℕ) Profile) : (w.started result).Reported std := by
  have hflight : w.inFlight = w.commands.filterMap Command.request? := by
    rw [inFlight, hpoint]
    rfl
  have honWay : w.onWay = w.events.filterMap Event.report? := by rw [onWay, houtbox, List.append_nil]
  cases result with
  | ok profile =>
    refine hw.next (fun text htext => ⟨[], ?_⟩) trivial rfl rfl ?_ ?_
    · rw [List.append_nil, ← htext]
      simp [World.started, IssuanceLog.init, htext]
    · rw [hflight]
      rfl
    · rw [honWay, onWay, World.started, List.filterMap_append]
      exact List.append_nil _
  | error e =>
    refine hw.next (fun text htext => ⟨[], ?_⟩) trivial rfl rfl ?_ ?_
    · simp [World.started, htext]
    · rw [hflight]
      rfl
    · rw [honWay, onWay, World.started, List.filterMap_append]
      exact List.append_nil _

lemma Reported.call (hw : w.Reported std) (houtbox : w.outbox = []) (c : Call)
    (hignored : (w.call std c).ignored = []) : (w.call std c).Reported std := by
  cases c with
  | recv => exact hw.recv houtbox hignored
  | started result =>
    simp only [World.call]
    split
    · next hpoint => exact hw.started houtbox hpoint result
    · exact hw
  | issued result =>
    have hmade := hw.point
    simp only [World.call]
    split
    · next d issued keyPem hpoint =>
      have hdevice : w.point.device? = some d := by rw [hpoint]; rfl
      rw [hpoint] at hmade
      exact hw.stepped houtbox hdevice (grows_refl _) { d with issued := some issued, keyPem := keyPem } rfl
        (by decide) (fun _ => hmade.2.signed issued keyPem) fun _ h => by cases h
    · next d message hpoint =>
      have hdevice : w.point.device? = some d := by rw [hpoint]; rfl
      rw [hpoint] at hmade
      exact hw.stepped houtbox hdevice (grows_refl _) d rfl (by decide) (fun h => by cases h) fun _ _ => hmade.2
    · exact hw
  | built =>
    simp only [World.call]
    split
    · next hpoint => exact hw.built houtbox hpoint
    · exact hw
  | called result =>
    have hmade := hw.point
    simp only [World.call]
    split
    · next d index hpoint =>
      have hdevice : w.point.device? = some d := by rw [hpoint]; rfl
      rw [hpoint] at hmade
      split
      · next hindex =>
        exact hw.stepped houtbox hdevice (grows_refl _) d rfl hmade.1 (fun _ => hmade.2.called hindex)
          fun _ _ => hmade.2
      · exact hw
    · exact hw
  | appended ts result =>
    simp only [World.call]
    split
    · next hpoint => exact hw.appended houtbox hpoint ts result
    · exact hw
  | reset result =>
    simp only [World.call]
    split
    · next hpoint => exact hw.reset houtbox hpoint result
    · exact hw
  | turn turn =>
    simp only [World.call]
    split
    · next hpoint => exact hw.rttTurn houtbox hpoint turn
    · next hpoint => exact hw.mqttTurn houtbox hpoint turn
    · exact hw

lemma inFlight_append (w : World) (screen : Screen) (sent : List Request) (commands : List Command) :
    inFlight { w with screen := screen, sent := sent, commands := w.commands ++ commands } =
      w.inFlight ++ commands.filterMap Command.request? := by
  rw [inFlight, inFlight, List.filterMap_append, List.append_assoc]

lemma Reported.act (hw : w.Reported std) (a : Act) : (w.act a).Reported std := by
  cases hscreen : w.screen with
  | setup s => simpa only [World.act, hscreen] using hw
  | session s =>
    simp only [World.act, hscreen]
    refine ⟨hw.point, hw.reports, ?_, hw.shown⟩
    rw [inFlight_append, ← List.append_assoc, ← hw.sent]
    cases (s.act w.log a).2 with
    | none => rfl
    | some command => cases command <;> rfl

lemma Reported.exec (hw : w.Reported std) (op : Op) (hignored : (w.exec std op).ignored = []) :
    (w.exec std op).Reported std := by
  cases op with
  | rescan =>
    simp only [World.exec]
    split
    · refine hw.next (grows_refl _) hw.point rfl rfl ?_ rfl
      exact (inFlight_append w w.screen w.sent [.listProbes]).trans (List.append_nil _)
    · exact hw
  | start =>
    simp only [World.exec]
    split
    · split
      · exact hw
      · refine hw.next (grows_refl _) hw.point rfl rfl ?_ rfl
        exact (inFlight_append w _ w.sent [.startSession]).trans (List.append_nil _)
    · exact hw
  | act a => exact hw.act a
  | handle =>
    simp only [World.exec]
    split
    · exact hw
    · next event rest hevents =>
      obtain ⟨shown, hshown⟩ := hw.shown
      refine ⟨hw.point, hw.reports, hw.sent, shown ++ [event].filterMap Event.report?, ?_⟩
      rw [hshown, onWay, onWay, hevents, List.append_assoc, ← List.filterMap_append]
      rfl
  | call c =>
    simp only [World.exec] at hignored ⊢
    split
    · next houtbox =>
      rw [if_pos houtbox] at hignored
      exact hw.call houtbox c hignored
    · exact hw
  | send =>
    simp only [World.exec]
    split
    · exact hw
    · next houtbox =>
      refine hw.next (grows_refl _) hw.point rfl rfl rfl ?_
      rw [onWay, onWay, houtbox, List.append_assoc]
      rfl

lemma requests_probes {commands : List Command} (h : AllProbes commands) :
    commands.filterMap Command.request? = [] :=
  List.filterMap_eq_nil_iff.mpr fun command hmem => by rw [h command hmem]; rfl

/-- The operator starts one device after the other. -/
lemma InStep.inFlight_le (hw : w.InStep) : w.inFlight.length ≤ 1 := by
  have hagree := hw.agree
  cases hstage : w.screen.stage with
  | setup starting =>
    rw [hstage] at hagree
    cases starting with
    | false =>
      obtain ⟨hpoint, hprobes, -⟩ := hagree
      rw [inFlight, hpoint, requests_probes hprobes]
      exact Nat.zero_le 1
    | true =>
      simp only [Agree, Starting] at hagree
      split at hagree
      · next hpoint =>
        rcases hagree with ⟨-, before, after, hbefore, hafter, heq⟩ | ⟨hprobes, -⟩
        · rw [inFlight, hpoint, heq, List.filterMap_append, requests_probes hbefore, List.filterMap_cons,
            requests_probes hafter]
          exact Nat.zero_le 1
        · rw [inFlight, hpoint, requests_probes hprobes]
          exact Nat.zero_le 1
      · next hpoint =>
        rw [inFlight, hpoint, requests_probes hagree.1]
        exact Nat.zero_le 1
      · exact hagree.elim
  | isOpen =>
    rw [hstage] at hagree
    obtain ⟨-, hpoint, hprobes, -⟩ := hagree
    rw [inFlight, hpoint, requests_probes hprobes]
    exact Nat.zero_le 1
  | failed index =>
    rw [hstage] at hagree
    obtain ⟨-, -, ⟨d, hpoint⟩, hcommands, -⟩ := hagree
    rw [inFlight, hpoint, hcommands]
    exact le_rfl
  | running =>
    rw [hstage] at hagree
    obtain ⟨-, hbusy⟩ := hagree
    cases hpoint : w.point with
    | recv =>
      rw [hpoint] at hbusy
      rcases hbusy with ⟨-, before, request, hbefore, heq⟩ | ⟨hcommands, -⟩
      · rw [inFlight, hpoint, heq, List.filterMap_append, requests_probes hbefore]
        exact le_rfl
      · rw [inFlight, hpoint, hcommands]
        exact Nat.zero_le 1
    | run d index =>
      rw [hpoint] at hbusy
      rw [inFlight, hpoint, hbusy.2.1]
      exact le_rfl
    | wait d index =>
      rw [hpoint] at hbusy
      obtain ⟨-, ⟨hcommands, -⟩ | ⟨-, hcommands | hcommands⟩⟩ := hbusy <;> rw [inFlight, hpoint, hcommands] <;>
        exact le_rfl
    | reset _ | rtt _ _ | mqtt _ _ =>
      rw [hpoint] at hbusy
      rw [inFlight, hpoint, hbusy.1]
      exact le_rfl
    | starting | panicked =>
      rw [hpoint] at hbusy
      exact hbusy.elim

end World

/-- **Reports are truthful, and each device gets one.** In every run, of all devices that the operator started, in
their order, each one is reported but the one in flight, and the window sees the reports in this order. One that is
reported as OK or as unverified went through its steps in order, its row is in the log, and the certificate in the row
is the one that the firmware reads from its config; where it is OK, its UID was in its boot log, from the last line
with the banner on if there was one, and so was the MQTT marker if that check is on. One that failed was skipped at a
step that failed last. -/
theorem reports_truthful {std : Std} {log : Option Text} {w : World} (h : w.Run std (fun _ _ => True) log) :
    (∀ p ∈ w.reports, Truthful std w.log p.1 p.2) ∧
    w.sent = w.reports.map (fun p => p.1.request) ++ w.inFlight ∧ w.inFlight.length ≤ 1 ∧
    ∃ shown, w.reports.map Prod.snd = shown ++ w.onWay := by
  have hw : w.InStep ∧ w.Reported std :=
    h.invariant (P := fun w => w.InStep ∧ w.Reported std) ⟨World.inStep_new log, World.reported_new log⟩
      fun _ op hw _ => ⟨hw.1.exec op, hw.2.exec op (hw.1.exec op).ignored⟩
  exact ⟨hw.2.reports, hw.2.sent, hw.1.inFlight_le, hw.2.shown⟩

/-! The probe is plugged in after the first try. -/

def sampleCert : IssuedCert := ⟨"PEM".toList, "0A".toList, "ff".toList, by simp [IsHex]⟩

def sampleTime : Timestamp := ⟨"2026-01-02T03:04:05Z".toList, by decide⟩

def bootRead : Turn := .poll ⟨true, true, some (utf8 "# Starting\nUID abc123\nMQTT connected\n".toList)⟩ []

/-- A call that returns, and the events behind it -/
def served (c : Call) : List Op := [.call c, .send, .send]

def reportedRun : List Op :=
  [.call .recv, .send, .handle, .start, .call .recv, .call (.started (.ok sampleProfile)), .send, .handle,
    .act (.edit "abc123".toList "89310410106543789305".toList), .act (.prepare true), .act .proceed, .call .recv] ++
  List.replicate 10 .send ++ served (.issued (.ok (sampleCert, "KEY".toList))) ++ served .built ++
  served (.called (.error "no probe".toList)) ++ List.replicate 15 .handle ++ [.act .retry, .call .recv, .send] ++
  (List.replicate 4 (served (.called (.ok ())))).flatten ++ served (.appended sampleTime (.ok ())) ++
  served (.reset (.ok ())) ++ served (.turn bootRead) ++ served (.turn bootRead) ++ served (.turn bootRead)

def reportedStation : World := reportedRun.foldl (World.exec · asciiStd) (.new none)

lemma reportedStation_run : reportedStation.Run asciiStd (fun _ _ => True) none :=
  Reach.run reportedRun .start (by decide)

theorem reports_truthful_ok : reportedStation.reports.map (fun p => p.2.outcome) = [.ok] ∧
    ∀ p ∈ reportedStation.reports, Truthful asciiStd reportedStation.log p.1 p.2 :=
  ⟨by decide +kernel, (reports_truthful reportedStation_run).1⟩

end SensorLink.Provision
