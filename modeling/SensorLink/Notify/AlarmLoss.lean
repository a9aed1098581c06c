import SensorLink.Notify.Alarm

/-!
# Alarms that are lost or held up

The loop of `processAlarms` marks an SMS event before its message is built, and leaves at the first
builder that fails. `Reached` says how far it comes, and the effect of a poll on an event depends on that
and on the event alone. From this follows exactly when no alarm is lost or held up by another.
-/

namespace SensorLink.Notify

variable {C D Email SMS : Type}

/-- What the message builder makes of an event -/
inductive Outcome
  | error
  | nothing
  | message
deriving DecidableEq, Repr

def Outcome.of {M : Type} : Except Unit (Option M) → Outcome
  | .error _ => .error
  | .ok none => .nothing
  | .ok (some _) => .message

namespace Env

variable (env : Env C D Email SMS) (event : Event C D)

/-- Nothing for the events that the loop passes over. -/
def outcome : Option Outcome :=
  match event.contactDetails with
  | none => none
  | some contact =>
    match event.type with
    | .email => some (.of (env.buildEmail event contact))
    | .sms => some (.of (env.buildSms event contact))
    | _ => none

/-- The sender takes the message of the event. -/
def accepts : Bool :=
  match event.type with
  | .email => !env.mailFails event.id
  | .sms => !env.smsFails event.id
  | _ => false

/-- The builder fails for the event. -/
def Fails : Prop := env.outcome event = some .error

/-- The event is handed over when the loop comes to it. -/
def Delivers : Prop := env.outcome event = some .message ∧ env.accepts event = true

/-- The loop does not go on after the event. -/
def Stops : Prop := env.Fails event ∨ env.outcome event = some .message ∧
  (env.accepts event = false ∨ event.type = .email ∧ env.markFails event.id = true)

/-- The event is marked as sending and not handed over. -/
def Strands : Prop := event.type = .sms ∧ env.outcome event ≠ none ∧ env.markFails event.id = false ∧
  ¬env.Delivers event

instance : Decidable (env.Fails event) := inferInstanceAs (Decidable (_ = _))
instance : Decidable (env.Delivers event) := inferInstanceAs (Decidable (_ ∧ _))
instance : Decidable (env.Stops event) := inferInstanceAs (Decidable (_ ∨ _))
instance : Decidable (env.Strands event) := inferInstanceAs (Decidable (_ ∧ _))

/-- The loop over the events comes to an event. -/
def Reached : List (Event C D) → Event C D → Prop
  | [], _ => False
  | x :: events, e => x = e ∨ ¬env.Stops x ∧ Reached events e

end Env

/-- A message for the event was handed over. -/
def AlarmState.Handed (s : AlarmState C D Email SMS) (id : String) : Prop :=
  id ∈ s.mails.map Prod.fst ∨ id ∈ s.smss.map Prod.fst

section Loop

variable {env : Env C D Email SMS} {s : AlarmState C D Email SMS} {event : Event C D}
  {events : List (Event C D)}

/-! ### One event -/

lemma mem_marked {db : EventStore C D} {x : Event C D} {id : String} {status : SendStatus}
    (hne : x.id ≠ id) : x ∈ (db.marked id status).events ↔ x ∈ db.events := by
  constructor
  · intro hx
    obtain ⟨y, hy, rfl⟩ := List.mem_map.mp hx
    rw [EventStore.setStatus_id] at hne
    rwa [EventStore.setStatus, if_neg hne]
  · intro hx
    exact List.mem_map.mpr ⟨x, hx, if_neg hne⟩

lemma sent_of_mem_marked {db : EventStore C D} {x : Event C D} {id : String} {status : SendStatus}
    (hx : x ∈ (db.marked id status).events) (hid : x.id = id) : x.sent = status := by
  obtain ⟨y, -, rfl⟩ := List.mem_map.mp hx
  rw [EventStore.setStatus_id] at hid
  simp [EventStore.setStatus, hid]

/-- An event that is there with another status is modified. -/
lemma eventMarkSent_ok {db : EventStore C D} {status : SendStatus} (hmem : event ∈ db.events)
    (hne : event.sent ≠ status) : (db.eventMarkSent event.id status).1 = true := by
  simp only [EventStore.eventMarkSent, List.any_eq_true, decide_eq_true_eq]
  exact ⟨event, hmem, rfl, hne⟩

/-- What the loop does with one event of the store that is not sent. -/
structure EventSpec (env : Env C D Email SMS) (s : AlarmState C D Email SMS) (event : Event C D)
    (r : Except AlarmError Unit × AlarmState C D Email SMS) : Prop where
  ok_iff : r.1 = .ok () ↔ ¬env.Stops event
  handed : ∀ id, r.2.Handed id ↔ s.Handed id ∨ id = event.id ∧ env.Delivers event
  others : ∀ x, x.id ≠ event.id → (x ∈ r.2.db.events ↔ x ∈ s.db.events)
  kept : ¬env.Delivers event → ¬env.Strands event → r.2.db = s.db
  stranded : env.Strands event → ∀ x ∈ r.2.db.events, x.id = event.id → x.sent = .sending

lemma markSent_eq (hmem : event ∈ s.db.events) {status : SendStatus} (hne : event.sent ≠ status) :
    markSent env s event.id status = if env.markFails event.id then (false, s)
      else (true, { s with db := s.db.marked event.id status }) := by
  unfold markSent
  rw [eventMarkSent_ok hmem hne]
  rfl

lemma markSent_state (id : String) (status : SendStatus) : (markSent env s id status).2 =
    if env.markFails id then s else { s with db := s.db.marked id status } := by
  unfold markSent
  split <;> rfl

/-- Nothing is handed over, and the store is as before. -/
lemma EventSpec.nothing {r : Except AlarmError Unit} (hok : r = .ok () ↔ ¬env.Stops event)
    (hdel : ¬env.Delivers event) (hstrand : ¬env.Strands event) : EventSpec env s event (r, s) where
  ok_iff := hok
  handed := by simp [hdel]
  others := fun _ _ => Iff.rfl
  kept := fun _ _ => rfl
  stranded := fun h => absurd h hstrand

/-- Nothing is handed over, and the event is marked. -/
lemma EventSpec.onlyMarked {r : Except AlarmError Unit} (hok : r = .ok () ↔ ¬env.Stops event)
    (hdel : ¬env.Delivers event) (hstrand : env.Strands event) :
    EventSpec env s event (r, { s with db := s.db.marked event.id .sending }) where
  ok_iff := hok
  handed := by simp [hdel, AlarmState.Handed]
  others := fun _ hne => mem_marked hne
  kept := fun _ h => absurd hstrand h
  stranded := fun _ x hx hid => sent_of_mem_marked hx hid

/-- The message of the event is handed over. -/
lemma EventSpec.delivered {r : Except AlarmError Unit} {s' : AlarmState C D Email SMS}
    (hok : r = .ok () ↔ ¬env.Stops event) (hdel : env.Delivers event)
    (hhanded : ∀ id, s'.Handed id ↔ s.Handed id ∨ id = event.id)
    (hothers : ∀ x, x.id ≠ event.id → (x ∈ s'.db.events ↔ x ∈ s.db.events)) :
    EventSpec env s event (r, s') where
  ok_iff := hok
  handed := by simpa [hdel] using hhanded
  others := hothers
  kept := fun h => absurd hdel h
  stranded := fun h => absurd hdel h.2.2.2

lemma handed_mail (db : EventStore C D) (mail : Email) (id : String) :
    AlarmState.Handed { s with db := db, mails := s.mails ++ [(event.id, mail)] } id ↔
      s.Handed id ∨ id = event.id := by
  simp only [AlarmState.Handed, List.map_append, List.mem_append, List.map_cons, List.map_nil,
    List.mem_singleton, or_right_comm]

lemma handed_sms (db : EventStore C D) (sms : SMS) (id : String) :
    AlarmState.Handed { s with db := db, smss := s.smss ++ [(event.id, sms)] } id ↔
      s.Handed id ∨ id = event.id := by
  simp only [AlarmState.Handed, List.map_append, List.mem_append, List.map_cons, List.map_nil,
    List.mem_singleton, or_assoc]

lemma eventSpec_email {contact : C} (hmem : event ∈ s.db.events) (hsent : event.sent ≠ .sent)
    (hcontact : event.contactDetails = some contact) (htype : event.type = .email) :
    EventSpec env s event (processEvent env s event) := by
  have hout : env.outcome event = some (.of (env.buildEmail event contact)) := by
    simp [Env.outcome, hcontact, htype]
  have hacc : env.accepts event = !env.mailFails event.id := by simp [Env.accepts, htype]
  have hstrand : ¬env.Strands event := fun h => by simp [Env.Strands, htype] at h
  simp only [processEvent, hcontact, htype]
  cases hbuild : env.buildEmail event contact with
  | error e =>
    refine .nothing ?_ ?_ hstrand <;> simp [Env.Stops, Env.Fails, Env.Delivers, hout, hbuild, Outcome.of]
  | ok built =>
    cases built with
    | none =>
      refine .nothing ?_ ?_ hstrand <;> simp [Env.Stops, Env.Fails, Env.Delivers, hout, hbuild, Outcome.of]
    | some mail =>
      cases hmail : env.mailFails event.id with
      | true =>
        refine .nothing ?_ ?_ hstrand <;>
          simp [Env.Stops, Env.Fails, Env.Delivers, hout, hbuild, Outcome.of, hacc, hmail]
      | false =>
        have hdel : env.Delivers event := by
          simp [Env.Delivers, hout, hbuild, Outcome.of, hacc, hmail]
        simp only [Bool.false_eq_true, if_false]
        rw [markSent_eq (s := { s with mails := s.mails ++ [(event.id, mail)] }) hmem hsent]
        cases hmark : env.markFails event.id with
        | true =>
          refine .delivered ?_ hdel (handed_mail _ mail) fun _ _ => Iff.rfl
          simp [Env.Stops, hout, hbuild, Outcome.of, htype, hmark]
        | false =>
          refine .delivered ?_ hdel (handed_mail _ mail) fun _ hne => mem_marked hne
          simp [Env.Stops, Env.Fails, hout, hbuild, Outcome.of, hmark, hacc, hmail]

lemma eventSpec_sms {contact : C} (hcontact : event.contactDetails = some contact)
    (htype : event.type = .sms) : EventSpec env s event (processEvent env s event) := by
  have hout : env.outcome event = some (.of (env.buildSms event contact)) := by
    simp [Env.outcome, hcontact, htype]
  have hacc : env.accepts event = !env.smsFails event.id := by simp [Env.accepts, htype]
  have hstops : env.Stops event ↔ env.Fails event ∨
      env.outcome event = some .message ∧ env.accepts event = false := by
    simp [Env.Stops, htype]
  simp only [processEvent, hcontact, htype, markSent_state]
  -- Without a message that is accepted, the event stays as it is or is stranded.
  have hlost : ¬env.Delivers event → ∀ r : Except AlarmError Unit, (r = .ok () ↔ ¬env.Stops event) →
      EventSpec env s event
        (r, if env.markFails event.id then s else { s with db := s.db.marked event.id .sending }) := by
    intro hdel r hok
    cases hmark : env.markFails event.id with
    | true => exact .nothing hok hdel fun h => by simp [Env.Strands, hmark] at h
    | false => exact .onlyMarked hok hdel ⟨htype, by simp [hout], hmark, hdel⟩
  cases hbuild : env.buildSms event contact with
  | error e =>
    apply hlost <;> simp [hstops, Env.Fails, Env.Delivers, hout, hbuild, Outcome.of]
  | ok built =>
    cases built with
    | none => apply hlost <;> simp [hstops, Env.Fails, Env.Delivers, hout, hbuild, Outcome.of]
    | some sms =>
      cases hsms : env.smsFails event.id with
      | true =>
        apply hlost <;> simp [hstops, Env.Delivers, hout, hbuild, Outcome.of, hacc, hsms]
      | false =>
        simp only [Bool.false_eq_true, if_false]
        refine .delivered ?_ ?_ (fun id => ?_) fun x hne => ?_
        · simp [hstops, Env.Fails, hout, hbuild, Outcome.of, hacc, hsms]
        · simp [Env.Delivers, hout, hbuild, Outcome.of, hacc, hsms]
        · split <;> exact handed_sms _ sms id
        · split
          next => exact Iff.rfl
          next => exact mem_marked hne

lemma eventSpec (hmem : event ∈ s.db.events) (hsent : event.sent ≠ .sent) :
    EventSpec env s event (processEvent env s event) := by
  cases hcontact : event.contactDetails with
  | none =>
    have hout : env.outcome event = none := by simp [Env.outcome, hcontact]
    simp only [processEvent, hcontact]
    refine .nothing ?_ ?_ ?_ <;> simp [Env.Stops, Env.Fails, Env.Delivers, Env.Strands, hout]
  | some contact =>
    cases htype : event.type with
    | email => exact eventSpec_email hmem hsent hcontact htype
    | sms => exact eventSpec_sms hcontact htype
    | info | warning | error | alarm | debug | diagnostic =>
      have hout : env.outcome event = none := by simp [Env.outcome, hcontact, htype]
      simp only [processEvent, hcontact, htype]
      refine .nothing ?_ ?_ ?_ <;> simp [Env.Stops, Env.Fails, Env.Delivers, Env.Strands, hout]

/-! ### The loop -/

lemma processEvents_cons : processEvents env (event :: events) s =
    if (processEvent env s event).1 = .ok () then processEvents env events (processEvent env s event).2
    else processEvent env s event := by
  rw [processEvents]
  split
  next s' h => rw [h, if_pos rfl]
  next e s' h => rw [h, if_neg (by simp)]

/-- What the loop does with events of the store that are not sent. -/
structure LoopSpec (env : Env C D Email SMS) (s : AlarmState C D Email SMS) (events : List (Event C D))
    (s' : AlarmState C D Email SMS) : Prop where
  handed : ∀ id, s'.Handed id ↔ s.Handed id ∨
    ∃ e ∈ events, e.id = id ∧ env.Reached events e ∧ env.Delivers e
  others : ∀ x, (∀ e ∈ events, e.id ≠ x.id) → (x ∈ s'.db.events ↔ x ∈ s.db.events)
  kept : ∀ x ∈ events, (env.Reached events x → ¬env.Delivers x ∧ ¬env.Strands x) → x ∈ s'.db.events
  stranded : ∀ e ∈ events, env.Reached events e → env.Strands e →
    ∀ x ∈ s'.db.events, x.id = e.id → x.sent = .sending

lemma loopSpec (hnodup : (events.map Event.id).Nodup)
    (hevents : ∀ e ∈ events, e ∈ s.db.events ∧ e.sent ≠ .sent) :
    LoopSpec env s events (processEvents env events s).2 := by
  induction events generalizing s with
  | nil => constructor <;> simp [processEvents]
  | cons event events ih =>
    rw [List.map_cons, List.nodup_cons] at hnodup
    have hne : ∀ e ∈ events, e.id ≠ event.id := fun e he heq =>
      hnodup.1 (heq ▸ List.mem_map_of_mem he)
    obtain ⟨hmem, hsent⟩ := hevents event (List.mem_cons_self ..)
    have hspec : EventSpec env s event (processEvent env s event) := eventSpec hmem hsent
    rw [processEvents_cons]
    split
    next hok =>
      have hgo := hspec.ok_iff.mp hok
      have ih := ih (s := (processEvent env s event).2) hnodup.2 fun e he =>
        ⟨(hspec.others e (hne e he)).mpr (hevents e (List.mem_cons_of_mem _ he)).1,
          (hevents e (List.mem_cons_of_mem _ he)).2⟩
      have hreached : ∀ e ∈ events, env.Reached (event :: events) e ↔ env.Reached events e := by
        intro e he
        simp only [Env.Reached, hgo, not_false_eq_true, true_and, or_iff_right_iff_imp]
        rintro rfl
        exact absurd rfl (hne event he)
      refine ⟨fun id => ?_, fun x hx => ?_, fun x hx hlost => ?_, fun e he hr hst x hx hid => ?_⟩
      · rw [ih.handed, hspec.handed]
        constructor
        · rintro ((h | ⟨rfl, hdel⟩) | ⟨e, he, rfl, hr, hdel⟩)
          · exact .inl h
          · exact .inr ⟨event, List.mem_cons_self .., rfl, .inl rfl, hdel⟩
          · exact .inr ⟨e, List.mem_cons_of_mem _ he, rfl, (hreached e he).mpr hr, hdel⟩
        · rintro (h | ⟨e, he, rfl, hr, hdel⟩)
          · exact .inl (.inl h)
          · rcases List.mem_cons.mp he with rfl | he
            · exact .inl (.inr ⟨rfl, hdel⟩)
            · exact .inr ⟨e, he, rfl, (hreached e he).mp hr, hdel⟩
      · rw [ih.others x fun e he => hx e (List.mem_cons_of_mem _ he)]
        exact hspec.others x (hx event (List.mem_cons_self ..)).symm
      · rcases List.mem_cons.mp hx with rfl | hx
        · obtain ⟨hdel, hst⟩ := hlost (.inl rfl)
          rw [ih.others x hne, hspec.kept hdel hst]
          exact hmem
        · exact ih.kept x hx fun hr => hlost ((hreached x hx).mpr hr)
      · rcases List.mem_cons.mp he with rfl | he
        · rw [ih.others x fun e' he' => hid ▸ hne e' he'] at hx
          exact hspec.stranded hst x hx hid
        · exact ih.stranded e he ((hreached e he).mp hr) hst x hx hid
    next hok =>
      have hstop : env.Stops event := by
        by_contra h
        exact hok (hspec.ok_iff.mpr h)
      have hreached : ∀ e, env.Reached (event :: events) e ↔ event = e := by
        intro e
        simp [Env.Reached, hstop]
      refine ⟨fun id => ?_, fun x hx => ?_, fun x hx hlost => ?_, fun e he hr hst x hx hid => ?_⟩
      · rw [hspec.handed]
        constructor
        · rintro (h | ⟨rfl, hdel⟩)
          · exact .inl h
          · exact .inr ⟨event, List.mem_cons_self .., rfl, .inl rfl, hdel⟩
        · rintro (h | ⟨e, -, rfl, hr, hdel⟩)
          · exact .inl h
          · obtain rfl := (hreached e).mp hr
            exact .inr ⟨rfl, hdel⟩
      · exact hspec.others x (hx event (List.mem_cons_self ..)).symm
      · rcases List.mem_cons.mp hx with rfl | hx
        · obtain ⟨hdel, hst⟩ := hlost (.inl rfl)
          rw [hspec.kept hdel hst]
          exact hmem
        · exact (hspec.others x (hne x hx)).mpr (hevents x (List.mem_cons_of_mem _ hx)).1
      · obtain rfl := (hreached e).mp hr
        exact hspec.stranded hst x hx hid

end Loop

/-! ### A poll -/

section Query

variable {db : EventStore C D} {q : EventQuery} {e : Event C D}

lemma mem_queryEvents (h : e ∈ db.queryEvents q) : e ∈ db.events ∧ q.Matches e := by
  have h := List.mem_of_mem_take h
  rw [List.mem_insertionSort] at h
  simpa using h

lemma queryEvents_nodup : ((db.queryEvents q).map Event.id).Nodup := by
  have hfilter : ((db.events.filter fun e => q.Matches e).map Event.id).Nodup :=
    db.nodup.sublist (List.filter_sublist.map _)
  have hsorted := ((List.perm_insertionSort (fun a b : Event C D => a.timestamp ≤ b.timestamp)
    (db.events.filter fun e => q.Matches e)).map Event.id).nodup_iff.mpr hfilter
  exact hsorted.sublist ((List.take_sublist _ _).map _)

/-- An event of the store is given by its id. -/
lemma eq_of_id {x y : Event C D} (hx : x ∈ db.events) (hy : y ∈ db.events) (hid : x.id = y.id) : x = y :=
  List.inj_on_of_nodup_map db.nodup hx hy hid

end Query

section Poll

variable (env : Env C D Email SMS) (alarmsProcessedUntill now : ℤ) (db : EventStore C D)

/-- The events to send that the poll gets from the store -/
def unsent : List (Event C D) := db.queryEvents (unsentQuery alarmsProcessedUntill now)

/-- The events to retry -/
def retried : List (Event C D) := db.queryEvents (retryQuery alarmsProcessedUntill)

/-- The state after a poll, with what it handed over. -/
def afterPoll : AlarmState C D Email SMS := (processAlarms env alarmsProcessedUntill now ⟨db, [], []⟩).2

/-- Both queries of the poll succeed. -/
def QueriesOk : Prop := env.queryFails = false ∧ env.retryQueryFails = false

instance : Decidable (QueriesOk env) := inferInstanceAs (Decidable (_ ∧ _))

variable {env alarmsProcessedUntill now db} {e : Event C D}

lemma afterPoll_eq (h : QueriesOk env) : afterPoll env alarmsProcessedUntill now db =
    (processEvents env (unsent alarmsProcessedUntill now db ++ retried alarmsProcessedUntill db)
      ⟨db, [], []⟩).2 := by
  obtain ⟨h1, h2⟩ := h
  simp only [afterPoll, processAlarms, polled, h1, h2, Bool.false_eq_true, if_false, unsent, retried]
  split <;> simp_all

lemma afterPoll_failed (h : ¬QueriesOk env) :
    afterPoll env alarmsProcessedUntill now db = ⟨db, [], []⟩ := by
  unfold QueriesOk at h
  unfold afterPoll processAlarms polled
  cases h1 : env.queryFails
  · cases h2 : env.retryQueryFails
    · exact absurd ⟨h1, h2⟩ h
    · rfl
  · rfl

lemma polled_nodup : ((unsent alarmsProcessedUntill now db ++ retried alarmsProcessedUntill db).map
    Event.id).Nodup := by
  rw [List.map_append, List.nodup_append]
  refine ⟨queryEvents_nodup, queryEvents_nodup, fun id hid id' hid' heq => ?_⟩
  obtain ⟨x, hx, rfl⟩ := List.mem_map.mp hid
  obtain ⟨y, hy, rfl⟩ := List.mem_map.mp hid'
  obtain ⟨hxdb, -, -, hxsent, -⟩ := mem_queryEvents hx
  obtain ⟨hydb, -, -, hysent, -⟩ := mem_queryEvents hy
  obtain rfl := eq_of_id hxdb hydb heq
  rw [hxsent] at hysent
  cases hysent

lemma polled_spec (h : QueriesOk env) : LoopSpec env ⟨db, [], []⟩
    (unsent alarmsProcessedUntill now db ++ retried alarmsProcessedUntill db)
    (afterPoll env alarmsProcessedUntill now db) := by
  rw [afterPoll_eq h]
  refine loopSpec polled_nodup fun e he => ?_
  rcases List.mem_append.mp he with he | he
  · obtain ⟨hdb, -, -, hsent, -⟩ := mem_queryEvents he
    exact ⟨hdb, by simp [hsent, unsentQuery]⟩
  · obtain ⟨hdb, -, -, hsent, -⟩ := mem_queryEvents he
    exact ⟨hdb, by simp [hsent, retryQuery]⟩

lemma reached_append {l₁ l₂ : List (Event C D)} (he : e ∈ l₁) :
    env.Reached (l₁ ++ l₂) e ↔ env.Reached l₁ e := by
  induction l₁ with
  | nil => cases he
  | cons x l₁ ih =>
    simp only [List.cons_append, Env.Reached]
    rcases List.mem_cons.mp he with rfl | he
    · simp
    · rw [ih he]

/-- The loop comes to an event when it stops at none before it. -/
lemma reached_iff {l : List (Event C D)} (hnodup : l.Nodup) (he : e ∈ l) :
    env.Reached l e ↔ ∀ y, [y, e].Sublist l → ¬env.Stops y := by
  induction l with
  | nil => cases he
  | cons x l ih =>
    obtain ⟨hx, hnodup⟩ := List.nodup_cons.mp hnodup
    rw [Env.Reached]
    rcases List.mem_cons.mp he with rfl | he
    · refine iff_of_true (.inl rfl) fun y hy => ?_
      cases hy with
      | cons _ hy => exact absurd (hy.subset (by simp)) hx
      | cons_cons _ hy => exact absurd (hy.subset (by simp)) hx
    · rw [ih hnodup he]
      constructor
      · rintro (rfl | ⟨hgo, hall⟩) y hy
        · exact absurd he hx
        · cases hy with
          | cons _ hy => exact hall y hy
          | cons_cons _ hy => exact hgo
      · intro hall
        exact .inr ⟨hall x (.cons_cons _ (by simpa using he)), fun y hy => hall y (.cons _ hy)⟩

lemma unsent_nodup : (unsent alarmsProcessedUntill now db).Nodup := queryEvents_nodup.of_map _

/-- When an event to send is handed over. -/
lemma handed_iff (h : QueriesOk env) (he : e ∈ db.events)
    (hq : (unsentQuery alarmsProcessedUntill now).Matches e) :
    (afterPoll env alarmsProcessedUntill now db).Handed e.id ↔
      e ∈ unsent alarmsProcessedUntill now db ∧ env.Delivers e ∧
        ∀ y, [y, e].Sublist (unsent alarmsProcessedUntill now db) → ¬env.Stops y := by
  have hspec : LoopSpec env _ _ (afterPoll env alarmsProcessedUntill now db) := polled_spec h
  rw [hspec.handed]
  constructor
  · rintro (hnone | ⟨x, hx, hid, hr, hdel⟩)
    · simp [AlarmState.Handed] at hnone
    · rcases List.mem_append.mp hx with hx | hx
      · obtain rfl := eq_of_id (mem_queryEvents hx).1 he hid
        exact ⟨hx, hdel, (reached_iff unsent_nodup hx).mp ((reached_append hx).mp hr)⟩
      · obtain ⟨hdb, -, -, hsent, -⟩ := mem_queryEvents hx
        obtain rfl := eq_of_id hdb he hid
        rw [hq.2.2.1] at hsent
        cases hsent
  · rintro ⟨hmem, hdel, hall⟩
    exact .inr ⟨e, List.mem_append_left _ hmem, rfl,
      (reached_append hmem).mpr ((reached_iff unsent_nodup hmem).mpr hall), hdel⟩

/-- An event that was not sent is still in the store, and matches the query of each later poll. -/
def StillUnsent (alarmsProcessedUntill now : ℤ) (s : AlarmState C D Email SMS) (id : String) : Prop :=
  ∃ x ∈ s.db.events, x.id = id ∧ ∀ now' ≥ now, (unsentQuery alarmsProcessedUntill now').Matches x

/-- When an event to send that was not handed over is left for a later poll. -/
lemma stillUnsent_iff (h : QueriesOk env) (he : e ∈ db.events)
    (hq : (unsentQuery alarmsProcessedUntill now).Matches e)
    (hdel : ¬(afterPoll env alarmsProcessedUntill now db).Handed e.id) :
    StillUnsent alarmsProcessedUntill now (afterPoll env alarmsProcessedUntill now db) e.id ↔
      ¬(e ∈ unsent alarmsProcessedUntill now db ∧ env.Strands e ∧
        ∀ y, [y, e].Sublist (unsent alarmsProcessedUntill now db) → ¬env.Stops y) := by
  have hspec : LoopSpec env _ _ (afterPoll env alarmsProcessedUntill now db) := polled_spec h
  rw [handed_iff h he hq] at hdel
  constructor
  · rintro ⟨x, hx, hid, hmatch⟩ ⟨hmem, hst, hall⟩
    have hr := (reached_iff unsent_nodup hmem).mpr hall
    have hsent := (hmatch now le_rfl).2.2.1
    rw [hspec.stranded e (List.mem_append_left _ hmem) ((reached_append hmem).mpr hr) hst x hx hid] at hsent
    cases hsent
  · intro hst
    have hmem : e ∈ (afterPoll env alarmsProcessedUntill now db).db.events := by
      by_cases hmem : e ∈ unsent alarmsProcessedUntill now db
      · refine hspec.kept e (List.mem_append_left _ hmem) fun hr => ?_
        have hall := (reached_iff unsent_nodup hmem).mp ((reached_append hmem).mp hr)
        exact ⟨fun hd => hdel ⟨hmem, hd, hall⟩, fun hs => hst ⟨hmem, hs, hall⟩⟩
      · refine (hspec.others e fun x hx hid => ?_).mpr he
        rcases List.mem_append.mp hx with hx | hx
        · obtain rfl := eq_of_id (mem_queryEvents hx).1 he hid
          exact hmem hx
        · obtain ⟨hdb, -, -, hsent, -⟩ := mem_queryEvents hx
          obtain rfl := eq_of_id hdb he hid
          rw [hq.2.2.1] at hsent
          cases hsent
    exact ⟨e, hmem, rfl, fun now' hle => ⟨⟨hq.1.1, le_trans hq.1.2 hle⟩, hq.2⟩⟩

/-! ### The builder of another event -/

def ignoreError {M : Type} : Except Unit (Option M) → Except Unit (Option M)
  | .error _ => .ok none
  | .ok built => .ok built

/-- The same poll, with a builder that does not fail for another event than the one with this id. -/
def Env.withoutOtherFailures (env : Env C D Email SMS) (id : String) : Env C D Email SMS :=
  { env with
    buildEmail := fun x contact =>
      if x.id = id then env.buildEmail x contact else ignoreError (env.buildEmail x contact)
    buildSms := fun x contact =>
      if x.id = id then env.buildSms x contact else ignoreError (env.buildSms x contact) }

lemma delivers_withoutOtherFailures : (env.withoutOtherFailures e.id).Delivers e ↔ env.Delivers e := by
  simp [Env.Delivers, Env.outcome, Env.accepts, Env.withoutOtherFailures]

lemma outcome_withoutOtherFailures {x : Event C D} (hne : x.id ≠ e.id) :
    (env.withoutOtherFailures e.id).outcome x =
      if env.Fails x then some .nothing else env.outcome x := by
  have hof : ∀ {M : Type} (built : Except Unit (Option M)), Outcome.of (ignoreError built) =
      if Outcome.of built = .error then .nothing else Outcome.of built := by
    intro M built
    rcases built with _ | _ | _ <;> rfl
  cases hcontact : x.contactDetails with
  | none => simp [Env.Fails, Env.outcome, hcontact]
  | some contact =>
    cases htype : x.type <;>
      simp [Env.Fails, Env.outcome, hcontact, htype, Env.withoutOtherFailures, hne, hof] <;> split <;> rfl

lemma stops_withoutOtherFailures {x : Event C D} (hne : x.id ≠ e.id) :
    (env.withoutOtherFailures e.id).Stops x ↔ env.Stops x ∧ ¬env.Fails x := by
  rw [Env.Stops, Env.Fails, outcome_withoutOtherFailures hne]
  by_cases hfails : env.Fails x
  · simp [hfails]
  · rw [if_neg hfails]
    exact ⟨fun h => ⟨h, hfails⟩, fun h => h.1⟩

variable (env alarmsProcessedUntill now db)

/-- Each event to send was handed over, or is left for a later poll. -/
def NoneLost : Prop :=
  ∀ e ∈ db.events, (unsentQuery alarmsProcessedUntill now).Matches e →
    (afterPoll env alarmsProcessedUntill now db).Handed e.id ∨
      StillUnsent alarmsProcessedUntill now (afterPoll env alarmsProcessedUntill now db) e.id

/-- Whether an event to send is handed over does not depend on the builder failing for another one. -/
def Independent : Prop :=
  ∀ e ∈ db.events, (unsentQuery alarmsProcessedUntill now).Matches e →
    ((afterPoll env alarmsProcessedUntill now db).Handed e.id ↔
      (afterPoll (env.withoutOtherFailures e.id) alarmsProcessedUntill now db).Handed e.id)

/-- The builder makes a message for each SMS event that the loop comes to, and fails for no event that is
followed by one to be handed over. -/
structure BuilderClear : Prop where
  sms : ∀ e ∈ unsent alarmsProcessedUntill now db, env.Strands e →
    ∃ y, [y, e].Sublist (unsent alarmsProcessedUntill now db) ∧ env.Stops y
  followed : ∀ x e, [x, e].Sublist (unsent alarmsProcessedUntill now db) → env.Fails x → env.Delivers e →
    ∃ y, [y, e].Sublist (unsent alarmsProcessedUntill now db) ∧ env.Stops y ∧ ¬env.Fails y

variable {env alarmsProcessedUntill now db}

lemma noneLost_iff (h : QueriesOk env) : NoneLost env alarmsProcessedUntill now db ↔
    ∀ e ∈ unsent alarmsProcessedUntill now db, env.Strands e →
      ∃ y, [y, e].Sublist (unsent alarmsProcessedUntill now db) ∧ env.Stops y := by
  constructor
  · intro hlost e he hst
    by_contra hall
    push Not at hall
    obtain ⟨hdb, hq⟩ := mem_queryEvents he
    have hnot : ¬(afterPoll env alarmsProcessedUntill now db).Handed e.id := by
      rw [handed_iff h hdb hq]
      exact fun hh => hst.2.2.2 hh.2.1
    rcases hlost e hdb hq with hh | hh
    · exact hnot hh
    · exact (stillUnsent_iff h hdb hq hnot).mp hh ⟨he, hst, hall⟩
  · intro hall e hdb hq
    by_cases hh : (afterPoll env alarmsProcessedUntill now db).Handed e.id
    · exact .inl hh
    · refine .inr ((stillUnsent_iff h hdb hq hh).mpr ?_)
      rintro ⟨he, hst, hgo⟩
      obtain ⟨y, hy, hstop⟩ := hall e he hst
      exact hgo y hy hstop

lemma independent_iff (h : QueriesOk env) : Independent env alarmsProcessedUntill now db ↔
    ∀ x e, [x, e].Sublist (unsent alarmsProcessedUntill now db) → env.Fails x → env.Delivers e →
      ∃ y, [y, e].Sublist (unsent alarmsProcessedUntill now db) ∧ env.Stops y ∧ ¬env.Fails y := by
  have hid : ∀ {x e : Event C D}, [x, e].Sublist (unsent alarmsProcessedUntill now db) → x.id ≠ e.id := by
    intro x e hsub heq
    have := hsub.nodup unsent_nodup
    obtain rfl := eq_of_id (mem_queryEvents (hsub.subset (by simp))).1
      (mem_queryEvents (hsub.subset (by simp))).1 heq
    simp at this
  have hwithout : ∀ e ∈ db.events, (unsentQuery alarmsProcessedUntill now).Matches e →
      ((afterPoll (env.withoutOtherFailures e.id) alarmsProcessedUntill now db).Handed e.id ↔
        e ∈ unsent alarmsProcessedUntill now db ∧ env.Delivers e ∧
        ∀ y, [y, e].Sublist (unsent alarmsProcessedUntill now db) → ¬(env.Stops y ∧ ¬env.Fails y)) := by
    intro e hdb hq
    have hothers : QueriesOk (env.withoutOtherFailures e.id) := h
    rw [handed_iff hothers hdb hq, delivers_withoutOtherFailures]
    refine and_congr_right fun _ => and_congr_right fun _ => forall₂_congr fun y hy => ?_
    rw [stops_withoutOtherFailures (hid hy)]
  constructor
  · intro hind x e hsub hfails hdel
    by_contra hall
    push Not at hall
    have he : e ∈ unsent alarmsProcessedUntill now db := hsub.subset (by simp)
    obtain ⟨hdb, hq⟩ := mem_queryEvents he
    have hh := (hind e hdb hq).mpr ((hwithout e hdb hq).mpr
      ⟨he, hdel, fun y hy hstop => hstop.2 (hall y hy hstop.1)⟩)
    exact ((handed_iff h hdb hq).mp hh).2.2 x hsub (.inl hfails)
  · intro hall e hdb hq
    rw [hwithout e hdb hq, handed_iff h hdb hq]
    refine and_congr_right fun he => and_congr_right fun hdel => ?_
    constructor
    · intro hgo y hy hstop
      exact hgo y hy hstop.1
    · intro hgo y hy hstop
      by_cases hfails : env.Fails y
      · obtain ⟨z, hz, hzstop⟩ := hall y e hy hfails hdel
        exact hgo z hz hzstop
      · exact hgo y hy ⟨hstop, hfails⟩

/-- **When no alarm is lost or held up by another**: a query fails, so that nothing is done, or the
builder fails only where it does not matter. -/
theorem alarms_delivered_iff (env : Env C D Email SMS) (alarmsProcessedUntill now : ℤ)
    (db : EventStore C D) :
    NoneLost env alarmsProcessedUntill now db ∧ Independent env alarmsProcessedUntill now db ↔
      (QueriesOk env → BuilderClear env alarmsProcessedUntill now db) := by
  by_cases h : QueriesOk env
  · rw [noneLost_iff h, independent_iff h]
    refine ⟨fun ⟨h1, h2⟩ _ => ⟨h1, h2⟩, fun hclear => ⟨(hclear h).sms, (hclear h).followed⟩⟩
  · refine iff_of_true ⟨fun e he hq => .inr ?_, fun e he hq => ?_⟩ fun h' => absurd h' h
    · rw [afterPoll_failed h]
      exact ⟨e, he, rfl, fun now' hle => ⟨⟨hq.1.1, le_trans hq.1.2 hle⟩, hq.2⟩⟩
    · have hothers : ¬QueriesOk (env.withoutOtherFailures e.id) := h
      rw [afterPoll_failed h, afterPoll_failed hothers]

end Poll

/-! ### Two alarms -/

/-- An SMS event and a later e-mail event, both not sent. -/
def sampleStore : EventStore Unit Unit where
  events := [⟨"sms", .sms, EventCodes.alarmSMS, 1000, .notSent, some (), none⟩,
    ⟨"email", .email, EventCodes.email, 2000, .notSent, some (), none⟩]
  nodup := by decide

/-- The builder fails for SMS events. -/
def failingBuilder : Env Unit Unit Unit Unit where
  buildEmail _ _ := .ok (some ())
  buildSms _ _ := .error ()
  queryFails := false
  retryQueryFails := false
  markFails _ := false
  mailFails _ := false
  smsFails _ := false

instance (s : AlarmState C D Email SMS) (id : String) : Decidable (s.Handed id) :=
  inferInstanceAs (Decidable (_ ∨ _))

theorem alarms_delivered_fails : ¬NoneLost failingBuilder 0 3000 sampleStore ∧
    ¬Independent failingBuilder 0 3000 sampleStore := by
  constructor
  · intro h
    rcases h ⟨"sms", .sms, EventCodes.alarmSMS, 1000, .notSent, some (), none⟩ (by decide) (by decide) with
      hh | ⟨x, hx, hid, hmatch⟩
    · exact absurd hh (by decide)
    · have hsent : ∀ x ∈ (afterPoll failingBuilder 0 3000 sampleStore).db.events,
          x.id = "sms" → x.sent ≠ .notSent := by decide
      exact hsent x hx hid (hmatch 3000 le_rfl).2.2.1
  · intro h
    have hh := h ⟨"email", .email, EventCodes.email, 2000, .notSent, some (), none⟩ (by decide) (by decide)
    exact absurd hh (by decide)

end SensorLink.Notify
