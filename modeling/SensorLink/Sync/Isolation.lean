import SensorLink.Sync.SessionChannel

/-!
# Sessions do not mix

`Inv` lists the situations that the two parties can be in together. In each of them the sessions that
are over agree on both sides, the queue holds only items of the running session, and the drop finds the
queue empty: the sender waits for the receiver from its `End` on.
-/

namespace SensorLink.Sync

open SensorLink.Lib

variable {T : Type}

/-- What the receiver gets of a session in which these items were sent -/
def closed (session : UInt32 × List (FiniteStream T)) : UInt32 × List (FiniteStream T) :=
  (session.1, session.2 ++ [.endMark])

lemma snocLast_concat {α β : Type} (l : List (α × List β)) (a : α) (bs : List β) (b : β) :
    snocLast (l ++ [(a, bs)]) b = l ++ [(a, bs ++ [b])] := by
  simp [snocLast]

/-- No item is an `End`. -/
def NoEnd (items : List (FiniteStream T)) : Prop := ∀ item ∈ items, item ≠ .endMark

lemma NoEnd.concat {items : List (FiniteStream T)} (h : NoEnd items) {item : FiniteStream T}
    (hitem : item ≠ .endMark) : NoEnd (items ++ [item]) := by
  intro x hx
  rcases List.mem_append.mp hx with hx | hx
  · exact h x hx
  · obtain rfl := List.mem_singleton.mp hx
    exact hitem

namespace Session

/-- The situations of the two parties; `past` are the sessions that both have finished, with the items
sent in them, and `id` is the session that comes or runs next. -/
inductive Inv : Session T → Prop
  /-- The receiver is between two sessions, and the sender waits for the next one. -/
  | between {capacity past activeId lifecycle state} :
    (∀ session ∈ past, NoEnd session.2) →
    Inv ⟨capacity, [], lifecycle, false, ⟨.waiting, state, past⟩,
      ⟨.idle, .ofNat past.length, activeId, past.map closed⟩⟩
  /-- The sender has not seen the end of the last session. -/
  | finished {capacity past activeId id} :
    (∀ session ∈ past, NoEnd session.2) →
    Inv ⟨capacity, [], .finished id, true, ⟨.finishing, .started id, past⟩,
      ⟨.idle, .ofNat past.length, activeId, past.map closed⟩⟩
  /-- The receiver has started a session, and the sender has not seen it. -/
  | started {capacity past point state id} :
    (∀ session ∈ past, NoEnd session.2) → id = .ofNat past.length →
    (point = .waiting ∨ point = .finishing) →
    Inv ⟨capacity, [], .started id, true, ⟨point, state, past⟩,
      ⟨.receiving, id + 1, id, past.map closed ++ [(id, [])]⟩⟩
  /-- Both are in the session. -/
  | running {capacity past id got data} :
    (∀ session ∈ past, NoEnd session.2) → id = .ofNat past.length → NoEnd (got ++ data) →
    Inv ⟨capacity, data, .started id, false, ⟨.active, .started id, past ++ [(id, got ++ data)]⟩,
      ⟨.receiving, id + 1, id, past.map closed ++ [(id, got)]⟩⟩
  /-- The sender has sent its `End`. -/
  | finishing {capacity past id got data} :
    (∀ session ∈ past, NoEnd session.2) → id = .ofNat past.length → NoEnd (got ++ data) →
    Inv ⟨capacity, data ++ [.endMark], .started id, false,
      ⟨.finishing, .started id, past ++ [(id, got ++ data)]⟩,
      ⟨.receiving, id + 1, id, past.map closed ++ [(id, got)]⟩⟩
  /-- The receiver has got the `End`. -/
  | ended {capacity past id point} :
    (∀ session ∈ past, NoEnd session.2) → id + 1 = .ofNat past.length →
    (point = .ended ∨ point = .dropping ∨ point = .signalling) →
    Inv ⟨capacity, [], .started id, false, ⟨.finishing, .started id, past⟩,
      ⟨point, id + 1, id, past.map closed⟩⟩

lemma inv_create (capacity : ℕ) : (create capacity : Session T).Inv :=
  .between nofun

lemma ofNat_length_concat {α : Type} (l : List α) (a : α) :
    UInt32.ofNat (l ++ [a]).length = UInt32.ofNat l.length + 1 := by
  rw [List.length_append, List.length_singleton]
  exact UInt32.ofNat_add _ _

section Steps

variable {capacity : ℕ} {past : List (UInt32 × List (FiniteStream T))} {id : UInt32}
  {got data : List (FiniteStream T)}

/-- The sender enters the session that the receiver has started. -/
lemma Inv.entered (hover : ∀ session ∈ past, NoEnd session.2) (hid : id = .ofNat past.length) :
    Inv ⟨capacity, [], .started id, false, ⟨.active, .started id, past ++ [(id, [])]⟩,
      ⟨.receiving, id + 1, id, past.map closed ++ [(id, [])]⟩⟩ :=
  @Inv.running T capacity past id [] [] hover hid (by simp [NoEnd])

/-- One more item is sent. -/
lemma Inv.sendItem (hover : ∀ session ∈ past, NoEnd session.2) (hid : id = .ofNat past.length)
    (hend : NoEnd (got ++ data)) {item : FiniteStream T} (hitem : item ≠ .endMark) :
    (Session.sendItem ⟨capacity, data, .started id, false,
      ⟨.active, .started id, past ++ [(id, got ++ data)]⟩,
      ⟨.receiving, id + 1, id, past.map closed ++ [(id, got)]⟩⟩ item).Inv := by
  unfold Session.sendItem
  split
  · simp only [snocLast_concat, List.append_assoc]
    refine .running hover hid ?_
    rw [← List.append_assoc]
    exact hend.concat hitem
  · exact .running hover hid hend

/-- One item of the session is received. -/
lemma Inv.recv_item {point : SenderPoint} {rest : List (FiniteStream T)} {item : FiniteStream T}
    (hitem : item ≠ .endMark)
    (h : Inv ⟨capacity, rest, .started id, false,
      ⟨point, .started id, past ++ [(id, (got ++ [item]) ++ data)]⟩,
      ⟨.receiving, id + 1, id, past.map closed ++ [(id, got ++ [item])]⟩⟩) :
    (Session.recv ⟨capacity, item :: rest, .started id, false,
      ⟨point, .started id, past ++ [(id, got ++ item :: data)]⟩,
      ⟨.receiving, id + 1, id, past.map closed ++ [(id, got)]⟩⟩).Inv := by
  rw [List.append_assoc] at h
  cases item with
  | data value => simpa [Session.recv, snocLast_concat] using h
  | reset => simpa [Session.recv, snocLast_concat] using h
  | endMark => exact absurd rfl hitem

end Steps

lemma Inv.exec {s : Session T} (h : s.Inv) (act : Act T) : (s.exec act).Inv := by
  cases h with
  | between hover =>
    cases act with
    | start => exact .started hover rfl (.inl rfl)
    | _ => exact .between hover
  | finished hover =>
    cases act with
    | start => exact .started hover rfl (.inr rfl)
    | recvLifecycle =>
      simp only [Session.exec, recvLifecycle, if_true]
      exact .between hover
    | _ => exact .finished hover
  | started hover hid hpoint =>
    cases act with
    | recvLifecycle =>
      rcases hpoint with rfl | rfl
      · exact .entered hover hid
      · exact .entered hover hid
    | send value =>
      rcases hpoint with rfl | rfl
      · exact .started hover hid (.inl rfl)
      · exact .started hover hid (.inr rfl)
    | sendReset =>
      rcases hpoint with rfl | rfl
      · exact .started hover hid (.inl rfl)
      · exact .started hover hid (.inr rfl)
    | sendFinish =>
      rcases hpoint with rfl | rfl
      · exact .started hover hid (.inl rfl)
      · exact .started hover hid (.inr rfl)
    | _ => exact .started hover hid hpoint
  | @running capacity past id got data hover hid hend =>
    cases act with
    | send value => exact .sendItem hover hid hend nofun
    | sendReset => exact .sendItem hover hid hend nofun
    | sendFinish =>
      simp only [Session.exec, Session.sendFinish]
      split
      · exact .finishing hover hid hend
      · exact .running hover hid hend
    | recv =>
      cases data with
      | nil => exact .running hover hid hend
      | cons item data =>
        have hitem : item ≠ .endMark := hend item (by simp)
        exact .recv_item hitem (.running hover hid (by simpa using hend))
    | _ => exact .running hover hid hend
  | @finishing capacity past id got data hover hid hend =>
    cases act with
    | recv =>
      cases data with
      | nil =>
        have hclosed : snocLast (past.map closed ++ [(id, got)]) FiniteStream.endMark =
            (past ++ [(id, got ++ [])]).map closed := by
          rw [snocLast_concat, List.map_append, List.append_nil]
          rfl
        simp only [Session.exec, Session.recv, List.nil_append, hclosed]
        refine .ended ?_ ?_ (.inl rfl)
        · intro session hsession
          rcases List.mem_append.mp hsession with hs | hs
          · exact hover session hs
          · obtain rfl := List.mem_singleton.mp hs
            exact hend
        · rw [ofNat_length_concat, hid]
      | cons item data =>
        have hitem : item ≠ .endMark := hend item (by simp)
        exact .recv_item hitem (.finishing hover hid (by simpa using hend))
    | _ => exact .finishing hover hid hend
  | @ended capacity past id point hover hid hpoint =>
    cases act with
    | dropActive =>
      rcases hpoint with rfl | rfl | rfl
      · exact .ended hover hid (.inr (.inl rfl))
      · exact .ended hover hid (.inr (.inl rfl))
      · exact .ended hover hid (.inr (.inr rfl))
    | tryRecv =>
      rcases hpoint with rfl | rfl | rfl
      · exact .ended hover hid (.inl rfl)
      · exact .ended hover hid (.inr (.inr rfl))
      · exact .ended hover hid (.inr (.inr rfl))
    | signalFinished =>
      rcases hpoint with rfl | rfl | rfl
      · exact .ended hover hid (.inl rfl)
      · exact .ended hover hid (.inr (.inl rfl))
      · simp only [Session.exec, Session.signalFinished, if_true]
        rw [hid]
        exact .finished hover
    | start =>
      rcases hpoint with rfl | rfl | rfl
      · exact .ended hover hid (.inl rfl)
      · exact .ended hover hid (.inr (.inl rfl))
      · exact .ended hover hid (.inr (.inr rfl))
    | recv =>
      rcases hpoint with rfl | rfl | rfl
      · exact .ended hover hid (.inl rfl)
      · exact .ended hover hid (.inr (.inl rfl))
      · exact .ended hover hid (.inr (.inr rfl))
    | _ => exact .ended hover hid hpoint

lemma Reachable.inv {capacity : ℕ} {s : Session T} (h : s.Reachable capacity) : s.Inv :=
  Reach.invariant h (inv_create capacity) fun _ act hs _ => hs.exec act

/-- The receiver is through with its session `k`. -/
def Over (s : Session T) (k : ℕ) : Prop :=
  k < s.receiver.got.length ∧ (s.receiver.point = .receiving → k + 1 < s.receiver.got.length)

/-- Session `k` of the receiver is session `k` of the sender, with the same items and one `End`. -/
def Agrees (s : Session T) (k : ℕ) : Prop :=
  ∃ id items, s.sender.sent[k]? = some (id, items) ∧ NoEnd items ∧
    s.receiver.got[k]? = some (id, items ++ [.endMark])

/-- The receiver's running session has the first items of the same session of the sender, or nothing
when the sender has not entered it. -/
def RunningAgrees (s : Session T) : Prop :=
  ∃ past id got, s.receiver.got = past ++ [(id, got)] ∧
    ((s.sender.sent[past.length]? = none ∧ got = []) ∨
      ∃ items, s.sender.sent[past.length]? = some (id, items) ∧ NoEnd items ∧ got <+: items)

lemma agrees_over {s : Session T} {past rest rest' : List (UInt32 × List (FiniteStream T))}
    (hover : ∀ session ∈ past, NoEnd session.2) (hsent : s.sender.sent = past ++ rest)
    (hgot : s.receiver.got = past.map closed ++ rest') {k : ℕ} (hk : k < past.length) :
    s.Agrees k := by
  refine ⟨past[k].1, past[k].2, ?_, hover _ (List.getElem_mem hk), ?_⟩
  · rw [hsent, List.getElem?_append_left hk, List.getElem?_eq_getElem hk]
  · rw [hgot, List.getElem?_append_left (by simpa using hk), List.getElem?_map,
      List.getElem?_eq_getElem hk]
    rfl

/-- **Sessions are isolated** in every interleaving of the two parties: what the receiver gets in each
of its sessions is what the sender sent in that session, in order, and one `End`; and the sender is
never told that it is out of sync. -/
theorem sessions_isolated {capacity : ℕ} {s : Session T} (h : s.Reachable capacity) :
    (∀ k, s.Over k → s.Agrees k) ∧ (s.receiver.point = .receiving → s.RunningAgrees) ∧
      s.sender.point ≠ .outOfSync := by
  cases h.inv with
  | between hover =>
    refine ⟨fun k hk => ?_, nofun, nofun⟩
    exact agrees_over hover (List.append_nil _).symm (List.append_nil _).symm
      (by simpa using hk.1)
  | finished hover =>
    refine ⟨fun k hk => ?_, nofun, nofun⟩
    exact agrees_over hover (List.append_nil _).symm (List.append_nil _).symm
      (by simpa using hk.1)
  | started hover hid hpoint =>
    refine ⟨fun k hk => ?_, fun _ => ?_, ?_⟩
    · exact agrees_over hover (List.append_nil _).symm rfl (by simpa using hk.2 rfl)
    · exact ⟨_, _, _, rfl, .inl ⟨by simp, rfl⟩⟩
    · rcases hpoint with rfl | rfl <;> nofun
  | running hover hid hend =>
    refine ⟨fun k hk => ?_, fun _ => ?_, nofun⟩
    · exact agrees_over hover rfl rfl (by simpa using hk.2 rfl)
    · exact ⟨_, _, _, rfl, .inr ⟨_, by simp, hend, List.prefix_append _ _⟩⟩
  | finishing hover hid hend =>
    refine ⟨fun k hk => ?_, fun _ => ?_, nofun⟩
    · exact agrees_over hover rfl rfl (by simpa using hk.2 rfl)
    · exact ⟨_, _, _, rfl, .inr ⟨_, by simp, hend, List.prefix_append _ _⟩⟩
  | ended hover hid hpoint =>
    refine ⟨fun k hk => ?_, ?_, nofun⟩
    · exact agrees_over hover (List.append_nil _).symm (List.append_nil _).symm
        (by simpa using hk.1)
    · rcases hpoint with rfl | rfl | rfl <;> nofun

/-- Two sessions; the sender sees the start of the second one before the end of the first. -/
def twoSessions : List (Act ℕ) :=
  [.start, .recvLifecycle, .send 1, .recv, .send 2, .sendFinish, .recv, .recv, .dropActive, .tryRecv,
    .signalFinished, .start, .recvLifecycle, .send 3, .sendFinish, .recv, .recv]

theorem sessions_isolated_two :
    (twoSessions.foldl exec (create 4)).receiver.got =
        [(0, [.data 1, .data 2, .endMark]), (1, [.data 3, .endMark])] ∧
      ∀ k, (twoSessions.foldl exec (create 4)).Over k →
        (twoSessions.foldl exec (create 4)).Agrees k :=
  ⟨by decide, (sessions_isolated
    (Reach.run twoSessions .start (by simp [Reach.Guarded, twoSessions]))).1⟩

end Session

end SensorLink.Sync
