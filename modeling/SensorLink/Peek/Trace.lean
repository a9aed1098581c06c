import SensorLink.Peek.Window

/-!
# What the world remembers agrees with the queue

The invariant `Inv` of a world whose sequence numbers do not wrap: the accounting of the slots, the
window of the readers over the numbers confirmed so far, and for every sequence number its last event:
live handles were issued last, messages say what their handle did, an aborted slot was dropped, and
what was confirmed stays so.
-/

set_option linter.unusedSectionVars false

namespace SensorLink.Peek

open SensorLink.Lib PeekQueue

variable {M : ℕ} [NeZero M]

/-- The last event of a sequence number; the trace has the newest event first. -/
def lastEvent (trace : List Event) (n : ℕ) : Option Event := trace.find? fun e => e.id = n

/-- What a message says about its handle. -/
def Confirm.event (c : Confirm) : Event := if c.success then .confirmed c.id else .dropped c.id

lemma lastEvent_cons (e : Event) (t : List Event) (n : ℕ) :
    lastEvent (e :: t) n = if e.id = n then some e else lastEvent t n := by
  unfold lastEvent
  by_cases h : e.id = n <;> simp [h]

lemma lastEvent_mem {t : List Event} {n : ℕ} {e : Event} (h : lastEvent t n = some e) :
    e ∈ t ∧ e.id = n := by
  refine ⟨List.mem_of_find?_eq_some h, ?_⟩
  simpa using List.find?_some h

lemma lastEvent_eq_none {t : List Event} {n : ℕ} : lastEvent t n = none ↔ ∀ e ∈ t, e.id ≠ n := by
  simp [lastEvent]

/-- A sequence number is confirmed. -/
def World.Confirmed (w : World M) (n : ℕ) : Prop := .confirmed n ∈ w.trace

instance (w : World M) (n : ℕ) : Decidable (w.Confirmed n) := by
  unfold World.Confirmed; infer_instance

/-- The invariant of a world without wrap. -/
structure Inv (w : World M) : Prop where
  acc : Acc w.queue.readers w.pending
  win : Win w.Confirmed w.lower w.queue.writeIndex w.queue.readers
  base_le : w.base ≤ w.lower
  live : ∀ n ∈ w.handles, lastEvent w.trace n = some (.issued n)
  msg : ∀ c ∈ w.queue.confirmChannel, lastEvent w.trace c.id = some c.event
  aborted : ∀ i n, w.queue.readers.readerSlots i = .abort n →
    lastEvent w.trace n = some (.dropped n)
  fresh : ∀ n, w.queue.readers.readIndexNext ≤ n → lastEvent w.trace n = none
  stays : ∀ n, w.Confirmed n → lastEvent w.trace n = some (.confirmed n)
  gran_pos : 0 < w.queue.overwriteGranularity
  gran_le : w.queue.overwriteGranularity ≤ w.queue.capacity
  cap_lt : w.queue.capacity < 2 ^ 32

/-! ### Confirmations that arrive -/

section Update

variable {conf : ℕ → Prop} {lo wr : ℕ}

@[simp] lemma update_readIndexMin (q : PeekQueue M) (c : Confirm) :
    (q.update c).readIndexMin = q.readIndexMin := by
  unfold update
  dsimp only
  split <;> rfl

@[simp] lemma update_readIndexNext (q : PeekQueue M) (c : Confirm) :
    (q.update c).readIndexNext = q.readIndexNext := by
  unfold update
  dsimp only
  split <;> rfl

/-- A confirmation of a busy slot keeps the window when it is a confirmed number that it frees. -/
lemma win_update {q : PeekQueue M} (h : Win conf lo wr q) {c : Confirm}
    (hb : q.readerSlots (slotOf M c.id) = .busy c.id) (hc : c.success = true → conf c.id) :
    Win conf lo wr (q.update c) := by
  have hown := (h.own (slotOf M c.id) c.id (by rw [hb]; rfl)).2
  unfold update
  simp only [hb, if_true]
  refine ⟨h.lo_le, h.min_le, h.next_le, h.w_lt, h.width, ?_, ?_, h.past⟩
  · intro i n hi
    by_cases his : i = slotOf M c.id
    · subst his
      simp only [setSlot, Function.update_self] at hi
      have : n = c.id := by
        split at hi
        · cases hi
        · simpa [ReadState.seqNo?] using hi.symm
      subst this
      exact ⟨rfl, hown⟩
    · simp only [setSlot, Function.update_of_ne his] at hi
      exact h.own i n hi
  · intro n hn hlt
    simp only [setSlot] at hn hlt ⊢
    by_cases hni : slotOf M n = slotOf M c.id
    · have hnc : n = c.id := by
        rcases h.window n hn hlt with ⟨hx, -⟩ | hx | hx <;> rw [hni, hb] at hx <;> cases hx
        rfl
      subst hnc
      rw [Function.update_self]
      by_cases hs : c.success = true
      · left
        exact ⟨by simp [hs], hc hs⟩
      · right; right
        simp [hs]
    · rw [Function.update_of_ne hni]
      exact h.window n hn hlt

lemma update_abort {q : PeekQueue M} {c : Confirm} {i : Fin M} {n : ℕ}
    (h : (q.update c).readerSlots i = .abort n) :
    q.readerSlots i = .abort n ∨ (c.id = n ∧ c.success = false) := by
  unfold update at h
  dsimp only at h
  split at h
  · by_cases hi : i = slotOf M c.id
    · subst hi
      simp only [setSlot, Function.update_self] at h
      split at h
      · cases h
      next hs =>
        cases h
        exact .inr ⟨rfl, by simpa using hs⟩
    · simp only [setSlot, Function.update_of_ne hi] at h
      exact .inl h
  · exact .inl h

/-- Processing the whole channel. -/
lemma foldl_update_spec (cs : List Confirm) (l : List ℕ) : ∀ {q : PeekQueue M},
    Acc q (cs.map Confirm.id ++ l) → Win conf lo wr q → (∀ c ∈ cs, c.success = true → conf c.id) →
    Win conf lo wr (cs.foldl update q) ∧
    (cs.foldl update q).readIndexMin = q.readIndexMin ∧
    (cs.foldl update q).readIndexNext = q.readIndexNext ∧
    ∀ i n, (cs.foldl update q).readerSlots i = .abort n →
      q.readerSlots i = .abort n ∨ ⟨n, false⟩ ∈ cs := by
  induction cs with
  | nil =>
    intro q _ hw _
    exact ⟨hw, rfl, rfl, fun i n h => .inl h⟩
  | cons c cs ih =>
    intro q ha hw hc
    have hb : q.readerSlots (slotOf M c.id) = .busy c.id := ha.mem_iff.mp (by simp)
    obtain ⟨h1, h2, h3, h4⟩ := ih (acc_update ha) (win_update hw hb (hc c (by simp)))
      fun c' hc' => hc c' (by simp [hc'])
    refine ⟨h1, h2.trans (by simp), h3.trans (by simp), fun i n hn => ?_⟩
    rcases h4 i n hn with hn' | hn'
    · rcases update_abort hn' with hq | ⟨hid, hs⟩
      · exact .inl hq
      · right
        rw [show (⟨n, false⟩ : Confirm) = c by cases c; simp_all]
        simp
    · exact .inr (by simp [hn'])

end Update

/-! ### The invariant is kept -/

section Kept

variable {w : World M}

/-- A message that says "confirmed" is about a confirmed number. -/
lemma Inv.confirmed_of_msg (h : Inv w) {c : Confirm} (hc : c ∈ w.queue.confirmChannel)
    (hs : c.success = true) : w.Confirmed c.id := by
  have hl := h.msg c hc
  simp only [Confirm.event, hs, if_true] at hl
  exact (lastEvent_mem hl).1

/-- A message that says "aborted" is about a dropped handle. -/
lemma Inv.dropped_of_msg (h : Inv w) {n : ℕ} (hc : ⟨n, false⟩ ∈ w.queue.confirmChannel) :
    lastEvent w.trace n = some (.dropped n) := h.msg _ hc

/-- The world after the channel was processed. -/
def World.drained (w : World M) : World M := { w with queue := w.queue.updateReaderSlots }

lemma inv_drained (h : Inv w) : Inv w.drained := by
  have hacc : Acc w.queue.readers (w.queue.confirmChannel.map Confirm.id ++ w.handles) :=
    h.acc.perm List.perm_append_comm
  obtain ⟨hwin, hmin, hnext, habort⟩ := foldl_update_spec w.queue.confirmChannel w.handles hacc h.win
    fun c hc hs => h.confirmed_of_msg hc hs
  refine ⟨?_, hwin, h.base_le, h.live, ?_, ?_, ?_, h.stays, h.gran_pos, h.gran_le, h.cap_lt⟩
  · simpa [World.drained, Queue.updateReaderSlots, World.pending] using acc_foldl_update _ hacc
  · simp [World.drained, Queue.updateReaderSlots]
  · intro i n hi
    rcases habort i n hi with hq | hm
    · exact h.aborted i n hq
    · exact h.dropped_of_msg hm
  · intro n hn
    exact h.fresh n (hnext ▸ hn)

lemma inv_waitConfirmation (h : Inv w) : Inv (w.exec .waitConfirmation) := by
  have hacc := acc_exec h.acc .waitConfirmation (by rintro r hr; cases hr)
  cases hc : w.queue.confirmChannel with
  | nil =>
    have he : w.exec .waitConfirmation = w := by
      simp only [World.exec, Queue.waitConfirmation, hc]
    rw [he]
    exact h
  | cons c rest =>
    have hmem : c ∈ w.queue.confirmChannel := by simp [hc]
    have hb : w.queue.readers.readerSlots (slotOf M c.id) = .busy c.id :=
      h.acc.mem_iff.mp (by simp [World.pending, hc])
    have he : w.exec .waitConfirmation =
        { w with queue := { w.queue with readers := w.queue.readers.update c,
                                         confirmChannel := rest } } := by
      simp only [World.exec, Queue.waitConfirmation, hc]
    rw [he] at hacc ⊢
    refine ⟨hacc, win_update h.win hb fun hs => h.confirmed_of_msg hmem hs, h.base_le, h.live, ?_,
      ?_, ?_, h.stays, h.gran_pos, h.gran_le, h.cap_lt⟩
    · intro c' hc'
      exact h.msg c' (by rw [hc]; exact List.mem_cons_of_mem _ hc')
    · intro i n hi
      rcases update_abort hi with hq | ⟨hid, hs⟩
      · exact h.aborted i n hq
      · refine h.dropped_of_msg ?_
        rwa [show (⟨n, false⟩ : Confirm) = c by cases c; simp_all]
    · intro n hn
      exact h.fresh n (by simpa using hn)

lemma inv_settle (h : Inv w) (k : ℕ) (success : Bool) : Inv (w.settle k success) := by
  have hacc := acc_settle h.acc k success
  unfold World.settle at hacc ⊢
  cases hk : w.handles[k]? with
  | none => exact h
  | some n =>
    simp only [hk] at hacc ⊢
    have hmem : n ∈ w.handles := List.mem_of_getElem? hk
    have hlast := h.live n hmem
    have hnodup : w.handles.Nodup := (List.nodup_append.mp h.acc.nodup).1
    -- the handle was the only one with this number
    have hne : ∀ m ∈ w.handles.eraseIdx k, m ≠ n := by
      obtain ⟨hlt, hget⟩ := List.getElem?_eq_some_iff.mp hk
      intro m hm hmn
      have hm' := (List.mem_eraseIdx_iff_getElem.mp hm)
      obtain ⟨j, hj, hjk, hje⟩ := hm'
      exact hjk ((hnodup.getElem_inj_iff).mp (hje.trans (hmn.trans hget.symm)))
    have hchan : ∀ c ∈ w.queue.confirmChannel, c.id ≠ n := by
      intro c hc hcn
      have hl := h.msg c hc
      rw [hcn, hlast] at hl
      unfold Confirm.event at hl
      split at hl <;> simp at hl
    set e : Event := if success then .confirmed n else .dropped n with he
    have heid : e.id = n := by rw [he]; split <;> rfl
    have hroom := length_channel_lt h.acc hmem
    have hev : (⟨n, success⟩ : Confirm).event = e := rfl
    have hlastne : ∀ m, m ≠ n → lastEvent (e :: w.trace) m = lastEvent w.trace m := by
      intro m hm
      rw [lastEvent_cons, if_neg (by rw [heid]; exact fun h => hm h.symm)]
    have hlasteq : lastEvent (e :: w.trace) n = some e := by rw [lastEvent_cons, if_pos heid]
    have hbusy : w.queue.readers.readerSlots (slotOf M n) = .busy n :=
      h.acc.mem_iff.mp (List.mem_append_left _ hmem)
    have hmono : ∀ m, w.Confirmed m → Event.confirmed m ∈ e :: w.trace :=
      fun m hm => List.mem_cons_of_mem _ hm
    refine ⟨hacc, ?_, h.base_le, ?_, ?_, ?_, ?_, ?_, h.gran_pos, h.gran_le, h.cap_lt⟩
    · exact ⟨h.win.lo_le, h.win.min_le, h.win.next_le, h.win.w_lt, h.win.width, h.win.own,
        fun m hm hlt => (h.win.window m hm hlt).imp_left (And.imp_right (hmono m)),
        fun m hm hlt => hmono m (h.win.past m hm hlt)⟩
    · intro m hm
      rw [hlastne m (hne m hm)]
      exact h.live m (List.mem_of_mem_eraseIdx hm)
    · intro c hc
      simp only [Queue.settle, trySend, hroom, if_true, List.mem_append, List.mem_singleton] at hc
      rcases hc with hc | rfl
      · rw [hlastne c.id (hchan c hc)]
        exact h.msg c hc
      · rw [hev]
        exact hlasteq
    · intro i m hi
      have hmn : m ≠ n := by
        rintro rfl
        rw [h.acc.own i m (by rw [show w.queue.readers.readerSlots i = .abort m from hi]; rfl)] at hi
        rw [show w.queue.readers.readerSlots (slotOf M m) = .abort m from hi] at hbusy
        cases hbusy
      rw [hlastne m hmn]
      exact h.aborted i m hi
    · intro m hm
      have hmn : m ≠ n := by
        rintro rfl
        rw [h.fresh m hm] at hlast
        cases hlast
      rw [hlastne m hmn]
      exact h.fresh m hm
    · intro m hm
      by_cases hmn : m = n
      · subst hmn
        rcases List.mem_cons.mp hm with hm' | hm'
        · rw [hlasteq, hm']
        · rw [h.stays m hm'] at hlast
          cases hlast
      · rw [hlastne m hmn]
        refine h.stays m ?_
        rcases List.mem_cons.mp hm with hm' | hm'
        · rw [← hm'] at heid
          exact absurd heid hmn
        · exact hm'

/-- An issue keeps the invariant, once the search has. -/
lemma inv_issue (h : Inv w) {n : ℕ} {r : PeekQueue M} (hM : M < 2 ^ 31)
    (hchan : w.queue.confirmChannel = [])
    (hf : w.queue.readers.findReader w.queue.writeIndex = (.ok n, r)) :
    Inv { w with queue := { w.queue with readers := r }, handles := w.handles ++ [n],
                 trace := .issued n :: w.trace } := by
  obtain ⟨hwin, hiss⟩ := (findLoop_spec hM (2 * M) h.win).2 n r hf
  have hacc := (acc_findLoop w.queue.writeIndex (2 * M) h.acc).1 n r hf
  -- nothing was ever confirmed about a number that is issued
  have hnot : ¬ w.Confirmed n := by
    intro hc
    have hl := h.stays n hc
    rcases hiss.how with ⟨hn, -, -⟩ | ⟨ha, -, -⟩
    · rw [h.fresh n (by omega)] at hl
      cases hl
    · rw [h.aborted _ n ha] at hl
      cases hl
  have hnh : n ∉ w.handles := by
    intro hn
    have := hacc.nodup
    simp only [World.pending, hchan, List.map_nil, List.append_nil] at this
    exact (List.nodup_cons.mp this).1 hn
  have hlastne : ∀ m, m ≠ n → lastEvent (.issued n :: w.trace) m = lastEvent w.trace m := by
    intro m hm
    rw [lastEvent_cons, if_neg (fun h => hm h.symm)]
  have hlasteq : lastEvent (.issued n :: w.trace) n = some (.issued n) := by
    rw [lastEvent_cons]
    simp [Event.id]
  have hmem : ∀ m, Event.confirmed m ∈ (.issued n :: w.trace) ↔ w.Confirmed m := by
    intro m
    simp [World.Confirmed]
  have hbusy : r.readerSlots (slotOf M n) = .busy n := hacc.mem_iff.mp (by simp)
  refine ⟨?_, ?_, h.base_le, ?_, ?_, ?_, ?_, ?_, h.gran_pos, h.gran_le, h.cap_lt⟩
  · have hp : Acc r (n :: w.handles) := by
      simpa only [World.pending, hchan, List.map_nil, List.append_nil] using hacc
    simpa [World.pending, hchan] using hp.perm (List.perm_append_singleton n w.handles).symm
  · exact ⟨hwin.lo_le, hwin.min_le, hwin.next_le, hwin.w_lt, hwin.width, hwin.own,
      fun m hm hlt => (hwin.window m hm hlt).imp_left (And.imp_right (hmem m).mpr),
      fun m hm hlt => (hmem m).mpr (hwin.past m hm hlt)⟩
  · intro m hm
    rcases List.mem_append.mp hm with hm | hm
    · rw [hlastne m (fun he => hnh (he ▸ hm))]
      exact h.live m hm
    · rw [List.mem_singleton.mp hm]
      exact hlasteq
  · intro c hc
    simp only [hchan, List.not_mem_nil] at hc
  · intro i m hi
    have hq := hiss.slots i m hi
    have hmn : m ≠ n := by
      rintro rfl
      rw [h.acc.own i m (by rw [hq]; rfl)] at hi
      rw [show r.readerSlots (slotOf M m) = .abort m from hi] at hbusy
      cases hbusy
    rw [hlastne m hmn]
    exact h.aborted i m hq
  · intro m hm
    have hnext : w.queue.readers.readIndexNext ≤ m ∧ m ≠ n := by
      simp only at hm
      rcases hiss.how with ⟨hn, -, hr⟩ | ⟨-, hn, hr⟩ <;> omega
    rw [hlastne m hnext.2]
    exact h.fresh m hnext.1
  · intro m hm
    have hc := (hmem m).mp hm
    rw [hlastne m (fun he => hnot (he ▸ hc))]
    exact h.stays m hc

lemma inv_peekNext (h : Inv w) (hM : M < 2 ^ 31) : Inv (w.exec .peekNext) := by
  rcases w.exec_peekNext_cases with ⟨-, he⟩ | ⟨-, e, r, hf, he⟩ | ⟨-, n, r, hf, he⟩
  · rw [he]
    exact h
  · have hd := inv_drained h
    obtain ⟨hwin, hpass⟩ := (findLoop_spec hM (2 * M) hd.win).1 e r hf
    have hacc := (acc_findLoop w.queue.writeIndex (2 * M) hd.acc).2 e r hf
    rw [he]
    exact ⟨hacc, hwin, h.base_le, hd.live, hd.msg, fun i n hi => hd.aborted i n (hpass.abort hi),
      fun n hn => hd.fresh n (by rw [← hpass.next]; exact hn), hd.stays, h.gran_pos, h.gran_le,
      h.cap_lt⟩
  · rw [he]
    exact inv_issue (inv_drained h) hM rfl hf

lemma peekNext_eq {q : Queue M} (h : q.unconfirmedCount ≠ 0) :
    q.peekNext = ((q.updateReaderSlots.readers.findReader q.writeIndex).1,
      { q.updateReaderSlots with
        readers := (q.updateReaderSlots.readers.findReader q.writeIndex).2 }) := by
  unfold Queue.peekNext
  rw [if_neg h]
  rfl

/-- The lower bound only moves up. -/
lemma peekNext_mono (h : Inv w) (hM : M < 2 ^ 31) :
    w.queue.readers.readIndexMin ≤ w.queue.peekNext.2.readers.readIndexMin ∧
      w.queue.peekNext.2.writeIndex = w.queue.writeIndex := by
  have hacc : Acc w.queue.readers (w.queue.confirmChannel.map Confirm.id ++ w.handles) :=
    h.acc.perm List.perm_append_comm
  obtain ⟨-, hmin, -, -⟩ := foldl_update_spec w.queue.confirmChannel w.handles hacc h.win
    fun c hc hs => h.confirmed_of_msg hc hs
  have hspec := findLoop_spec hM (2 * M) (inv_drained h).win
  by_cases hcount : w.queue.unconfirmedCount = 0
  · unfold Queue.peekNext
    rw [if_pos hcount]
    exact ⟨le_rfl, rfl⟩
  · rw [peekNext_eq hcount]
    refine ⟨hmin.symm.le.trans ?_, rfl⟩
    rcases hf : w.queue.updateReaderSlots.readers.findReader w.queue.writeIndex with ⟨e | n, r⟩
    · exact (hspec.1 e r hf).2.min_le
    · exact (hspec.2 n r hf).2.mono

/-- What is issued was found by the search. -/
lemma findReader_of_issued {q : Queue M} {n : ℕ} (hn : q.peekNext.1 = .ok n) :
    ∃ r, q.updateReaderSlots.readers.findReader q.writeIndex = (.ok n, r) := by
  have hcount : q.unconfirmedCount ≠ 0 := by
    intro hc
    unfold Queue.peekNext at hn
    rw [if_pos hc] at hn
    cases hn
  rw [peekNext_eq hcount] at hn
  rcases hf : q.updateReaderSlots.readers.findReader q.writeIndex with ⟨e | m, r⟩
  · rw [hf] at hn
    cases hn
  · rw [hf] at hn
    obtain rfl : m = n := Except.ok.inj hn
    exact ⟨r, rfl⟩

/-- What is issued comes after all numbers issued before, or was dropped. -/
lemma peekNext_issues (h : Inv w) (hM : M < 2 ^ 31) {n : ℕ} (hn : w.queue.peekNext.1 = .ok n) :
    (∀ k, .issued k ∈ w.trace → k < n) ∨ lastEvent w.trace n = some (.dropped n) := by
  have hd := inv_drained h
  obtain ⟨r, hf⟩ := findReader_of_issued hn
  rcases ((findLoop_spec hM (2 * M) hd.win).2 n r hf).2.how with ⟨hnext, -, -⟩ | ⟨ha, -, -⟩
  · left
    intro k hk
    rcases Nat.lt_or_ge k n with hlt | hge
    · exact hlt
    · have hnone : lastEvent w.trace k = none := hd.fresh k (hnext ▸ hge)
      exact absurd rfl (lastEvent_eq_none.mp hnone _ hk)
  · exact Or.inr (hd.aborted _ n ha)

/-- An overwrite moves the lower bound up, and at most to the write index. -/
lemma erasedUntil_bounds {q : Queue M} (hw : q.writeIndex < 2 ^ 32)
    (hmin : q.readers.readIndexMin ≤ q.writeIndex) (hg : 0 < q.overwriteGranularity)
    (hle : q.overwriteGranularity ≤ q.capacity) (hcap : q.capacity < 2 ^ 32)
    (hfull : q.capacity < q.unconfirmedCount) :
    q.readers.readIndexMin < q.erasedUntil ∧ q.erasedUntil ≤ q.writeIndex := by
  unfold Queue.unconfirmedCount minIndex at hfull
  rw [wrappingSub_eq hmin hw] at hfull
  have hmod : q.writeIndex % q.overwriteGranularity < q.overwriteGranularity := Nat.mod_lt _ hg
  unfold Queue.erasedUntil checkedNextMultipleOf
  rw [if_neg (by omega)]
  dsimp only
  split
  · rw [Option.getD_some, wrappingSub_eq (by omega) (by omega)]
    omega
  · split
    · rw [Option.getD_some, wrappingSub_eq (by omega) (by omega)]
      omega
    · rw [Option.getD_none, wrappingSub_of_lt (by omega) (by omega)]
      omega

/-- The readers after an overwrite: the new lower bound, and nothing issued is forgotten above it. -/
lemma win_bumpMinIndex {conf : ℕ → Prop} {lo wr : ℕ} {q : PeekQueue M} (h : Win conf lo wr q)
    {e : ℕ} (he : q.readIndexMin < e) (hle : e ≤ wr) : Win conf e wr (q.bumpMinIndex e) := by
  have h1 := h.min_le
  have h2 := h.next_le
  have h3 := h.w_lt
  have h4 := h.width
  unfold bumpMinIndex
  dsimp only
  rw [wrappingSub_eq (by omega) (by omega), wrappingSub_eq (by omega) (by omega)]
  split
  · refine ⟨le_rfl, le_rfl, hle, h3, Nat.le_add_right _ _, ?_, ?_, ?_⟩
    · intro i n hi
      obtain ⟨hs, hn⟩ := h.own i n hi
      exact ⟨hs, by simp only; omega⟩
    · intro n hn hlt
      simp only at hn hlt
      omega
    · intro n hn hlt
      simp only at hlt
      omega
  · refine ⟨le_rfl, by simp only; omega, h2, h3, by simp only; omega, h.own, ?_, ?_⟩
    · intro n hn hlt
      exact h.window n (by simp only at hn; omega) hlt
    · intro n hn hlt
      simp only at hlt
      omega

lemma bumpMinIndex_next_le {q : PeekQueue M} {e : ℕ} (hmin : q.readIndexMin ≤ q.readIndexNext)
    (hnext : q.readIndexNext < 2 ^ 32) (he : q.readIndexMin ≤ e) (hlt : e < 2 ^ 32) :
    q.readIndexNext ≤ (q.bumpMinIndex e).readIndexNext := by
  unfold bumpMinIndex
  dsimp only
  rw [wrappingSub_eq he hlt, wrappingSub_eq hmin hnext]
  split <;> simp only <;> omega

/-- What `enqueue` does when the write index does not wrap: nothing on a queue that is full, and
otherwise it counts the item, and moves the readers when the overwrite has erased part of the store. -/
lemma enqueue_cases (q : Queue M) (hw : q.writeIndex + 1 < 2 ^ 32) :
    (q.unconfirmedCount = 2 ^ 32 - 1 ∧ q.enqueue = (.error .queueFull, q)) ∨
    (({ q with writeIndex := q.writeIndex + 1 } : Queue M).unconfirmedCount ≤ q.capacity ∧
      q.enqueue = (.ok q.writeIndex, { q with writeIndex := q.writeIndex + 1 })) ∨
    (q.capacity < ({ q with writeIndex := q.writeIndex + 1 } : Queue M).unconfirmedCount ∧
      q.enqueue = (.ok q.writeIndex, { q with
        writeIndex := q.writeIndex + 1
        readers := q.readers.bumpMinIndex
          ({ q with writeIndex := q.writeIndex + 1 } : Queue M).erasedUntil })) := by
  unfold Queue.enqueue
  dsimp only
  rw [wrappingAdd_eq hw]
  by_cases hf : q.unconfirmedCount = 2 ^ 32 - 1
  · left
    rw [if_pos hf]
    exact ⟨hf, rfl⟩
  · right
    rw [if_neg hf]
    by_cases hc : q.capacity < ({ q with writeIndex := q.writeIndex + 1 } : Queue M).unconfirmedCount
    · right
      rw [if_pos hc]
      exact ⟨hc, rfl⟩
    · left
      rw [if_neg hc]
      exact ⟨by omega, rfl⟩

lemma inv_enqueue (h : Inv w) (hw : w.queue.writeIndex + 1 < 2 ^ 32) : Inv (w.exec .enqueue) := by
  have hacc := acc_exec h.acc .enqueue (by rintro r hr; cases hr)
  have hwin' : Win w.Confirmed w.lower (w.queue.writeIndex + 1) w.queue.readers :=
    ⟨h.win.lo_le, h.win.min_le, Nat.le_succ_of_le h.win.next_le, hw, h.win.width, h.win.own,
      h.win.window, h.win.past⟩
  have hmin := h.win.min_le
  have hnext := h.win.next_le
  rcases enqueue_cases w.queue hw with ⟨-, he⟩ | ⟨-, he⟩ | ⟨hc, he⟩
  · rw [show w.exec .enqueue = w by simp [World.exec, he]]
    exact h
  · have hex : w.exec .enqueue = { w with queue := { w.queue with
        writeIndex := w.queue.writeIndex + 1 } } := by
      simp [World.exec, he]
    rw [hex] at hacc ⊢
    exact ⟨hacc, hwin', h.base_le, h.live, h.msg, h.aborted, h.fresh, h.stays, h.gran_pos, h.gran_le,
      h.cap_lt⟩
  · obtain ⟨hlt, hle⟩ := erasedUntil_bounds (q := { w.queue with writeIndex :=
      w.queue.writeIndex + 1 }) hw (by simp only; omega) h.gran_pos h.gran_le h.cap_lt hc
    set e := ({ w.queue with writeIndex := w.queue.writeIndex + 1 } : Queue M).erasedUntil with hedef
    simp only at hlt hle
    have hbump : (w.queue.readers.bumpMinIndex e).readIndexMin = e := by
      unfold bumpMinIndex
      dsimp only
      split <;> rfl
    have hex : w.exec .enqueue = { w with
        queue := { w.queue with writeIndex := w.queue.writeIndex + 1,
                                readers := w.queue.readers.bumpMinIndex e }
        lower := e } := by
      simp only [World.exec, he, hbump]
      rw [if_neg (by omega)]
    rw [hex] at hacc ⊢
    refine ⟨hacc, win_bumpMinIndex hwin' hlt hle, ?_, h.live, h.msg, ?_, ?_, h.stays, h.gran_pos,
      h.gran_le, h.cap_lt⟩
    · have := h.base_le
      have := h.win.lo_le
      simp only
      omega
    · intro i n hi
      exact h.aborted i n (by simpa using hi)
    · intro n hn
      have hbn := bumpMinIndex_next_le (q := w.queue.readers) (e := e) hmin (by omega) (by omega)
        (by omega)
      exact h.fresh n (by simp only at hn; omega)

lemma inv_reinit (h : Inv w) (hq : w.Quiet) {range : ℕ × ℕ} (hle : range.1 ≤ range.2)
    (hlt : range.2 < 2 ^ 32) : Inv (w.exec (.reinit range)) := by
  have hacc := acc_exec h.acc (.reinit range) (by rintro r -; exact hq)
  refine ⟨hacc, ?_, le_rfl, ?_, ?_, ?_, ?_, ?_, h.gran_pos, h.gran_le, h.cap_lt⟩
  · exact ⟨le_rfl, le_rfl, hle, hlt, Nat.le_add_right _ _,
      fun i n hi => by simp [World.exec, Queue.reinitWithExistingRange, PeekQueue.new,
        ReadState.seqNo?] at hi,
      fun n h1 h2 => by
        simp only [World.exec, Queue.reinitWithExistingRange, PeekQueue.new] at h1 h2
        omega,
      fun n h1 h2 => by
        simp only [World.exec, Queue.reinitWithExistingRange, PeekQueue.new] at h1 h2
        omega⟩
  · intro n hn
    simp [World.exec, hq.1] at hn
  · intro c hc
    simp [World.exec, Queue.reinitWithExistingRange, hq.2] at hc
  · intro i n hi
    simp [World.exec, Queue.reinitWithExistingRange, PeekQueue.new] at hi
  · intro n _
    simp [World.exec, lastEvent]
  · intro n hn
    simp [World.exec, World.Confirmed] at hn

/-- No wrap: an item is enqueued only while its number has a successor, and a restart, which waits
until nothing is pending, gives a range that does not wrap. -/
def NoWrap (w : World M) : Op → Prop
  | .enqueue => w.queue.writeIndex + 1 < 2 ^ 32
  | .reinit range => w.Quiet ∧ range.1 ≤ range.2 ∧ range.2 < 2 ^ 32
  | _ => True

instance (w : World M) : (op : Op) → Decidable (NoWrap w op)
  | .enqueue => inferInstanceAs (Decidable (_ < _))
  | .reinit _ => inferInstanceAs (Decidable (_ ∧ _ ∧ _))
  | .peekNext | .confirm _ | .drop _ | .waitConfirmation | .isDrained => isTrue trivial

/-- **The invariant is kept** by every operation. -/
theorem inv_exec (h : Inv w) (hM : M < 2 ^ 31) (op : Op) (hw : NoWrap w op) : Inv (w.exec op) := by
  cases op with
  | enqueue => exact inv_enqueue h hw
  | peekNext => exact inv_peekNext h hM
  | confirm k => exact inv_settle h k true
  | drop k => exact inv_settle h k false
  | waitConfirmation => exact inv_waitConfirmation h
  | isDrained => exact inv_drained h
  | reinit range => exact inv_reinit h hw.1 hw.2.1 hw.2.2

end Kept

lemma inv_start (capacity granularity : ℕ) (hg : 0 < granularity) (hle : granularity ≤ capacity) :
    Inv (World.start (Queue.withOverwriteSupport M capacity granularity)) := by
  refine ⟨acc_start capacity granularity, ?_, le_rfl, by simp [World.start], ?_, ?_,
    by simp [World.start, lastEvent], by simp [World.start, World.Confirmed], ?_, ?_, ?_⟩
  · exact ⟨le_rfl, le_rfl, le_rfl, by simp [World.start, Queue.withOverwriteSupport],
      Nat.le_add_right _ _,
      fun i n hi => by simp [World.start, Queue.withOverwriteSupport, PeekQueue.new,
        ReadState.seqNo?] at hi,
      fun n h1 h2 => by
        simp only [World.start, Queue.withOverwriteSupport, PeekQueue.new] at h2
        omega,
      fun n h1 h2 => by
        simp only [World.start, Queue.withOverwriteSupport, PeekQueue.new] at h2
        omega⟩
  · simp [World.start, Queue.withOverwriteSupport]
  · simp [World.start, Queue.withOverwriteSupport, PeekQueue.new]
  · simp only [World.start, Queue.withOverwriteSupport]
    split <;> omega
  · simp only [World.start, Queue.withOverwriteSupport]
    split <;> split <;> omega
  · simp only [World.start, Queue.withOverwriteSupport]
    split <;> omega

/-- **The invariant holds in every reachable world**, with or without overwrites. -/
theorem inv_of_reach {w : World M} {capacity granularity : ℕ} (hM : M < 2 ^ 31)
    (hg : 0 < granularity) (hle : granularity ≤ capacity)
    (h : Reach World.exec NoWrap (World.start (Queue.withOverwriteSupport M capacity granularity)) w) :
    Inv w :=
  h.invariant (inv_start capacity granularity hg hle) fun _ op hi hG => inv_exec hi hM op hG

end SensorLink.Peek
