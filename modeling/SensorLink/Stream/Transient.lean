import SensorLink.Peek.Retry
import SensorLink.Stream.Flaky

/-!
# A read that fails

`peek_next` reads the header of an item and then its data, and each read may return `Error::Flash`. After
the header the handle is dropped and the item comes again, after the data it is confirmed
(`notDiscarded_iff`, `transient_discards`).
-/

namespace SensorLink.Stream

open SensorLink.Lib SensorLink.Flash SensorLink.Db RingBuffer

variable {dev : BlockDevice} {c : RingBuffer dev} {crc : List UInt8 → UInt32} {F : ℕ}

/-! ### The reads of an item -/

/-- The two reads of `peek_next` -/
inductive ItemRead
  | header
  | data
deriving DecidableEq, Repr

/-- The data length that a header says. -/
def dataLen (header : List UInt8) : ℕ :=
  ofLeBytes ((header ++ List.replicate (streamOverheadBytes - header.length) 0).take lenOverheadBytes)

/-- The read of the item that returns `Error::Flash` on the device `d`. -/
def failedRead (c : RingBuffer dev) (d : Device Mem Fate) (n bufferLen : ℕ) : Option ItemRead :=
  match (readCircularFragment dev c.toCircular n streamOverheadBytes).run d with
  | .err .flash _ => some .header
  | .ok header d =>
    if bufferLen < dataLen header then none
    else
      match (readCircularFragmentAtOffset dev c.toCircular n (dataLen header) streamOverheadBytes).run d
        with
      | .err .flash _ => some .data
      | _ => none
  | _ => none

/-- What becomes of the handle. -/
def ItemRead.use : ItemRead → HandleUse
  | header => .drop
  | data => .confirm

variable (crc) in
lemma run_failedRead {d : Device Mem Fate} {n bufferLen : ℕ} {read : ItemRead}
    (h : failedRead c d n bufferLen = some read) : ∃ d',
    (readItem dev c.toCircular crc n bufferLen).run d = .ok (.error .flash, read.use) d' := by
  unfold failedRead dataLen at h
  simp only [readItem, Bind.bind, Dev.attempt]
  cases hheader : (readCircularFragment dev c.toCircular n streamOverheadBytes).run d with
  | off d₁ =>
    rw [hheader] at h
    cases h
  | err e d₁ =>
    rw [hheader] at h
    cases e with
    | flash =>
      obtain rfl := Option.some.inj h
      exact ⟨d₁, rfl⟩
    | _ => cases h
  | ok header d₁ =>
    rw [hheader] at h
    simp only [Dev.andThen] at h ⊢
    split at h
    · cases h
    next hlen =>
      rw [if_neg hlen]
      split at h
      next d₂ hdata =>
        obtain rfl := Option.some.inj h
        simp only [hdata]
        exact ⟨d₂, rfl⟩
      next => cases h

namespace FlakyWorld

section Defs

variable (c : RingBuffer dev) (crc : List UInt8 → UInt32) (s : FlakyWorld)

/-- The item and its read with which the next `peek_next` fails. -/
def failedRead (bufferLen : ℕ) (plan : List Fate) (readPlan : List Bool) : Option (ℕ × ItemRead) :=
  match s.opens c plan readPlan with
  | none => none
  | some (s, d) =>
    match (cleanup dev c.toCircular (s.peekLower - s.lower) s.lower).run d, s.peek.queue.peekNext.1 with
    | .ok _ d, .ok n => (Stream.failedRead c d n bufferLen).map (n, ·)
    | _, _ => none

/-- Power is not lost in the call. -/
def StaysOn : FlakyCall → Prop
  | .enqueue data plan readPlan => ((s.enqueue c crc data).run ⟨s.mem, plan, readPlan⟩).isOff = false
  | .peekNext bufferLen plan readPlan =>
    ((s.peekNext c crc bufferLen).run ⟨s.mem, plan, readPlan⟩).isOff = false
  | .reboot => False
  | _ => True

/-- A peek on a working flash returns the item. -/
def Returns (n : ℕ) (data : List UInt8) : Prop := ∀ bufferLen, data.length ≤ bufferLen →
  s.peekResult c crc bufferLen [] [] = some (.ok (some (data, n)))

/-- The item was overwritten. -/
def Overwritten (n : ℕ) : Prop := c.overwriteOnFull = true ∧ c.slot (dev.view s.mem) n = none

/-- The number of peeks while no handle is alive. -/
def quietPeeks : FlakyWorld → List FlakyCall → ℕ
  | _, [] => 0
  | s, call :: calls => (if call.isPeek = true ∧ s.peek.handles = [] then 1 else 0) +
      quietPeeks (s.exec c crc call) calls

/-- The call is a peek that returns the item unless the flash fails again, or it overwrites the item. -/
def Comes (call : FlakyCall) (n : ℕ) (data : List UInt8) : Prop :=
  call.isPeek = true ∧ s.Returns c crc n data ∨ (s.exec c crc call).Overwritten c n

/-- The item is not confirmed, and it comes in every run that has enough peeks. -/
structure NotDiscarded (n : ℕ) : Prop where
  unconfirmed : ¬s.peek.Confirmed n
  again : ∀ data, Stored c crc s.mem n data → ∀ calls : List FlakyCall,
    Reach.Guarded (FlakyWorld.exec c crc) (fun s call => s.NoWrap c call ∧ s.StaysOn c crc call) s calls →
    maxPeeks ≤ quietPeeks c crc s calls →
    ∃ before call after, calls = before ++ call :: after ∧
      (before.foldl (FlakyWorld.exec c crc) s).Comes c crc call n data

end Defs

section Lemmas

variable {s : FlakyWorld} {n : ℕ} {data : List UInt8} {plan : List Fate} {readPlan : List Bool}

/-- What can be read is an item. -/
lemma Inv.holds_of_stored (h : s.Inv c crc F) (hdata : Stored c crc s.mem n data) :
    Holds c crc (dev.view s.mem) n data := by
  have hread : Dev.wp (faults True True True) (readItem dev c.toCircular crc n data.length)
      (fun r _ => ∀ data, r.1 = .ok data → Holds c crc (dev.view s.mem) n data) (fun _ _ => True)
      (fun _ => False) s.mem :=
    Dev.wp_mono (wp_readItem_mem data.length h.ring.own (h.items n)) (fun _ _ => And.right)
      (fun _ _ => id) fun _ => id
  have heval := Dev.wp_eval hread
  unfold Stored readBack at hdata
  revert hdata heval
  cases (readItem dev c.toCircular crc n data.length).eval s.mem with
  | ok r mem => exact fun hdata heval => heval data (Option.some.inj hdata)
  | err e mem => exact e.elim
  | off mem => exact fun _ heval => heval.elim

/-! ### The failed read -/

/-- **The peek whose read fails** returns the error, and uses the handle as the read says. -/
theorem Inv.exec_failedRead (h : s.Inv c crc F) {bufferLen : ℕ} {read : ItemRead}
    (hfail : s.failedRead c bufferLen plan readPlan = some (n, read)) :
    s.peekResult c crc bufferLen plan readPlan = some (.error .flash) ∧
    ∃ (s' : FlakyWorld) (F' : ℕ) (mem : Mem), s'.Inv c crc F' ∧ s'.initDone = true ∧
      s'.peek.queue.peekNext.1 = .ok n ∧
      s.exec c crc (.peekNext bufferLen plan readPlan) = s'.afterPeek read.use mem ∧
      ∃ F', (s'.afterPeek read.use mem).Inv c crc F' := by
  have hexec : ∃ F', (s.exec c crc (.peekNext bufferLen plan readPlan)).Inv c crc F' :=
    h.exec _ trivial
  have hafter : s.exec c crc (.peekNext bufferLen plan readPlan) =
      s.after c (s.peekNext c crc bufferLen) plan readPlan := rfl
  rw [hafter] at hexec ⊢
  unfold failedRead at hfail
  unfold peekResult
  unfold after FlakyWorld.peekNext at hexec ⊢
  rcases h.run_call plan readPlan (⟨.error ·, .keep⟩) (·.peekOpened c crc bufferLen) with
    ⟨hopens, -⟩ | ⟨s', F', d, hopens, hmem, h', ho, hrun⟩
  · rw [hopens] at hfail
    cases hfail
  · rw [hopens] at hfail
    simp only at hfail
    rw [hrun] at hexec ⊢
    split at hfail
    next u d₁ m hclean hm =>
      obtain ⟨read', hread, heq⟩ := Option.map_eq_some_iff.mp hfail
      obtain ⟨rfl, rfl⟩ := Prod.mk.inj heq
      rcases h'.run_peekOpened ho.initDone (hmem.trans ho.mem.symm) bufferLen with
        ⟨hoff, -⟩ | ⟨-, p, d', hrun', -, -, -, hlink⟩
      · rw [hclean] at hoff
        cases hoff
      · obtain ⟨r, hr, rfl⟩ := hlink u d₁ m hclean hm
        obtain ⟨d₂, hd₂⟩ := run_failedRead crc hread
        rw [hd₂] at hr
        cases hr
        rw [hrun'] at hexec ⊢
        exact ⟨rfl, s', F', d'.mem, h', ho.initDone, hm, rfl, hexec⟩
    next => cases hfail

/-- After the header the item waits, and after the data it is confirmed. -/
lemma Inv.waits_failedRead (h : s.Inv c crc F) (hn : s.peek.queue.peekNext.1 = .ok n) :
    (¬(HandleUse.drop.exec (s.peek.exec .peekNext)).Confirmed n ∧
      Peek.Waits (HandleUse.drop.exec (s.peek.exec .peekNext)) n) ∧
    (HandleUse.confirm.exec (s.peek.exec .peekNext)).Confirmed n := by
  obtain ⟨hlower, -, hnot⟩ := Peek.issued_bounds h.peek (by decide) hn
  obtain ⟨-, -, hconfirm, -, hdrop, -⟩ := use_exec_issued hn
  have hlow : (HandleUse.drop.exec (s.peek.exec .peekNext)).lower = s.peek.lower := by
    rw [Peek.World.exec_peekNext_ok hn]
    simp [HandleUse.exec, Peek.World.exec, Peek.World.settle]
  refine ⟨⟨?_, ?_, hlow.le.trans hlower⟩, ?_⟩
  · unfold Peek.World.Confirmed
    rw [hdrop]
    simpa [Peek.World.Confirmed, world] using hnot
  · rw [hdrop, Peek.lastEvent_cons]
    exact if_pos rfl
  · unfold Peek.World.Confirmed
    rw [hconfirm]
    exact List.mem_cons_self

/-! ### The calls after it -/

/-- A clean-up on a flash that works -/
lemma Inv.cleanup_works (h : s.Inv c crc F) (hs : s.initDone = true) :
    ∃ d, (cleanup dev c.toCircular (s.peekLower - s.lower) s.lower).run ⟨s.mem, [], []⟩ = .ok () d ∧
      d.Within (faults False False False) := by
  obtain ⟨hmono, hle⟩ := h.peekLower_bounds hs
  have hwp : Dev.wp (faults False False False)
      (cleanup dev c.toCircular (s.peekLower - s.lower) s.lower) (fun _ _ => True) (fun _ _ => False)
      (fun _ => False) s.mem :=
    wp_cleanup _ _ h.ring (Nat.add_sub_cancel' hmono) hle le_rfl (Cleaned.refl _)
      (fun j h1 h2 => absurd h2 (by omega)) (fun _ _ _ _ => trivial) (fun hc => (by simp at hc))
      fun hc => hc.elim
  have hrun := hwp ⟨s.mem, [], []⟩ rfl ⟨fun _ hx => absurd hx List.not_mem_nil, fun _ => rfl⟩
  revert hrun
  cases (cleanup dev c.toCircular (s.peekLower - s.lower) s.lower).run ⟨s.mem, [], []⟩ with
  | ok u d => exact fun hrun => ⟨d, rfl, hrun.1⟩
  | err e d => exact fun hrun => hrun.2.elim
  | off d => exact False.elim

/-- What the queue issues is returned by a flash that works. -/
lemma Inv.returns (h : s.Inv c crc F) (hs : s.initDone = true) (hn : s.peek.queue.peekNext.1 = .ok n)
    (hdata : Holds c crc (dev.view s.mem) n data) : s.Returns c crc n data := by
  intro bufferLen hlen
  obtain ⟨d, hclean, hworks⟩ := h.cleanup_works hs
  obtain ⟨hring, hcleaned⟩ := h.cleanup_peek hs (d := ⟨s.mem, [], []⟩) rfl
  rw [hclean] at hring hcleaned
  have hbound : s.peekLower ≤ n := (Peek.issued_bounds h.peek (by decide) hn).2.1
  have hdata' : Holds c crc (dev.view d.mem) n data :=
    ⟨(hcleaned.of_not_mem (Or.inr hbound)).trans hdata.1, hdata.2⟩
  have hread : Dev.wp (faults False False False) (readItem dev c.toCircular crc n bufferLen)
      (fun r _ => r.1 = .ok data) (fun _ _ => False) (fun _ => False) d.mem := by
    refine wp_readItem hring.own (fun _ => ⟨data, hdata'⟩) (fun data₁ h₁ _ => ?_)
      (fun data₁ h₁ hlong => ?_) (fun hst => absurd hdata'.status hst) False.elim False.elim
    · rw [hdata'.inj h₁]
    · rw [← hdata'.inj h₁] at hlong
      exact absurd hlen (Nat.not_le.mpr hlong)
  rcases h.run_peekOpened hs (d := ⟨s.mem, [], []⟩) rfl bufferLen with
    ⟨hoff, -⟩ | ⟨-, p, d', hrun, -, -, -, hlink⟩
  · rw [hclean] at hoff
    cases hoff
  · obtain ⟨r, hr, rfl⟩ := hlink () d n hclean hn
    have hres := hread d rfl hworks
    rw [hr] at hres
    unfold peekResult FlakyWorld.peekNext
    rw [run_call_of_initDone hs, hrun]
    simp only [hres.2, Except.map]

/-- The open store keeps the item for a retry, and the flash holds it. -/
structure Keeps (s : FlakyWorld) (c : RingBuffer dev) (crc : List UInt8 → UInt32) (n : ℕ)
    (data : List UInt8) (F : ℕ) : Prop extends s.Inv c crc F where
  initDone : s.initDone = true
  waits : Peek.Waits s.peek n
  holds : Holds c crc (dev.view s.mem) n data

/-- The item waits for no more than before. -/
def KeepsFrom (c : RingBuffer dev) (crc : List UInt8 → UInt32) (n : ℕ) (data : List UInt8)
    (s s' : FlakyWorld) : Prop :=
  ∃ F, s'.Keeps c crc n data F ∧ s'.peek.distance n ≤ s.peek.distance n

variable {call : FlakyCall} {s' : FlakyWorld}

lemma Keeps.opened (h : s.Keeps c crc n data F) {F' : ℕ} (ho : Opens c s s' F') : s' = s := by
  rcases ho.range with heq | ⟨hs, -⟩
  · exact heq
  · rw [h.initDone] at hs
    cases hs

/-- **An enqueue** overwrites the item or keeps it. -/
lemma Keeps.enqueued (h : s.Keeps c crc n data F) {item : List UInt8} {F' : ℕ} (h' : s'.Inv c crc F')
    (he : Enqueues c crc item s s' F F') : s'.Overwritten c n ∨ KeepsFrom c crc n data s s' := by
  have hlt : n < F := h.ring.lt_of_valid h.holds.status (by decide)
  rcases he.written.slots n hlt with heq | ⟨⟨-, hneeds⟩, hblock, hnone, -⟩
  · right
    have hholds : Holds c crc (dev.view s'.mem) n data := ⟨heq.trans h.holds.1, h.holds.2⟩
    rcases he.peek with hpeek | ⟨hpeek, hslot⟩
    · exact ⟨F', ⟨h', he.initDone, hpeek ▸ h.waits, hholds⟩, by rw [hpeek]⟩
    · have hpresent : c.slot (dev.view s'.mem) n ≠ none := by
        rw [hholds.1]
        exact Option.some_ne_none _
      have hmin : (s.peek.exec .enqueue).queue.readers.readIndexMin ≤ n :=
        h.toStoreInv.enqueue_passed h.initDone he.noWrap he.written.ring (h.waits.bounds h.peek).1 hpresent
          hslot
      have hlower : (s.peek.exec .enqueue).lower ≤ n := by
        show (if _ then s.peek.lower else _) ≤ n
        split
        · exact h.waits.lower_le
        · exact hmin
      obtain ⟨hwaits, hdist⟩ := h.waits.enqueue hlower
      exact ⟨F', ⟨h', he.initDone, hpeek ▸ hwaits, hholds⟩, by rw [hpeek, hdist]⟩
  · -- a block with a valid fragment is erased only where overwriting is allowed
    left
    rcases hneeds.erasable with hallowed | hfree
    · exact ⟨hallowed, hnone⟩
    · exact absurd rfl (hfree n _ hblock h.holds.1)

/-- **A peek** would return the item, or keeps it. -/
lemma Keeps.afterPeek (h : s.Keeps c crc n data F) {d : Device Mem Fate} (hmem : d.mem = s.mem)
    {use : HandleUse} {mem : Mem} (h' : (s.afterPeek use mem).Inv c crc F)
    (hd : ((cleanup dev c.toCircular (s.peekLower - s.lower) s.lower).run d).dev.mem = mem)
    (hwaits : Peek.Waits (s.peek.exec .peekNext) n) :
    (s.afterPeek use mem).Keeps c crc n data F ∧
      (s.afterPeek use mem).peek.distance n = (s.peek.exec .peekNext).distance n := by
  have hinv := Peek.inv_peekNext h.peek (by decide)
  have hbound : s.peekLower ≤ n := by
    have := (hwaits.bounds hinv).1
    rwa [exec_peekNext_queue] at this
  obtain ⟨-, hcleaned⟩ := h.cleanup_peek h.initDone hmem
  rw [hd] at hcleaned
  have hholds : Holds c crc (dev.view mem) n data :=
    ⟨(hcleaned.of_not_mem (Or.inr hbound)).trans h.holds.1, h.holds.2⟩
  have huse : Peek.Waits (use.exec (s.peek.exec .peekNext)) n ∧
      (use.exec (s.peek.exec .peekNext)).distance n = (s.peek.exec .peekNext).distance n := by
    cases use with
    | keep => exact ⟨hwaits, rfl⟩
    | confirm => exact hwaits.settle hinv _ true
    | drop => exact hwaits.settle hinv _ false
  exact ⟨⟨h', h.initDone, huse.1, hholds⟩, huse.2⟩

/-- **One call**: the item comes, or its turn is nearer after a quiet peek and not farther after
another call. -/
theorem Keeps.exec (h : s.Keeps c crc n data F) (hcall : s.NoWrap c call) (hon : s.StaysOn c crc call) :
    s.Comes c crc call n data ∨ KeepsFrom c crc n data s (s.exec c crc call) ∧
      (call.isPeek = true → s.peek.handles = [] →
        (s.exec c crc call).peek.distance n < s.peek.distance n) := by
  have hstay : KeepsFrom c crc n data s s := ⟨F, h, le_rfl⟩
  cases call with
  | enqueue item plan readPlan =>
    refine Or.imp (Or.inr ·) (⟨·, fun hc => by cases hc⟩) ?_
    refine h.exec_enqueue (P := fun s' => s'.Overwritten c n ∨ KeepsFrom c crc n data s s') hcall
      (Or.inr hstay) (fun s₁ F₁ s' F' h₁ ho h' he => ?_) fun hoff => ?_
    · obtain rfl := h.opened ho
      exact Keeps.enqueued ⟨h₁, h.initDone, h.waits, h.holds⟩ h' he
    · exact absurd (hoff.symm.trans hon) (by decide)
  | peekNext bufferLen plan readPlan =>
    rcases h.waits.peekNext h.peek (by decide) with hissued | ⟨hwaits, hle, hlt⟩
    · exact Or.inl (Or.inl ⟨rfl, h.toInv.returns h.initDone hissued h.holds⟩)
    · right
      refine h.exec_peekNext (P := fun s' => KeepsFrom c crc n data s s' ∧ (_ → s.peek.handles = [] →
        s'.peek.distance n < s.peek.distance n)) (fun hopens => ?_)
        (fun s₁ F₁ d use mem hopens h₁ ho hd h' _ hm => ?_) fun hoff => ?_
      · rw [opens_of_initDone h.initDone] at hopens
        cases hopens
      · obtain rfl := h.opened ho
        obtain ⟨hkeeps, heq⟩ :=
          Keeps.afterPeek ⟨h₁, h.initDone, h.waits, h.holds⟩ hd h' hm hwaits
        exact ⟨⟨F₁, hkeeps, heq.le.trans hle⟩, fun _ hh => heq.trans_lt (hlt hh)⟩
      · exact absurd (hoff.symm.trans hon) (by decide)
  | isDrained readPlan =>
    refine Or.inr ⟨?_, fun hc => by cases hc⟩
    refine h.exec_isDrained (P := KeepsFrom c crc n data s) hstay fun s₁ F₁ h₁ ho h' => ?_
    obtain rfl := h.opened ho
    obtain ⟨hwaits, hdist⟩ := h.waits.isDrained
    exact ⟨F₁, ⟨h', h.initDone, hwaits, h.holds⟩, hdist.le⟩
  | confirm k =>
    obtain ⟨hwaits, hdist⟩ := h.waits.settle h.peek k true
    exact Or.inr ⟨⟨F, ⟨h.settle k true, h.initDone, hwaits, h.holds⟩, hdist.le⟩, fun hc => by cases hc⟩
  | drop k =>
    obtain ⟨hwaits, hdist⟩ := h.waits.settle h.peek k false
    exact Or.inr ⟨⟨F, ⟨h.settle k false, h.initDone, hwaits, h.holds⟩, hdist.le⟩, fun hc => by cases hc⟩
  | waitConfirmation =>
    obtain ⟨hwaits, hdist⟩ := h.waits.waitConfirmation
    exact Or.inr ⟨⟨F, ⟨h.waitConfirmation, h.initDone, hwaits, h.holds⟩, hdist.le⟩, fun hc => by cases hc⟩
  | reboot => exact hon.elim

/-- **A run** with more quiet peeks than the item has to wait for -/
theorem Keeps.comes (calls : List FlakyCall) : ∀ {s : FlakyWorld} {F : ℕ}, s.Keeps c crc n data F →
    Reach.Guarded (FlakyWorld.exec c crc) (fun s call => s.NoWrap c call ∧ s.StaysOn c crc call) s calls →
    s.peek.distance n < quietPeeks c crc s calls →
    ∃ before call after, calls = before ++ call :: after ∧
      (before.foldl (FlakyWorld.exec c crc) s).Comes c crc call n data := by
  induction calls with
  | nil => exact fun _ _ hlt => absurd hlt (Nat.not_lt_zero _)
  | cons call calls ih =>
    rintro s F h ⟨⟨hwrap, hon⟩, hcalls⟩ hlt
    rcases h.exec hwrap hon with hcomes | ⟨⟨F', hkeeps, hle⟩, hquiet⟩
    · exact ⟨[], call, calls, rfl, hcomes⟩
    · have hnear : (s.exec c crc call).peek.distance n <
          quietPeeks c crc (s.exec c crc call) calls := by
        unfold quietPeeks at hlt
        split at hlt
        next hc =>
          have := hquiet hc.1 hc.2
          omega
        next => omega
      obtain ⟨before, call', after, heq, hcomes⟩ := ih hkeeps hcalls hnear
      exact ⟨call :: before, call', after, congrArg (call :: ·) heq, hcomes⟩

end Lemmas

end FlakyWorld

/-- **A failed read discards nothing** exactly if it is the read of the header. -/
theorem notDiscarded_iff (c : RingBuffer dev) (crc : List UInt8 → UInt32) {mem : Mem}
    (hv : ∀ q, dev.view mem (c.chunkBlock q) = none) {s : FlakyWorld}
    (h : Reach (FlakyWorld.exec c crc) (FlakyWorld.NoWrap c) (FlakyWorld.start c mem) s)
    {bufferLen n : ℕ} {plan : List Fate} {readPlan : List Bool} {read : ItemRead}
    (hfail : s.failedRead c bufferLen plan readPlan = some (n, read)) :
    FlakyWorld.NotDiscarded c crc (s.exec c crc (.peekNext bufferLen plan readPlan)) n ↔
      read = .header := by
  obtain ⟨F, hinv⟩ := FlakyWorld.inv_of_reach hv h
  obtain ⟨-, s', F', mem', h', hs, hn, heq, F₁, h₁⟩ := hinv.exec_failedRead hfail
  obtain ⟨⟨hnot, hwaits⟩, hconf⟩ := h'.waits_failedRead hn
  rw [heq]
  cases read with
  | data => exact ⟨fun hd => absurd hconf hd.unconfirmed, fun hc => by cases hc⟩
  | header =>
    refine ⟨fun _ => rfl, fun _ => ⟨hnot, fun data hdata calls hcalls hpeeks => ?_⟩⟩
    have hholds := h₁.holds_of_stored hdata
    refine FlakyWorld.Keeps.comes calls (F := F₁) ⟨h₁, hs, hwaits, hholds⟩ hcalls ?_
    exact (Peek.World.distance_lt _ n).trans_le hpeeks

/-- The read of the header of the only item fails. -/
theorem notDiscarded_header :
    Reach (FlakyWorld.exec (streamRing false) crc32Cksum) (FlakyWorld.NoWrap (streamRing false))
      (.start (streamRing false) fun _ => erased) (flakyRun [.enqueue [7] [] []]) ∧
    (flakyRun [.enqueue [7] [] []]).failedRead (streamRing false) 2 [] [true] = some (0, .header) ∧
    FlakyWorld.NotDiscarded (streamRing false) crc32Cksum
      (flakyRun [.enqueue [7] [] [], .peekNext 2 [] [true]]) 0 := by
  have hreach : Reach (FlakyWorld.exec (streamRing false) crc32Cksum)
      (FlakyWorld.NoWrap (streamRing false)) (.start (streamRing false) fun _ => erased)
      (flakyRun [.enqueue [7] [] []]) := Reach.run _ Reach.start (by decide +kernel)
  have hfail : (flakyRun [.enqueue [7] [] []]).failedRead (streamRing false) 2 [] [true] =
      some (0, .header) := by decide +kernel
  exact ⟨hreach, hfail,
    (notDiscarded_iff _ _ (fun q => congrFun (BlockDevice.view_erased _) _) hreach hfail).mpr rfl⟩

/-- The read of its data fails: the item is stored, it is never returned, and the next peek deletes it. -/
theorem transient_discards :
    let enqueued := flakyRun [.enqueue [7] [] []]
    let failed := flakyRun [.enqueue [7] [] [], .peekNext 2 [] [false, false, false, true]]
    Reach (FlakyWorld.exec (streamRing false) crc32Cksum) (FlakyWorld.NoWrap (streamRing false))
      (.start (streamRing false) fun _ => erased) enqueued ∧
    enqueued.failedRead (streamRing false) 2 [] [false, false, false, true] = some (0, .data) ∧
    enqueued.peekResult (streamRing false) crc32Cksum 2 [] [false, false, false, true] =
      some (.error .flash) ∧
    Stored (streamRing false) crc32Cksum failed.mem 0 [7] ∧
    failed.peekResult (streamRing false) crc32Cksum 2 [] [] = some (.ok none) ∧
    ¬Stored (streamRing false) crc32Cksum
      (failed.exec (streamRing false) crc32Cksum (.peekNext 2 [] [])).mem 0 [7] ∧
    ¬FlakyWorld.NotDiscarded (streamRing false) crc32Cksum failed 0 := by
  refine ⟨Reach.run _ Reach.start (by decide +kernel), by decide +kernel, by decide +kernel,
    by decide +kernel, by decide +kernel, by decide +kernel, fun h => ?_⟩
  exact absurd h.unconfirmed (by decide +kernel)

end SensorLink.Stream
