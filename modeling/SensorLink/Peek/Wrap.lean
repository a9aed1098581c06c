import SensorLink.Peek.Retry

/-!
# The search at the wrap

For each empty slot `find_reader` adds the slot to the lower bound, rounded down to a multiple of
`MAX_PEEKS`. Where `MAX_PEEKS` does not divide `2 ^ 32` the last multiple is less than `MAX_PEEKS` below
the wrap, and whatever number a queue starts with, reading up to the wrap makes the sum overflow
(`slotSum_overflows`).
-/

set_option linter.unusedSectionVars false

namespace SensorLink.Peek

open SensorLink.Lib PeekQueue

variable {M : ℕ} [NeZero M] {n : ℕ}

/-! ### The sums of the search -/

/-- `read_index_min - (read_index_min % MAX_PEEKS) + slot_id`, before it wraps -/
def PeekQueue.slotSum (q : PeekQueue M) : ℕ := q.readIndexMin - q.readIndexMin % M + q.slotIndex.val

/-- The queues of the iterations that find an empty slot -/
def PeekQueue.emptyVisits (writeIndex : ℕ) : ℕ → PeekQueue M → List (PeekQueue M)
  | 0, _ => []
  | k + 1, q =>
    let rest := match q.findStep writeIndex with
      | (some _, _) => []
      | (none, q') => emptyVisits writeIndex k q'
    if q.readerSlots q.slotIndex = .none then q :: rest else rest

/-- Those of the next `peek_next` -/
def Queue.emptyVisits (q : Queue M) : List (PeekQueue M) :=
  if q.unconfirmedCount = 0 then []
  else PeekQueue.emptyVisits q.writeIndex (2 * M) q.updateReaderSlots.readers

/-- A queue that starts with the sequence number `n` -/
def startAt (M : ℕ) [NeZero M] (capacity granularity n : ℕ) : World M :=
  .start ((Queue.withOverwriteSupport M capacity granularity).reinitWithExistingRange (n, n))

/-- The operations other than a restart -/
def Op.InRun : Op → Prop
  | .reinit _ => False
  | _ => True

/-! ### Reading up to the wrap -/

/-- Everything before `n` was read and confirmed, and no handle was ever dropped. -/
structure Idle (w : World M) (n : ℕ) : Prop where
  inv : Inv w
  write : w.queue.writeIndex = n
  min : w.queue.readers.readIndexMin = n
  handles : w.handles = []
  channel : w.queue.confirmChannel = []
  kept : ∀ m, .dropped m ∉ w.trace

section Round

variable {w : World M}

lemma Idle.next (h : Idle w n) : w.queue.readers.readIndexNext = n := by
  have hmin := h.inv.win.min_le
  have hnext := h.inv.win.next_le
  rw [h.min] at hmin
  rw [h.write] at hnext
  exact le_antisymm hnext hmin

/-- Once the channel is processed, a slot is busy for a handle or keeps what was dropped. -/
lemma slots_drained (h : Inv w) (hh : w.handles = []) (hkept : ∀ m, .dropped m ∉ w.trace) (i : Fin M) :
    w.queue.updateReaderSlots.readers.readerSlots i = .none := by
  have hd := inv_drained h
  cases hi : w.queue.updateReaderSlots.readers.readerSlots i with
  | none => rfl
  | busy m =>
    have hm := hd.acc.mem_iff.mpr (hd.acc.slot_eq_of_busy hi ▸ hi)
    simp [World.pending, World.drained, Queue.updateReaderSlots, hh] at hm
  | abort m => exact absurd (lastEvent_mem (hd.aborted i m hi)).1 (hkept m)

lemma clean_drained (h : Inv w) (hh : w.handles = []) (hkept : ∀ m, .dropped m ∉ w.trace) :
    Clean w.queue.updateReaderSlots.readers := by
  intro i m hm
  rw [slots_drained h hh hkept] at hm
  cases hm

lemma Idle.updateReaderSlots (h : Idle w n) : w.queue.updateReaderSlots.readers = w.queue.readers := by
  simp only [Queue.updateReaderSlots, h.channel, List.foldl_nil]

lemma Idle.slots (h : Idle w n) (i : Fin M) : w.queue.readers.readerSlots i = .none := by
  have hi := slots_drained h.inv h.handles h.kept i
  rwa [h.updateReaderSlots] at hi

lemma idle_startAt {capacity granularity : ℕ} (hg : 0 < granularity) (hle : granularity ≤ capacity)
    (hn : n < 2 ^ 32) : Idle (startAt M capacity granularity n) n := by
  have hinv : Inv (startAt M capacity granularity n) :=
    inv_reinit (inv_start capacity granularity hg hle) ⟨rfl, rfl⟩ le_rfl hn
  refine ⟨hinv, rfl, rfl, rfl, rfl, fun m hm => ?_⟩
  cases hm

/-- An item is enqueued. -/
lemma Idle.enqueue (h : Idle w n) (hn : n + 1 < 2 ^ 32) :
    w.exec .enqueue = { w with queue := { w.queue with writeIndex := n + 1 } } := by
  have hcount : ({ w.queue with writeIndex := w.queue.writeIndex + 1 } : Queue M).unconfirmedCount =
      1 := by
    unfold Queue.unconfirmedCount minIndex
    simp only [h.write, h.min]
    rw [wrappingSub_eq (Nat.le_succ n) hn]
    omega
  have hfull : w.queue.unconfirmedCount = 0 := by
    unfold Queue.unconfirmedCount minIndex
    rw [h.write, h.min, wrappingSub_eq le_rfl (by omega), Nat.sub_self]
  have hcap := h.inv.gran_pos.trans_le h.inv.gran_le
  have hw : w.queue.writeIndex + 1 < 2 ^ 32 := by rw [h.write]; exact hn
  rcases enqueue_cases w.queue hw with ⟨hc, -⟩ | ⟨-, he⟩ | ⟨hc, -⟩
  · omega
  · simp only [World.exec, he, if_true, h.write]
  · rw [hcount] at hc
    omega

lemma peekNext_channel {q : Queue M} (hcount : q.unconfirmedCount ≠ 0) :
    q.peekNext.2.confirmChannel = [] := by
  rw [peekNext_eq hcount]
  rfl

lemma unconfirmedCount_ne_zero (h : Inv w)
    (hlt : w.queue.readers.readIndexMin < w.queue.writeIndex) : w.queue.unconfirmedCount ≠ 0 := by
  unfold Queue.unconfirmedCount minIndex
  rw [wrappingSub_eq hlt.le h.win.w_lt]
  omega

lemma issued_lt (h : Inv w) (hM : M < 2 ^ 31) (hn : w.queue.peekNext.1 = .ok n) :
    n < w.queue.writeIndex := by
  have h' := inv_peekNext h hM
  rw [World.exec_peekNext_ok hn] at h'
  have hnext := h'.win.next_le
  rw [(peekNext_mono h hM).2] at hnext
  by_contra hge
  have hlast := h'.fresh n (hnext.trans (Nat.not_lt.mp hge))
  rw [lastEvent_cons, if_pos (show (Event.issued n).id = n from rfl)] at hlast
  cases hlast

/-- What was enqueued is issued. -/
lemma Idle.issues (h : Idle w n) (hM : M < 2 ^ 31) (hn : n + 1 < 2 ^ 32) :
    (w.exec .enqueue).queue.peekNext.1 = .ok n := by
  have hinv : Inv (w.exec .enqueue) := inv_enqueue h.inv (by rw [h.write]; exact hn)
  rw [h.enqueue hn] at hinv ⊢
  set w₁ : World M := { w with queue := { w.queue with writeIndex := n + 1 } } with hw₁
  have hcount : w₁.queue.unconfirmedCount ≠ 0 :=
    unconfirmedCount_ne_zero hinv (by rw [hw₁, h.min]; exact Nat.lt_succ_self n)
  have hmono : n ≤ w₁.queue.peekNext.2.readers.readIndexMin :=
    h.min.symm.le.trans (peekNext_mono hinv hM).1
  have hinv' := inv_peekNext hinv hM
  rcases peekNext_result hinv hM (clean_drained hinv h.handles h.kept) hcount with
    ⟨-, hne⟩ | ⟨hp, hmin⟩ | ⟨m, hp⟩
  · exact absurd h.handles hne
  · -- then `n` would be confirmed, which was never issued
    rw [World.exec_peekNext_error hp] at hinv'
    have hlower : w.lower ≤ n := h.inv.win.lo_le.trans h.min.le
    have hc : w.Confirmed n := hinv'.win.past n hlower (by rw [hmin]; exact Nat.lt_succ_self n)
    have hlast := h.inv.stays n hc
    rw [h.inv.fresh n h.next.le] at hlast
    cases hlast
  · have hle := (issued_bounds hinv hM hp).2.1
    have hlt : m < n + 1 := issued_lt hinv hM hp
    rw [hp, show m = n by omega]

/-- Where everything is confirmed, a peek moves the lower bound to the write index. -/
lemma peekNext_confirmed (h : Inv w) (hM : M < 2 ^ 31) (hh : w.handles = [])
    (hkept : ∀ m, .dropped m ∉ w.trace) (hlt : w.queue.readers.readIndexMin < w.queue.writeIndex)
    (hconf : ∀ m, w.lower ≤ m → m < w.queue.writeIndex → w.Confirmed m) :
    Idle (w.exec .peekNext) w.queue.writeIndex := by
  have hcount := unconfirmedCount_ne_zero h hlt
  have h' := inv_peekNext h hM
  rcases peekNext_result h hM (clean_drained h hh hkept) hcount with ⟨-, hne⟩ | ⟨hp, hmin⟩ | ⟨m, hp⟩
  · exact absurd hh hne
  · rw [World.exec_peekNext_error hp] at h' ⊢
    exact ⟨h', (peekNext_mono h hM).2, hmin, hh, peekNext_channel hcount, hkept⟩
  · obtain ⟨hlower, -, hnot⟩ := issued_bounds h hM hp
    exact absurd (hconf m hlower (issued_lt h hM hp)) hnot

/-- The item is enqueued and read. -/
lemma Idle.reads (h : Idle w n) (hM : M < 2 ^ 31) (hn : n + 1 < 2 ^ 32) :
    ∃ w', (w.exec .enqueue).exec .peekNext = w' ∧ Inv w' ∧ w'.queue.writeIndex = n + 1 ∧
      w'.queue.readers.readIndexMin ≤ n ∧ w'.handles = [n] ∧ w'.lower = w.lower ∧
      w'.trace = .issued n :: w.trace := by
  have hinv : Inv (w.exec .enqueue) := inv_enqueue h.inv (by rw [h.write]; exact hn)
  have hissued := h.issues hM hn
  have hle := (issued_bounds hinv hM hissued).2.1
  have hwrite := (peekNext_mono hinv hM).2
  refine ⟨_, rfl, inv_peekNext hinv hM, ?_⟩
  rw [World.exec_peekNext_ok hissued]
  refine ⟨hwrite.trans ?_, hle, ?_, ?_, ?_⟩
  · rw [h.enqueue hn]
  · rw [h.enqueue hn, h.handles]
    rfl
  · rw [h.enqueue hn]
  · rw [h.enqueue hn]

/-- The only handle is confirmed. -/
lemma confirm_only (h : w.handles = [n]) : w.exec (.confirm 0) = { w with
    queue := w.queue.settle n true, handles := [], trace := .confirmed n :: w.trace } := by
  simp [World.exec, World.settle, h]

/-- An item that is enqueued, read and confirmed, and a peek that finds nothing more -/
def readOne : List Op := [.enqueue, .peekNext, .confirm 0, .peekNext]

/-- **One item** further -/
lemma Idle.readOne (h : Idle w n) (hM : M < 2 ^ 31) (hn : n + 1 < 2 ^ 32) :
    Idle (readOne.foldl World.exec w) (n + 1) := by
  obtain ⟨w', heq, hinv, hwrite, hmin, hhandles, hlower, htrace⟩ := h.reads hM hn
  simp only [Peek.readOne, List.foldl_cons, List.foldl_nil, heq, confirm_only hhandles]
  have h' : Inv (w'.exec (.confirm 0)) := inv_settle hinv 0 true
  rw [confirm_only hhandles] at h'
  have hend := peekNext_confirmed h' hM rfl (fun m hm => ?_) ?_ fun m hlow hlt => ?_
  · exact hwrite ▸ hend
  · rw [htrace] at hm
    simp only [List.mem_cons, reduceCtorEq, false_or] at hm
    exact h.kept m hm
  · exact hmin.trans_lt (hwrite ▸ Nat.lt_succ_self n)
  · have hlt' : m < n + 1 := hwrite ▸ hlt
    have hlow' : w.lower ≤ m := hlower ▸ hlow
    simp only [World.Confirmed, htrace, List.mem_cons, reduceCtorEq, false_or]
    rcases Nat.lt_succ_iff_lt_or_eq.mp hlt' with hlt | rfl
    · exact Or.inr (h.inv.win.past m hlow' (by rw [h.min]; exact hlt))
    · exact Or.inl rfl

/-- Items are read one by one. -/
lemma exists_idle {capacity granularity : ℕ} (hM : M < 2 ^ 31) (hg : 0 < granularity)
    (hle : granularity ≤ capacity) (k : ℕ) : n + k < 2 ^ 32 →
    ∃ w, Reach World.exec (fun _ op => op.InRun) (startAt M capacity granularity n) w ∧
      Idle w (n + k) := by
  induction k with
  | zero => exact fun hn => ⟨_, .start, idle_startAt hg hle hn⟩
  | succ k ih =>
    intro hlt
    obtain ⟨w, hreach, hidle⟩ := ih (by omega)
    exact ⟨_, hreach.run readOne ⟨trivial, trivial, trivial, trivial, trivial⟩, hidle.readOne hM hlt⟩

end Round

/-! ### The last number before the wrap -/

section Last

/-- `u32::MAX` -/
def lastNo : ℕ := 2 ^ 32 - 1

lemma mod_lastNo (hM : ¬M ∣ 2 ^ 32) : lastNo % M + 1 < M := by
  have hpos := Nat.pos_of_neZero M
  have hlt := Nat.mod_lt lastNo hpos
  by_contra hge
  apply hM
  have hdiv := Nat.div_add_mod lastNo M
  refine ⟨lastNo / M + 1, ?_⟩
  rw [Nat.mul_add_one]
  have : lastNo + 1 = 2 ^ 32 := rfl
  omega

/-- The search passes the empty slots up to the one of the number, and leaves the slot after it. -/
lemma search_lastNo (hdiv : ¬M ∣ 2 ^ 32) (k : ℕ) : ∀ q : PeekQueue M,
    (∀ i, q.readerSlots i = .none) → q.readIndexMin = lastNo → q.readIndexNext = lastNo →
    ahead q.slotIndex (slotOf M lastNo) < k →
    ∃ q', findLoop 0 k q = (.ok lastNo, q') ∧ q'.readIndexMin = lastNo ∧
      q'.readerSlots q'.slotIndex = .none ∧ q'.slotIndex.val = lastNo % M + 1 := by
  induction k with
  | zero => exact fun q _ _ _ hlt => absurd hlt (Nat.not_lt_zero _)
  | succ k ih =>
    intro q hslots hmin hnext hlt
    have hpass : q.passEmptySlot = q.incSlotIndex := by
      unfold passEmptySlot
      refine if_neg fun hc => hc.2 (hc.1.trans (hmin.trans hnext.symm))
    have hlast : lastNo ≠ 0 := by decide
    by_cases hs : q.slotIndex = slotOf M lastNo
    · have hval : q.incSlotIndex.slotIndex.val = lastNo % M + 1 := by
        rw [incSlotIndex_val, hs]
        exact Nat.mod_eq_of_lt (mod_lastNo hdiv)
      let q' : PeekQueue M := { q.incSlotIndex.setSlot q.slotIndex (.busy lastNo) with
        readIndexNext := wrappingAdd lastNo 1 }
      have hstep : q.findStep 0 = (some (.ok lastNo), q') := by
        simp only [findStep, hslots, hpass, hnext, if_neg hlast, if_pos hs, q']
      refine ⟨q', by simp only [findLoop, hstep], hmin, ?_, hval⟩
      have hne : q.incSlotIndex.slotIndex ≠ q.slotIndex := by
        intro hc
        rw [hc, hs] at hval
        exact absurd hval (Nat.ne_of_lt (Nat.lt_succ_self _))
      show Function.update q.readerSlots q.slotIndex _ q.incSlotIndex.slotIndex = _
      rw [Function.update_of_ne hne]
      exact hslots _
    · have hstep : q.findStep 0 = (none, q.incSlotIndex) := by
        simp only [findStep, hslots, hpass, hnext, if_neg hlast, if_neg hs]
      have hahead := ahead_inc hs
      obtain ⟨q', hq'⟩ := ih q.incSlotIndex hslots hmin hnext (by omega)
      exact ⟨q', by simp only [findLoop, hstep, hq'.1], hq'.2⟩

variable {w : World M}

/-- An item more makes the write index wrap. -/
lemma Idle.enqueue_wraps (h : Idle w lastNo) :
    w.exec .enqueue = { w with queue := { w.queue with writeIndex := 0 } } := by
  have hzero : w.queue.unconfirmedCount = 0 := by
    unfold Queue.unconfirmedCount minIndex
    rw [h.write, h.min]
    rfl
  have hone : ({ w.queue with writeIndex := 0 } : Queue M).unconfirmedCount = 1 := by
    unfold Queue.unconfirmedCount minIndex
    simp only [h.min]
    rfl
  have hadd : wrappingAdd w.queue.writeIndex 1 = 0 := by
    rw [h.write]
    rfl
  have hcap := h.inv.gran_pos.trans_le h.inv.gran_le
  have he : w.queue.enqueue = (.ok w.queue.writeIndex, { w.queue with writeIndex := 0 }) := by
    unfold Queue.enqueue
    simp only [hadd, hzero, hone]
    rw [if_neg (by decide), if_neg (by omega)]
  simp only [World.exec, he, if_true]

/-- **The sum at the wrap**: after the last number the search looks at the slot after its own. -/
lemma Idle.overflows (h : Idle w lastNo) (hdiv : ¬M ∣ 2 ^ 32) :
    ∃ q ∈ ((w.exec .enqueue).exec .peekNext).queue.emptyVisits, 2 ^ 32 ≤ q.slotSum := by
  have hone : ∀ q : Queue M, q.writeIndex = 0 → q.readers.readIndexMin = lastNo →
      q.unconfirmedCount ≠ 0 := by
    intro q hwrite hmin
    unfold Queue.unconfirmedCount minIndex
    rw [hwrite, hmin]
    decide
  rw [h.enqueue_wraps]
  set w₁ : World M := { w with queue := { w.queue with writeIndex := 0 } } with hw₁
  have hupdate : w₁.queue.updateReaderSlots.readers = w.queue.readers := h.updateReaderSlots
  have hcount := hone w₁.queue rfl h.min
  have hlt := ahead_lt w.queue.readers.slotIndex (slotOf M lastNo)
  obtain ⟨q, hfind, hmin, hslot, hindex⟩ :=
    search_lastNo hdiv (2 * M) w.queue.readers h.slots h.min h.next (by omega)
  have hpeek : w₁.queue.peekNext = (.ok lastNo, { w₁.queue.updateReaderSlots with readers := q }) := by
    rw [peekNext_eq hcount, hupdate]
    show ((findLoop 0 (2 * M) w.queue.readers).1, { w₁.queue.updateReaderSlots with
      readers := (findLoop 0 (2 * M) w.queue.readers).2 }) = _
    rw [hfind]
  rw [World.exec_peekNext_ok (by rw [hpeek]), hpeek]
  refine ⟨q, ?_, ?_⟩
  · unfold Queue.emptyVisits
    rw [if_neg (hone _ rfl hmin)]
    obtain ⟨k, hk⟩ := Nat.exists_eq_succ_of_ne_zero (show 2 * M ≠ 0 by omega)
    rw [hk]
    show q ∈ PeekQueue.emptyVisits 0 (k + 1) q
    simp only [PeekQueue.emptyVisits, hslot, if_true, List.mem_cons, true_or]
  · unfold PeekQueue.slotSum
    have hle := Nat.mod_le lastNo M
    have : lastNo + 1 = 2 ^ 32 := rfl
    rw [hmin, hindex]
    omega

end Last

/-- **Some sum overflows** where the number of slots does not divide the numbers, whatever number the
queue starts with. -/
theorem slotSum_overflows {capacity granularity : ℕ} (hM : M < 2 ^ 31) (hdiv : ¬M ∣ 2 ^ 32)
    (hg : 0 < granularity) (hle : granularity ≤ capacity) (hn : n < 2 ^ 32) :
    ∃ w, Reach World.exec (fun _ op => op.InRun) (startAt M capacity granularity n) w ∧
      ∃ q ∈ w.queue.emptyVisits, 2 ^ 32 ≤ q.slotSum := by
  have hlast : n + (lastNo - n) = lastNo := Nat.add_sub_cancel' (Nat.le_pred_of_lt hn)
  obtain ⟨w, hreach, hidle⟩ := exists_idle hM hg hle (lastNo - n) (n := n) (by rw [hlast]; decide)
  rw [hlast] at hidle
  refine ⟨(w.exec .enqueue).exec .peekNext, ?_, hidle.overflows hdiv⟩
  exact hreach.run [Op.enqueue, Op.peekNext] ⟨trivial, trivial, trivial⟩

end SensorLink.Peek
