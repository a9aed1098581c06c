import SensorLink.Stream.Flaky

/-!
# A clean-up that fails

`peek_next` moves the lower bound of the queue first and then deletes what is below it. When a delete
fails, the fragments after it stay valid below the bound, where no later peek deletes them: a restart
finds them again (`cleanup_forgets`). Where the delete that fails is the last one that was to be done,
nothing is forgotten (`cleanedUp_of_reach`).
-/

namespace SensorLink.Stream

open SensorLink.Lib SensorLink.Flash SensorLink.Db RingBuffer

variable {dev : BlockDevice} {c : RingBuffer dev} {crc : List UInt8 → UInt32} {F : ℕ}

/-! ### Where a clean-up stops -/

/-- The clean-up from `lo` on the device `d` deletes the fragments before `n`, and the delete of `n` ends
with `o`. -/
def DeletesTo (c : RingBuffer dev) (lo n : ℕ) (d : Device Mem Fate)
    (o : Outcome (Device Mem Fate) Error Unit) : Prop :=
  ∃ d₁, (cleanup dev c.toCircular (n - lo) lo).run d = .ok () d₁ ∧
    (deleteCircularFragment dev c.toCircular n).run d₁ = o

/-- A clean-up ends, or it stops at the first fragment that it cannot delete, as that delete does. -/
lemma cleanup_stops (k : ℕ) : ∀ (lo : ℕ) (d : Device Mem Fate), lo + k < 2 ^ 32 →
    (∃ d', (cleanup dev c.toCircular k lo).run d = .ok () d') ∨
    (∀ d', (cleanup dev c.toCircular k lo).run d ≠ .err .fragmentNotFound d') ∧
      ∃ n, lo ≤ n ∧ n < lo + k ∧ DeletesTo c lo n d ((cleanup dev c.toCircular k lo).run d) := by
  induction k with
  | zero => exact fun lo d _ => Or.inl ⟨d, rfl⟩
  | succ k ih =>
    intro lo d hlt
    have hnext : wrappingAdd lo 1 = lo + 1 := wrappingAdd_eq (by omega)
    by_cases hcont : ∃ d₁, ∀ j, (cleanup dev c.toCircular (j + 1) lo).run d =
        (cleanup dev c.toCircular j (lo + 1)).run d₁
    · obtain ⟨d₁, hstep⟩ := hcont
      rw [hstep k]
      rcases ih (lo + 1) d₁ (by omega) with hend | ⟨hne, n, hlo, hn, d₂, hd₂, hdel⟩
      · exact Or.inl hend
      · refine Or.inr ⟨hne, n, by omega, by omega, d₂, ?_, hdel⟩
        rw [show n - lo = n - (lo + 1) + 1 by omega, hstep]
        exact hd₂
    · -- the first delete stops the loop
      have hstop : DeletesTo c lo lo d ((deleteCircularFragment dev c.toCircular lo).run d) := by
        refine ⟨d, ?_, rfl⟩
        rw [Nat.sub_self]
        rfl
      right
      cases hdel : (deleteCircularFragment dev c.toCircular lo).run d with
      | ok u d₁ =>
        refine absurd ⟨d₁, fun j => ?_⟩ hcont
        rw [← hnext]
        simp only [cleanup, Bind.bind, Dev.attempt, hdel, Dev.andThen]
      | off d₁ =>
        have hrun : (cleanup dev c.toCircular (k + 1) lo).run d = .off d₁ := by
          simp only [cleanup, Bind.bind, Dev.attempt, hdel, Dev.andThen]
        rw [hrun]
        exact ⟨fun _ hc => (by cases hc), lo, le_rfl, by omega, hdel ▸ hstop⟩
      | err e d₁ =>
        by_cases he : e = .fragmentNotFound
        · subst he
          refine absurd ⟨d₁, fun j => ?_⟩ hcont
          rw [← hnext]
          simp only [cleanup, Bind.bind, Dev.attempt, hdel, Dev.andThen]
        · have hrun : (cleanup dev c.toCircular (k + 1) lo).run d = .err e d₁ := by
            simp only [cleanup, Bind.bind, Dev.attempt, hdel, Dev.andThen]
            cases e with
            | fragmentNotFound => exact absurd rfl he
            | _ => rfl
          rw [hrun]
          exact ⟨fun _ hc => he (by cases hc; rfl), lo, le_rfl, by omega, hdel ▸ hstop⟩

/-- The flash that the clean-up from `lo` on the device `d` leaves if it fails at `n`. -/
def failsAt (c : RingBuffer dev) (lo n : ℕ) (d : Device Mem Fate) : Option Mem :=
  match (cleanup dev c.toCircular (n - lo) lo).run d with
  | .ok _ d =>
    match (deleteCircularFragment dev c.toCircular n).run d with
    | .err .fragmentNotFound _ => none
    | .err _ d => some d.mem
    | _ => none
  | _ => none

lemma DeletesTo.failsAt {lo n : ℕ} {d d' : Device Mem Fate} {e : Error}
    (h : DeletesTo c lo n d (.err e d')) (he : e ≠ .fragmentNotFound) :
    failsAt c lo n d = some d'.mem := by
  obtain ⟨d₁, hclean, hdel⟩ := h
  simp only [Stream.failsAt, hclean, hdel]

/-! ### What it leaves -/

/-- From `V` to `V'` the fragments from `lo` up to `n` were deleted, and after `n` nothing has changed. -/
structure SweptTo (c : RingBuffer dev) (lo n : ℕ) (V V' : ℕ → Option Block) : Prop where
  valid : ∀ k, status c V' k = some .valid → status c V k = some .valid ∧ (lo ≤ k → n ≤ k)
  obsolete : ∀ e, status c V' e = some .obsolete → status c V e = some .obsolete ∨ lo ≤ e ∧ e ≤ n
  behind : ∀ k, n < k → c.slot V' k = c.slot V k

/-- A delete, whatever its end -/
lemma deleted_dev {d : Device Mem Fate} {n : ℕ} (hring : RingInv c (dev.view d.mem) F) (hn : n < F) :
    Cleaned c n (n + 1) (dev.view d.mem)
      (dev.view ((deleteCircularFragment dev c.toCircular n).run d).dev.mem) := by
  have hset : ∀ {fr fr' : Frag} {mem : Mem}, c.slot (dev.view d.mem) n = some fr → fr.status = .valid →
      (fr'.status = .invalid ∨ fr'.status = .obsolete) →
      dev.view mem = c.setSlot (dev.view d.mem) n fr' →
      Cleaned c n (n + 1) (dev.view d.mem) (dev.view mem) := by
    intro fr fr' mem hfr hst hst' hv
    rw [hv]
    exact (Cleaned.refl _).set le_rfl (Nat.lt_succ_self n) hfr hst hst'
  have hsame : ∀ {mem : Mem}, dev.view mem = dev.view d.mem →
      Cleaned c n (n + 1) (dev.view d.mem) (dev.view mem) := by
    intro mem hv
    rw [hv]
    exact Cleaned.refl _
  have hwp : Dev.wp (faults True True True) (deleteCircularFragment dev c.toCircular n)
      (fun _ mem => Cleaned c n (n + 1) (dev.view d.mem) (dev.view mem))
      (fun _ mem => Cleaned c n (n + 1) (dev.view d.mem) (dev.view mem))
      (fun mem => Cleaned c n (n + 1) (dev.view d.mem) (dev.view mem)) d.mem := by
    refine wp_deleteCircularFragment hring.own
      (fun _ => hsame rfl) (fun fr hfr => hring.used n fr hn hfr) (fun _ => ⟨hsame rfl, hsame rfl⟩)
      (fun fr hfr hst mem hv => hset hfr hst (Or.inr rfl) hv)
      (fun _ fr hfr hst mem hv => hset hfr hst (Or.inl rfl) hv)
      (fun _ fr hfr hst mem hv => by
        rcases hv with hv | hv | hv
        · exact hsame hv
        · exact hset hfr hst (Or.inl rfl) hv
        · exact hset hfr hst (Or.inr rfl) hv)
  have hrun := hwp d rfl (FlakyWorld.within_all d)
  revert hrun
  cases (deleteCircularFragment dev c.toCircular n).run d with
  | ok u d' => exact And.right
  | err e d' => exact And.right
  | off d' => exact id

namespace FlakyWorld

variable {s s' : FlakyWorld} {plan : List Fate} {readPlan : List Bool}

/-- A clean-up that ends has deleted everything up to the new bound. -/
lemma Inv.swept_ok (h : s.Inv c crc F) {d d' : Device Mem Fate} (hmem : d.mem = s.mem) {n : ℕ}
    (hlo : s.lower ≤ n) (hn : n ≤ F)
    (hrun : (cleanup dev c.toCircular (n - s.lower) s.lower).run d = .ok () d') :
    RingInv c (dev.view d'.mem) F ∧ SweptTo c s.lower n (dev.view s.mem) (dev.view d'.mem) ∧
      status c (dev.view d'.mem) n = status c (dev.view s.mem) n := by
  obtain ⟨hring, hclean, hdone⟩ := h.cleanup_dev hmem (Nat.add_sub_cancel' hlo) hn
  rw [hrun] at hring hclean
  refine ⟨hring, ⟨fun k hk => ?_, fun e he => ?_, fun k hk => hclean.of_not_mem (Or.inr hk.le)⟩, ?_⟩
  · have heq := hclean.of_valid hk
    refine ⟨by rwa [status, ← heq], fun hlo' => ?_⟩
    by_contra hlt
    exact hdone () d' hrun k hlo' (Nat.not_le.mp hlt) hk
  · rcases hclean e with heq | ⟨h1, h2, -⟩
    · exact Or.inl (by rwa [status, ← heq])
    · exact Or.inr ⟨h1, h2.le⟩
  · exact congrArg (Option.map Frag.status) (hclean.of_not_mem (Or.inr le_rfl))

/-- A clean-up that stops at `n` has deleted everything before. -/
lemma Inv.swept_stop (h : s.Inv c crc F) {d : Device Mem Fate} (hmem : d.mem = s.mem) {n : ℕ}
    (hlo : s.lower ≤ n) (hn : n < F) {o : Outcome (Device Mem Fate) Error Unit}
    (hdel : DeletesTo c s.lower n d o) : SweptTo c s.lower n (dev.view s.mem) (dev.view o.dev.mem) := by
  obtain ⟨d₁, hrun, rfl⟩ := hdel
  obtain ⟨hring, hswept, -⟩ := h.swept_ok hmem hlo hn.le hrun
  have hclean := deleted_dev hring hn
  refine ⟨fun k hk => ?_, fun e he => ?_, fun k hk => ?_⟩
  · have heq := hclean.of_valid hk
    exact hswept.valid k (by rwa [status, ← heq])
  · rcases hclean e with heq | ⟨h1, h2, -⟩
    · exact hswept.obsolete e (by rwa [status, ← heq])
    · exact Or.inr ⟨by omega, by omega⟩
  · exact (hclean.of_not_mem (Or.inr (by omega))).trans (hswept.behind k hk)

/-- The clean-up of a peek deletes everything below the new bound, or it stops before. -/
lemma Inv.swept_peek (h : s.Inv c crc F) (hs : s.initDone = true) {d : Device Mem Fate}
    (hmem : d.mem = s.mem) :
    let o := (cleanup dev c.toCircular (s.peekLower - s.lower) s.lower).run d
    (∃ d', o = .ok () d' ∧ SweptTo c s.lower s.peekLower (dev.view s.mem) (dev.view o.dev.mem)) ∨
    (∀ d', o ≠ .ok () d') ∧ (∀ d', o ≠ .err .fragmentNotFound d') ∧ ∃ n, s.lower ≤ n ∧ n < s.peekLower ∧
      DeletesTo c s.lower n d o ∧ SweptTo c s.lower n (dev.view s.mem) (dev.view o.dev.mem) := by
  obtain ⟨hmono, hle⟩ := h.peekLower_bounds hs
  have hbounds : s.lower + (s.peekLower - s.lower) < 2 ^ 32 := by
    have := h.ring.noWrap
    omega
  by_cases hend : ∃ d', (cleanup dev c.toCircular (s.peekLower - s.lower) s.lower).run d = .ok () d'
  · obtain ⟨d', hrun⟩ := hend
    obtain ⟨-, hswept, -⟩ := h.swept_ok hmem hmono hle hrun
    refine Or.inl ⟨d', hrun, ?_⟩
    rw [hrun]
    exact hswept
  · obtain ⟨hne, n, hlo, hn, hdel⟩ := (cleanup_stops _ _ d hbounds).resolve_left hend
    have hn' : n < s.peekLower := by omega
    exact Or.inr ⟨not_exists.mp hend, hne, n, hlo, hn', hdel,
      h.swept_stop hmem hlo (hn'.trans_le hle) hdel⟩

/-! ### Nothing valid below the lower bound -/

/-- When the clean-up of a peek cannot delete a fragment, then this fragment is not valid any more, and
none of those that it did not come to was. -/
def FailsLast (c : RingBuffer dev) (s : FlakyWorld) (d : Device Mem Fate) : Prop :=
  ∀ n, n < s.peekLower → s.lower ≤ n → ∀ mem ∈ failsAt c s.lower n d,
    status c (dev.view mem) n ≠ some .valid ∧
      ∀ k, k < s.peekLower → n < k → status c (dev.view s.mem) k ≠ some .valid

/-- A call without a wrap, and without a clean-up that leaves something to be done -/
def Thorough (c : RingBuffer dev) (s : FlakyWorld) : FlakyCall → Prop
  | .peekNext _ plan readPlan => ∀ r ∈ s.opens c plan readPlan, r.1.FailsLast c r.2
  | call => s.NoWrap c call

/-- No fragment below the lower bound is valid, and the fragments are deleted in order. -/
structure Swept (s : FlakyWorld) (c : RingBuffer dev) (crc : List UInt8 → UInt32) (F : ℕ) : Prop
    extends s.Inv c crc F where
  below : ∀ n, n < s.lower → status c (dev.view s.mem) n ≠ some .valid
  order : ∀ e n, status c (dev.view s.mem) e = some .obsolete → status c (dev.view s.mem) n = some .valid →
    e < n

lemma Swept.start {mem : Mem} (h : (FlakyWorld.start c mem).Inv c crc F)
    (horder : ∀ e n, status c (dev.view mem) e = some .obsolete →
      status c (dev.view mem) n = some .valid → e < n) : (FlakyWorld.start c mem).Swept c crc F :=
  ⟨h, fun n hn => absurd hn (Nat.not_lt_zero n), horder⟩

/-- The first call finds a range with all valid fragments. -/
lemma Swept.opened (h : s.Swept c crc F) {F' : ℕ} (h' : s'.Inv c crc F') (ho : Opens c s s' F') :
    s'.Swept c crc F' := by
  refine ⟨h', fun n hn hst => ?_, fun e n => ?_⟩
  · rcases ho.range with rfl | ⟨-, r, hspec, hr⟩
    · exact h.below n hn hst
    · rw [ho.mem] at hst
      rw [lower, hr] at hn
      rcases hspec.bounds n hst with ⟨hle, -⟩ | ⟨e, hne, he⟩
      · omega
      · exact absurd (h.order e n he hst) hne.asymm
  · rw [ho.mem]
    exact h.order e n

lemma Swept.order_sweptTo (h : s.Swept c crc F) {n : ℕ} {V' : ℕ → Option Block}
    (hswept : SweptTo c s.lower n (dev.view s.mem) V') {e k : ℕ} (he : status c V' e = some .obsolete)
    (hk : status c V' k = some .valid) : e < k := by
  obtain ⟨hvalid, hge⟩ := hswept.valid k hk
  rcases hswept.obsolete e he with hold | ⟨hlo, hle⟩
  · exact h.order e k hold hvalid
  · have hnk : n ≤ k := hge (Nat.not_lt.mp fun hlt => h.below k hlt hvalid)
    rcases Nat.lt_or_eq_of_le (hle.trans hnk) with hlt | rfl
    · exact hlt
    · rw [he] at hk
      cases hk

lemma lower_afterPeek (use : HandleUse) (mem : Mem) : (s.afterPeek use mem).lower = s.peekLower := by
  unfold lower afterPeek Peek.Queue.existingRange
  simp only [(use_exec use _).1, exec_peekNext_queue]
  rfl

/-- **A peek** of the open store leaves nothing valid below the new bound. -/
lemma Swept.afterPeek (h : s.Swept c crc F) (hs : s.initDone = true) {d : Device Mem Fate}
    (hmem : d.mem = s.mem) (hlast : s.FailsLast c d) {use : HandleUse} {mem : Mem}
    (h' : (s.afterPeek use mem).Inv c crc F)
    (hon : ((cleanup dev c.toCircular (s.peekLower - s.lower) s.lower).run d).isOff = false)
    (hd : ((cleanup dev c.toCircular (s.peekLower - s.lower) s.lower).run d).dev.mem = mem) :
    (s.afterPeek use mem).Swept c crc F := by
  subst hd
  have hpeek := h.swept_peek hs hmem
  revert hon hpeek h'
  cases (cleanup dev c.toCircular (s.peekLower - s.lower) s.lower).run d with
  | off d' => exact fun hon => by cases hon
  | ok u d' =>
    rintro - h' (⟨d'', -, hswept⟩ | ⟨hne, -⟩)
    · refine ⟨h', fun k hk hst => ?_, fun e k he hk => h.order_sweptTo hswept he hk⟩
      rw [lower_afterPeek] at hk
      obtain ⟨hvalid, hge⟩ := hswept.valid k hst
      exact absurd (hge (Nat.not_lt.mp fun hlt => h.below k hlt hvalid)) (Nat.not_le.mpr hk)
    · exact absurd rfl (hne d')
  | err e d' =>
    rintro - h' (⟨d'', hc, -⟩ | ⟨-, hne, n, hlo, hn, hdel, hswept⟩)
    · cases hc
    · obtain ⟨hgone, hrest⟩ := hlast n hn hlo d'.mem (hdel.failsAt fun hc => hne d' (hc ▸ rfl))
      refine ⟨h', fun k hk hst => ?_, fun e k he hk => h.order_sweptTo hswept he hk⟩
      rw [lower_afterPeek] at hk
      obtain ⟨hvalid, hge⟩ := hswept.valid k hst
      rcases Nat.lt_or_eq_of_le (hge (Nat.not_lt.mp fun hlt => h.below k hlt hvalid)) with hlt | rfl
      · exact hrest k hk hlt hvalid
      · exact hgone hst

/-- Power is lost in the clean-up of a peek. -/
lemma Swept.cutPeek (h : s.Swept c crc F) (hs : s.initDone = true) {d : Device Mem Fate}
    (hmem : d.mem = s.mem) {mem : Mem} (h' : (FlakyWorld.start c mem).Inv c crc F)
    (hd : ((cleanup dev c.toCircular (s.peekLower - s.lower) s.lower).run d).dev.mem = mem) :
    (FlakyWorld.start c mem).Swept c crc F := by
  subst hd
  refine .start h' fun e k he hk => ?_
  rcases h.swept_peek hs hmem with ⟨-, -, hswept⟩ | ⟨-, -, n, -, -, -, hswept⟩
  · exact h.order_sweptTo hswept he hk
  · exact h.order_sweptTo hswept he hk

/-- What a write leaves is behind everything that was deleted. -/
lemma Swept.order_written (h : s.Swept c crc F) {data : List UInt8} {mem : Mem} {F' : ℕ}
    (hw : Written c crc s data F mem F') {e k : ℕ} (he : status c (dev.view mem) e = some .obsolete)
    (hk : status c (dev.view mem) k = some .valid) : e < k := by
  have hold : e < F ∧ status c (dev.view s.mem) e = some .obsolete := by
    rcases hw.used he (by decide) with ⟨hlt, heq⟩ | ⟨-, -, fr, hfr, hslot⟩
    · exact ⟨hlt, by rwa [status, ← heq]⟩
    · rw [status, hslot, Option.map_some, Option.some.injEq] at he
      rcases hfr.status with hst | hst <;> rw [hst] at he <;> cases he
  rcases hw.used hk (by decide) with ⟨-, heq⟩ | ⟨rfl, -, -⟩
  · exact h.order e k hold.2 (by rwa [status, ← heq])
  · exact hold.1

/-- An enqueue moves the lower bound at most to what is there. -/
lemma Swept.enqueued (h : s.Swept c crc F) (hs : s.initDone = true) {data : List UInt8} {F' : ℕ}
    (h' : s'.Inv c crc F') (he : Enqueues c crc data s s' F F') : s'.Swept c crc F' := by
  refine ⟨h', fun n hn hst => ?_, fun e k he' hk => h.order_written he.written he' hk⟩
  have hpresent : c.slot (dev.view s'.mem) n ≠ none := by
    intro hc
    rw [status, hc] at hst
    cases hst
  have hlt : n < s.lower := by
    rcases he.peek with hpeek | ⟨hpeek, hslot⟩
    · rwa [lower, hpeek] at hn
    · by_contra hge
      rw [lower, hpeek] at hn
      exact absurd (h.toStoreInv.enqueue_passed hs he.noWrap he.written.ring (Nat.not_lt.mp hge) hpresent
        hslot) (Nat.not_le.mpr hn)
  have hmin : s.lower ≤ s.peek.queue.writeIndex := h.peek.win.min_le.trans h.peek.win.next_le
  rcases he.written.used hst (by decide) with ⟨-, heq⟩ | ⟨rfl, hF, -⟩
  · exact h.below n hlt (by rwa [status, ← heq])
  · omega

lemma Swept.of_range (h : s.Swept c crc F) {w : Peek.World maxPeeks}
    (hw : w.queue.existingRange.1 = s.lower) (h' : { s with peek := w }.Inv c crc F) :
    { s with peek := w }.Swept c crc F :=
  ⟨h', fun n hn => h.below n (hw ▸ hn), h.order⟩

lemma isDrained_lower (w : Peek.World maxPeeks) :
    (w.exec .isDrained).queue.existingRange.1 = w.queue.existingRange.1 := by
  have hfold : ∀ (cs : List Peek.Confirm) (q : Peek.PeekQueue maxPeeks),
      (cs.foldl Peek.PeekQueue.update q).readIndexMin = q.readIndexMin := by
    intro cs
    induction cs with
    | nil => exact fun _ => rfl
    | cons c cs ih => exact fun q => (ih _).trans (Peek.update_readIndexMin q c)
  exact hfold _ _

theorem Swept.exec (h : s.Swept c crc F) (call : FlakyCall) (hcall : s.Thorough c call) :
    ∃ F', (s.exec c crc call).Swept c crc F' := by
  cases call with
  | enqueue data plan readPlan =>
    refine h.exec_enqueue (P := fun s => ∃ F', s.Swept c crc F') hcall ⟨F, h⟩
      (fun s₁ F₁ s' F' h₁ ho h' he => ?_) fun _ s₁ F₁ mem F' h₁ ho h' hw => ?_
    · exact ⟨F', (h.opened h₁ ho).enqueued ho.initDone h' he⟩
    · exact ⟨F', .start h' fun e k he hk => (h.opened h₁ ho).order_written hw he hk⟩
  | peekNext bufferLen plan readPlan =>
    refine h.exec_peekNext (P := fun s => ∃ F', s.Swept c crc F') (fun _ => ⟨F, h⟩)
      (fun s₁ F₁ d use mem hopens h₁ ho hd h' hon hm => ?_) fun _ s₁ F₁ d mem hopens h₁ ho hd h' hm => ?_
    · exact ⟨F₁, (h.opened h₁ ho).afterPeek ho.initDone hd
        (hcall (s₁, d) hopens) h' hon hm⟩
    · exact ⟨F₁, (h.opened h₁ ho).cutPeek ho.initDone hd h' hm⟩
  | isDrained readPlan =>
    refine h.exec_isDrained (P := fun s => ∃ F', s.Swept c crc F') ⟨F, h⟩ fun s₁ F₁ h₁ ho h' => ?_
    exact ⟨F₁, (h.opened h₁ ho).of_range (isDrained_lower _) h'⟩
  | confirm k =>
    exact ⟨F, h.of_range (congrArg Prod.fst (settle_range s.peek k true)) (h.settle k true)⟩
  | drop k =>
    exact ⟨F, h.of_range (congrArg Prod.fst (settle_range s.peek k false)) (h.settle k false)⟩
  | waitConfirmation =>
    exact ⟨F, h.of_range (congrArg Prod.fst (waitConfirmation_range s.peek)) h.waitConfirmation⟩
  | reboot => exact ⟨F, .start (.start h.ring h.items) h.order⟩

/-! ### Runs -/

lemma swept_start {mem : Mem} (hv : ∀ q, dev.view mem (c.chunkBlock q) = none) :
    (FlakyWorld.start c mem).Swept c crc 0 :=
  .start (inv_start hv) fun _ _ he _ =>
    absurd ((ringInv_zero hv).lt_of_valid he (by decide)) (Nat.not_lt_zero _)

theorem swept_of_reach {mem : Mem} (hv : ∀ q, dev.view mem (c.chunkBlock q) = none)
    (h : Reach (FlakyWorld.exec c crc) (Thorough c) (FlakyWorld.start c mem) s) :
    ∃ F, s.Swept c crc F :=
  h.invariant (P := fun s => ∃ F, s.Swept c crc F) ⟨0, swept_start hv⟩
    fun _ call hinv hcall => hinv.choose_spec.exec call hcall

/-- A call other than an enqueue makes nothing valid. -/
lemma Inv.exec_valid (h : s.Inv c crc F) (call : FlakyCall) (hcall : call.isEnqueue = false) {n : ℕ} :
    (∃ F', (s.exec c crc call).Inv c crc F') ∧
      (status c (dev.view (s.exec c crc call).mem) n = some .valid →
        status c (dev.view s.mem) n = some .valid) := by
  cases call with
  | enqueue data plan readPlan => cases hcall
  | peekNext bufferLen plan readPlan =>
    refine ⟨h.exec _ trivial, ?_⟩
    have hclean : ∀ (s' : FlakyWorld) F' (d : Device Mem Fate) mem, s'.Inv c crc F' → Opens c s s' F' →
        d.mem = s'.mem →
        ((cleanup dev c.toCircular (s'.peekLower - s'.lower) s'.lower).run d).dev.mem = mem →
        status c (dev.view mem) n = some .valid → status c (dev.view s.mem) n = some .valid := by
      intro s' F' d mem h' ho hd hm hst
      obtain ⟨-, hclean⟩ := h'.cleanup_peek ho.initDone hd
      rw [hm] at hclean
      rwa [status, ← ho.mem, ← hclean.of_valid hst]
    exact h.exec_peekNext (P := fun s' => status c (dev.view s'.mem) n = some .valid →
        status c (dev.view s.mem) n = some .valid) (fun _ => id)
      (fun s' F' d use mem _ h' ho hd _ _ hm => hclean s' F' d mem h' ho hd hm)
      fun _ s' F' d mem _ h' ho hd _ hm => hclean s' F' d mem h' ho hd hm
  | isDrained readPlan =>
    refine ⟨h.exec _ trivial, ?_⟩
    refine h.exec_isDrained (P := fun s' => status c (dev.view s'.mem) n = some .valid →
      status c (dev.view s.mem) n = some .valid) id fun s' F' _ ho _ hst => ?_
    rwa [← ho.mem]
  | confirm k => exact ⟨h.exec _ trivial, id⟩
  | drop k => exact ⟨h.exec _ trivial, id⟩
  | waitConfirmation => exact ⟨h.exec _ trivial, id⟩
  | reboot => exact ⟨h.exec _ trivial, id⟩

lemma Inv.foldl_valid (calls : List FlakyCall) : ∀ {s : FlakyWorld} {F : ℕ}, s.Inv c crc F →
    (∀ call ∈ calls, call.isEnqueue = false) → ∀ {n : ℕ},
    (∃ F', (calls.foldl (FlakyWorld.exec c crc) s).Inv c crc F') ∧
      (status c (dev.view (calls.foldl (FlakyWorld.exec c crc) s).mem) n = some .valid →
        status c (dev.view s.mem) n = some .valid) := by
  induction calls with
  | nil => exact fun h _ n => ⟨⟨_, h⟩, id⟩
  | cons call calls ih =>
    intro s F h hcalls n
    obtain ⟨⟨F₁, h₁⟩, hvalid⟩ := h.exec_valid call (hcalls call List.mem_cons_self) (n := n)
    obtain ⟨hinv, hrest⟩ := ih h₁ (fun call' hcall => hcalls call' (List.mem_cons_of_mem _ hcall)) (n := n)
    exact ⟨hinv, hvalid ∘ hrest⟩

end FlakyWorld

/-- Below the lower bound of the queue nothing is valid, and after a restart no peek returns an item from
there. -/
structure CleanedUp (c : RingBuffer dev) (crc : List UInt8 → UInt32) (s : FlakyWorld) : Prop where
  below : ∀ n, n < s.lower → status c (dev.view s.mem) n ≠ some .valid
  restarted : ∀ calls : List FlakyCall, (∀ call ∈ calls, call.isEnqueue = false) →
    ∀ bufferLen plan readPlan data n,
      (calls.foldl (FlakyWorld.exec c crc) (FlakyWorld.start c s.mem)).peekResult c crc bufferLen plan
        readPlan = some (.ok (some (data, n))) → s.lower ≤ n

/-- **Nothing is forgotten** where each clean-up that fails does so with the last fragment. -/
theorem cleanedUp_of_reach (c : RingBuffer dev) (crc : List UInt8 → UInt32) {mem : Mem}
    (hv : ∀ q, dev.view mem (c.chunkBlock q) = none) {s : FlakyWorld}
    (h : Reach (FlakyWorld.exec c crc) (FlakyWorld.Thorough c) (FlakyWorld.start c mem) s) :
    CleanedUp c crc s := by
  obtain ⟨F, hinv⟩ := FlakyWorld.swept_of_reach hv h
  refine ⟨hinv.below, fun calls hcalls bufferLen plan readPlan data n hres => ?_⟩
  obtain ⟨⟨F', h'⟩, hvalid⟩ :=
    FlakyWorld.Inv.foldl_valid calls (FlakyWorld.Inv.start hinv.ring hinv.items) hcalls (n := n)
  by_contra hlt
  exact hinv.below n (Nat.not_le.mp hlt) (hvalid (h'.peekResult_item hres).status)

/-- The only item is read and confirmed, and its delete fails. -/
def sweptRun : List FlakyCall :=
  [.enqueue [7] [] [], .peekNext 2 [] [], .confirm 0, .peekNext 2 [.error] [], .peekNext 2 [] []]

instance (s : FlakyWorld) (d : Device Mem Fate) : Decidable (s.FailsLast c d) :=
  haveI (mem : Mem) (n : ℕ) : Decidable (status c (dev.view mem) n ≠ some .valid ∧
      ∀ k, k < s.peekLower → n < k → status c (dev.view s.mem) k ≠ some .valid) := instDecidableAnd
  inferInstanceAs (Decidable (∀ n, n < s.peekLower → s.lower ≤ n → ∀ mem ∈ failsAt c s.lower n d,
    status c (dev.view mem) n ≠ some .valid ∧
      ∀ k, k < s.peekLower → n < k → status c (dev.view s.mem) k ≠ some .valid))

instance (s : FlakyWorld) : ∀ call, Decidable (s.Thorough c call)
  | .peekNext _ plan readPlan =>
    inferInstanceAs (Decidable (∀ r ∈ s.opens c plan readPlan, r.1.FailsLast c r.2))
  | .enqueue data plan readPlan => inferInstanceAs (Decidable (s.NoWrap c (.enqueue data plan readPlan)))
  | .isDrained _ | .confirm _ | .drop _ | .waitConfirmation | .reboot => isTrue trivial

theorem cleanedUp_swept :
    Reach (FlakyWorld.exec (streamRing false) crc32Cksum) (FlakyWorld.Thorough (streamRing false))
      (.start (streamRing false) fun _ => erased) (flakyRun sweptRun) ∧
    CleanedUp (streamRing false) crc32Cksum (flakyRun sweptRun) := by
  have hrun : Reach.Guarded (FlakyWorld.exec (streamRing false) crc32Cksum)
      (FlakyWorld.Thorough (streamRing false)) (.start (streamRing false) fun _ => erased) sweptRun := by
    decide +kernel
  have hreach := Reach.run sweptRun Reach.start hrun
  exact ⟨hreach, cleanedUp_of_reach _ _ (fun q => congrFun (BlockDevice.view_erased _) _) hreach⟩

/-- Two items are read and confirmed. -/
def confirmedRun : List FlakyCall :=
  [.enqueue [7] [] [], .enqueue [8] [] [], .peekNext 2 [] [], .peekNext 2 [] [], .confirm 0, .confirm 0]

/-- The delete of item 0 fails. Item 1 stays valid below the bound when the next peek has returned
without an error, and it is delivered again after a restart. -/
theorem cleanup_forgets :
    let failed := confirmedRun ++ [.peekNext 2 [.error] []]
    let later := failed ++ [.peekNext 2 [] []]
    Reach (FlakyWorld.exec (streamRing false) crc32Cksum) (FlakyWorld.NoWrap (streamRing false))
      (.start (streamRing false) fun _ => erased) (flakyRun later) ∧
    (flakyRun confirmedRun).peekResult (streamRing false) crc32Cksum 2 [.error] [] =
      some (.error .flash) ∧
    (flakyRun failed).peekResult (streamRing false) crc32Cksum 2 [] [] = some (.ok none) ∧
    (flakyRun (later ++ [.reboot])).peekResult (streamRing false) crc32Cksum 2 [] [] =
      some (.ok (some ([8], 1))) ∧
    ¬CleanedUp (streamRing false) crc32Cksum (flakyRun later) := by
  refine ⟨Reach.run _ Reach.start (by decide +kernel), by decide +kernel, by decide +kernel,
    by decide +kernel, fun h => ?_⟩
  exact absurd (h.below 1 (by decide +kernel)) (by decide +kernel)

end SensorLink.Stream
