import Mathlib.Algebra.Order.Ring.Int
import Mathlib.Data.Nat.Bitwise
import Mathlib.Logic.Function.Basic
import SensorLink.Lib.Reach

/-!
# The 64-bit clock of `mono.rs`

TIM5 counts the low 32 bits; a wrap sets the update flag, and the interrupt handler counts it. Each register
access and each atomic access is a step of its own. The thread 0 is the interrupt handler; the other ones
are tasks, and sections with interrupts masked. Any order of the steps is a run.
-/

namespace SensorLink.Clock

open SensorLink.Lib

namespace Mono

/-- The registers of TIM5 that are used, and the statics. All ticks since the start are counted in `ticks`,
of which CNT has the low 32 bits; `counted` is the number of wraps that were counted so far. -/
structure Timer where
  ticks : ℕ
  uif : Bool
  ccr1 : UInt32
  overflows : UInt32
  nextCompareLo : UInt32
  nextCompareHi : UInt32
  counted : ℕ

/-- The timer behind `start` -/
def Timer.create : Timer := ⟨0, false, 0, 0, 0, 0, 0⟩

/-- CNT -/
def Timer.cnt (t : Timer) : UInt32 := .ofNat t.ticks

/-- `n` ticks: the flag is set when the counter wraps. -/
def Timer.advance (t : Timer) (n : ℕ) : Timer :=
  { t with ticks := t.ticks + n, uif := t.uif || decide (t.ticks / 2 ^ 32 < (t.ticks + n) / 2 ^ 32) }

/-- A store of `set_match_value` -/
inductive Store
  | nextCompareLo (value : UInt32)
  | nextCompareHi (value : UInt32)
  | ccr1 (value : UInt32)

def Timer.store (t : Timer) : Store → Timer
  | .nextCompareLo value => { t with nextCompareLo := value }
  | .nextCompareHi value => { t with nextCompareHi := value }
  | .ccr1 value => { t with ccr1 := value }

/-- What `set_match_value` stores, from the time that it has read -/
def matchStores (instant now : ℕ) : List Store :=
  let max := 2 ^ 32 - 1
  let delta := instant - now
  -- in the past: nothing to do
  if delta = 0 then [.ccr1 0]
  -- the timer overflows at most once before the instant
  else if delta ≤ max then [.nextCompareLo 0, .nextCompareHi 0, .ccr1 (.ofNat (instant &&& max))]
  else [.nextCompareLo (.ofNat (instant &&& max)), .nextCompareHi (.ofNat (instant >>> 32 &&& max)),
    .ccr1 0]

/-- The points in the loop of `now` -/
inductive Now
  | loadFirst
  | readCnt (overflows0 : UInt32)
  | loadSecond (overflows0 count : UInt32)

/-- The points of a thread: in `now`, called by itself or by `set_match_value` of an instant; in the stores
of the latter; in `on_interrupt` up to the count; in `load_next_compare`. -/
inductive Point
  | idle
  | now (p : Now) (instant : Option ℕ)
  | stores (l : List Store)
  | readSr
  | clearUif
  | fetchAdd
  | loadHi0
  | loadLo (hi0 : UInt32)
  | loadHi1 (hi0 lo : UInt32)

/-- In `on_interrupt`, with a wrap that is not counted yet -/
def Point.counting : Point → Bool
  | readSr | clearUif | fetchAdd => true
  | _ => false

/-- A thread, with what is remembered of its `now`: the values that calls had returned when it began, and
the ticks and the counted wraps when it read CNT. -/
structure Thread where
  point : Point
  before : List ℕ
  readAt : ℕ
  readCounted : ℕ

/-- A call of `now` that has returned, with the values that calls had returned before it began -/
structure Call where
  value : ℕ
  before : List ℕ
deriving DecidableEq

/-- The calls that have returned and the timer -/
structure Shared where
  timer : Timer
  returned : List Call

/-- A call that a thread makes -/
inductive Start
  | now
  | setCompare (instant : ℕ)
  | onInterrupt

section Steps

variable (s : Shared) (t : Thread)

/-- A `now` begins. -/
def beginNow (instant : Option ℕ) : Thread :=
  { t with point := .now .loadFirst instant, before := s.returned.map Call.value }

/-- Only the handler calls `on_interrupt`. -/
def startCall (isHandler : Bool) : Start → Thread
  | .now => beginNow s t none
  | .setCompare instant => beginNow s t (some instant)
  | .onInterrupt => if isHandler then { t with point := .readSr } else t

/-- The next step of a thread -/
def stepThread : Shared × Thread :=
  match t.point with
  | .idle => (s, t)
  | .now .loadFirst instant => (s, { t with point := .now (.readCnt s.timer.overflows) instant })
  | .now (.readCnt overflows0) instant =>
    (s, { t with
      point := .now (.loadSecond overflows0 s.timer.cnt) instant
      readAt := s.timer.ticks
      readCounted := s.timer.counted })
  | .now (.loadSecond overflows0 count) instant =>
    let overflows1 := s.timer.overflows
    -- no additional overflow in between
    if overflows0 = overflows1 then
      let value := overflows1.toNat <<< 32 ||| count.toNat
      ({ s with returned := ⟨value, t.before⟩ :: s.returned },
        { t with point := match instant with
          | none => .idle
          | some instant => .stores (matchStores instant value) })
    else (s, { t with point := .now (.readCnt overflows1) instant })
  | .stores [] => (s, { t with point := .idle })
  | .stores (store :: l) => ({ s with timer := s.timer.store store }, { t with point := .stores l })
  | .readSr => (s, { t with point := if s.timer.uif then .clearUif else .idle })
  | .clearUif => ({ s with timer := { s.timer with uif := false } }, { t with point := .fetchAdd })
  | .fetchAdd =>
    ({ s with timer := { s.timer with
        overflows := s.timer.overflows + 1
        counted := s.timer.counted + 1 } }, { t with point := .loadHi0 })
  | .loadHi0 => (s, { t with point := .loadLo s.timer.nextCompareHi })
  | .loadLo hi0 => (s, { t with point := .loadHi1 hi0 s.timer.nextCompareLo })
  | .loadHi1 hi0 lo =>
    let hi1 := s.timer.nextCompareHi
    if hi0 = hi1 then (s, beginNow s t (some (hi1.toNat <<< 32 ||| lo.toNat)))
    else (s, { t with point := .loadLo hi1 })

end Steps

/-- The threads and what they share -/
structure System where
  shared : Shared
  threads : ℕ → Thread

inductive Op
  | ticks (n : ℕ)
  | start (thread : ℕ) (call : Start)
  | step (thread : ℕ)

namespace System

def create : System := ⟨⟨.create, []⟩, fun _ => ⟨.idle, [], 0, 0⟩⟩

def exec (w : System) : Op → System
  | .ticks n => { w with shared := { w.shared with timer := w.shared.timer.advance n } }
  | .start i call =>
    match (w.threads i).point with
    | .idle =>
      { w with threads := Function.update w.threads i (startCall w.shared (w.threads i) (i == 0) call) }
    | _ => w
  | .step i =>
    ⟨(stepThread w.shared (w.threads i)).1,
      Function.update w.threads i (stepThread w.shared (w.threads i)).2⟩

/-- A call of `now` ends only with a CNT that was read when all wraps were counted; less than 2^64 ticks. -/
def Guard (w : System) : Op → Prop
  | .ticks n => w.shared.timer.ticks + n < 2 ^ 64
  | .start _ _ => True
  | .step i =>
    match (w.threads i).point with
    | .now (.loadSecond overflows0 _) _ => overflows0 = w.shared.timer.overflows →
      (w.threads i).readCounted = (w.threads i).readAt / 2 ^ 32
    | _ => True

instance (w : System) : ∀ op : Op, Decidable (w.Guard op)
  | .ticks _ => inferInstanceAs (Decidable (_ < _))
  | .start _ _ => inferInstanceAs (Decidable True)
  | .step i => by
    unfold Guard
    dsimp only
    split <;> infer_instance

end System

/-! ### What a thread knows -/

/-- The ticks and the counted wraps never decrease. -/
def Grows (t t' : Timer) : Prop := t.ticks ≤ t'.ticks ∧ t.counted ≤ t'.counted

lemma Grows.refl (t : Timer) : Grows t t := ⟨le_rfl, le_rfl⟩

section ThreadInv

variable {t t' : Timer} {th : Thread}

/-- The first load of the overflows was before CNT was read, and the values that the call is compared with
are not above the ticks of that moment. -/
def ThreadInv (t : Timer) (th : Thread) : Prop :=
  match th.point with
  | .now .loadFirst _ => ∀ v ∈ th.before, v ≤ t.ticks
  | .now (.readCnt overflows0) _ => (∀ v ∈ th.before, v ≤ t.ticks) ∧
    ∃ c ≤ t.counted, overflows0 = .ofNat c
  | .now (.loadSecond overflows0 count) _ => (∀ v ∈ th.before, v ≤ th.readAt) ∧
    th.readAt ≤ t.ticks ∧ count = .ofNat th.readAt ∧ th.readCounted ≤ t.counted ∧
    ∃ c ≤ th.readCounted, overflows0 = .ofNat c
  | _ => True

lemma ThreadInv.grow (h : ThreadInv t th) (hgrow : Grows t t') : ThreadInv t' th := by
  unfold ThreadInv at h ⊢
  split at h
  · exact fun v hv => (h v hv).trans hgrow.1
  · obtain ⟨hbefore, c, hc, hov⟩ := h
    exact ⟨fun v hv => (hbefore v hv).trans hgrow.1, c, hc.trans hgrow.2, hov⟩
  · obtain ⟨hbefore, hat, hcount, hcounted, hov⟩ := h
    exact ⟨hbefore, hat.trans hgrow.1, hcount, hcounted.trans hgrow.2, hov⟩
  · trivial

/-- The words of a clock value -/
lemma value_eq {c n : ℕ} (hc : c < 2 ^ 32) (h : c = n / 2 ^ 32) :
    (UInt32.ofNat c).toNat <<< 32 ||| (UInt32.ofNat n).toNat = n := by
  simp only [UInt32.toNat_ofNat', Nat.mod_eq_of_lt hc]
  rw [← Nat.shiftLeft_add_eq_or_of_lt (Nat.mod_lt _ (by decide)), Nat.shiftLeft_eq]
  omega

end ThreadInv

/-! ### The timer -/

/-- The wraps that were flagged and are not counted yet -/
def Point.owes : Point → ℕ
  | .fetchAdd => 1
  | _ => 0

/-- The wraps that are counted, flagged, or between the flag and the count are at most those that were. -/
structure TimerInv (t : Timer) (handler : Point) : Prop where
  overflows : t.overflows = .ofNat t.counted
  ticks_lt : t.ticks < 2 ^ 64
  counted_le : t.counted + t.uif.toNat + handler.owes ≤ t.ticks / 2 ^ 32
  clearing : handler = .clearUif → t.uif = true

section TimerInv

variable {t : Timer} {p p' : Point}

lemma TimerInv.calm (h : TimerInv t p) (hcalm : p'.counting = false) : TimerInv t p' := by
  have howes : p'.owes = 0 := by
    cases p' with
    | fetchAdd => cases hcalm
    | idle | now | stores | readSr | clearUif | loadHi0 | loadLo | loadHi1 => rfl
  refine ⟨h.overflows, h.ticks_lt, ?_, fun heq => by rw [heq] at hcalm; cases hcalm⟩
  rw [howes]
  exact (Nat.le_add_right _ _).trans h.counted_le

lemma TimerInv.store (h : TimerInv t p) (store : Store) : TimerInv (t.store store) p := by
  cases store <;> exact ⟨h.overflows, h.ticks_lt, h.counted_le, h.clearing⟩

lemma grows_store (t : Timer) (store : Store) : Grows t (t.store store) := by
  cases store <;> exact Grows.refl _

lemma TimerInv.advance (h : TimerInv t p) {n : ℕ} (hlt : t.ticks + n < 2 ^ 64) :
    TimerInv (t.advance n) p := by
  refine ⟨h.overflows, hlt, ?_, fun heq => by simp [Timer.advance, h.clearing heq]⟩
  -- a wrap sets the flag, when it is not set already
  have hle := h.counted_le
  have hdiv : t.ticks / 2 ^ 32 ≤ (t.ticks + n) / 2 ^ 32 := Nat.div_le_div_right (Nat.le_add_right _ _)
  have hflag : (t.advance n).uif.toNat + t.ticks / 2 ^ 32 ≤
      t.uif.toNat + (t.ticks + n) / 2 ^ 32 := by
    unfold Timer.advance
    cases t.uif with
    | true => simpa using hdiv
    | false =>
      by_cases hwrap : t.ticks / 2 ^ 32 < (t.ticks + n) / 2 ^ 32
      · rw [Bool.false_or, decide_eq_true hwrap, Bool.toNat_true, Bool.toNat_false]
        omega
      · rw [Bool.false_or, decide_eq_false hwrap, Bool.toNat_false]
        omega
  show t.counted + (t.advance n).uif.toNat + p.owes ≤ (t.ticks + n) / 2 ^ 32
  omega

/-- The handler clears the flag: the wrap is owed. -/
lemma TimerInv.clear (h : TimerInv t .clearUif) : TimerInv { t with uif := false } .fetchAdd := by
  have hle := h.counted_le
  rw [h.clearing rfl, Bool.toNat_true] at hle
  exact ⟨h.overflows, h.ticks_lt, hle, nofun⟩

/-- The handler counts the wrap. -/
lemma TimerInv.count (h : TimerInv t .fetchAdd) :
    TimerInv { t with overflows := t.overflows + 1, counted := t.counted + 1 } .loadHi0 := by
  have hle := h.counted_le
  refine ⟨?_, h.ticks_lt, ?_, nofun⟩
  · show t.overflows + 1 = .ofNat (t.counted + 1)
    rw [h.overflows]
    exact (UInt32.ofNat_add _ _).symm
  · simp only [Point.owes] at hle ⊢
    omega

/-- No wrap of the overflows: the count is below 2^32. -/
lemma TimerInv.counted_lt (h : TimerInv t p) : t.counted < 2 ^ 32 := by
  have hle := h.counted_le
  have hlt := h.ticks_lt
  omega

end TimerInv

namespace System

structure Inv (w : System) : Prop where
  timer : TimerInv w.shared.timer (w.threads 0).point
  tasks : ∀ i ≠ 0, (w.threads i).point.counting = false
  threads : ∀ i, ThreadInv w.shared.timer (w.threads i)
  returned : ∀ call ∈ w.shared.returned, call.value ≤ w.shared.timer.ticks ∧
    ∀ v ∈ call.before, v ≤ call.value

variable {w : System} {i : ℕ} {t' : Thread} {s' : Shared}

lemma inv_create : create.Inv :=
  ⟨⟨rfl, by decide, le_rfl, nofun⟩, fun _ _ => rfl, fun _ => trivial, by simp [create]⟩

lemma inv_ticks (h : w.Inv) {n : ℕ} (hlt : w.shared.timer.ticks + n < 2 ^ 64) :
    (w.exec (.ticks n)).Inv := by
  have hgrow : Grows w.shared.timer (w.shared.timer.advance n) := ⟨Nat.le_add_right _ _, le_rfl⟩
  exact ⟨h.timer.advance hlt, h.tasks, fun i => (h.threads i).grow hgrow,
    fun call hcall => ⟨(h.returned call hcall).1.trans hgrow.1, (h.returned call hcall).2⟩⟩

/-- A step of one thread keeps the invariant when it keeps what the timer and this thread know. -/
lemma Inv.set (h : w.Inv) (htimer : TimerInv s'.timer (if i = 0 then t'.point else (w.threads 0).point))
    (hgrow : Grows w.shared.timer s'.timer) (hcounting : i ≠ 0 → t'.point.counting = false)
    (hthread : ThreadInv s'.timer t') (hreturned : ∀ call ∈ s'.returned, call.value ≤ s'.timer.ticks ∧
      ∀ v ∈ call.before, v ≤ call.value) : System.Inv ⟨s', Function.update w.threads i t'⟩ := by
  refine ⟨?_, fun j hj => ?_, fun j => ?_, hreturned⟩
  · show TimerInv s'.timer (Function.update w.threads i t' 0).point
    by_cases hi : i = 0
    · subst hi
      rwa [Function.update_self]
    · rw [if_neg hi] at htimer
      rwa [Function.update_of_ne (Ne.symm hi)]
  · show (Function.update w.threads i t' j).point.counting = false
    by_cases hij : j = i
    · subst hij
      rw [Function.update_self]
      exact hcounting hj
    · rw [Function.update_of_ne hij]
      exact h.tasks j hj
  · show ThreadInv s'.timer (Function.update w.threads i t' j)
    by_cases hij : j = i
    · subst hij
      rw [Function.update_self]
      exact hthread
    · rw [Function.update_of_ne hij]
      exact (h.threads j).grow hgrow

/-- A step that is not one of the count -/
lemma Inv.calm (h : w.Inv) (hcalm : t'.point.counting = false)
    (htimer : ∀ p, TimerInv w.shared.timer p → TimerInv s'.timer p)
    (hgrow : Grows w.shared.timer s'.timer) (hthread : ThreadInv s'.timer t')
    (hreturned : ∀ call ∈ s'.returned, call.value ≤ s'.timer.ticks ∧
      ∀ v ∈ call.before, v ≤ call.value) : System.Inv ⟨s', Function.update w.threads i t'⟩ := by
  refine h.set (htimer _ ?_) hgrow (fun _ => hcalm) hthread hreturned
  split
  · exact h.timer.calm hcalm
  · exact h.timer

/-- A step that changes only its own thread -/
lemma Inv.own (h : w.Inv) (hcalm : t'.point.counting = false)
    (hthread : ThreadInv w.shared.timer t') : System.Inv ⟨w.shared, Function.update w.threads i t'⟩ :=
  h.calm hcalm (fun _ => id) (Grows.refl _) hthread h.returned

lemma beginNow_inv (h : w.Inv) (t : Thread) (instant : Option ℕ) :
    ThreadInv w.shared.timer (beginNow w.shared t instant) := by
  intro v hv
  obtain ⟨call, hcall, rfl⟩ := List.mem_map.mp hv
  exact (h.returned call hcall).1

lemma inv_start (h : w.Inv) (i : ℕ) (call : Start) : (w.exec (.start i call)).Inv := by
  unfold exec
  dsimp only
  split
  next hidle =>
    cases call with
    | now => exact h.own rfl (beginNow_inv h _ _)
    | setCompare instant => exact h.own rfl (beginNow_inv h _ _)
    | onInterrupt =>
      by_cases hi : i = 0
      · subst hi
        refine h.set ⟨h.timer.overflows, h.timer.ticks_lt, ?_, nofun⟩ (Grows.refl _)
          (fun hne => absurd rfl hne) trivial h.returned
        exact (Nat.le_add_right _ _).trans h.timer.counted_le
      · have hself : startCall w.shared (w.threads i) (i == 0) .onInterrupt = w.threads i := by
          simp [startCall, hi]
        rw [hself]
        exact h.own (by rw [hidle]; rfl) (h.threads i)
  · exact h

/-- A call of `now` ends: CNT was read when all wraps were counted, so the value is the ticks of that
moment. -/
lemma value_of_ends {t : Thread} {overflows0 count : UInt32} {instant : Option ℕ}
    (htimer : TimerInv w.shared.timer (w.threads 0).point) (hthread : ThreadInv w.shared.timer t)
    (hpoint : t.point = .now (.loadSecond overflows0 count) instant)
    (hends : overflows0 = w.shared.timer.overflows) (hread : t.readCounted = t.readAt / 2 ^ 32) :
    w.shared.timer.overflows.toNat <<< 32 ||| count.toNat = t.readAt := by
  unfold ThreadInv at hthread
  rw [hpoint] at hthread
  obtain ⟨-, -, rfl, hcounted, c, hc, hov⟩ := hthread
  have hlt := htimer.counted_lt
  -- the two loads are of the same count
  have heq : UInt32.ofNat c = UInt32.ofNat w.shared.timer.counted := by
    rw [← hov, hends, htimer.overflows]
  have hmod := congrArg UInt32.toNat heq
  simp only [UInt32.toNat_ofNat'] at hmod
  rw [htimer.overflows]
  exact value_eq hlt (by omega)

/-- Only the handler counts. -/
lemma handler_of_counting {t : Thread} (h : i ≠ 0 → t.point.counting = false)
    (hcounting : t.point.counting = true) : i = 0 := by
  by_contra hne
  rw [h hne] at hcounting
  cases hcounting

lemma inv_step (h : w.Inv) (i : ℕ) (hguard : w.Guard (.step i)) : (w.exec (.step i)).Inv := by
  have hthread := h.threads i
  have htask := h.tasks i
  have htimer := h.timer
  generalize ht : w.threads i = t at *
  unfold exec
  dsimp only
  rw [ht]
  have hguard' : match t.point with
    | .now (.loadSecond overflows0 _) _ => overflows0 = w.shared.timer.overflows →
      t.readCounted = t.readAt / 2 ^ 32
    | _ => True := by
    rw [← ht]
    exact hguard
  unfold ThreadInv at hthread
  cases hpoint : t.point with
  | idle =>
    simp only [stepThread, hpoint]
    exact h.own (by rw [hpoint]; rfl) (by simp [ThreadInv, hpoint])
  | now p instant =>
    cases p with
    | loadFirst =>
      rw [hpoint] at hthread
      simp only [stepThread, hpoint]
      exact h.own rfl ⟨hthread, _, le_rfl, htimer.overflows⟩
    | readCnt overflows0 =>
      rw [hpoint] at hthread
      simp only [stepThread, hpoint]
      exact h.own rfl ⟨hthread.1, le_rfl, rfl, le_rfl, hthread.2⟩
    | loadSecond overflows0 count =>
      rw [hpoint] at hguard'
      simp only [stepThread, hpoint]
      by_cases hends : overflows0 = w.shared.timer.overflows
      · have hvalue := value_of_ends htimer (ht ▸ h.threads i) hpoint hends (hguard' hends)
        rw [hpoint] at hthread
        rw [if_pos hends, hvalue]
        refine h.calm ?_ (fun _ => id) (Grows.refl _) ?_ ?_
        · cases instant <;> rfl
        · cases instant <;> trivial
        · intro call hcall
          rcases List.mem_cons.mp hcall with rfl | hcall
          · exact ⟨hthread.2.1, hthread.1⟩
          · exact h.returned call hcall
      · rw [hpoint] at hthread
        obtain ⟨hbefore, hat, -⟩ := hthread
        rw [if_neg hends]
        exact h.own rfl ⟨fun v hv => (hbefore v hv).trans hat, _, le_rfl, htimer.overflows⟩
  | stores l =>
    cases l with
    | nil =>
      simp only [stepThread, hpoint]
      exact h.own rfl trivial
    | cons store l =>
      simp only [stepThread, hpoint]
      have hgrow := grows_store w.shared.timer store
      refine h.calm rfl (fun _ hp => hp.store store) hgrow trivial fun call hcall => ?_
      exact ⟨(h.returned call hcall).1.trans hgrow.1, (h.returned call hcall).2⟩
  | loadHi0 | loadLo =>
    simp only [stepThread, hpoint]
    exact h.own rfl trivial
  | loadHi1 hi0 lo =>
    simp only [stepThread, hpoint]
    split
    · exact h.own rfl (beginNow_inv h _ _)
    · exact h.own rfl trivial
  | readSr =>
    obtain rfl := handler_of_counting (i := i) htask (by rw [hpoint]; rfl)
    simp only [stepThread, hpoint]
    refine h.set ⟨h.timer.overflows, h.timer.ticks_lt, ?_, ?_⟩ (Grows.refl _)
      (fun hne => absurd rfl hne) (by split <;> trivial) h.returned
    · have howes : (if w.shared.timer.uif = true then Point.clearUif else Point.idle).owes = 0 := by
        split <;> rfl
      rw [if_pos rfl, howes]
      exact (Nat.le_add_right _ _).trans h.timer.counted_le
    · rw [if_pos rfl]
      intro heq
      by_contra huif
      rw [if_neg huif] at heq
      cases heq
  | clearUif =>
    obtain rfl := handler_of_counting (i := i) htask (by rw [hpoint]; rfl)
    rw [ht, hpoint] at htimer
    simp only [stepThread, hpoint]
    exact h.set (by rw [if_pos rfl]; exact htimer.clear) ⟨le_rfl, le_rfl⟩
      (fun hne => absurd rfl hne) trivial h.returned
  | fetchAdd =>
    obtain rfl := handler_of_counting (i := i) htask (by rw [hpoint]; rfl)
    rw [ht, hpoint] at htimer
    simp only [stepThread, hpoint]
    exact h.set (by rw [if_pos rfl]; exact htimer.count) ⟨le_rfl, Nat.le_succ _⟩
      (fun hne => absurd rfl hne) trivial h.returned

/-- **The clock never goes backwards.** A call of `now` that began after another one had returned gives a
value that is not smaller. -/
theorem now_monotone (h : Reach exec Guard create w) :
    ∀ call ∈ w.shared.returned, ∀ v ∈ call.before, v ≤ call.value := by
  have hinv : w.Inv := by
    apply h.invariant
    · exact inv_create
    · intro w op hinv hguard
      cases op with
      | ticks n => exact inv_ticks hinv hguard
      | start i call => exact inv_start hinv i call
      | step i => exact inv_step hinv i hguard
  exact fun call hcall => (hinv.returned call hcall).2

/-- One call of `now` in the thread `i` -/
def callNow (i : ℕ) : List Op := [.start i .now, .step i, .step i, .step i]

/-- `on_interrupt` up to the count of the wrap -/
def countWrap : List Op := [.start 0 .onInterrupt, .step 0, .step 0, .step 0]

/-- The counter wraps between two calls; the second one begins behind the count. -/
def countedRun : List Op := [.ticks (2 ^ 32 - 1)] ++ callNow 1 ++ [.ticks 1] ++ countWrap ++ callNow 1

/-- Interrupts are masked, and the second call comes before the count. -/
def maskedRun : List Op := [.ticks (2 ^ 32 - 1)] ++ callNow 1 ++ [.ticks 1] ++ callNow 1

theorem now_monotone_counted :
    (countedRun.foldl exec create).shared.returned = [⟨2 ^ 32, [2 ^ 32 - 1]⟩, ⟨2 ^ 32 - 1, []⟩] ∧
    ∀ call ∈ (countedRun.foldl exec create).shared.returned, ∀ v ∈ call.before, v ≤ call.value :=
  ⟨by decide +kernel, now_monotone (Reach.run countedRun .start (by decide +kernel))⟩

theorem now_backwards :
    (maskedRun.foldl exec create).shared.returned = [⟨0, [2 ^ 32 - 1]⟩, ⟨2 ^ 32 - 1, []⟩] := by
  decide +kernel

end System

end Mono

end SensorLink.Clock
