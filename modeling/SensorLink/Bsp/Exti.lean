import Mathlib.Data.Nat.Bitwise
import Mathlib.Logic.Function.Basic
import SensorLink.Lib.Reach
import SensorLink.Lib.Tasks

/-!
# The external interrupts of `exti.rs`

A trigger is the owner of one interrupt line. The inputs change at any time, also between two accesses of the
interrupt handler; the owners of the triggers run only while no handler runs, and wait in any order. The
interrupt vectors have one priority, so that at most one handler runs.
-/

namespace SensorLink.Bsp

open SensorLink.Lib

namespace Exti

/-! ### The bits of a word -/

/-- The loop of `each_set`, in at most `rounds` rounds: the bits that `f` is called for -/
def eachSetFrom : ℕ → ℕ → ℕ → List ℕ
  | 0, _, _ => []
  | rounds + 1, self, n =>
    if self = 0 then []
    else if self &&& 1 ≠ 0 then n :: eachSetFrom rounds (self >>> 1) (n + 1)
    else eachSetFrom rounds (self >>> 1) (n + 1)

/-- `each_set`; the bits of a word of 32 bits have a value of `Bit` each. -/
def eachSet (word : BitVec 32) : List ℕ := eachSetFrom 32 word.toNat 0

lemma mem_eachSetFrom {b : ℕ} : ∀ {rounds self n : ℕ}, self < 2 ^ rounds →
    (b ∈ eachSetFrom rounds self n ↔ n ≤ b ∧ self.testBit (b - n))
  | 0, self, n, h => by
    have hzero : self = 0 := by simpa using h
    simp [eachSetFrom, hzero]
  | rounds + 1, self, n, h => by
    have hhalf : self >>> 1 < 2 ^ rounds := by
      rw [Nat.shiftRight_eq_div_pow]
      omega
    have ih := mem_eachSetFrom (b := b) (n := n + 1) hhalf
    have hlow : self &&& 1 ≠ 0 ↔ self.testBit 0 := by
      rw [Nat.and_one_is_mod, Nat.testBit_zero, decide_eq_true_eq]
      omega
    have htail : n + 1 ≤ b → self.testBit (b - n) = (self >>> 1).testBit (b - (n + 1)) := by
      intro hb
      rw [Nat.testBit_shiftRight]
      congr 1
      omega
    unfold eachSetFrom
    split_ifs with hself hbit
    · simp [hself]
    · rw [List.mem_cons, ih]
      constructor
      · rintro (rfl | ⟨hb, ht⟩)
        · exact ⟨le_rfl, by simpa using hlow.mp hbit⟩
        · exact ⟨by omega, htail hb ▸ ht⟩
      · rintro ⟨hb, ht⟩
        rcases Nat.eq_or_lt_of_le hb with rfl | hlt
        · exact .inl rfl
        · exact .inr ⟨hlt, htail hlt ▸ ht⟩
    · rw [ih]
      constructor
      · rintro ⟨hb, ht⟩
        exact ⟨by omega, htail hb ▸ ht⟩
      · rintro ⟨hb, ht⟩
        rcases Nat.eq_or_lt_of_le hb with rfl | hlt
        · rw [Nat.sub_self] at ht
          exact absurd (hlow.mpr ht) hbit
        · exact ⟨hlt, htail hlt ▸ ht⟩

/-- `each_set` finds the set bits and no other ones. -/
lemma mem_eachSet {word : BitVec 32} {b : ℕ} : b ∈ eachSet word ↔ word.getLsbD b := by
  unfold eachSet
  rw [mem_eachSetFrom word.isLt]
  simp [BitVec.getLsbD]

/-! ### Registers and triggers -/

/-- A line of `Interrupt`, as the number that it is cast to -/
def Interrupt : Type := {n : ℕ // n ≤ 16 ∨ n = 18 ∨ n = 19}

instance : DecidableEq Interrupt := inferInstanceAs (DecidableEq {n : ℕ // n ≤ 16 ∨ n = 18 ∨ n = 19})

/-- `Int5`, the first line of the vector `EXTI9_5` -/
def Interrupt.int5 : Interrupt := ⟨5, .inl (by decide)⟩

/-- `N_EXTI` -/
def nExti : ℕ := 20

lemma Interrupt.lt (i : Interrupt) : i.val < nExti := by
  have h := i.property
  unfold nExti
  omega

/-- `exti_flag` -/
def flag (i : Interrupt) : BitVec 32 := 1#32 <<< i.val

inductive Edge
  | rising
  | falling
  | both
deriving DecidableEq

def Edge.configRising : Edge → Bool
  | .rising | .both => true
  | .falling => false

def Edge.configFalling : Edge → Bool
  | .falling | .both => true
  | .rising => false

/-- The registers of the peripheral that are used, and the static `READY` -/
structure Regs where
  rtsr1 : BitVec 32
  ftsr1 : BitVec 32
  imr1 : BitVec 32
  pr1 : BitVec 32
  ready : BitVec 32

/-- `Exti::new` -/
def Regs.new : Regs := ⟨0, 0, 0, 0, 0⟩

/-- Unmasks the line: `modify_reg` of IMR1 in a section without interrupts -/
def Regs.unmask (r : Regs) (i : Interrupt) : Regs := { r with imr1 := r.imr1 ||| flag i }

/-- `READY.fetch_and(!exti_flag)` -/
def Regs.takeReady (r : Regs) (i : Interrupt) : Regs := { r with ready := r.ready &&& ~~~flag i }

/-- `fetch_and(..) & exti_flag != 0` -/
def Regs.isReady (r : Regs) (i : Interrupt) : Bool := r.ready &&& flag i != 0

inductive Error
  | alreadyClaimed

/-- `create_trigger`, on the registers -/
def Regs.createTrigger (r : Regs) (i : Interrupt) (edge : Edge) : Except Error Regs :=
  if r.rtsr1 &&& flag i ≠ 0 ∨ r.ftsr1 &&& flag i ≠ 0 then .error .alreadyClaimed
  else
    .ok { r with
      rtsr1 := if edge.configRising then r.rtsr1 ||| flag i else r.rtsr1
      ftsr1 := if edge.configFalling then r.ftsr1 ||| flag i else r.ftsr1
      -- a pending bit is cleared by writing one
      pr1 := r.pr1 &&& ~~~flag i }

/-- The points of the owner of a trigger, each before an access: in `poll_and_clear_ready`, called by
`poll_ready` or by `is_high`; in `wait_untill_edge`; and suspended in its `poll_fn`. -/
inductive Point
  | idle
  | fetchReady (pin : Bool)
  | unmask (pin : Bool)
  | readPin
  | beginWait (includePrevious : Bool)
  | register
  | checkReady
  | pending
deriving DecidableEq

/-- A call that the owner makes. `is_low` differs from `is_high` only in its negated result. -/
inductive Call
  | isHigh
  | waitUntillNextEdge
  | waitUntillAnyEdge
  | pollReady

def Call.first : Call → Point
  | isHigh => .fetchReady true
  | waitUntillNextEdge => .beginWait false
  | waitUntillAnyEdge => .beginWait true
  | pollReady => .fetchReady false

/-- A line: its trigger, the waker with the task that it notifies, and the input. Remembered are an edge since
the owner last read the pin, was told of one or asked for the next one only (`unseen`), and what the pin read
if neither of the latter happened since (`read`). -/
structure Line where
  edge : Option Edge
  point : Point
  registered : Bool
  woken : Bool
  level : Bool
  unseen : Bool
  read : Option Bool

def Line.new : Line := ⟨none, .idle, false, false, false, false, none⟩

/-- `self.waker.wake()` -/
def Line.wake (l : Line) : Line := { l with woken := AtomicWaker.wake l.registered l.woken }

/-- The owner is told of an edge, and of all before it. -/
def Line.told (l : Line) (p : Point) : Line := { l with point := p, unseen := false, read := none }

/-- The points of `Exti::isr`, each before an access -/
inductive Isr
  | idle
  | fetchOr (pendingInts : BitVec 32)
  | mask (pendingInts wasReady : BitVec 32)
  | clear (pendingInts : BitVec 32)
  | wake (pendingInts : BitVec 32)
deriving DecidableEq

/-- The registers, the interrupt handler and the lines by their numbers -/
structure System where
  regs : Regs
  isr : Isr
  lines : ℕ → Line

/-- The next step of the owner of a line that has a trigger -/
def stepOwner (r : Regs) (l : Line) (i : Interrupt) : Regs × Line :=
  match l.point with
  | .idle => (r, l)
  | .fetchReady false =>
    if r.isReady i then (r.takeReady i, l.told .idle) else (r.takeReady i, { l with point := .unmask false })
  -- the flag is dropped
  | .fetchReady true =>
    (r.takeReady i, { l with point := if r.isReady i then .readPin else .unmask true })
  | .unmask pin => (r.unmask i, { l with point := if pin then .readPin else .idle })
  | .readPin => (r, { l with point := .idle, unseen := false, read := some l.level })
  -- a section without interrupts
  | .beginWait true =>
    if r.isReady i then ((r.unmask i).takeReady i, l.told .idle)
    else ((r.unmask i).takeReady i, { l with point := .register })
  | .beginWait false => ((r.unmask i).takeReady i, l.told .register)
  | .register => (r, { l with point := .checkReady, registered := true })
  | .checkReady =>
    if r.isReady i then (r.takeReady i, l.told .idle) else (r.takeReady i, { l with point := .pending })
  -- polled again
  | .pending => (r, { l with point := .register, woken := false })

/-- The wakers of the bits that are set -/
def wakeEach (lines : ℕ → Line) (ints : List ℕ) : ℕ → Line :=
  ints.foldl (fun lines int =>
    if int < nExti then Function.update lines int (lines int).wake else lines) lines

/-- The next step of `isr` -/
def stepIsr (s : System) : System :=
  match s.isr with
  | .idle => { s with isr := .fetchOr s.regs.pr1 }
  | .fetchOr pendingInts =>
    { s with
      regs := { s.regs with ready := s.regs.ready ||| pendingInts }
      isr := .mask pendingInts s.regs.ready }
  | .mask pendingInts wasReady =>
    { s with regs := { s.regs with imr1 := s.regs.imr1 &&& ~~~wasReady }, isr := .clear pendingInts }
  | .clear pendingInts =>
    { s with regs := { s.regs with pr1 := s.regs.pr1 &&& ~~~pendingInts }, isr := .wake pendingInts }
  | .wake pendingInts => { s with isr := .idle, lines := wakeEach s.lines (eachSet pendingInts) }

/-- The input of a line changes: it is pending if the edge is one that the line is configured for, also when
the interrupt is masked. -/
def change (s : System) (i : Interrupt) : System :=
  let l := s.lines i.val
  let detected := if l.level then s.regs.ftsr1.getLsbD i.val else s.regs.rtsr1.getLsbD i.val
  { s with
    regs := if detected then { s.regs with pr1 := s.regs.pr1 ||| flag i } else s.regs
    lines := Function.update s.lines i.val { l with level := !l.level, unseen := l.unseen || detected } }

inductive Op
  | change (i : Interrupt)
  | create (i : Interrupt) (edge : Edge)
  | call (i : Interrupt) (call : Call)
  | step (i : Interrupt)
  | cancel (i : Interrupt)
  | isr

namespace System

/-- The system behind `Exti::new` -/
def create : System := ⟨.new, .idle, fun _ => .new⟩

def exec (s : System) : Op → System
  | .change i => Exti.change s i
  | .create i edge =>
    match s.regs.createTrigger i edge with
    | .ok regs =>
      { s with
        regs := regs
        lines := Function.update s.lines i.val
          { Line.new with edge := some edge, level := (s.lines i.val).level } }
    | .error _ => s
  | .call i call =>
    let l := s.lines i.val
    if l.edge.isSome ∧ l.point = .idle then
      { s with lines := Function.update s.lines i.val { l with point := call.first } }
    else s
  | .step i =>
    let l := s.lines i.val
    if l.edge.isSome then
      { s with
        regs := (stepOwner s.regs l i).1
        lines := Function.update s.lines i.val (stepOwner s.regs l i).2 }
    else s
  -- the future is dropped where it is suspended
  | .cancel i =>
    let l := s.lines i.val
    if l.point = .pending then
      { s with lines := Function.update s.lines i.val { l with point := .idle } }
    else s
  | .isr => stepIsr s

/-- No enabled interrupt waits for the handler. -/
def Quiet (s : System) : Prop := s.isr = .idle ∧ s.regs.pr1 &&& s.regs.imr1 = 0

/-- The tasks run only while the handler does not. -/
def Guard (s : System) : Op → Prop
  | .change _ | .isr => True
  | _ => s.isr = .idle

instance (s : System) : DecidablePred s.Guard
  | .change _ | .isr => isTrue trivial
  | .create _ _ | .call _ _ | .step _ | .cancel _ => inferInstanceAs (Decidable (s.isr = .idle))

instance (s : System) : Decidable s.Quiet := inferInstanceAs (Decidable (_ ∧ _))

/-- A run from `Exti::new` on -/
def Run (s : System) : Prop := Reach exec Guard create s

end System

/-- The owner is suspended, and its task is not notified. -/
def Line.Asleep (l : Line) : Prop := l.point = .pending ∧ l.woken = false

instance (l : Line) : Decidable l.Asleep := inferInstanceAs (Decidable (_ ∧ _))

/-- The pin rises while it is read: the handler runs before the access to the pin, and the first wait ends at
once. The second one follows the pin that was read as high. -/
def sampleRun : List Op :=
  let line := Interrupt.int5
  [.create line .both, .call line .isHigh, .step line, .step line, .change line] ++ List.replicate 5 .isr ++
    [.step line, .call line .waitUntillAnyEdge, .step line, .call line .isHigh, .step line, .step line,
      .step line, .call line .waitUntillAnyEdge, .step line, .step line, .step line]

def sampleSystem : System := sampleRun.foldl System.exec .create

lemma sampleSystem_run : sampleSystem.Run := Reach.run sampleRun .start (by decide)

/-! ### One line -/

/-- The bits of a line in the registers -/
structure Bits where
  rising : Bool
  falling : Bool
  enabled : Bool
  pending : Bool
  ready : Bool

def Regs.bits (r : Regs) (i : Interrupt) : Bits :=
  ⟨r.rtsr1.getLsbD i.val, r.ftsr1.getLsbD i.val, r.imr1.getLsbD i.val, r.pr1.getLsbD i.val,
    r.ready.getLsbD i.val⟩

/-- The handler, as far as a line is concerned -/
inductive Handler
  | idle
  | fetchOr (pending : Bool)
  | mask (pending wasReady : Bool)
  | clear (pending : Bool)
  | wake (pending : Bool)

def Isr.view (i : Interrupt) : Isr → Handler
  | .idle => .idle
  | .fetchOr p => .fetchOr (p.getLsbD i.val)
  | .mask p w => .mask (p.getLsbD i.val) (w.getLsbD i.val)
  | .clear p => .clear (p.getLsbD i.val)
  | .wake p => .wake (p.getLsbD i.val)

section Bit

variable (r : Regs) (i j : Interrupt) (w : BitVec 32)

lemma Interrupt.lt_width : i.val < 32 := lt_trans i.lt (by decide)

lemma getLsbD_flag (k : ℕ) : (flag i).getLsbD k = decide (k = i.val) := by
  have hi := i.lt_width
  simp only [flag, BitVec.getLsbD_shiftLeft, BitVec.getLsbD_one]
  rcases lt_trichotomy k i.val with hlt | heq | hgt
  · simp [hlt, hlt.ne]
  · simp [heq, hi]
  · have hsub : k - i.val ≠ 0 := by omega
    simp [hgt.ne', hsub]

lemma val_eq_iff : i.val = j.val ↔ i = j := Subtype.ext_iff.symm

lemma and_flag_eq_zero : w &&& flag i = 0 ↔ w.getLsbD i.val = false := by
  constructor
  · intro h
    have hbit := congrArg (fun v : BitVec 32 => v.getLsbD i.val) h
    simpa [getLsbD_flag] using hbit
  · intro h
    apply BitVec.eq_of_getLsbD_eq
    intro k hk
    rw [BitVec.getLsbD_and, getLsbD_flag]
    by_cases hki : k = i.val
    · simp [hki, h]
    · simp [hki]

@[simp] lemma isReady_eq : r.isReady i = (r.bits i).ready := by
  rw [Bool.eq_iff_iff, Regs.isReady, bne_iff_ne, ne_eq, and_flag_eq_zero]
  simp [Regs.bits]

@[simp] lemma bits_unmask :
    (r.unmask j).bits i = { r.bits i with enabled := (r.bits i).enabled || decide (i = j) } := by
  simp only [Regs.bits, Regs.unmask, BitVec.getLsbD_or, getLsbD_flag, val_eq_iff]

@[simp] lemma bits_takeReady :
    (r.takeReady j).bits i = { r.bits i with ready := (r.bits i).ready && !decide (i = j) } := by
  simp only [Regs.bits, Regs.takeReady, BitVec.getLsbD_and, BitVec.getLsbD_not, getLsbD_flag, val_eq_iff,
    i.lt_width, decide_true, Bool.true_and]

end Bit

/-! ### What holds of a line -/

/-- The bit was pending when the handler read the register, and is not in `READY` yet. -/
def Handler.holds : Handler → Bool
  | .fetchOr p => p
  | _ => false

/-- The bit is in `READY` since the handler took it, and the waker is not woken yet. -/
def Handler.wakes : Handler → Bool
  | .mask p _ | .clear p | .wake p => p
  | _ => false

/-- The handler is about to mask the line. -/
def Handler.masks : Handler → Bool
  | .mask _ w => w
  | _ => false

/-- In `wait_untill_edge`, after the line was unmasked -/
def Point.waits : Point → Bool
  | register | checkReady | pending => true
  | _ => false

/-- The line is configured for the edges away from a level. -/
def Bits.detects (b : Bits) (level : Bool) : Bool := if level then b.falling else b.rising

structure Inv (b : Bits) (h : Handler) (l : Line) : Prop where
  /-- An edge is pending, or the handler holds it, or it is in `READY`, or the pin is about to be read. -/
  reported : l.unseen → b.ready ∨ b.pending ∨ h.holds ∨ l.point = .readPin
  /-- A line is masked only after it was ready. -/
  enabled : l.point.waits → b.ready = false → b.enabled
  notified : l.point = .pending → b.ready → l.woken ∨ h.wakes
  registered : l.point = .checkReady ∨ l.point = .pending → l.registered
  /-- A pin that was read differs only behind an edge. -/
  kept : ∀ level, l.read = some level → l.level = !level → b.detects level → l.unseen
  /-- No task takes the flag while the handler runs. -/
  taken : (h.wakes → b.ready) ∧ (h.masks → b.ready)

lemma Inv.create (i : Interrupt) : Inv (Regs.new.bits i) .idle .new := by
  constructor <;> simp [Line.new, Regs.new, Regs.bits, Point.waits, Handler.wakes, Handler.masks]

section Steps

variable {b : Bits} {h : Handler} {l : Line}

lemma idle_taken : ((Handler.idle).wakes → b.ready) ∧ ((Handler.idle).masks → b.ready) := by
  simp [Handler.wakes, Handler.masks]

/-- A call of the owner begins. -/
lemma Inv.call (hi : Inv b h l) (hidle : l.point = .idle) (call : Call) :
    Inv b h { l with point := call.first } := by
  obtain ⟨hreported, henabled, hnotified, hregistered, hkept, htaken⟩ := hi
  refine ⟨fun hu => ?_, ?_, ?_, ?_, hkept, htaken⟩
  · simp only [hidle, reduceCtorEq, or_false] at hreported
    rcases hreported hu with hr | hp | hh
    · exact .inl hr
    · exact .inr (.inl hp)
    · exact .inr (.inr (.inl hh))
  all_goals cases call <;> simp [Call.first, Point.waits]

lemma Inv.cancel (hi : Inv b h l) (hpending : l.point = .pending) : Inv b h { l with point := .idle } := by
  obtain ⟨hreported, henabled, hnotified, hregistered, hkept, htaken⟩ := hi
  refine ⟨fun hu => ?_, ?_, ?_, ?_, hkept, htaken⟩
  · simpa [hpending] using hreported hu
  all_goals simp [Point.waits]

/-- The input changes. -/
lemma Inv.change (hi : Inv b h l) :
    Inv { b with pending := b.pending || b.detects l.level } h
      { l with level := !l.level, unseen := l.unseen || b.detects l.level } := by
  obtain ⟨hreported, henabled, hnotified, hregistered, hkept, htaken⟩ := hi
  refine ⟨?_, henabled, hnotified, hregistered, ?_, htaken⟩
  · simp only [Bool.or_eq_true]
    rintro (hu | hd)
    · rcases hreported hu with hr | hp | hh
      · exact .inl hr
      · exact .inr (.inl (.inl hp))
      · exact .inr (.inr hh)
    · exact .inr (.inl (.inr hd))
  · intro level hread hlevel hdetects
    simp only [Bool.not_inj_iff] at hlevel
    simp only [Bool.or_eq_true]
    exact .inr (hlevel ▸ hdetects)

/-- What the next step of `isr` does to the bits of a line -/
def stepHandler (b : Bits) : Handler → Bits × Handler
  | .idle => (b, .fetchOr b.pending)
  | .fetchOr p => ({ b with ready := b.ready || p }, .mask p b.ready)
  | .mask p w => ({ b with enabled := b.enabled && !w }, .clear p)
  | .clear p => ({ b with pending := b.pending && !p }, .wake p)
  | .wake _ => (b, .idle)

/-- The line, which is woken in the last step -/
def wakeHandled (h : Handler) (l : Line) : Line :=
  match h with
  | .wake true => l.wake
  | _ => l

lemma Inv.isr (hi : Inv b h l) : Inv (stepHandler b h).1 (stepHandler b h).2 (wakeHandled h l) := by
  obtain ⟨hreported, henabled, hnotified, hregistered, hkept, htaken⟩ := hi
  cases h with
  | idle =>
    refine ⟨fun hu => ?_, henabled, fun hp hr => ?_, hregistered, hkept, by simp [stepHandler, Handler.wakes,
      Handler.masks]⟩
    · rcases hreported hu with hr | hb | hh | hpin
      · exact .inl hr
      · exact .inr (.inl hb)
      · simp [Handler.holds] at hh
      · exact .inr (.inr (.inr hpin))
    · simpa [Handler.wakes, stepHandler, wakeHandled] using hnotified hp hr
  -- the flag is set: the handler wakes the task later
  | fetchOr p =>
    have hready : (b.ready || p) = true ↔ b.ready = true ∨ p = true := by rw [Bool.or_eq_true]
    refine ⟨fun hu => ?_, fun hw hr => henabled hw (Bool.or_eq_false_iff.mp hr).1, fun hp hr => ?_, hregistered,
      hkept, fun hw => hready.mpr (.inr hw), fun hm => hready.mpr (.inl hm)⟩
    · rcases hreported hu with hr | hb | hh | hpin
      · exact .inl (hready.mpr (.inl hr))
      · exact .inr (.inl hb)
      · exact .inl (hready.mpr (.inr hh))
      · exact .inr (.inr (.inr hpin))
    · rcases hready.mp hr with hr | hr
      · have hwoken : l.woken := by simpa [Handler.wakes] using hnotified hp hr
        exact .inl hwoken
      · exact .inr hr
  -- only a line that was ready is masked
  | mask p w =>
    simp only [stepHandler, wakeHandled]
    refine ⟨fun hu => ?_, fun hw hr => ?_, hnotified, hregistered, hkept, htaken.1, by simp [Handler.masks]⟩
    · simpa [Handler.holds] using hreported hu
    · have hmask : w = false := by
        cases w with
        | false => rfl
        | true => simp [htaken.2 rfl] at hr
      simp [hmask, henabled hw hr]
  -- what is cleared was taken
  | clear p =>
    simp only [stepHandler, wakeHandled]
    refine ⟨fun hu => ?_, henabled, hnotified, hregistered, hkept, htaken.1, by simp [Handler.masks]⟩
    rcases hreported hu with hr | hb | hh | hpin
    · exact .inl hr
    · cases p with
      | true => exact .inl (htaken.1 rfl)
      | false => exact .inr (.inl (by simpa using hb))
    · simp [Handler.holds] at hh
    · exact .inr (.inr (.inr hpin))
  | wake p =>
    cases p with
    | false => exact ⟨hreported, henabled, hnotified, hregistered, hkept, idle_taken⟩
    | true =>
      refine ⟨hreported, henabled, fun hp _ => .inl ?_, hregistered, hkept, idle_taken⟩
      simp [wakeHandled, Line.wake, hregistered (.inr hp)]

/-- Of a line that the owner was told of nothing is left to report. -/
lemma Inv.told (l : Line) {p : Point} (hp : p = .idle ∨ p = .register ∧ b.enabled) : Inv b .idle (l.told p) := by
  refine ⟨fun hu => ?_, fun hw _ => ?_, fun hpending => ?_, fun hpoint => ?_, fun level hread => ?_, idle_taken⟩
  · simp [Line.told] at hu
  · rcases hp with rfl | ⟨-, he⟩
    · simp [Line.told, Point.waits] at hw
    · exact he
  · rcases hp with rfl | ⟨rfl, -⟩ <;> simp [Line.told] at hpending
  · rcases hp with rfl | ⟨rfl, -⟩ <;> simp [Line.told] at hpoint
  · simp [Line.told] at hread

/-- The owner moves on, and leaves the flag as it is. -/
lemma Inv.moved {enabled registered woken : Bool} {p : Point} (hi : Inv b .idle l) (hpin : l.point ≠ .readPin)
    (henabled : p.waits → b.ready = false → enabled) (hwait : p = .pending → b.ready = false)
    (hregistered : p = .checkReady ∨ p = .pending → registered) :
    Inv { b with enabled := enabled } .idle { l with point := p, registered := registered, woken := woken } := by
  refine ⟨fun hu => ?_, henabled, fun hp hr => ?_, hregistered, hi.kept, idle_taken⟩
  · rcases hi.reported hu with hr | hb | hh | hp
    · exact .inl hr
    · exact .inr (.inl hb)
    · simp [Handler.holds] at hh
    · exact absurd hp hpin
  · simp [hwait hp] at hr

/-- A step of the owner, which runs while the handler does not -/
lemma Inv.owner {r : Regs} {l : Line} {i : Interrupt} (hi : Inv (r.bits i) .idle l) :
    Inv ((stepOwner r l i).1.bits i) .idle (stepOwner r l i).2 := by
  have htake : (r.bits i).ready = false → (r.takeReady i).bits i = r.bits i := by
    intro hr
    rw [bits_takeReady, hr, Bool.false_and, ← hr]
  obtain ⟨edge, point, registered, woken, level, unseen, read⟩ := l
  cases point with
  | idle => exact hi
  | fetchReady pin =>
    cases hr : (r.bits i).ready <;> cases pin <;>
      simp only [stepOwner, isReady_eq, hr, if_true, Bool.false_eq_true, if_false]
    · rw [htake hr]
      exact hi.moved (by simp) (by simp [Point.waits]) (by simp) (by simp)
    · rw [htake hr]
      exact hi.moved (by simp) (by simp [Point.waits]) (by simp) (by simp)
    · exact .told _ (.inl rfl)
    · exact ⟨fun _ => .inr (.inr (.inr rfl)), by simp [Point.waits], by simp, by simp, hi.kept, idle_taken⟩
  | unmask pin =>
    rw [stepOwner, bits_unmask]
    exact hi.moved (by simp) (by cases pin <;> simp [Point.waits]) (by cases pin <;> simp)
      (by cases pin <;> simp)
  | readPin =>
    refine ⟨by simp [stepOwner], by simp [stepOwner, Point.waits], by simp [stepOwner], by simp [stepOwner], ?_,
      idle_taken⟩
    intro level' hread hlevel
    obtain rfl : level = level' := Option.some.inj hread
    simp [stepOwner] at hlevel
  -- from here on the line is unmasked until its flag is set
  | beginWait includePrevious =>
    have henabled : (((r.unmask i).takeReady i).bits i).enabled := by simp
    cases includePrevious with
    | false => exact .told _ (.inr ⟨rfl, henabled⟩)
    | true =>
      cases hr : (r.bits i).ready <;>
        simp only [stepOwner, isReady_eq, hr, if_true, Bool.false_eq_true, if_false]
      · rw [bits_takeReady, bits_unmask]
        simp only [hr, Bool.false_and]
        rw [← hr]
        exact hi.moved (by simp) (by simp) (by simp) (by simp)
      · exact .told _ (.inl rfl)
  | register => exact hi.moved (by simp) (fun _ => hi.enabled rfl) (by simp) (by simp)
  | checkReady =>
    cases hr : (r.bits i).ready <;>
      simp only [stepOwner, isReady_eq, hr, if_true, Bool.false_eq_true, if_false]
    · rw [htake hr]
      exact hi.moved (by simp) (fun _ => hi.enabled rfl) (fun _ => hr) (fun _ => hi.registered (.inl rfl))
    · exact .told _ (.inl rfl)
  | pending => exact hi.moved (by simp) (fun _ => hi.enabled rfl) (by simp) (by simp)

end Steps

/-! ### All lines -/

section Frame

variable (s : System) (r : Regs) (l : Line) {i j : Interrupt}

/-- The owner of another line changes no bit of this one. -/
lemma bits_stepOwner_ne (h : i ≠ j) : (stepOwner r l j).1.bits i = r.bits i := by
  obtain ⟨edge, point, registered, woken, level, unseen, read⟩ := l
  cases point with
  | fetchReady pin =>
    cases pin with
    | true => simp [stepOwner, h]
    | false => simp only [stepOwner]; split <;> simp [h]
  | beginWait includePrevious =>
    cases includePrevious with
    | true => simp only [stepOwner]; split <;> simp [h]
    | false => simp [stepOwner, h]
  | checkReady => simp only [stepOwner]; split <;> simp [h]
  | unmask pin => simp [stepOwner, h]
  | idle | readPin | register | pending => rfl

/-- The wakers of the set bits are woken. -/
lemma wakeEach_apply (k : ℕ) : ∀ (ints : List ℕ) (lines : ℕ → Line), wakeEach lines ints k =
    if k ∈ ints ∧ k < nExti then (lines k).wake else lines k
  | [], lines => by simp [wakeEach]
  | int :: ints, lines => by
    have hwake : ∀ line : Line, line.wake.wake = line.wake := by
      intro line
      simp [Line.wake]
    have ih := wakeEach_apply k ints
      (if int < nExti then Function.update lines int (lines int).wake else lines)
    rw [wakeEach, List.foldl_cons, ← wakeEach, ih]
    by_cases hk : k = int
    · subst hk
      by_cases hlt : k < nExti <;> by_cases hmem : k ∈ ints <;> simp [hlt, hmem, hwake]
    · by_cases hlt : int < nExti <;> simp [hlt, hk]

lemma lines_stepIsr : (stepIsr s).lines i.val = wakeHandled (s.isr.view i) (s.lines i.val) := by
  cases hisr : s.isr with
  | wake p =>
    have hi := i.lt
    simp only [stepIsr, hisr, wakeEach_apply, mem_eachSet, hi, and_true, Isr.view]
    cases p.getLsbD i.val <;> simp [wakeHandled]
  | idle | fetchOr p | mask p w | clear p => simp [stepIsr, hisr, Isr.view, wakeHandled]

lemma bits_stepIsr : ((stepIsr s).regs.bits i, (stepIsr s).isr.view i) =
    stepHandler (s.regs.bits i) (s.isr.view i) := by
  have hi := i.lt_width
  cases hisr : s.isr with
  | idle => simp [stepIsr, hisr, Isr.view, stepHandler, Regs.bits]
  | fetchOr p => simp only [stepIsr, hisr, Isr.view, stepHandler, Regs.bits, BitVec.getLsbD_or]
  | mask p w =>
    simp only [stepIsr, hisr, Isr.view, stepHandler, Regs.bits, BitVec.getLsbD_and, BitVec.getLsbD_not, hi,
      decide_true, Bool.true_and]
  | clear p =>
    simp only [stepIsr, hisr, Isr.view, stepHandler, Regs.bits, BitVec.getLsbD_and, BitVec.getLsbD_not, hi,
      decide_true, Bool.true_and]
  | wake p => simp [stepIsr, hisr, Isr.view, stepHandler, Regs.bits]

end Frame

/-- A line that is claimed is configured for its edges, another one for none. -/
def Configured (b : Bits) (edge : Option Edge) : Prop :=
  b.rising = edge.any Edge.configRising ∧ b.falling = edge.any Edge.configFalling

def SysInv (s : System) : Prop := ∀ i : Interrupt,
  Inv (s.regs.bits i) (s.isr.view i) (s.lines i.val) ∧ Configured (s.regs.bits i) (s.lines i.val).edge

section Exec

variable {s : System}

lemma edge_stepOwner (r : Regs) (l : Line) (i : Interrupt) : (stepOwner r l i).2.edge = l.edge := by
  unfold stepOwner Line.told
  grind

lemma configured_stepOwner {r : Regs} {l : Line} {i : Interrupt} (h : Configured (r.bits i) l.edge) :
    Configured ((stepOwner r l i).1.bits i) (stepOwner r l i).2.edge := by
  rw [edge_stepOwner]
  unfold stepOwner Line.told
  unfold Configured at *
  grind [bits_takeReady, bits_unmask]

/-- An operation on one line: the bits of the other ones stay. -/
lemma SysInv.update (hs : SysInv s) (j : Interrupt) {regs : Regs} {l : Line}
    (hne : ∀ i, i ≠ j → regs.bits i = s.regs.bits i) (hinv : Inv (regs.bits j) (s.isr.view j) l)
    (hconf : Configured (regs.bits j) l.edge) :
    SysInv { s with regs := regs, lines := Function.update s.lines j.val l } := by
  intro i
  by_cases hij : i = j
  · subst hij
    simpa using ⟨hinv, hconf⟩
  · have hval : i.val ≠ j.val := by rwa [ne_eq, val_eq_iff]
    simpa [hne i hij, hval] using hs i

lemma SysInv.change (hs : SysInv s) (j : Interrupt) : SysInv (Exti.change s j) := by
  have hdetects : (if (s.lines j.val).level then s.regs.ftsr1.getLsbD j.val else s.regs.rtsr1.getLsbD j.val) =
      (s.regs.bits j).detects (s.lines j.val).level := rfl
  unfold Exti.change
  simp only [hdetects]
  obtain ⟨hinv, hconf⟩ := hs j
  have hnext := hinv.change
  refine hs.update j (fun i hij => ?_) ?_ ?_
  · split
    · simp [Regs.bits, getLsbD_flag, val_eq_iff, hij]
    · rfl
  · convert hnext using 1
    split
    · rename_i hd
      simp only [hd, Bool.or_true]
      simp [Regs.bits, getLsbD_flag]
    · rename_i hd
      simp only [hd, Bool.or_false]
  · split <;> exact hconf

/-- **A line is claimed once**: a trigger is created exactly for a line that has none. -/
lemma SysInv.claimed (hs : SysInv s) (i : Interrupt) (edge : Edge) :
    (∃ regs, s.regs.createTrigger i edge = .ok regs) ↔ (s.lines i.val).edge = none := by
  obtain ⟨hrising, hfalling⟩ := (hs i).2
  unfold Regs.createTrigger
  simp only [ne_eq, and_flag_eq_zero, Bool.not_eq_false]
  change s.regs.rtsr1.getLsbD i.val = _ at hrising
  change s.regs.ftsr1.getLsbD i.val = _ at hfalling
  rw [hrising, hfalling]
  cases hedge : (s.lines i.val).edge with
  | none => simp
  | some e => cases e <;> simp [Edge.configRising, Edge.configFalling]

lemma SysInv.create (hs : SysInv s) (j : Interrupt) (edge : Edge) (hidle : s.isr = .idle) :
    SysInv (s.exec (.create j edge)) := by
  simp only [System.exec]
  cases hcreate : s.regs.createTrigger j edge with
  | error e => exact hs
  | ok regs =>
    have hnone := (hs.claimed j edge).mp ⟨regs, hcreate⟩
    have hconf := (hs j).2
    rw [hnone] at hconf
    unfold Regs.createTrigger at hcreate
    split at hcreate
    · cases hcreate
    · cases hcreate
      refine hs.update j (fun i hij => ?_) ?_ ?_
      · cases edge <;>
          simp only [Regs.bits, Edge.configRising, Edge.configFalling, if_true, if_false, Bool.false_eq_true,
            BitVec.getLsbD_or, BitVec.getLsbD_and, BitVec.getLsbD_not, getLsbD_flag, val_eq_iff, hij,
            decide_false, Bool.or_false, i.lt_width, decide_true, Bool.not_false, Bool.and_true]
      · constructor <;> simp [Line.new, Point.waits, hidle, Isr.view, Handler.wakes, Handler.masks]
      · have hbits : s.regs.rtsr1.getLsbD j.val = false ∧ s.regs.ftsr1.getLsbD j.val = false := hconf
        cases edge <;> simp [Configured, Regs.bits, Edge.configRising, Edge.configFalling, getLsbD_flag,
          hbits.1, hbits.2]

lemma SysInv.isr (hs : SysInv s) : SysInv (stepIsr s) := by
  intro i
  have hstep := bits_stepIsr s (i := i)
  obtain ⟨hinv, hconf⟩ := hs i
  have hnext := hinv.isr
  rw [← hstep, ← lines_stepIsr] at hnext
  refine ⟨hnext, ?_⟩
  have hbits : (stepIsr s).regs.bits i = (stepHandler (s.regs.bits i) (s.isr.view i)).1 :=
    congrArg Prod.fst hstep
  rw [hbits, lines_stepIsr]
  unfold Configured stepHandler wakeHandled Line.wake at *
  grind

lemma SysInv.exec (hs : SysInv s) (op : Op) (hg : s.Guard op) : SysInv (s.exec op) := by
  cases op with
  | change i => exact hs.change i
  | create i edge => exact hs.create i edge hg
  | call i call =>
    simp only [System.exec]
    split
    · rename_i hcall
      exact hs.update i (fun _ _ => rfl) ((hs i).1.call hcall.2 call) (hs i).2
    · exact hs
  | step i =>
    have hinv := (hs i).1
    rw [show s.isr = .idle from hg] at hinv
    simp only [System.exec]
    split
    · refine hs.update i (fun j hji => bits_stepOwner_ne _ _ hji) ?_ (configured_stepOwner (hs i).2)
      rw [show s.isr = .idle from hg]
      exact hinv.owner
    · exact hs
  | cancel i =>
    simp only [System.exec]
    split
    · rename_i hpending
      exact hs.update i (fun _ _ => rfl) ((hs i).1.cancel hpending) (hs i).2
    · exact hs
  | isr => exact hs.isr

end Exec

lemma System.Run.inv {s : System} (h : s.Run) : SysInv s :=
  Reach.invariant h (fun i => ⟨.create i, by simp [Configured, System.create, Line.new, Regs.new, Regs.bits]⟩)
    fun _ op hs hg => hs.exec op hg

/-! ### No edge is missed -/

/-- When no enabled interrupt is left, a sleeping owner has seen all edges. -/
lemma SysInv.quiet {s : System} (hs : SysInv s) (hquiet : s.Quiet) (i : Interrupt)
    (hasleep : (s.lines i.val).Asleep) : (s.lines i.val).unseen = false := by
  have hinv := (hs i).1
  obtain ⟨hidle, hmasked⟩ := hquiet
  obtain ⟨hpending, hwoken⟩ := hasleep
  rw [hidle] at hinv
  have hready : (s.regs.bits i).ready = false := by
    by_contra hr
    rcases hinv.notified hpending (by simpa using hr) with hw | hw
    · rw [hwoken] at hw
      cases hw
    · cases hw
  have henabled : (s.regs.bits i).enabled := hinv.enabled (by rw [hpending]; rfl) hready
  have hclear : (s.regs.bits i).pending = false := by
    have hbit := congrArg (fun v : BitVec 32 => v.getLsbD i.val) hmasked
    rw [BitVec.getLsbD_and, show s.regs.imr1.getLsbD i.val = true from henabled, Bool.and_true] at hbit
    exact hbit.trans BitVec.getLsbD_zero
  by_contra hu
  have := hinv.reported (by simpa using hu)
  simp [hready, hclear, hpending, Isr.view, Handler.holds] at this

/-- The steps of the handler until the task of a line is notified -/
def Handler.rank : Handler → ℕ
  | .wake p => if p then 1 else 6
  | .clear p => if p then 2 else 7
  | .mask p _ => if p then 3 else 8
  | .fetchOr p => if p then 4 else 9
  | .idle => 5

/-- An edge that no task has seen is still pending, or it is the handler that has it. -/
lemma Inv.carried {b : Bits} {h : Handler} {l : Line} (hi : Inv b h l) (hl : l.Asleep) (hu : l.unseen) :
    b.pending ∨ h.holds ∨ h.wakes := by
  have hreported := hi.reported hu
  have hnotified := hi.notified hl.1
  simp only [hl.1, hl.2, Bool.false_eq_true, false_or, reduceCtorEq, or_false] at hreported hnotified
  tauto

/-- What happens while no task runs -/
def Op.ofHardware : Op → Bool
  | .change _ | .isr => true
  | _ => false

/-- The number of steps of the handler -/
def isrSteps (ops : List Op) : ℕ := ops.countP fun op => op matches .isr

section Delivery

variable {i : Interrupt}

/-- A step of the handler notifies the task or brings it nearer. -/
lemma rank_isr {s : System} (hs : SysInv s) (hasleep : (s.lines i.val).Asleep)
    (hu : (s.lines i.val).unseen) :
    ((stepIsr s).lines i.val).woken ∨
      ((stepIsr s).lines i.val).Asleep ∧ ((stepIsr s).lines i.val).unseen ∧
        ((stepIsr s).isr.view i).rank < (s.isr.view i).rank := by
  have hcarried := (hs i).1.carried hasleep hu
  have hregistered := (hs i).1.registered (.inr hasleep.1)
  have hview : (stepIsr s).isr.view i = (stepHandler (s.regs.bits i) (s.isr.view i)).2 :=
    congrArg Prod.snd (bits_stepIsr s)
  rw [hview, lines_stepIsr]
  cases hisr : s.isr.view i with
  | wake p =>
    cases p with
    | true => exact .inl (by simp [wakeHandled, Line.wake, hregistered])
    | false => exact .inr ⟨hasleep, hu, by simp [stepHandler, Handler.rank]⟩
  | idle =>
    have hpending : (s.regs.bits i).pending := by simpa [hisr, Handler.holds, Handler.wakes] using hcarried
    exact .inr ⟨hasleep, hu, by simp [stepHandler, Handler.rank, hpending]⟩
  | fetchOr p | mask p w | clear p =>
    exact .inr ⟨hasleep, hu, by cases p <;> simp [stepHandler, Handler.rank]⟩

/-- What the hardware does leaves a notified task notified. -/
lemma woken_exec {s : System} {op : Op} (hop : op.ofHardware) (hw : (s.lines i.val).woken) :
    ((s.exec op).lines i.val).woken := by
  cases op with
  | change j =>
    simp only [System.exec, Exti.change]
    by_cases hij : i.val = j.val
    · simpa [hij] using hij ▸ hw
    · simpa [hij] using hw
  | isr =>
    simp only [System.exec, lines_stepIsr, wakeHandled]
    split
    · simp [Line.wake, hw]
    · exact hw
  | _ => cases hop

lemma woken_run {ops : List Op} (hops : ∀ op ∈ ops, op.ofHardware) : ∀ {s : System},
    (s.lines i.val).woken → ((ops.foldl System.exec s).lines i.val).woken := by
  induction ops with
  | nil => exact id
  | cons op ops ih =>
    intro s hw
    exact ih (fun o ho => hops o (.tail _ ho)) (woken_exec (hops op (.head _)) hw)

/-- Inputs that change leave a task that sleeps over an edge where it is. -/
lemma change_asleep {s : System} (hasleep : (s.lines i.val).Asleep) (hu : (s.lines i.val).unseen)
    (j : Interrupt) : ((Exti.change s j).lines i.val).Asleep ∧ ((Exti.change s j).lines i.val).unseen := by
  simp only [Exti.change]
  by_cases hij : i.val = j.val
  · rw [hij] at hasleep hu ⊢
    simpa [hu, Line.Asleep] using hasleep
  · simpa [hij, hu] using hasleep

lemma delivered {ops : List Op} (hops : ∀ op ∈ ops, op.ofHardware) : ∀ {s : System}, SysInv s →
    (s.lines i.val).Asleep → (s.lines i.val).unseen → (s.isr.view i).rank ≤ isrSteps ops →
    ((ops.foldl System.exec s).lines i.val).woken := by
  induction ops with
  | nil =>
    intro s _ _ _ hrank
    cases hisr : s.isr.view i with
    | idle => simp [hisr, Handler.rank, isrSteps] at hrank
    | fetchOr p | mask p w | clear p | wake p => cases p <;> simp [hisr, Handler.rank, isrSteps] at hrank
  | cons op ops ih =>
    intro s hs hasleep hu hrank
    have htail : ∀ o ∈ ops, o.ofHardware := fun o ho => hops o (.tail _ ho)
    have hop := hops op (.head _)
    rw [List.foldl_cons]
    cases op with
    | change j =>
      obtain ⟨ha, hn⟩ := change_asleep hasleep hu j
      refine ih htail (hs.change j) ha hn ?_
      simpa [isrSteps, System.exec, Exti.change] using hrank
    | isr =>
      rcases rank_isr hs hasleep hu with hw | ⟨ha, hn, hlt⟩
      · exact woken_run htail hw
      · refine ih htail hs.isr ha hn ?_
        have hcount : isrSteps (.isr :: ops) = isrSteps ops + 1 := by simp [isrSteps]
        have hless : ((s.exec .isr).isr.view i).rank < (s.isr.view i).rank := hlt
        omega
    | create _ _ => cases hop
    | call _ _ => cases hop
    | step _ => cases hop
    | cancel _ => cases hop

end Delivery

/-- The pin falls, and moves twice while the handler runs. -/
def sampleInterrupt : List Op :=
  [.isr, .isr, .change .int5, .change .int5] ++ List.replicate 7 .isr

def sampleFallingRun : List Op := sampleRun ++ [.change .int5]

def sampleFalling : System := sampleFallingRun.foldl System.exec .create

lemma sampleFalling_run : sampleFalling.Run := Reach.run sampleFallingRun .start (by decide)

end Exti

end SensorLink.Bsp
