import Mathlib.Data.Nat.Bitwise
import Mathlib.Logic.Function.Basic
import Mathlib.Tactic.Common

/-!
# The boot statistics of `drivers/boot_stats.rs`

Retained registers count the boots and their causes; the four highest bits of a register are a flag. At a
boot only the register of the cause that is recognised is written back without its flag, so that a second
flag stays for the next boot.
-/

namespace SensorLink.Firmware

/-! ### Registers -/

inductive Stat where
  | uptimeTotal
  | uptimeCurrent
  | boot
  | por
  | wdt
  | panic
  | fault
deriving DecidableEq

/-- `BootReason` of `logic/signal.rs` -/
inductive BootReason where
  | unknown
  | powerOn
  | hardFault
  | watchdog
  | panic
  | software
  | loop
deriving DecidableEq

namespace BootStats

/-- `COUNT_MASK` -/
def countMask : UInt32 := 0x0FFFFFFF

/-- `FLAG_MASK` -/
def flagMask : UInt32 := ~~~countMask

/-- `FLAG` -/
def flag : UInt32 := 0xB0000000

/-- `Stat::COUNT` -/
def statCount : ℕ := 7

/-- The first `Stat::COUNT` registers of the array -/
abbrev Registers := Stat → UInt32

def write (registers : Registers) (stat : Stat) (value : UInt32) : Registers :=
  Function.update registers stat value

/-- `(count).saturating_add(delta).min(COUNT_MASK)` -/
def addCount (count delta : UInt32) : UInt32 :=
  min (UInt32.ofNat (min (count.toNat + delta.toNat) (2 ^ 32 - 1))) countMask

/-- `read_split`: the count, and whether a flag is set -/
def readSplit (reg : UInt32) : UInt32 × Bool := (reg &&& countMask, reg &&& flagMask != 0)

/-- `set_flag` -/
def setFlag (reg : UInt32) : UInt32 := (reg &&& countMask) ||| flag

/-- `increment_by`: the count, and the register -/
def incrementBy (reg delta : UInt32) : UInt32 × UInt32 :=
  let count := addCount (reg &&& countMask) delta
  (count, count ||| (reg &&& flagMask))

/-- `reset` -/
def reset (registers : Registers) : Registers :=
  let registers := [Stat.uptimeTotal, .uptimeCurrent, .boot, .por, .wdt, .panic, .fault].foldl
    (fun registers stat => write registers stat 0) registers
  write (write registers .uptimeTotal flag) .uptimeCurrent flag

/-! ### A boot -/

/-- `Stats` -/
structure Stats where
  bootReason : BootReason
  uptimeTotal : UInt32
  bootTotal : UInt32
  porTotal : UInt32
  wdtTotal : UInt32
  panicTotal : UInt32
  faultTotal : UInt32

/-- The validation of the time registers: both corrupt reset everything. -/
def validate (registers : Registers) : Registers :=
  let uptimePrevFlag := registers .uptimeCurrent &&& flagMask
  let uptimeTotalFlag := registers .uptimeTotal &&& flagMask
  let validPrev := if uptimePrevFlag != flag then write registers .uptimeCurrent flag else registers
  let validTotal := if uptimeTotalFlag != flag then write validPrev .uptimeTotal flag else validPrev
  if uptimePrevFlag != flag && uptimeTotalFlag != flag then reset validTotal else validTotal

/-- The detection of the boot reason -/
def detectReason (registers : Registers) (default : BootReason) : BootReason :=
  match (readSplit (registers .fault)).2, (readSplit (registers .panic)).2,
    (readSplit (registers .wdt)).2, (readSplit (registers .por)).2 with
  | true, _, _, _ => .hardFault
  | false, true, _, _ => .panic
  | false, false, true, _ => .watchdog
  | false, false, false, true => .powerOn
  | false, false, false, false => default

/-- The count of the reason, and whether a boot loop is found -/
def countReason (registers : Registers) (stats : Stats) : Bool × Stats × Registers :=
  match stats.bootReason with
  | .powerOn =>
    let porTotal := addCount stats.porTotal 1
    (20 < porTotal, { stats with porTotal := porTotal }, write registers .por porTotal)
  | .software => (30 < stats.bootTotal, stats, registers)
  | .hardFault =>
    let faultTotal := addCount stats.faultTotal 1
    (5 < faultTotal, { stats with faultTotal := faultTotal }, write registers .fault faultTotal)
  | .watchdog =>
    let wdtTotal := addCount stats.wdtTotal 1
    (5 < wdtTotal, { stats with wdtTotal := wdtTotal }, write registers .wdt wdtTotal)
  | .panic =>
    let panicTotal := addCount stats.panicTotal 1
    (5 < panicTotal, { stats with panicTotal := panicTotal }, write registers .panic panicTotal)
  | .unknown => (10 < stats.bootTotal, stats, registers)
  | .loop => (true, stats, registers)

/-- The update of the uptime and of the boot count, and the detection of the reason -/
def countBoot (registers : Registers) (default : BootReason) : Stats × Registers :=
  let uptimePrev := registers .uptimeCurrent &&& countMask
  let (uptimeTotal, reg) := incrementBy (registers .uptimeTotal) uptimePrev
  let registers := write (write registers .uptimeTotal reg) .uptimeCurrent flag
  let (bootTotal, reg) := incrementBy (registers .boot) 1
  let registers := write registers .boot reg
  let stats : Stats := {
    bootReason := detectReason registers default
    uptimeTotal := uptimeTotal
    bootTotal := bootTotal
    porTotal := (readSplit (registers .por)).1
    wdtTotal := (readSplit (registers .wdt)).1
    panicTotal := (readSplit (registers .panic)).1
    faultTotal := (readSplit (registers .fault)).1 }
  (stats, registers)

/-- `try_from_registers_or`, where the array has `Stat::COUNT` registers -/
def fromRegistersOr (registers : Registers) (default : BootReason) : Stats × Registers :=
  let (stats, registers) := countBoot (validate registers) default
  if 1800 ≤ stats.uptimeTotal then (stats, reset registers)
  else
    let (loopFound, stats, registers) := countReason registers stats
    if loopFound then ({ stats with bootReason := .loop }, reset registers) else (stats, registers)

/-- `try_from_registers_or`, for an array of `len` registers -/
def tryFromRegistersOr (len : ℕ) (registers : Registers) (default : BootReason) :
    Except Unit (Stats × Registers) :=
  if len < statCount then .error () else .ok (fromRegistersOr registers default)

/-! ### Counts and flags -/

section Bits

variable {count reg : UInt32}

lemma toNat_lt_of_le (h : count ≤ countMask) : count.toNat < 2 ^ 28 := Nat.lt_succ_of_le h

/-- A count has no flag. -/
lemma and_flagMask (h : count ≤ countMask) : count &&& flagMask = 0 := by
  apply UInt32.toNat_inj.mp
  rw [UInt32.toNat_and]
  change count.toNat &&& 15 * 2 ^ 28 = 0
  apply Nat.eq_of_testBit_eq
  intro i
  rw [Nat.testBit_and, Nat.zero_testBit]
  by_cases hi : i < 28
  · rw [Nat.testBit_mul_two_pow, decide_eq_false (by omega), Bool.false_and, Bool.and_false]
  · have hlt : count.toNat < 2 ^ i :=
      (toNat_lt_of_le h).trans_le (Nat.pow_le_pow_right (by decide) (by omega))
    rw [Nat.testBit_lt_two_pow hlt, Bool.false_and]

lemma and_countMask (h : count ≤ countMask) : count &&& countMask = count := by
  apply UInt32.toNat_inj.mp
  rw [UInt32.toNat_and]
  change count.toNat &&& (2 ^ 28 - 1) = count.toNat
  rw [Nat.and_two_pow_sub_one_eq_mod, Nat.mod_eq_of_lt (toNat_lt_of_le h)]

lemma addCount_toNat (count delta : UInt32) :
    (addCount count delta).toNat = min (count.toNat + delta.toNat) (2 ^ 28 - 1) := by
  have hsat : (UInt32.ofNat (min (count.toNat + delta.toNat) (2 ^ 32 - 1))).toNat =
      min (count.toNat + delta.toNat) (2 ^ 32 - 1) :=
    UInt32.toNat_ofNat_of_lt' (by change _ < 2 ^ 32; omega)
  have hmask : countMask.toNat = 2 ^ 28 - 1 := rfl
  change (if UInt32.ofNat (min (count.toNat + delta.toNat) (2 ^ 32 - 1)) ≤ countMask then
    UInt32.ofNat (min (count.toNat + delta.toNat) (2 ^ 32 - 1)) else countMask).toNat = _
  split <;> rename_i h <;> rw [UInt32.le_iff_toNat_le, hsat, hmask] at h <;> omega

lemma addCount_one_toNat (count : UInt32) : (addCount count 1).toNat = min (count.toNat + 1) (2 ^ 28 - 1) :=
  addCount_toNat count 1

lemma addCount_le (count delta : UInt32) : addCount count delta ≤ countMask := by
  rw [UInt32.le_iff_toNat_le, addCount_toNat]
  exact min_le_right _ _

/-- The count of a register has no flag. -/
lemma readSplit_addCount (count delta : UInt32) :
    readSplit (addCount count delta) = (addCount count delta, false) := by
  unfold readSplit
  rw [and_countMask (addCount_le _ _), and_flagMask (addCount_le _ _)]
  rfl

lemma or_and_right (a b mask : UInt32) : (a ||| b) &&& mask = a &&& mask ||| b &&& mask := by
  apply UInt32.toNat_inj.mp
  simp only [UInt32.toNat_and, UInt32.toNat_or]
  exact Nat.and_or_distrib_right _ _ _

lemma incrementBy_count (reg delta : UInt32) :
    (readSplit (incrementBy reg delta).2).1 = addCount (reg &&& countMask) delta := by
  change (addCount (reg &&& countMask) delta ||| reg &&& flagMask) &&& countMask = _
  rw [or_and_right, and_countMask (addCount_le _ _), UInt32.and_assoc, show flagMask &&& countMask = 0 by decide,
    UInt32.and_zero, UInt32.or_zero]

end Bits

/-! ### What a boot does -/

/-- The registers of the causes, in the order in which they are recognised -/
def causes : List Stat := [.fault, .panic, .wdt, .por]

/-- The register of a boot reason -/
def reasonStat : BootReason → Option Stat
  | .powerOn => some .por
  | .hardFault => some .fault
  | .watchdog => some .wdt
  | .panic => some .panic
  | .software | .unknown | .loop => none

/-- The total of a cause -/
def Stats.total (stats : Stats) : Stat → UInt32
  | .por => stats.porTotal
  | .wdt => stats.wdtTotal
  | .panic => stats.panicTotal
  | .fault => stats.faultTotal
  | .uptimeTotal => stats.uptimeTotal
  | .uptimeCurrent => 0
  | .boot => stats.bootTotal

def Flagged (registers : Registers) (stat : Stat) : Prop := (readSplit (registers stat)).2 = true

instance (registers : Registers) (stat : Stat) : Decidable (Flagged registers stat) :=
  inferInstanceAs (Decidable (_ = true))

def count (registers : Registers) (stat : Stat) : ℕ := (readSplit (registers stat)).1.toNat

/-- Neither of the time registers is valid. -/
def Corrupt (registers : Registers) : Prop :=
  registers .uptimeCurrent &&& flagMask ≠ flag ∧ registers .uptimeTotal &&& flagMask ≠ flag

instance (registers : Registers) : Decidable (Corrupt registers) := inferInstanceAs (Decidable (_ ∧ _))

/-- The seconds of a time register that is valid -/
def uptime (registers : Registers) (stat : Stat) : ℕ :=
  if registers stat &&& flagMask = flag then count registers stat else 0

/-- The counts make one more boot for the reason a boot loop. -/
def LoopCounts (counts : Stat → ℕ) : BootReason → Prop
  | .powerOn => 20 ≤ counts .por
  | .software => 30 ≤ counts .boot
  | .hardFault => 5 ≤ counts .fault
  | .watchdog => 5 ≤ counts .wdt
  | .panic => 5 ≤ counts .panic
  | .unknown => 10 ≤ counts .boot
  | .loop => True

instance (counts : Stat → ℕ) : DecidablePred (LoopCounts counts) := fun reason => by
  cases reason <;> unfold LoopCounts <;> infer_instance

/-- One more boot for the reason is a boot loop. -/
def LoopFound (registers : Registers) : BootReason → Prop := LoopCounts (count registers)

instance (registers : Registers) : DecidablePred (LoopFound registers) :=
  inferInstanceAs (DecidablePred (LoopCounts _))

/-- The count that a boot leaves in a register, if it does not reset -/
def countNext (registers : Registers) (default : BootReason) (stat : Stat) : ℕ :=
  count registers stat +
    if stat = .boot ∨ reasonStat (detectReason registers default) = some stat then 1 else 0

/-- The boot does not reset, and leaves counts that make the next boot a boot loop, where that one has the
default `default'`. -/
def LoopNext (registers : Registers) (default default' : BootReason) : Prop :=
  ¬Corrupt registers ∧ uptime registers .uptimeTotal + uptime registers .uptimeCurrent < 1800 ∧
    ¬LoopFound registers (detectReason registers default) ∧
      default' ≠ .loop ∧ LoopCounts (countNext registers default) default'

instance (registers : Registers) (default default' : BootReason) :
    Decidable (LoopNext registers default default') := inferInstanceAs (Decidable (_ ∧ _))

section Boot

variable {registers : Registers} {default : BootReason} {stat : Stat}

lemma reset_apply (registers : Registers) (stat : Stat) :
    reset registers stat = if stat = .uptimeTotal ∨ stat = .uptimeCurrent then flag else 0 := by
  cases stat <;> rfl

lemma reset_cause (registers : Registers) (hc : stat ∈ causes) : reset registers stat = 0 := by
  rw [reset_apply, if_neg]
  revert hc
  cases stat <;> decide

lemma reset_eq (registers registers' : Registers) : reset registers = reset registers' := by
  funext stat
  rw [reset_apply, reset_apply]

lemma validate_of_corrupt (h : Corrupt registers) : validate registers = reset registers := by
  unfold validate
  simp only [bne_iff_ne.mpr h.1, bne_iff_ne.mpr h.2, Bool.and_self, if_true]
  exact reset_eq _ _

/-- A register that is valid is kept, a time register that is not is emptied. -/
lemma validate_apply (h : ¬Corrupt registers) (stat : Stat) :
    validate registers stat =
      if (stat = .uptimeTotal ∨ stat = .uptimeCurrent) ∧ registers stat &&& flagMask ≠ flag then flag
      else registers stat := by
  unfold Corrupt at h
  unfold validate
  by_cases hcurrent : registers .uptimeCurrent &&& flagMask = flag <;>
    by_cases htotal : registers .uptimeTotal &&& flagMask = flag
  · cases stat <;> simp [hcurrent, htotal]
  · cases stat <;> simp [hcurrent, htotal, write]
  · cases stat <;> simp [hcurrent, htotal, write]
  · exact absurd ⟨hcurrent, htotal⟩ h

lemma validate_cause (h : ¬Corrupt registers) (hc : stat ∈ causes) :
    validate registers stat = registers stat := by
  rw [validate_apply h, if_neg]
  rintro ⟨rfl | rfl, -⟩ <;> revert hc <;> decide

/-- One of the causes with a flag is recognised. -/
lemma detectReason_of_flagged (default : BootReason) (hc : stat ∈ causes) (h : Flagged registers stat) :
    ∃ c ∈ causes, Flagged registers c ∧ reasonStat (detectReason registers default) = some c := by
  unfold detectReason
  by_cases hfault : Flagged registers .fault
  · refine ⟨.fault, by decide, hfault, ?_⟩
    rw [hfault]
    rfl
  by_cases hpanic : Flagged registers .panic
  · refine ⟨.panic, by decide, hpanic, ?_⟩
    rw [Bool.eq_false_iff.mpr hfault, hpanic]
    rfl
  by_cases hwdt : Flagged registers .wdt
  · refine ⟨.wdt, by decide, hwdt, ?_⟩
    rw [Bool.eq_false_iff.mpr hfault, Bool.eq_false_iff.mpr hpanic, hwdt]
    rfl
  by_cases hpor : Flagged registers .por
  · refine ⟨.por, by decide, hpor, ?_⟩
    rw [Bool.eq_false_iff.mpr hfault, Bool.eq_false_iff.mpr hpanic, Bool.eq_false_iff.mpr hwdt, hpor]
    rfl
  · simp only [causes, List.mem_cons, List.not_mem_nil, or_false] at hc
    rcases hc with rfl | rfl | rfl | rfl <;> contradiction

lemma detectReason_of_not_flagged (default : BootReason) (h : ∀ c ∈ causes, ¬Flagged registers c) :
    detectReason registers default = default := by
  unfold detectReason
  rw [Bool.eq_false_iff.mpr (h .fault (by decide)), Bool.eq_false_iff.mpr (h .panic (by decide)),
    Bool.eq_false_iff.mpr (h .wdt (by decide)), Bool.eq_false_iff.mpr (h .por (by decide))]

lemma countBoot_bootReason :
    (countBoot registers default).1.bootReason = detectReason registers default := rfl

lemma countBoot_cause (hc : stat ∈ causes) : (countBoot registers default).2 stat = registers stat := by
  simp only [causes, List.mem_cons, List.not_mem_nil, or_false] at hc
  rcases hc with rfl | rfl | rfl | rfl <;> rfl

lemma countBoot_total (hc : stat ∈ causes) :
    (countBoot registers default).1.total stat = (readSplit (registers stat)).1 := by
  simp only [causes, List.mem_cons, List.not_mem_nil, or_false] at hc
  rcases hc with rfl | rfl | rfl | rfl <;> rfl

lemma countBoot_uptimeTotal : (countBoot registers default).1.uptimeTotal.toNat =
    min (count registers .uptimeTotal + count registers .uptimeCurrent) (2 ^ 28 - 1) :=
  addCount_toNat _ _

lemma countReason_bootReason (registers : Registers) (stats : Stats) :
    (countReason registers stats).2.1.bootReason = stats.bootReason := by
  unfold countReason
  split <;> rename_i h <;> simp [h]

/-- Only the register of the recognised cause is written, without a flag. -/
lemma countReason_register (registers : Registers) (stats : Stats) (stat : Stat) :
    (countReason registers stats).2.2 stat =
      if reasonStat stats.bootReason = some stat then addCount (stats.total stat) 1
      else registers stat := by
  unfold countReason
  split <;> rename_i h <;> rw [h] <;> cases stat <;> rfl

lemma countReason_total (registers : Registers) (stats : Stats) (stat : Stat) :
    (countReason registers stats).2.1.total stat =
      if reasonStat stats.bootReason = some stat then addCount (stats.total stat) 1
      else stats.total stat := by
  unfold countReason
  split <;> rename_i h <;> rw [h] <;> cases stat <;> rfl

lemma lt_addCount_iff {n : UInt32} (hn : n < 100) (value : UInt32) :
    n < addCount value 1 ↔ n.toNat ≤ value.toNat := by
  have hn : n.toNat < 100 := UInt32.lt_iff_toNat_lt.mp hn
  rw [UInt32.lt_iff_toNat_lt, addCount_one_toNat]
  omega

/-- The boot loops that the counts show -/
lemma countReason_loop :
    (countReason (countBoot registers default).2 (countBoot registers default).1).1 = true ↔
      LoopFound registers (detectReason registers default) := by
  unfold countReason
  rw [countBoot_bootReason]
  cases detectReason registers default <;> simp only [LoopFound, LoopCounts, decide_eq_true_eq]
  case powerOn => exact lt_addCount_iff (by decide) _
  case hardFault => exact lt_addCount_iff (by decide) _
  case watchdog => exact lt_addCount_iff (by decide) _
  case panic => exact lt_addCount_iff (by decide) _
  case software => exact lt_addCount_iff (by decide) _
  case unknown => exact lt_addCount_iff (by decide) _

lemma uptimeTotal_iff : 1800 ≤ (countBoot registers default).1.uptimeTotal ↔
    1800 ≤ count registers .uptimeTotal + count registers .uptimeCurrent := by
  rw [UInt32.le_iff_toNat_le, countBoot_uptimeTotal, show (1800 : UInt32).toNat = 1800 from rfl]
  omega

/-- The boot resets the registers that passed the validation. -/
def Resets (registers : Registers) (default : BootReason) : Prop :=
  1800 ≤ count registers .uptimeTotal + count registers .uptimeCurrent ∨
    LoopFound registers (detectReason registers default)

lemma fromRegistersOr_reset (h : Resets (validate registers) default) :
    (fromRegistersOr registers default).2 = reset registers := by
  unfold fromRegistersOr
  by_cases htime : 1800 ≤ (countBoot (validate registers) default).1.uptimeTotal
  · simp only [if_pos htime]
    exact reset_eq _ _
  · have hloop := countReason_loop.mpr (h.resolve_left (mt uptimeTotal_iff.mpr htime))
    simp only [if_neg htime, hloop, if_true]
    exact reset_eq _ _

/-- The registers after any other boot -/
lemma fromRegistersOr_not_reset (h : ¬Resets (validate registers) default) (stat : Stat) :
    (fromRegistersOr registers default).2 stat =
      if reasonStat (detectReason (validate registers) default) = some stat then
        addCount ((countBoot (validate registers) default).1.total stat) 1
      else (countBoot (validate registers) default).2 stat := by
  unfold fromRegistersOr
  have htime : ¬1800 ≤ (countBoot (validate registers) default).1.uptimeTotal :=
    mt uptimeTotal_iff.mp (not_or.mp h).1
  have hloop := Bool.eq_false_iff.mpr (mt countReason_loop.mp (not_or.mp h).2)
  simp only [if_neg htime, hloop, Bool.false_eq_true, if_false]
  rw [countReason_register, countBoot_bootReason]

lemma fromRegistersOr_counted (h : ¬Resets (validate registers) default) (hc : stat ∈ causes) :
    (fromRegistersOr registers default).2 stat =
      if reasonStat (detectReason (validate registers) default) = some stat then
        addCount (readSplit (validate registers stat)).1 1
      else validate registers stat := by
  rw [fromRegistersOr_not_reset h, countBoot_total hc, countBoot_cause hc]

lemma reasonStat_ne (reason : BootReason) (hc : stat ∉ causes) : reasonStat reason ≠ some stat := by
  rintro h
  revert hc
  cases reason <;> cases h <;> decide

lemma fromRegistersOr_uncaused (h : ¬Resets (validate registers) default) (hc : stat ∉ causes) :
    (fromRegistersOr registers default).2 stat = (countBoot (validate registers) default).2 stat := by
  rw [fromRegistersOr_not_reset h, if_neg (reasonStat_ne _ hc)]

/-- The current uptime starts anew. -/
lemma fromRegistersOr_uptimeCurrent (registers : Registers) (default : BootReason) :
    (fromRegistersOr registers default).2 .uptimeCurrent = flag := by
  by_cases h : Resets (validate registers) default
  · rw [fromRegistersOr_reset h]
    rfl
  · rw [fromRegistersOr_uncaused h (by decide)]
    rfl

lemma fromRegistersOr_total (registers : Registers) (default : BootReason) (hc : stat ∈ causes) :
    (fromRegistersOr registers default).1.total stat = (readSplit (validate registers stat)).1 ∨
      (fromRegistersOr registers default).1.total stat =
        addCount (readSplit (validate registers stat)).1 1 := by
  have hcounted : (countReason (countBoot (validate registers) default).2
      (countBoot (validate registers) default).1).2.1.total stat = (readSplit (validate registers stat)).1 ∨
      (countReason (countBoot (validate registers) default).2
        (countBoot (validate registers) default).1).2.1.total stat =
        addCount (readSplit (validate registers stat)).1 1 := by
    rw [countReason_total, countBoot_total hc]
    split
    · exact .inr rfl
    · exact .inl rfl
  unfold fromRegistersOr
  by_cases htime : 1800 ≤ (countBoot (validate registers) default).1.uptimeTotal
  · simp only [if_pos htime]
    exact .inl (countBoot_total hc)
  · simp only [if_neg htime]
    split
    · exact hcounted
    · exact hcounted

/-- The reported reason is the recognised one, but for a boot loop. -/
lemma fromRegistersOr_bootReason (registers : Registers) (default : BootReason) :
    (fromRegistersOr registers default).1.bootReason =
      if count (validate registers) .uptimeTotal + count (validate registers) .uptimeCurrent < 1800 ∧
          LoopFound (validate registers) (detectReason (validate registers) default) then .loop
      else detectReason (validate registers) default := by
  unfold fromRegistersOr
  by_cases htime : 1800 ≤ (countBoot (validate registers) default).1.uptimeTotal
  · have htotal := uptimeTotal_iff.mp htime
    simp only [if_pos htime]
    rw [if_neg (fun h => by omega)]
    rfl
  · have htotal := mt uptimeTotal_iff.mpr htime
    simp only [if_neg htime]
    by_cases hloop : LoopFound (validate registers) (detectReason (validate registers) default)
    · rw [if_pos (countReason_loop.mpr hloop), if_pos ⟨by omega, hloop⟩]
    · rw [if_neg (mt countReason_loop.mp hloop), if_neg (fun h => hloop h.2)]
      exact countReason_bootReason _ _

end Boot

/-! ### The flags after a boot -/

section Consumed

variable {registers registers' : Registers} {default : BootReason} {stat : Stat}

lemma not_flagged_of_zero (h : registers stat = 0) : ¬Flagged registers stat := by
  unfold Flagged
  rw [h]
  decide

lemma count_of_zero (h : registers stat = 0) : count registers stat = 0 := by
  unfold count
  rw [h]
  rfl

lemma count_validate_le (registers : Registers) (stat : Stat) :
    count (validate registers) stat ≤ count registers stat := by
  by_cases h : Corrupt registers
  · rw [validate_of_corrupt h]
    unfold count
    rw [reset_apply]
    split <;> exact Nat.zero_le _
  · unfold count
    rw [validate_apply h]
    split
    · exact Nat.zero_le _
    · exact Nat.le_refl _

/-- Counts of which the limits are reached together -/
lemma loopCounts_congr {counts counts' : Stat → ℕ}
    (h : ∀ stat, stat = .boot ∨ stat ∈ causes → ∀ n ≤ 30, (n ≤ counts stat ↔ n ≤ counts' stat))
    (reason : BootReason) : LoopCounts counts reason ↔ LoopCounts counts' reason := by
  cases reason with
  | unknown | software => exact h .boot (by decide) _ (by decide)
  | powerOn => exact h .por (by decide) _ (by decide)
  | hardFault => exact h .fault (by decide) _ (by decide)
  | watchdog => exact h .wdt (by decide) _ (by decide)
  | panic => exact h .panic (by decide) _ (by decide)
  | loop => exact Iff.rfl

/-- Below all limits no reason is a boot loop but `Loop` itself. -/
lemma not_loopCounts {counts : Stat → ℕ} (h : ∀ stat, stat = .boot ∨ stat ∈ causes → counts stat < 5)
    {reason : BootReason} (hreason : reason ≠ .loop) : ¬LoopCounts counts reason := by
  have hboot := h .boot (by decide)
  cases reason with
  | unknown | software => exact fun hloop => absurd (hboot.trans_le' hloop) (by decide)
  | powerOn => exact fun hloop => absurd ((h .por (by decide)).trans_le' hloop) (by decide)
  | hardFault => exact Nat.not_le.mpr (h .fault (by decide))
  | watchdog => exact Nat.not_le.mpr (h .wdt (by decide))
  | panic => exact Nat.not_le.mpr (h .panic (by decide))
  | loop => exact absurd rfl hreason

/-- A boot counts no cause more than once. -/
lemma count_fromRegistersOr_le (hc : stat ∈ causes) :
    count (fromRegistersOr registers default).2 stat ≤ count registers stat + 1 := by
  have hvalid := count_validate_le registers stat
  by_cases h : Resets (validate registers) default
  · rw [fromRegistersOr_reset h, count_of_zero (reset_cause _ hc)]
    exact Nat.zero_le _
  · unfold count at hvalid ⊢
    rw [fromRegistersOr_counted h hc]
    split
    · rw [readSplit_addCount, addCount_one_toNat]
      omega
    · omega

lemma total_fromRegistersOr_le (hc : stat ∈ causes) :
    ((fromRegistersOr registers default).1.total stat).toNat ≤ count registers stat + 1 := by
  have hvalid := count_validate_le registers stat
  unfold count at hvalid ⊢
  rcases fromRegistersOr_total registers default hc with h | h
  · rw [h]
    omega
  · rw [h, addCount_one_toNat]
    omega

/-- A boot that finds no flag recognises the default. -/
lemma detectReason_validate_of_not_flagged (h : ∀ c ∈ causes, ¬Flagged registers c) :
    detectReason (validate registers) default = default := by
  apply detectReason_of_not_flagged
  intro c hc
  by_cases hcorrupt : Corrupt registers
  · rw [validate_of_corrupt hcorrupt]
    exact not_flagged_of_zero (reset_cause _ hc)
  · unfold Flagged
    rw [validate_cause hcorrupt hc]
    exact h c hc

def AtMostOneCause (registers : Registers) : Prop :=
  ∀ a ∈ causes, ∀ b ∈ causes, Flagged registers a → Flagged registers b → a = b

instance (registers : Registers) : Decidable (AtMostOneCause registers) :=
  inferInstanceAs (Decidable (∀ a ∈ causes, ∀ b ∈ causes, _ → _ → a = b))

lemma flagged_validate (h : ¬Corrupt registers) (hc : stat ∈ causes) :
    Flagged (validate registers) stat ↔ Flagged registers stat := by
  unfold Flagged
  rw [validate_cause h hc]

lemma detectReason_validate (h : ¬Corrupt registers) :
    detectReason (validate registers) default = detectReason registers default := by
  unfold detectReason
  rw [validate_cause h (by decide), validate_cause h (by decide), validate_cause h (by decide),
    validate_cause h (by decide)]

lemma uptime_eq (h : ¬Corrupt registers) (hs : stat = .uptimeTotal ∨ stat = .uptimeCurrent) :
    count (validate registers) stat = uptime registers stat := by
  unfold uptime count
  rw [validate_apply h]
  by_cases hflag : registers stat &&& flagMask = flag
  · rw [if_neg (fun hn => hn.2 hflag), if_pos hflag]
  · rw [if_pos ⟨hs, hflag⟩, if_neg hflag]
    rfl

lemma count_validate (h : ¬Corrupt registers) (hs : stat = .boot ∨ stat ∈ causes) :
    count (validate registers) stat = count registers stat := by
  unfold count
  rw [validate_apply h, if_neg]
  rintro ⟨rfl | rfl, -⟩ <;> revert hs <;> decide

lemma loopFound_validate (h : ¬Corrupt registers) {reason : BootReason} :
    LoopFound (validate registers) reason ↔ LoopFound registers reason := by
  apply loopCounts_congr
  intro stat hs n _
  rw [count_validate h hs]

lemma resets_validate (h : ¬Corrupt registers) : Resets (validate registers) default ↔
    1800 ≤ uptime registers .uptimeTotal + uptime registers .uptimeCurrent ∨
      LoopFound registers (detectReason registers default) := by
  unfold Resets
  rw [uptime_eq h (.inl rfl), uptime_eq h (.inr rfl), detectReason_validate h, loopFound_validate h]

/-- A boot that does not reset leaves exactly the flags that it did not recognise. -/
lemma flagged_counted (h : ¬Resets (validate registers) default) (hc : stat ∈ causes) :
    Flagged (fromRegistersOr registers default).2 stat ↔
      Flagged (validate registers) stat ∧
        reasonStat (detectReason (validate registers) default) ≠ some stat := by
  unfold Flagged
  rw [fromRegistersOr_counted h hc]
  by_cases hreason : reasonStat (detectReason (validate registers) default) = some stat
  · rw [if_pos hreason, readSplit_addCount]
    simp [hreason]
  · rw [if_neg hreason]
    simp [hreason]

/-- **The flags after a boot.** They are all cleared if there is at most one, or if the boot resets. -/
theorem flags_cleared_iff : (∀ c ∈ causes, ¬Flagged (fromRegistersOr registers default).2 c) ↔
    AtMostOneCause registers ∨ Corrupt registers ∨
      1800 ≤ uptime registers .uptimeTotal + uptime registers .uptimeCurrent ∨
        LoopFound registers (detectReason registers default) := by
  by_cases hresets : Resets (validate registers) default
  · rw [fromRegistersOr_reset hresets]
    refine iff_of_true (fun c hc => not_flagged_of_zero (reset_cause _ hc)) ?_
    by_cases hcorrupt : Corrupt registers
    · exact .inr (.inl hcorrupt)
    · exact .inr (.inr ((resets_validate hcorrupt).mp hresets))
  by_cases hcorrupt : Corrupt registers
  · refine iff_of_true (fun c hc hflag => ?_) (.inr (.inl hcorrupt))
    have hbefore := ((flagged_counted hresets hc).mp hflag).1
    rw [validate_of_corrupt hcorrupt] at hbefore
    exact not_flagged_of_zero (reset_cause _ hc) hbefore
  have hcounted : ∀ c ∈ causes, Flagged (fromRegistersOr registers default).2 c ↔
      Flagged registers c ∧ reasonStat (detectReason registers default) ≠ some c := by
    intro c hc
    rw [flagged_counted hresets hc, flagged_validate hcorrupt hc, detectReason_validate hcorrupt]
  rw [resets_validate hcorrupt] at hresets
  constructor
  · intro h
    -- both flags belong to the cause that is recognised
    have hreason : ∀ c ∈ causes, Flagged registers c →
        reasonStat (detectReason registers default) = some c := by
      intro c hc hflag
      by_contra hne
      exact h c hc ((hcounted c hc).mpr ⟨hflag, hne⟩)
    refine .inl fun a ha b hb hfa hfb => ?_
    exact Option.some.inj ((hreason a ha hfa).symm.trans (hreason b hb hfb))
  · rintro (hone | hrest) c hc hflag
    · obtain ⟨hflag, hne⟩ := (hcounted c hc).mp hflag
      obtain ⟨c', hc', hflag', hreason⟩ := detectReason_of_flagged default hc hflag
      rw [hone c' hc' c hc hflag' hflag] at hreason
      exact hne hreason
    · exact (hrest.elim hcorrupt hresets).elim

/-! ### The next boot -/

/-- The registers at the next boot, if no flag is set until then: the application has counted its uptime. -/
def Following (after next : Registers) : Prop :=
  (∀ stat, stat ≠ .uptimeCurrent → next stat = after stat) ∧
    next .uptimeCurrent &&& flagMask = after .uptimeCurrent &&& flagMask

lemma count_lt (registers : Registers) (stat : Stat) : count registers stat < 2 ^ 28 := by
  change (registers stat &&& countMask).toNat < 2 ^ 28
  rw [UInt32.toNat_and]
  exact Nat.lt_succ_of_le Nat.and_le_right

/-- The counts after a boot that does not reset -/
lemma count_counted (h : ¬Resets (validate registers) default) (hs : stat = .boot ∨ stat ∈ causes) :
    count (fromRegistersOr registers default).2 stat =
      min (countNext (validate registers) default stat) (2 ^ 28 - 1) := by
  have hlt := count_lt (validate registers) stat
  have hadd : (addCount (readSplit (validate registers stat)).1 1).toNat =
      min (count (validate registers) stat + 1) (2 ^ 28 - 1) := addCount_one_toNat _
  rcases hs with rfl | hc
  · have hboot : (fromRegistersOr registers default).2 .boot =
        (incrementBy (validate registers .boot) 1).2 := fromRegistersOr_uncaused h (by decide)
    unfold countNext
    rw [if_pos (.inl rfl), ← hadd]
    unfold count
    rw [hboot, incrementBy_count]
    rfl
  · have hboot : stat ≠ .boot := by
      rintro rfl
      revert hc
      decide
    unfold countNext
    by_cases hreason : reasonStat (detectReason (validate registers) default) = some stat
    · rw [if_pos (.inr hreason), ← hadd]
      unfold count
      rw [fromRegistersOr_counted h hc, if_pos hreason, readSplit_addCount]
    · rw [if_neg (not_or.mpr ⟨hboot, hreason⟩), Nat.add_zero, min_eq_left (by omega)]
      unfold count
      rw [fromRegistersOr_counted h hc, if_neg hreason]

lemma loopFound_counted (h : ¬Resets (validate registers) default) (reason : BootReason) :
    LoopFound (fromRegistersOr registers default).2 reason ↔
      LoopCounts (countNext (validate registers) default) reason := by
  apply loopCounts_congr
  intro stat hs n hn
  rw [count_counted h hs]
  omega

/-- The uptime that a boot leaves does not reset the next one, unless the application counts on. -/
lemma uptime_counted (h : ¬Resets (validate registers) default) :
    uptime (fromRegistersOr registers default).2 .uptimeTotal < 1800 := by
  have htotal : (fromRegistersOr registers default).2 .uptimeTotal =
      (incrementBy (validate registers .uptimeTotal) (validate registers .uptimeCurrent &&& countMask)).2 :=
    fromRegistersOr_uncaused h (by decide)
  have hcount : count (fromRegistersOr registers default).2 .uptimeTotal =
      min (count (validate registers) .uptimeTotal + count (validate registers) .uptimeCurrent)
        (2 ^ 28 - 1) := by
    unfold count
    rw [htotal, incrementBy_count, addCount_toNat]
    rfl
  have hshort := (not_or.mp h).1
  unfold uptime
  split <;> omega

/-- A boot loop at the next boot, from the registers before this one -/
lemma loop_after_iff (registers : Registers) (default default' : BootReason) :
    (uptime (fromRegistersOr registers default).2 .uptimeTotal < 1800 ∧
        LoopFound (fromRegistersOr registers default).2 default' ∧ default' ≠ .loop) ↔
      LoopNext registers default default' := by
  by_cases hresets : Resets (validate registers) default
  · refine iff_of_false ?_ ?_
    · rintro ⟨-, hloop, hreason⟩
      refine not_loopCounts (fun stat hs => ?_) hreason hloop
      rw [fromRegistersOr_reset hresets, count_of_zero]
      · decide
      · rw [reset_apply, if_neg]
        rintro (rfl | rfl) <;> revert hs <;> decide
    · rintro ⟨hcorrupt, htime, hloop, -⟩
      rw [resets_validate hcorrupt] at hresets
      exact hresets.elim (Nat.not_le.mpr htime) hloop
  rw [and_iff_right (uptime_counted hresets), loopFound_counted hresets]
  by_cases hcorrupt : Corrupt registers
  · refine iff_of_false ?_ (fun h => h.1 hcorrupt)
    rintro ⟨hloop, hreason⟩
    refine not_loopCounts (fun stat hs => ?_) hreason hloop
    have hzero : count (validate registers) stat = 0 := by
      rw [validate_of_corrupt hcorrupt, count_of_zero]
      rw [reset_apply, if_neg]
      rintro (rfl | rfl) <;> revert hs <;> decide
    unfold countNext
    split <;> omega
  · have hnext : LoopCounts (countNext (validate registers) default) default' ↔
        LoopCounts (countNext registers default) default' := by
      apply loopCounts_congr
      intro stat hs n _
      unfold countNext
      rw [count_validate hcorrupt hs, detectReason_validate hcorrupt]
    rw [resets_validate hcorrupt, not_or, not_le] at hresets
    rw [hnext]
    exact ⟨fun h => ⟨hcorrupt, hresets.1, hresets.2, h.2, h.1⟩, fun h => ⟨h.2.2.2.2, h.2.2.2.1⟩⟩

/-- What the next boots report, after a boot that left no flag -/
lemma reports_iff {after : Registers} (hflags : ∀ c ∈ causes, ¬Flagged after c)
    (hcurrent : after .uptimeCurrent = flag) :
    (∀ next, Following after next → (fromRegistersOr next default).1.bootReason = default) ↔
      ¬(uptime after .uptimeTotal < 1800 ∧ LoopFound after default ∧ default ≠ .loop) := by
  have hnext : ∀ next, Following after next → (fromRegistersOr next default).1.bootReason =
      if uptime after .uptimeTotal + uptime next .uptimeCurrent < 1800 ∧ LoopFound after default then .loop
      else default := by
    intro next hnext
    have hcorrupt : ¬Corrupt next := fun h => h.1 (by rw [hnext.2, hcurrent]; rfl)
    have hflags : ∀ c ∈ causes, ¬Flagged next c := by
      intro c hc
      unfold Flagged
      rw [hnext.1 c (by rintro rfl; revert hc; decide)]
      exact hflags c hc
    have htotal : uptime next .uptimeTotal = uptime after .uptimeTotal := by
      unfold uptime count
      rw [hnext.1 _ (by decide)]
    have hcount : LoopFound next default ↔ LoopFound after default := by
      apply loopCounts_congr
      intro stat hs n _
      unfold count
      rw [hnext.1 stat (by rintro rfl; revert hs; decide)]
    rw [fromRegistersOr_bootReason, detectReason_validate_of_not_flagged hflags, uptime_eq hcorrupt (.inl rfl),
      uptime_eq hcorrupt (.inr rfl), htotal]
    simp only [loopFound_validate hcorrupt, hcount]
  constructor
  · rintro h ⟨htime, hloop, hreason⟩
    have hsame := h after ⟨fun _ _ => rfl, rfl⟩
    have hzero : uptime after .uptimeCurrent = 0 := by
      unfold uptime count
      rw [hcurrent]
      rfl
    rw [hnext after ⟨fun _ _ => rfl, rfl⟩, hzero, if_pos ⟨htime, hloop⟩] at hsame
    exact hreason hsame.symm
  · intro h next hfollows
    rw [hnext next hfollows]
    split
    · rename_i hloop
      by_contra hreason
      exact h ⟨by omega, hloop.2, fun heq => hreason heq.symm⟩
    · rfl

/-- The causes are consumed by a boot: their flags are cleared, their counters incremented at most once, and
a next boot with the default `default` reports it if no flag is set until then. -/
def CausesConsumed (registers : Registers) (stats : Stats) (after : Registers) (default : BootReason) :
    Prop :=
  (∀ c ∈ causes, ¬Flagged after c) ∧
    (∀ c ∈ causes, count after c ≤ count registers c + 1 ∧ (stats.total c).toNat ≤ count registers c + 1) ∧
    ∀ next, Following after next → (fromRegistersOr next default).1.bootReason = default

/-- **Boot causes are consumed** exactly if the registers have at most one flag or the boot resets them
(corrupt time registers, half an hour of uptime, or a boot loop), and the next boot is no boot loop. -/
theorem causesConsumed_iff {len : ℕ} (hlen : statCount ≤ len) (registers : Registers)
    (default default' : BootReason) :
    (∃ stats after, tryFromRegistersOr len registers default = .ok (stats, after) ∧
        CausesConsumed registers stats after default') ↔
      (AtMostOneCause registers ∨ Corrupt registers ∨
        1800 ≤ uptime registers .uptimeTotal + uptime registers .uptimeCurrent ∨
          LoopFound registers (detectReason registers default)) ∧
        ¬LoopNext registers default default' := by
  have hok : tryFromRegistersOr len registers default = .ok (fromRegistersOr registers default) :=
    if_neg (Nat.not_lt.mpr hlen)
  have hcurrent := fromRegistersOr_uptimeCurrent registers default
  rw [← flags_cleared_iff, ← loop_after_iff, hok]
  constructor
  · rintro ⟨stats, after, heq, hflags, -, hreports⟩
    rw [Except.ok.inj heq] at hcurrent ⊢
    exact ⟨hflags, (reports_iff hflags hcurrent).mp hreports⟩
  · rintro ⟨hflags, hnext⟩
    refine ⟨_, _, rfl, hflags, fun c hc => ?_, (reports_iff hflags hcurrent).mpr hnext⟩
    exact ⟨count_fromRegistersOr_le hc, total_fromRegistersOr_le hc⟩

/-- After seven boots of 100 s each, two of them by a loss of power: the flag of a third loss -/
def powerLost : Registers := fun stat =>
  match stat with
  | .por => setFlag 2
  | .boot => 7
  | .uptimeTotal => flag ||| 600
  | .uptimeCurrent => flag ||| 100
  | _ => 0

theorem causesConsumed_powerLost :
    ∃ stats after, tryFromRegistersOr 7 powerLost .software = .ok (stats, after) ∧
      CausesConsumed powerLost stats after .unknown :=
  (causesConsumed_iff (by decide) powerLost .software .unknown).mpr ⟨.inl (by decide), by decide⟩

/-- Valid registers without counts, with the flags of the fault handler and of the panic handler in it -/
def panicInFault : Registers := fun stat =>
  if stat = .fault ∨ stat = .panic then setFlag 0
  else if stat = .uptimeTotal ∨ stat = .uptimeCurrent then flag else 0

/-- The hard fault is recognised; the flag of the panic stays, and the next boot reports a panic. -/
theorem panic_reported_later :
    let first := fromRegistersOr panicInFault .unknown
    tryFromRegistersOr 7 panicInFault .unknown = .ok first ∧ first.1.bootReason = .hardFault ∧
      Flagged first.2 .panic ∧ (fromRegistersOr first.2 .unknown).1.bootReason = .panic ∧
        ¬CausesConsumed panicInFault first.1 first.2 .unknown := by
  have hflag : Flagged (fromRegistersOr panicInFault .unknown).2 .panic := by decide
  exact ⟨rfl, by decide, hflag, by decide, fun h => h.1 .panic (by decide) hflag⟩

end Consumed

end BootStats

end SensorLink.Firmware
