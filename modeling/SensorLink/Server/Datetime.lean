import Mathlib.Tactic.Ring
import SensorLink.Lib.Gregorian

/-!
# Timestamps and date-times

`datetime_from_millis` and `datetime_from_micros`, over what they use of `chrono`. A timestamp is split into
seconds and a remainder towards zero, and the remainder is cast to `u32`.
-/

namespace SensorLink.Server

open SensorLink.Lib.Gregorian

/-- What the code uses of `chrono`: `DateTime<Utc>` and `NaiveDate`. -/
structure Chrono where
  DateTime : Type
  NaiveDate : Type
  /-- The nanoseconds since the epoch -/
  instant : DateTime → ℤ
  /-- The days of `NaiveDate::MIN` and `NaiveDate::MAX`, since the epoch -/
  firstDay : ℤ
  lastDay : ℤ
  fromTimestamp : ℤ → ℕ → Option DateTime
  timestampMillis : DateTime → ℤ
  timestampMicros : DateTime → ℤ
  year : DateTime → ℤ
  month : DateTime → ℕ
  day : DateTime → ℕ
  hour : DateTime → ℕ
  /-- `dt + Duration::hours(n)`, or none when it panics -/
  addHours : DateTime → ℕ → Option DateTime
  fromYmdOpt : ℤ → ℕ → ℕ → Option NaiveDate
  /-- `Utc.from_utc_datetime(&date.and_time(noon))` -/
  atNoon : NaiveDate → DateTime

namespace Chrono

variable (c : Chrono)

def InRange (day : ℤ) : Prop := c.firstDay ≤ day ∧ day ≤ c.lastDay

/-- The day of an instant -/
def dayOf (instant : ℤ) : ℤ := instant / (86400 * 1000000000)

/-- What the documentation of `chrono` says: the calendar is the proleptic Gregorian one, without leap
seconds. -/
structure Lawful : Prop where
  epoch : c.InRange 0
  inRange : ∀ dt, c.InRange (dayOf (c.instant dt))
  fromTimestamp : ∀ secs nsecs, nsecs < 1000000000 → c.InRange (secs / 86400) →
    ∃ dt, c.fromTimestamp secs nsecs = some dt ∧ c.instant dt = secs * 1000000000 + nsecs
  fromTimestamp_none : ∀ secs nsecs, ¬c.InRange (secs / 86400) → c.fromTimestamp secs nsecs = none
  timestampMillis : ∀ dt, c.timestampMillis dt = c.instant dt / 1000000
  timestampMicros : ∀ dt, c.timestampMicros dt = c.instant dt / 1000
  date : ∀ dt, ∃ date : Date, date.dayNumber = dayOf (c.instant dt) ∧
    c.year dt = date.year ∧ c.month dt = date.month ∧ c.day dt = date.day
  hour : ∀ dt, (c.hour dt : ℤ) = c.instant dt / (3600 * 1000000000) % 24
  addHours : ∀ dt (n : ℕ), c.InRange (dayOf (c.instant dt + n * (3600 * 1000000000))) →
    ∃ dt', c.addHours dt n = some dt' ∧ c.instant dt' = c.instant dt + n * (3600 * 1000000000)
  addHours_none : ∀ dt (n : ℕ), ¬c.InRange (dayOf (c.instant dt + n * (3600 * 1000000000))) →
    c.addHours dt n = none
  fromYmdOpt : ∀ date : Date, c.InRange date.dayNumber →
    ∃ d, c.fromYmdOpt date.year date.month date.day = some d ∧
      c.instant (c.atNoon d) = (date.dayNumber * 86400 + 43200) * 1000000000

end Chrono

/-- How a conversion ends without a result: an arithmetic overflow panics. -/
inductive DatetimeFailure
  | panic
  | invalidTimestamp (t : ℤ)
  | invalidDate
deriving DecidableEq, Repr

section Model

variable (c : Chrono)

/-- `x as u32` -/
def asU32 (x : ℤ) : ℕ := (x % 2 ^ 32).toNat

/-- `a * b` on `u32` -/
def mulU32 (a b : ℕ) : Except DatetimeFailure ℕ := if a * b < 2 ^ 32 then .ok (a * b) else .error .panic

/-- A timestamp in units of which a second has `perSec`, each of `nanos` nanoseconds -/
def datetimeFromUnits (perSec nanos : ℕ) (t : ℤ) : Except DatetimeFailure c.DateTime := do
  let tsSecs := t.tdiv perSec
  let tsNs ← mulU32 (asU32 (t.tmod perSec)) nanos
  match c.fromTimestamp tsSecs tsNs with
  | some dt => .ok dt
  | none => .error (.invalidTimestamp t)

def datetimeFromMillis (millis : ℤ) : Except DatetimeFailure c.DateTime :=
  datetimeFromUnits c 1000 1000000 millis

def datetimeFromMicros (micros : ℤ) : Except DatetimeFailure c.DateTime :=
  datetimeFromUnits c 1000000 1000 micros

end Model

/-! ### Which timestamps are converted -/

/-- `chrono` can represent the timestamp. -/
def Chrono.Represents (c : Chrono) (perSec : ℕ) (t : ℤ) : Prop := c.InRange (t / perSec / 86400)

/-- The conversion gives a date-time, without an overflow, whose timestamp is the one it was given. -/
def ConvertsExactly {DateTime : Type} (convert : ℤ → Except DatetimeFailure DateTime)
    (timestamp : DateTime → ℤ) (t : ℤ) : Prop :=
  ∃ dt, convert t = .ok dt ∧ timestamp dt = t

section Convert

variable {c : Chrono} {perSec nanos : ℕ} {t : ℤ}

/-- A negative remainder is cast to a number that is too large. -/
lemma mulU32_of_neg {r : ℤ} (hr : r < 0) (hlower : -(2 ^ 31) ≤ r) (hnanos : 2 ≤ nanos) :
    mulU32 (asU32 r) nanos = .error .panic := by
  have hcast : 2 ^ 31 ≤ asU32 r := by
    unfold asU32
    omega
  refine if_neg (Nat.not_lt.mpr ?_)
  exact (show 2 ^ 32 = 2 ^ 31 * 2 from rfl) ▸ Nat.mul_le_mul hcast hnanos

lemma asU32_of_nonneg {r : ℤ} (hr : 0 ≤ r) (hlt : r < 2 ^ 32) : (asU32 r : ℤ) = r := by
  unfold asU32
  omega

/-- The remainder is not negative, so that the division rounds down. -/
lemma tmod_nonneg_iff : 0 ≤ t.tmod perSec ↔ 0 ≤ t ∨ (perSec : ℤ) ∣ t := by
  constructor
  · intro h
    by_contra hneg
    rw [not_or] at hneg
    have hle := Int.tmod_nonneg perSec (a := -t) (by omega)
    rw [Int.neg_tmod] at hle
    exact hneg.2 (Int.dvd_of_tmod_eq_zero (by omega))
  · rintro (h | h)
    · exact Int.tmod_nonneg _ h
    · rw [Int.tmod_eq_zero_of_dvd h]

/-- What the units are -/
structure Units (perSec nanos : ℕ) : Prop where
  product : perSec * nanos = 1000000000
  perSec_le : perSec ≤ 1000000
  nanos_ge : 2 ≤ nanos

lemma Units.perSec_pos (h : Units perSec nanos) : 0 < perSec := by
  have := h.product
  by_contra hzero
  simp [Nat.eq_zero_of_not_pos hzero] at this

lemma units_millis : Units 1000 1000000 := ⟨by decide, by decide, by decide⟩

lemma units_micros : Units 1000000 1000 := ⟨by decide, by decide, by decide⟩

lemma Units.tmod_bounds (h : Units perSec nanos) (t : ℤ) :
    -1000000 < t.tmod perSec ∧ t.tmod perSec < perSec := by
  have hpos : (0 : ℤ) < perSec := by exact_mod_cast h.perSec_pos
  have hle := h.perSec_le
  have hlower := Int.lt_tmod_of_pos t hpos
  have hupper := Int.tmod_lt_of_pos t hpos
  omega

/-- What is converted with a remainder that is not negative -/
lemma datetimeFromUnits_of_nonneg (hc : c.Lawful) (hu : Units perSec nanos) (ht : c.Represents perSec t)
    (hr : 0 ≤ t.tmod perSec) :
    ∃ dt, datetimeFromUnits c perSec nanos t = .ok dt ∧ c.instant dt = t * nanos := by
  obtain ⟨-, hlt⟩ := hu.tmod_bounds t
  have hle := hu.perSec_le
  have hcast : (asU32 (t.tmod perSec) : ℤ) = t.tmod perSec := asU32_of_nonneg hr (by omega)
  have hsub : asU32 (t.tmod perSec) * nanos < 1000000000 := by
    rw [← hu.product]
    exact Nat.mul_lt_mul_of_pos_right (by omega) (lt_of_lt_of_le Nat.two_pos hu.nanos_ge)
  have hquotient : t.tdiv perSec = t / perSec := by
    rw [Int.tdiv_eq_ediv]
    rcases tmod_nonneg_iff.mp hr with h | h
    · rw [if_pos (.inl h), Int.add_zero]
    · rw [if_pos (.inr h), Int.add_zero]
  obtain ⟨dt, hdt, hinstant⟩ := hc.fromTimestamp (t.tdiv perSec) (asU32 (t.tmod perSec) * nanos) hsub
    (hquotient ▸ ht)
  refine ⟨dt, ?_, ?_⟩
  · unfold datetimeFromUnits mulU32
    rw [if_pos (by omega)]
    change (match c.fromTimestamp _ _ with | some dt => _ | none => _) = _
    rw [hdt]
  · have hproduct : (perSec : ℤ) * nanos = 1000000000 := by exact_mod_cast hu.product
    have hdivmod := Int.mul_tdiv_add_tmod t perSec
    calc c.instant dt = t.tdiv perSec * 1000000000 + (asU32 (t.tmod perSec) * nanos : ℕ) := hinstant
      _ = t.tdiv perSec * (perSec * nanos) + t.tmod perSec * nanos := by
        rw [hproduct, Nat.cast_mul, hcast]
      _ = (perSec * t.tdiv perSec + t.tmod perSec) * nanos := by ring
      _ = t * nanos := by rw [hdivmod]

/-- A negative remainder overflows. -/
lemma datetimeFromUnits_of_neg (hu : Units perSec nanos) (hr : t.tmod perSec < 0) :
    datetimeFromUnits c perSec nanos t = .error .panic := by
  obtain ⟨hlower, -⟩ := hu.tmod_bounds t
  unfold datetimeFromUnits
  rw [mulU32_of_neg hr (by omega) hu.nanos_ge]
  rfl

/-- **What is converted**: the timestamps from the epoch on, and whole seconds. -/
theorem datetimeFromUnits_cases (hc : c.Lawful) (hu : Units perSec nanos) (ht : c.Represents perSec t) :
    (0 ≤ t ∨ (perSec : ℤ) ∣ t) ∧
        (∃ dt, datetimeFromUnits c perSec nanos t = .ok dt ∧ c.instant dt = t * nanos) ∨
      ¬(0 ≤ t ∨ (perSec : ℤ) ∣ t) ∧ datetimeFromUnits c perSec nanos t = .error .panic := by
  rw [← tmod_nonneg_iff]
  rcases Int.lt_or_le (t.tmod perSec) 0 with hneg | hnonneg
  · exact .inr ⟨Int.not_le.mpr hneg, datetimeFromUnits_of_neg hu hneg⟩
  · exact .inl ⟨hnonneg, datetimeFromUnits_of_nonneg hc hu ht hnonneg⟩

lemma convertsExactly_iff (hc : c.Lawful) (hu : Units perSec nanos) (ht : c.Represents perSec t)
    {timestamp : c.DateTime → ℤ} (htimestamp : ∀ dt, timestamp dt = c.instant dt / nanos) :
    ConvertsExactly (datetimeFromUnits c perSec nanos) timestamp t ↔ 0 ≤ t ∨ (perSec : ℤ) ∣ t := by
  rcases datetimeFromUnits_cases hc hu ht with ⟨hcond, dt, hdt, hinstant⟩ | ⟨hcond, hpanic⟩
  · refine iff_of_true ⟨dt, hdt, ?_⟩ hcond
    have hnanos := hu.nanos_ge
    rw [htimestamp, hinstant, Int.mul_ediv_cancel _ (by omega)]
  · refine iff_of_false ?_ hcond
    rintro ⟨dt, hdt, -⟩
    rw [hpanic] at hdt
    cases hdt

/-- Later timestamps are converted to later date-times. -/
lemma instant_lt (hc : c.Lawful) (hu : Units perSec nanos) {s : ℤ} {ds dt : c.DateTime}
    (hs : c.Represents perSec s) (ht : c.Represents perSec t) (hlt : s < t)
    (hds : datetimeFromUnits c perSec nanos s = .ok ds)
    (hdt : datetimeFromUnits c perSec nanos t = .ok dt) : c.instant ds < c.instant dt := by
  have hinstant : ∀ {u : ℤ} {du : c.DateTime}, c.Represents perSec u →
      datetimeFromUnits c perSec nanos u = .ok du → c.instant du = u * nanos := by
    intro u du hu' hdu
    rcases datetimeFromUnits_cases hc hu hu' with ⟨-, du', hdu', hinstant⟩ | ⟨-, hpanic⟩
    · obtain rfl : du' = du := Except.ok.inj (hdu'.symm.trans hdu)
      exact hinstant
    · rw [hpanic] at hdu
      cases hdu
  have hnanos := hu.nanos_ge
  rw [hinstant hs hds, hinstant ht hdt]
  exact Int.mul_lt_mul_of_pos_right hlt (by omega)

/-- **Which conversions are exact**: those of timestamps from the epoch on, and those of whole seconds. What
is converted keeps its order. -/
theorem conversion_exact_iff (hc : c.Lawful) :
    (∀ t, c.Represents 1000 t →
      (ConvertsExactly (datetimeFromMillis c) c.timestampMillis t ↔ 0 ≤ t ∨ 1000 ∣ t)) ∧
    (∀ t, c.Represents 1000000 t →
      (ConvertsExactly (datetimeFromMicros c) c.timestampMicros t ↔ 0 ≤ t ∨ 1000000 ∣ t)) ∧
    (∀ s t ds dt, c.Represents 1000 s → c.Represents 1000 t → s < t →
      datetimeFromMillis c s = .ok ds → datetimeFromMillis c t = .ok dt → c.instant ds < c.instant dt) ∧
    ∀ s t ds dt, c.Represents 1000000 s → c.Represents 1000000 t → s < t →
      datetimeFromMicros c s = .ok ds → datetimeFromMicros c t = .ok dt → c.instant ds < c.instant dt :=
  ⟨fun _ ht => convertsExactly_iff hc units_millis ht hc.timestampMillis,
    fun _ ht => convertsExactly_iff hc units_micros ht hc.timestampMicros,
    fun _ _ _ _ hs ht hlt hds hdt => instant_lt hc units_millis hs ht hlt hds hdt,
    fun _ _ _ _ hs ht hlt hds hdt => instant_lt hc units_micros hs ht hlt hds hdt⟩

end Convert

/-! ### The calendar of `chrono` -/

namespace Chrono

/-- The first of January of the year -262143 -/
def utcFirstDay : ℤ := -96465292

/-- The last of December of the year 262142 -/
def utcLastDay : ℤ := 95026236

example : ((ofDayNumber utcFirstDay).year, (ofDayNumber utcFirstDay).month, (ofDayNumber utcFirstDay).day) =
    (-262143, 1, 1) := by decide

example : ((ofDayNumber utcLastDay).year, (ofDayNumber utcLastDay).month, (ofDayNumber utcLastDay).day) =
    (262142, 12, 31) := by decide

/-- A date-time as its instant, a date as its number -/
def utc : Chrono where
  DateTime := { i : ℤ // utcFirstDay ≤ dayOf i ∧ dayOf i ≤ utcLastDay }
  NaiveDate := { n : ℤ // utcFirstDay ≤ n ∧ n ≤ utcLastDay }
  instant dt := dt.1
  firstDay := utcFirstDay
  lastDay := utcLastDay
  fromTimestamp secs nsecs :=
    if h : nsecs < 1000000000 ∧ utcFirstDay ≤ secs / 86400 ∧ secs / 86400 ≤ utcLastDay then
      some ⟨secs * 1000000000 + nsecs, by unfold dayOf; omega⟩
    else none
  timestampMillis dt := dt.1 / 1000000
  timestampMicros dt := dt.1 / 1000
  year dt := (ofDayNumber (dayOf dt.1)).year
  month dt := (ofDayNumber (dayOf dt.1)).month
  day dt := (ofDayNumber (dayOf dt.1)).day
  hour dt := (dt.1 / (3600 * 1000000000) % 24).toNat
  addHours dt n :=
    if h : utcFirstDay ≤ dayOf (dt.1 + n * (3600 * 1000000000)) ∧
        dayOf (dt.1 + n * (3600 * 1000000000)) ≤ utcLastDay then some ⟨_, h⟩
    else none
  fromYmdOpt year month day :=
    if h : 1 ≤ month ∧ month ≤ 12 ∧ 1 ≤ day ∧ day ≤ monthLength year month then
      let date : Date := ⟨year, month, day, h.1, h.2.1, h.2.2.1, h.2.2.2⟩
      if h : utcFirstDay ≤ date.dayNumber ∧ date.dayNumber ≤ utcLastDay then some ⟨_, h⟩ else none
    else none
  atNoon date := ⟨(date.1 * 86400 + 43200) * 1000000000, by have := date.2; unfold dayOf; omega⟩

lemma utc_lawful : utc.Lawful where
  epoch := ⟨show utcFirstDay ≤ 0 by decide, show 0 ≤ utcLastDay by decide⟩
  inRange dt := dt.2
  fromTimestamp secs nsecs hnsecs hrange := ⟨_, dif_pos ⟨hnsecs, hrange⟩, rfl⟩
  fromTimestamp_none secs nsecs hrange := dif_neg fun h => hrange h.2
  timestampMillis _ := rfl
  timestampMicros _ := rfl
  date dt := ⟨ofDayNumber (dayOf dt.1), dayNumber_ofDayNumber _, rfl, rfl, rfl⟩
  hour dt := Int.toNat_of_nonneg (Int.emod_nonneg _ (by decide))
  addHours dt n hrange := ⟨_, dif_pos hrange, rfl⟩
  addHours_none dt n hrange := dif_neg hrange
  fromYmdOpt date hrange :=
    ⟨⟨date.dayNumber, hrange⟩,
      (dif_pos ⟨date.month_pos, date.month_le, date.day_pos, date.day_le⟩).trans (dif_pos hrange), rfl⟩

end Chrono

/-- A millisecond before the epoch -/
theorem conversion_inexact :
    datetimeFromMillis .utc (-1) = .error .panic ∧
      ¬ConvertsExactly (datetimeFromMillis .utc) Chrono.utc.timestampMillis (-1) ∧
      ¬ConvertsExactly (datetimeFromMicros .utc) Chrono.utc.timestampMicros (-1) := by
  have hmillis : datetimeFromMillis .utc (-1) = .error .panic := rfl
  have hmicros : datetimeFromMicros .utc (-1) = .error .panic := rfl
  refine ⟨hmillis, ?_, ?_⟩
  · rintro ⟨dt, hdt, -⟩
    rw [hmillis] at hdt
    cases hdt
  · rintro ⟨dt, hdt, -⟩
    rw [hmicros] at hdt
    cases hdt

/-- A second before the epoch, and a moment after it -/
theorem conversion_exact_second :
    ConvertsExactly (datetimeFromMillis .utc) Chrono.utc.timestampMillis (-1000) ∧
      ConvertsExactly (datetimeFromMicros .utc) Chrono.utc.timestampMicros 1776676005336001 := by
  have h := conversion_exact_iff Chrono.utc_lawful
  exact ⟨(h.1 (-1000) ⟨by decide, by decide⟩).mpr (by decide),
    (h.2.1 1776676005336001 ⟨by decide, by decide⟩).mpr (by decide)⟩

end SensorLink.Server
