import SensorLink.Server.Datetime

/-!
# The start of a license

`normalize_license_start` gives noon on the first day of a month. A timestamp of the last hours of a month is
taken for a local midnight east of Greenwich, and for that of the month after.
-/

namespace SensorLink.Server

open SensorLink.Lib.Gregorian

section Model

variable (c : Chrono)

/-- The date-time, or one in the next month when it is in the last hours of the last days of a month: then it
is probably a local midnight. -/
def corrected (dt : c.DateTime) : Except DatetimeFailure c.DateTime :=
  if 21 ≤ c.hour dt ∧ 28 ≤ c.day dt then
    match c.addHours dt 4 with
    | some later => .ok later
    | none => .error .panic
  else .ok dt

/-- The timestamp of noon on the first day of the month -/
def noonOfMonth (dt : c.DateTime) : Except DatetimeFailure ℤ :=
  match c.fromYmdOpt (c.year dt) (c.month dt) 1 with
  | some date => .ok (c.timestampMillis (c.atNoon date))
  | none => .error .invalidDate

def normalizeLicenseStart (millis : ℤ) : Except DatetimeFailure ℤ := do
  let dt ← datetimeFromMillis c millis
  noonOfMonth c (← corrected c dt)

end Model

/-- Noon UTC on the first day of a month, in milliseconds -/
def noonOfFirst (year : ℤ) (month : ℕ) : ℤ := monthStart year month * 86400000 + 43200000

section Normalize

variable {c : Chrono} {t : ℤ}

/-- A millisecond timestamp and its instant -/
lemma instant_div (t : ℤ) : Chrono.dayOf (t * 1000000) = t / 86400000 := by
  unfold Chrono.dayOf
  omega

lemma represents_iff : c.Represents 1000 t ↔ c.InRange (t / 86400000) := by
  unfold Chrono.Represents
  rw [show t / (1000 : ℕ) / 86400 = t / 86400000 by omega]

/-- The fields of a date-time are those of the date of its day. -/
lemma Chrono.Lawful.date_eq (hc : c.Lawful) {dt : c.DateTime} {date : Date}
    (h : date.dayNumber = Chrono.dayOf (c.instant dt)) :
    c.year dt = date.year ∧ c.month dt = date.month ∧ c.day dt = date.day := by
  obtain ⟨date', hday, hfields⟩ := hc.date dt
  obtain rfl : date' = date := Date.dayNumber_inj (hday.trans h.symm)
  exact hfields

lemma noonOfMonth_eq (hc : c.Lawful) {dt : c.DateTime} {date : Date}
    (h : date.dayNumber = Chrono.dayOf (c.instant dt))
    (hmonth : c.InRange (monthStart date.year date.month)) :
    noonOfMonth c dt = .ok (noonOfFirst date.year date.month) := by
  obtain ⟨hyear, hmonth', -⟩ := hc.date_eq h
  obtain ⟨first, hfirst, hnoon⟩ :=
    hc.fromYmdOpt (firstOf date.year date.month date.month_pos date.month_le)
      (by rwa [dayNumber_firstOf])
  rw [dayNumber_firstOf] at hnoon
  change c.fromYmdOpt date.year date.month 1 = some first at hfirst
  unfold noonOfMonth
  rw [hyear, hmonth', hfirst]
  dsimp only
  rw [hc.timestampMillis, hnoon]
  unfold noonOfFirst
  congr 1
  omega

/-- A timestamp is in the last hours of the last days of a month. -/
def InLastHours (date : Date) (t : ℤ) : Prop := 21 ≤ t / 3600000 % 24 ∧ 28 ≤ date.day

instance (date : Date) (t : ℤ) : Decidable (InLastHours date t) := inferInstanceAs (Decidable (_ ∧ _))

section Converted

variable {dt : c.DateTime} {date : Date}

lemma dayNumber_eq_dayOf (hinstant : c.instant dt = t * 1000000) (hdate : date.dayNumber = t / 86400000) :
    date.dayNumber = Chrono.dayOf (c.instant dt) := by
  rw [hinstant, instant_div, hdate]

lemma inLastHours_iff (hc : c.Lawful) (hinstant : c.instant dt = t * 1000000)
    (hdate : date.dayNumber = t / 86400000) :
    21 ≤ c.hour dt ∧ 28 ≤ c.day dt ↔ InLastHours date t := by
  have hhour := hc.hour dt
  rw [(hc.date_eq (dayNumber_eq_dayOf hinstant hdate)).2.2]
  rw [hinstant] at hhour
  unfold InLastHours
  omega

/-- What the heuristic gives, by its branches -/
lemma corrected_cases (hc : c.Lawful) (hinstant : c.instant dt = t * 1000000)
    (hdate : date.dayNumber = t / 86400000) :
    ¬InLastHours date t ∧ corrected c dt = .ok dt ∨
      InLastHours date t ∧ c.Represents 1000 (t + 14400000) ∧
        (∃ later, corrected c dt = .ok later ∧ c.instant later = (t + 14400000) * 1000000) ∨
      InLastHours date t ∧ ¬c.Represents 1000 (t + 14400000) ∧ corrected c dt = .error .panic := by
  have hsum : c.instant dt + (4 : ℕ) * (3600 * 1000000000) = (t + 14400000) * 1000000 := by
    rw [hinstant]
    push_cast
    omega
  have hrange : c.InRange (Chrono.dayOf (c.instant dt + (4 : ℕ) * (3600 * 1000000000))) ↔
      c.Represents 1000 (t + 14400000) := by
    rw [hsum, instant_div, represents_iff]
  unfold corrected
  by_cases hlast : InLastHours date t
  · rw [if_pos ((inLastHours_iff hc hinstant hdate).mpr hlast)]
    by_cases hrep : c.Represents 1000 (t + 14400000)
    · obtain ⟨later, hlater, hinstant'⟩ := hc.addHours dt 4 (hrange.mpr hrep)
      rw [hlater]
      exact .inr (.inl ⟨hlast, hrep, later, rfl, hinstant'.trans hsum⟩)
    · rw [hc.addHours_none dt 4 (hrange.not.mpr hrep)]
      exact .inr (.inr ⟨hlast, hrep, rfl⟩)
  · rw [if_neg ((inLastHours_iff hc hinstant hdate).not.mpr hlast)]
    exact .inl ⟨hlast, rfl⟩

end Converted

section Converts

variable {date : Date}

lemma exists_converted (hc : c.Lawful) (hrep : c.Represents 1000 t) (hconv : 0 ≤ t ∨ 1000 ∣ t) :
    ∃ dt, datetimeFromMillis c t = .ok dt ∧ c.instant dt = t * 1000000 :=
  datetimeFromUnits_of_nonneg hc units_millis hrep (tmod_nonneg_iff.mpr hconv)

/-- A timestamp that is not in the last hours of a month -/
lemma normalize_of_not_last (hc : c.Lawful) (hrep : c.Represents 1000 t) (hconv : 0 ≤ t ∨ 1000 ∣ t)
    (hdate : date.dayNumber = t / 86400000) (hlast : ¬InLastHours date t)
    (hmonth : c.InRange (monthStart date.year date.month)) :
    normalizeLicenseStart c t = .ok (noonOfFirst date.year date.month) := by
  obtain ⟨dt, hdt, hinstant⟩ := exists_converted hc hrep hconv
  have hcorrected : corrected c dt = .ok dt := by
    rcases corrected_cases hc hinstant hdate with ⟨-, heq⟩ | ⟨hlast', -⟩ | ⟨hlast', -⟩
    · exact heq
    · exact absurd hlast' hlast
    · exact absurd hlast' hlast
  unfold normalizeLicenseStart
  rw [hdt]
  change corrected c dt >>= noonOfMonth c = _
  rw [hcorrected]
  exact noonOfMonth_eq hc (dayNumber_eq_dayOf hinstant hdate) hmonth

/-- A timestamp in the last hours of a month -/
lemma normalize_of_last (hc : c.Lawful) (hrep : c.Represents 1000 t) (hconv : 0 ≤ t ∨ 1000 ∣ t)
    (hdate : date.dayNumber = t / 86400000) (hlast : InLastHours date t) {next : Date}
    (hnext : next.dayNumber = (t + 14400000) / 86400000) (hrange : c.Represents 1000 (t + 14400000))
    (hmonth : c.InRange (monthStart next.year next.month)) :
    normalizeLicenseStart c t = .ok (noonOfFirst next.year next.month) := by
  obtain ⟨dt, hdt, hinstant⟩ := exists_converted hc hrep hconv
  obtain ⟨later, hcorrected, hinstant'⟩ : ∃ later, corrected c dt = .ok later ∧
      c.instant later = (t + 14400000) * 1000000 := by
    rcases corrected_cases hc hinstant hdate with ⟨hlast', -⟩ | ⟨-, -, hlater⟩ | ⟨-, hrange', -⟩
    · exact absurd hlast hlast'
    · exact hlater
    · exact absurd hrange hrange'
  unfold normalizeLicenseStart
  rw [hdt]
  change corrected c dt >>= noonOfMonth c = _
  rw [hcorrected]
  exact noonOfMonth_eq hc (dayNumber_eq_dayOf hinstant' hnext) hmonth

end Converts

/-! ### Idempotence -/

section Idempotent

variable {year : ℤ} {month : ℕ}

/-- The first day of a month is not one of the last. -/
lemma not_inLastHours_firstOf (hpos : 1 ≤ month) (hle : month ≤ 12) :
    ¬InLastHours (firstOf year month hpos hle) t := fun h => absurd h.2 (show ¬28 ≤ 1 by decide)

/-- Noon on the first day of a month stays what it is. -/
lemma normalize_noonOfFirst (hc : c.Lawful) (hpos : 1 ≤ month) (hle : month ≤ 12)
    (hmonth : c.InRange (monthStart year month)) :
    normalizeLicenseStart c (noonOfFirst year month) = .ok (noonOfFirst year month) := by
  have hday : noonOfFirst year month / 86400000 = monthStart year month := by
    unfold noonOfFirst
    omega
  have hrep : c.Represents 1000 (noonOfFirst year month) := by
    rw [represents_iff, hday]
    exact hmonth
  have hconv : (1000 : ℤ) ∣ noonOfFirst year month := by
    unfold noonOfFirst
    omega
  exact (normalize_of_not_last hc hrep (.inr hconv) ((dayNumber_firstOf year month hpos hle).trans hday.symm)
    (not_inLastHours_firstOf hpos hle) hmonth :)

/-- **Noon on the first day of a month**, for what is three hours before the end of the calendar -/
lemma exists_normalize (hc : c.Lawful) (ht : 0 ≤ t) (hrep : c.Represents 1000 (t + 10800000)) :
    ∃ year month, 1 ≤ month ∧ month ≤ 12 ∧ c.InRange (monthStart year month) ∧
      normalizeLicenseStart c t = .ok (noonOfFirst year month) := by
  obtain ⟨hfirst, -⟩ := hc.epoch
  rw [represents_iff] at hrep
  have hrep' : c.Represents 1000 t := by
    rw [represents_iff]
    exact ⟨by omega, by have := hrep.2; omega⟩
  have hmonth {s : ℤ} {date : Date} (hs : 0 ≤ s) (hdate : date.dayNumber = s / 86400000)
      (hrange : s / 86400000 ≤ c.lastDay) : c.InRange (monthStart date.year date.month) := by
    have hstart := date.monthStart_nonneg (by omega)
    have hle := date.monthStart_le
    exact ⟨by omega, by omega⟩
  have hdate := dayNumber_ofDayNumber (t / 86400000)
  by_cases hlast : InLastHours (ofDayNumber (t / 86400000)) t
  · -- four hours later it is at most one in the next day
    have hrange : (t + 14400000) / 86400000 ≤ c.lastDay := by
      have := hrep.2
      have := hlast.1
      omega
    have hnext := dayNumber_ofDayNumber ((t + 14400000) / 86400000)
    have hfit := hmonth (by omega) hnext hrange
    exact ⟨_, _, Date.month_pos _, Date.month_le _, hfit,
      normalize_of_last hc hrep' (.inl ht) hdate hlast hnext
        (represents_iff.mpr ⟨by omega, hrange⟩) hfit⟩
  · have hfit := hmonth ht hdate (represents_iff.mp hrep').2
    exact ⟨_, _, Date.month_pos _, Date.month_le _, hfit,
      normalize_of_not_last hc hrep' (.inl ht) hdate hlast hfit⟩

end Idempotent

/-! ### Local midnights -/

/-- Midnight of the first day of a month at an offset from UTC in seconds, in milliseconds -/
def localMidnight (year : ℤ) (month : ℕ) (offset : ℤ) : ℤ := (monthStart year month * 86400 - offset) * 1000

section Midnight

variable {year : ℤ} {month : ℕ} {offset : ℤ}

/-- **A local midnight is mapped to its month.** -/
theorem normalize_localMidnight (hc : c.Lawful) (hpos : 1 ≤ month) (hle : month ≤ 12)
    (hmonth : c.InRange (monthStart year month)) (hwest : -43200 ≤ offset) (heast : offset ≤ 10800)
    (hrep : c.Represents 1000 (localMidnight year month offset)) :
    normalizeLicenseStart c (localMidnight year month offset) = .ok (noonOfFirst year month) := by
  have hfirst := dayNumber_firstOf year month hpos hle
  have hconv : (1000 : ℤ) ∣ localMidnight year month offset := ⟨_, Int.mul_comm _ _⟩
  rcases Int.lt_or_le 0 offset with hearlier | hlater
  · -- the last hours of the day before the month
    obtain ⟨hdate, hhour⟩ : localMidnight year month offset / 86400000 = monthStart year month - 1 ∧
        21 ≤ localMidnight year month offset / 3600000 % 24 := by
      unfold localMidnight
      omega
    have hday := dayNumber_ofDayNumber (localMidnight year month offset / 86400000)
    have hnext : (localMidnight year month offset + 14400000) / 86400000 = monthStart year month := by
      unfold localMidnight
      omega
    have hrange : c.Represents 1000 (localMidnight year month offset + 14400000) := by
      rw [represents_iff, hnext]
      exact hmonth
    exact (normalize_of_last hc hrep (.inr hconv) hday
      ⟨hhour, Date.le_day_of_dayNumber hpos hle (hday.trans hdate)⟩ (hfirst.trans hnext.symm) hrange hmonth :)
  · have hday : localMidnight year month offset / 86400000 = monthStart year month := by
      unfold localMidnight
      omega
    exact (normalize_of_not_last hc hrep (.inr hconv) (hfirst.trans hday.symm)
      (not_inLastHours_firstOf hpos hle) hmonth :)

/-- **The start of a license.** What is at least three hours before the end of the calendar is mapped to noon
on the first day of a month, where it stays; a local midnight of the first day of a month at an offset from
-12 to +3 hours is mapped to that month. -/
theorem licenseStart_normalized (hc : c.Lawful) :
    (∀ t, 0 ≤ t → c.Represents 1000 (t + 10800000) → ∃ year month, 1 ≤ month ∧ month ≤ 12 ∧
      normalizeLicenseStart c t = .ok (noonOfFirst year month) ∧
      normalizeLicenseStart c (noonOfFirst year month) = .ok (noonOfFirst year month)) ∧
    ∀ year month offset, 1 ≤ month → month ≤ 12 → c.InRange (monthStart year month) →
      -43200 ≤ offset → offset ≤ 10800 → c.Represents 1000 (localMidnight year month offset) →
      normalizeLicenseStart c (localMidnight year month offset) = .ok (noonOfFirst year month) := by
  refine ⟨fun t ht hrep => ?_, fun year month offset hpos hle hmonth hwest heast hrep =>
    normalize_localMidnight hc hpos hle hmonth hwest heast hrep⟩
  obtain ⟨year, month, hpos, hle, hmonth, hnormal⟩ := exists_normalize hc ht hrep
  exact ⟨year, month, hpos, hle, hnormal, normalize_noonOfFirst hc hpos hle hmonth⟩

end Midnight

end Normalize

/-- The last millisecond of the calendar is four hours before none, and the last `i64` is not in it. -/
theorem licenseStart_of_last :
    (Chrono.utc.Represents 1000 8210266876799999 ∧
      normalizeLicenseStart .utc 8210266876799999 = .error .panic) ∧
    normalizeLicenseStart .utc 9223372036854775807 = .error (.invalidTimestamp 9223372036854775807) := by
  refine ⟨⟨⟨by decide, by decide⟩, ?_⟩, ?_⟩
  · decide +kernel
  · decide +kernel

/-- A moment in 2000, and the first of March 2024 in a timezone an hour east -/
theorem licenseStart_normalized_leap :
    (∃ year month, 1 ≤ month ∧ month ≤ 12 ∧
      normalizeLicenseStart .utc 951868799999 = .ok (noonOfFirst year month) ∧
      normalizeLicenseStart .utc (noonOfFirst year month) = .ok (noonOfFirst year month)) ∧
    normalizeLicenseStart .utc (localMidnight 2024 3 3600) = .ok (noonOfFirst 2024 3) := by
  have h := licenseStart_normalized Chrono.utc_lawful
  exact ⟨h.1 951868799999 (by decide) ⟨by decide, by decide⟩,
    h.2 2024 3 3600 (by decide) (by decide) ⟨by decide, by decide⟩ (by decide) (by decide)
      ⟨by decide, by decide⟩⟩

end SensorLink.Server
