import Mathlib.Tactic.Common
import Mathlib.Tactic.IntervalCases
import Mathlib.Data.Int.Notation

/-!
# The proleptic Gregorian calendar

Dates are numbered by days, day `0` being 1970-01-01.  Years are counted from
March, so that the leap day is the last day of its year, and in eras of 400
years, which all have `146097` days.

## Main definitions

* `daysFromCivil y m d` — the number of a date; months and days may overflow.
* `civilFromDays z` — the date of a number.
* `civilFromDays_daysFromCivil` — a date that exists is found back.
-/

namespace FlutterSugar.Lib

/-- Does the year have a 29th of February? -/
def isLeap (y : ℤ) : Bool := y % 4 = 0 ∧ (y % 100 ≠ 0 ∨ y % 400 = 0)

/-- The number of days of a month, `0` for a month that does not exist. -/
def daysInMonth (y m : ℤ) : ℤ :=
  if m = 2 then (if isLeap y then 29 else 28)
  else if m = 4 ∨ m = 6 ∨ m = 9 ∨ m = 11 then 30
  else if 1 ≤ m ∧ m ≤ 12 then 31
  else 0

/-- The day of the era, from the year of the era and the day of that year. -/
def dayOfEra (yoe doy : ℤ) : ℤ := yoe * 365 + yoe / 4 - yoe / 100 + doy

/-- The number of days from 1970-01-01 to a date. -/
def daysFromCivil (y m d : ℤ) : ℤ :=
  let y' := if m ≤ 2 then y - 1 else y
  let mp := if m ≤ 2 then m + 9 else m - 3
  let era := y' / 400
  era * 146097 + dayOfEra (y' - era * 400) ((153 * mp + 2) / 5 + (d - 1)) - 719468

/-- The year of the era, from the day of the era. -/
def yearOfEra (doe : ℤ) : ℤ := (doe - doe / 1460 + doe / 36524 - doe / 146096) / 365

/-- Year, month and day of a day number. -/
def civilFromDays (z : ℤ) : ℤ × ℤ × ℤ :=
  let era := (z + 719468) / 146097
  let doe := z + 719468 - era * 146097
  let yoe := yearOfEra doe
  let doy := doe - dayOfEra yoe 0
  let mp := (5 * doy + 2) / 153
  let m := if mp < 10 then mp + 3 else mp - 9
  (yoe + era * 400 + (if m ≤ 2 then 1 else 0), m, doy - (153 * mp + 2) / 5 + 1)

/-- The weekday of a day number, `1` for Monday up to `7` for Sunday. -/
def weekdayOfDays (z : ℤ) : ℤ := (z + 3) % 7 + 1

/-- The year of the era is found back.  The year is split by century, leap cycle
and year of the cycle, on which each of the three corrections is constant. -/
theorem yearOfEra_dayOfEra {yoe doy : ℤ} (h0 : 0 ≤ yoe) (h1 : yoe < 400) (h2 : 0 ≤ doy)
    (h3 : doy ≤ 365) (h4 : doy = 365 → isLeap (yoe + 1)) :
    yearOfEra (dayOfEra yoe doy) = yoe := by
  obtain ⟨c, hc⟩ : ∃ c, c = yoe / 100 := ⟨_, rfl⟩
  obtain ⟨q, hq⟩ : ∃ q, q = yoe % 100 / 4 := ⟨_, rfl⟩
  obtain ⟨r, hr⟩ : ∃ r, r = yoe % 4 := ⟨_, rfl⟩
  have hyoe : yoe = 100 * c + 4 * q + r := by omega
  have hleap : doy = 365 → r = 3 ∧ (q < 24 ∨ c = 3) := by
    intro h
    have := h4 h
    simp only [isLeap, decide_eq_true_eq] at this
    omega
  have hbounds : 0 ≤ c ∧ c < 4 ∧ 0 ≤ q ∧ q < 25 ∧ 0 ≤ r ∧ r < 4 := by omega
  generalize hdoe : dayOfEra yoe doy = doe
  have hd : doe = 36524 * c + 1461 * q + 365 * r + doy := by
    rw [dayOfEra] at hdoe
    omega
  clear h4 hdoe hc hq hr
  have e1 : doe / 146096 = if c = 3 ∧ q = 24 ∧ r = 3 ∧ doy = 365 then 1 else 0 := by
    split <;> omega
  have e2 : doe / 36524 = if c = 3 ∧ q = 24 ∧ r = 3 ∧ doy = 365 then 4 else c := by
    split <;> omega
  have e3 : doe / 1460 =
      25 * c + q + (if 24 * c + q + 365 * r + doy ≥ 1460 then 1 else 0) := by
    split <;> omega
  rw [yearOfEra]
  rw [e1, e2, e3]
  split <;> split <;> omega

/-- The year of the era and the day of the year are found back from a day
number. -/
theorem era_split {era yoe doy : ℤ} (h0 : 0 ≤ yoe) (h1 : yoe < 400) (h2 : 0 ≤ doy)
    (h3 : doy ≤ 365) (h4 : doy = 365 → isLeap (yoe + 1)) :
    (era * 146097 + dayOfEra yoe doy - 719468 + 719468) / 146097 = era := by
  have hlo : 0 ≤ dayOfEra yoe doy := by unfold dayOfEra; omega
  have hhi : dayOfEra yoe doy < 146097 := by
    rw [dayOfEra]
    by_cases h : doy = 365
    · have := h4 h
      simp only [isLeap, decide_eq_true_eq] at this
      omega
    · omega
  omega

/-- In the year that starts in March, a day within its month determines the month. -/
theorem month_of_day {mp k : ℤ} (hmp : 0 ≤ mp ∧ mp ≤ 11)
    (hk : 0 ≤ k ∧ (153 * mp + 2) / 5 + k < (153 * (mp + 1) + 2) / 5) :
    (5 * ((153 * mp + 2) / 5 + k) + 2) / 153 = mp := by
  obtain ⟨h0, h11⟩ := hmp
  interval_cases mp <;> omega

/-- The months of that year follow one another without overlap. -/
theorem day_within_month {y m d mp : ℤ} (hm : 1 ≤ m ∧ m ≤ 12)
    (hmp : (m ≤ 2 ∧ mp = m + 9) ∨ (2 < m ∧ mp = m - 3)) (hd : d ≤ daysInMonth y m) :
    (153 * mp + 2) / 5 + (d - 1) < (153 * (mp + 1) + 2) / 5 := by
  have hleap : (if isLeap y then (29 : ℤ) else 28) ≤ 29 := by split <;> omega
  obtain ⟨h1, h12⟩ := hm
  interval_cases m <;> simp [daysInMonth] at hd <;> omega

/-- Only the 29th of February is day 365 of that year. -/
theorem isLeap_of_day {y m d mp : ℤ} (hm : 1 ≤ m ∧ m ≤ 12)
    (hmp : (m ≤ 2 ∧ mp = m + 9) ∨ (2 < m ∧ mp = m - 3)) (hd : d ≤ daysInMonth y m) :
    (153 * mp + 2) / 5 + (d - 1) ≤ 365 ∧
      ((153 * mp + 2) / 5 + (d - 1) = 365 → m = 2 ∧ isLeap y) := by
  have hwithin := day_within_month hm hmp hd
  obtain ⟨h1, h12⟩ := hm
  by_cases h2 : m = 2
  · subst h2
    cases hl : isLeap y <;> simp [daysInMonth, hl] at hd ⊢ <;> omega
  · omega

/-- **A date that exists is found back from its number.** -/
theorem civilFromDays_daysFromCivil {y m d : ℤ} (hm : 1 ≤ m ∧ m ≤ 12)
    (hd : 1 ≤ d ∧ d ≤ daysInMonth y m) :
    civilFromDays (daysFromCivil y m d) = (y, m, d) := by
  obtain ⟨y', hy'⟩ : ∃ y', y' = if m ≤ 2 then y - 1 else y := ⟨_, rfl⟩
  obtain ⟨mp, hmp⟩ : ∃ mp, mp = if m ≤ 2 then m + 9 else m - 3 := ⟨_, rfl⟩
  obtain ⟨era, hera⟩ : ∃ era, era = y' / 400 := ⟨_, rfl⟩
  obtain ⟨doy, hdoy⟩ : ∃ doy, doy = (153 * mp + 2) / 5 + (d - 1) := ⟨_, rfl⟩
  have hdays : daysFromCivil y m d = era * 146097 + dayOfEra (y' - era * 400) doy - 719468 := by
    simp only [daysFromCivil, hdoy, hera, hmp, hy']
  have hyear : y = y' + (if m ≤ 2 then 1 else 0) := by split_ifs at hy' ⊢ <;> omega
  have hshift : (m ≤ 2 ∧ mp = m + 9) ∨ (2 < m ∧ mp = m - 3) := by
    split_ifs at hmp <;> omega
  have hrange : 0 ≤ mp ∧ mp ≤ 11 := by omega
  have hwithin := day_within_month hm hshift hd.2
  have hlast := isLeap_of_day hm hshift hd.2
  rw [← hdoy] at hwithin hlast
  have hyoe : 0 ≤ y' - era * 400 ∧ y' - era * 400 < 400 := by omega
  have hdoy0 : 0 ≤ doy := by omega
  have hleap : doy = 365 → isLeap (y' - era * 400 + 1) := by
    intro h
    obtain ⟨hm2, hy⟩ := hlast.2 h
    simp only [hm2, le_refl, if_true] at hyear
    simp only [isLeap, hyear, decide_eq_true_eq] at hy ⊢
    omega
  have hdoy' : dayOfEra (y' - era * 400) doy - dayOfEra (y' - era * 400) 0 = doy := by
    unfold dayOfEra
    omega
  have hmonth : (5 * doy + 2) / 153 = mp := by
    rw [hdoy] at hwithin ⊢
    exact month_of_day hrange ⟨by omega, hwithin⟩
  rw [hdays]
  simp only [civilFromDays, era_split hyoe.1 hyoe.2 hdoy0 hlast.1 hleap]
  rw [show era * 146097 + dayOfEra (y' - era * 400) doy - 719468 + 719468 - era * 146097 =
    dayOfEra (y' - era * 400) doy by omega,
    yearOfEra_dayOfEra hyoe.1 hyoe.2 hdoy0 hlast.1 hleap]
  simp only [hdoy', hmonth]
  have hm' : (if mp < 10 then mp + 3 else mp - 9) = m := by split_ifs <;> omega
  rw [hm']
  simp only [Prod.mk.injEq, true_and]
  omega

/-- Day numbers grow by at most 366 a year, so a bound on the year is one on the
number. -/
theorem daysFromCivil_bounds {y m d : ℤ} (hy : 1 ≤ y ∧ y ≤ 9999) (hm : 1 ≤ m ∧ m ≤ 12)
    (hd : 1 ≤ d ∧ d ≤ 31) :
    -719528 ≤ daysFromCivil y m d ∧ daysFromCivil y m d ≤ 2932897 := by
  simp only [daysFromCivil, dayOfEra]
  split_ifs <;> omega

end FlutterSugar.Lib
