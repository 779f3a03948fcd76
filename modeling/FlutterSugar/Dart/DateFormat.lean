import FlutterSugar.Dart.WallClock

/-!
# `DateFormat` of `intl`

The pattern letters the app uses, as `intl` documents them: a run of `y`, `M` or
`d` is the year, the month or the day of the month in decimal, with zeros on the
left up to the length of the run; any other character stands for itself.  The
sign of the year is not written.

## Main definitions

* `DateFormat.format pattern t` — the formatted date.
* `CalendarDay`, `DateTime.calendarDay` — the day a time falls on.
* `DateFormat.format_congr` — a formatted date depends on the calendar day only.
* `DateFormat.format_day_inj` — and with year, month and day it determines that.
-/

namespace FlutterSugar
open Lib

/-- A day of the calendar. -/
structure CalendarDay where
  year : ℤ
  month : ℕ
  day : ℕ
  deriving DecidableEq, Repr

/-- The day a time falls on. -/
def DateTime.calendarDay (t : DateTime) : CalendarDay := ⟨t.year, t.month, t.day⟩

/-- The day a clock time falls on. -/
def WallClock.calendarDay (t : WallClock) : CalendarDay := t.toDateTime.calendarDay

namespace DateFormat

/-- The runs of equal characters of a pattern, with their lengths. -/
def runs : List Char → List (Char × ℕ)
  | [] => []
  | c :: cs =>
    match runs cs with
    | [] => [(c, 1)]
    | (d, n) :: rest => if c = d then (d, n + 1) :: rest else (c, 1) :: (d, n) :: rest

/-- The text of one run of a pattern. -/
def field (t : DateTime) (run : Char × ℕ) : List Char :=
  if run.1 = 'y' then padded run.2 t.year.natAbs
  else if run.1 = 'M' then padded run.2 t.month
  else if run.1 = 'd' then padded run.2 t.day
  else List.replicate run.2 run.1

/-- `DateFormat(pattern).format(t)`. -/
def format (pattern : String) (t : DateTime) : String :=
  String.ofList ((runs pattern.toList).flatMap (field t))

/-- The abbreviated weekdays of the locale `ja`, from Sunday. -/
def shortWeekdays : List String := ["日", "月", "火", "水", "木", "金", "土"]

/-- `DateFormat.E('ja').format(t)`. -/
def E (t : DateTime) : String := shortWeekdays.getD (t.weekday % 7) ""

example : format "yyyy年MM月d日" ⟨2024, 3, 7, 0, 0, 0, 0, 0, false⟩ = "2024年03月7日" := by decide

theorem field_congr {s t : DateTime} (h : s.calendarDay = t.calendarDay) (run : Char × ℕ) :
    field s run = field t run := by
  simp only [DateTime.calendarDay, CalendarDay.mk.injEq] at h
  simp only [field, h]

/-- **A formatted date depends on the calendar day only.** -/
theorem format_congr {s t : DateTime} (h : s.calendarDay = t.calendarDay) (pattern : String) :
    format pattern s = format pattern t := by
  unfold format
  rw [funext (field_congr h)]

theorem toList_format_day (t : DateTime) :
    (format "yyyy年M月dd日" t).toList = padded 4 t.year.natAbs ++ '年' ::
      (padded 1 t.month ++ '月' :: (padded 2 t.day ++ '日' :: [])) := by
  have hruns : runs "yyyy年M月dd日".toList =
      [('y', 4), ('年', 1), ('M', 1), ('月', 1), ('d', 2), ('日', 1)] := by decide
  rw [format, String.toList_ofList, hruns]
  simp [field]

/-- The text by which days are compared determines the day up to the sign of the
year. -/
theorem format_day_inj {s t : DateTime} :
    format "yyyy年M月dd日" s = format "yyyy年M月dd日" t ↔
      s.year.natAbs = t.year.natAbs ∧ s.month = t.month ∧ s.day = t.day := by
  rw [← String.toList_inj, toList_format_day, toList_format_day,
    padded_append_cons_inj (by decide), padded_append_cons_inj (by decide),
    padded_append_cons_inj (by decide)]
  simp

theorem E_congr {s t : DateTime} (h : s.calendarDay = t.calendarDay) : E s = E t := by
  simp only [DateTime.calendarDay, CalendarDay.mk.injEq] at h
  simp only [E, DateTime.weekday, h]

end DateFormat
end FlutterSugar
