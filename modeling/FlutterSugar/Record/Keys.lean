import FlutterSugar.Record.DayMap
import Mathlib.Data.Prod.Lex

/-!
# Record keys

The key of a value is the text of the time at which it was recorded.  Every view
sorts the keys as texts, and `updateUser` groups them by the text of their day.
Both are right because the texts are an order embedding of the times, although
their lengths differ, and because the text of a day determines the day, although
its month is not padded.

## Main definitions

* `WallClock.tuple` — the components of a time, in lexicographic order.
* `compareTime_eq_compare` — times are compared by their tuples.
* `dayText_key_eq_iff` — the membership test compares calendar days.
* `keys_sort_and_group` — what the views and `updateUser` rest on.
-/

namespace FlutterSugar

namespace WallClock

/-- The components of a time, the larger ones first, in lexicographic order. -/
def tuple (t : WallClock) : ℕ ×ₗ ℕ ×ₗ ℕ ×ₗ ℕ ×ₗ ℕ ×ₗ ℕ ×ₗ ℕ ×ₗ ℕ :=
  toLex (t.year, toLex (t.month, toLex (t.day, toLex (t.hour, toLex (t.minute,
    toLex (t.second, toLex (t.millisecond, t.microsecond)))))))

theorem tuple_injective : Function.Injective tuple := by
  intro a b h
  cases a
  cases b
  simpa [tuple] using h

/-- Times are compared by their tuples. -/
theorem compareTime_eq_compare (a b : WallClock) : compareTime a b = compare a.tuple b.tuple := rfl

end WallClock

namespace Record
open Lib WallClock

@[simp] theorem keyDay_key (t : WallClock) : keyDay t.key = some t.calendarDay := by
  simp [keyDay, t.parse_key, WallClock.calendarDay]

@[simp] theorem day_now (t : WallClock) : (Timestamp.now t).day = t.calendarDay := by
  have h := (Timestamp.now t).keyDay_text
  rw [Timestamp.now, keyDay_key, Option.some.injEq] at h
  exact h.symm

/-- The text of the day of a clock time. -/
theorem dayText_key (t : WallClock) :
    dayText t.key = .ok (DateFormat.format "yyyy年M月dd日" t.toDateTime) := by
  simp only [dayText, formatDate, t.parse_key]

/-- The text of a day determines it: the separators end the numerals. -/
theorem format_day_toDateTime_iff {a b : WallClock} :
    DateFormat.format "yyyy年M月dd日" a.toDateTime = DateFormat.format "yyyy年M月dd日" b.toDateTime ↔
      a.calendarDay = b.calendarDay := by
  rw [DateFormat.format_day_inj]
  simp [WallClock.calendarDay, DateTime.calendarDay, toDateTime]

/-- **On clock times the membership test compares calendar days.** -/
theorem dayText_key_eq_iff {a b : WallClock} :
    dayText a.key = dayText b.key ↔ a.calendarDay = b.calendarDay := by
  rw [dayText_key, dayText_key, Except.ok.injEq, format_day_toDateTime_iff]

/-- A time between two times of one day is of that day. -/
theorem calendarDay_eq_of_between {a b c : WallClock} (hab : (compareTime a b).isLE)
    (hbc : (compareTime b c).isLE) (hac : a.calendarDay = c.calendarDay) :
    b.calendarDay = c.calendarDay := by
  have h₁ := day_le_of_compareTime hab
  have h₂ := day_le_of_compareTime hbc
  simp only [WallClock.calendarDay, DateTime.calendarDay, toDateTime, CalendarDay.mk.injEq,
    Nat.cast_inj] at hac ⊢
  omega

/-! ## Texts of any time -/

/-- What the text of a time starts with. -/
theorem toList_toString (t : DateTime) : ∃ rest, t.toString.toList =
    (if t.year < 0 then ['-'] else []) ++ (padded 4 t.year.natAbs ++ '-' ::
      (padded 2 t.month ++ '-' :: (padded 2 t.day ++ ' ' :: rest))) := by
  simp only [DateTime.toString, String.toList_append, toList_fourDigits, toList_twoDigits,
    List.append_assoc]
  exact ⟨_, rfl⟩

/-- A numeral does not start with a sign. -/
theorem padded_append_ne_minus {w n : ℕ} (hw : 0 < w) (u v : List Char) :
    padded w n ++ u ≠ '-' :: v := by
  intro h
  have hlength : 0 < (padded w n).length := by
    rw [padded, List.length_leftpad]
    omega
  obtain ⟨c, cs, hcs⟩ := List.exists_cons_of_length_pos hlength
  have hdigit : c.isDigit := isDigit_of_mem_padded (w := w) (n := n) (by simp [hcs])
  rw [hcs, List.cons_append, List.cons.injEq] at h
  rw [h.1] at hdigit
  exact absurd hdigit (by decide)

/-- **The text of a time determines its day.** -/
theorem calendarDay_eq_of_toString_eq {s t : DateTime} (h : s.toString = t.toString) :
    s.calendarDay = t.calendarDay := by
  obtain ⟨rest, hs⟩ := toList_toString s
  obtain ⟨rest', ht⟩ := toList_toString t
  rw [← String.toList_inj, hs, ht] at h
  have hsign : s.year < 0 ↔ t.year < 0 := by
    by_cases hs0 : s.year < 0 <;> by_cases ht0 : t.year < 0
    · exact iff_of_true hs0 ht0
    · rw [if_pos hs0, if_neg ht0] at h
      exact absurd h.symm (padded_append_ne_minus (by decide) _ _)
    · rw [if_neg hs0, if_pos ht0] at h
      exact absurd h (padded_append_ne_minus (by decide) _ _)
    · exact iff_of_false hs0 ht0
  simp only [hsign] at h
  rw [List.append_cancel_left_eq, padded_append_cons_inj (by decide),
    padded_append_cons_inj (by decide), padded_append_cons_inj (by decide)] at h
  obtain ⟨hyear, hmonth, hday, -⟩ := h
  have hyear' : s.year = t.year := by omega
  simp [DateTime.calendarDay, hyear', hmonth, hday]

/-! ## The order of the keys -/

section
variable (a b : WallClock)

theorem compareTo_key_lt_iff : compareTo a.key b.key = .lt ↔ a.tuple < b.tuple := by
  rw [compareTo_key_key, compareTime_eq_compare, compare_lt_iff_lt]

theorem compareTo_key_gt_iff : compareTo a.key b.key = .gt ↔ b.tuple < a.tuple := by
  rw [compareTo_key_key, compareTime_eq_compare, compare_gt_iff_gt]

/-- Different times have different keys, and the comparison tells them apart. -/
theorem compareTo_key_eq_iff : compareTo a.key b.key = .eq ↔ a = b := by
  rw [compareTo_key_key, compareTime_eq_compare, compare_eq_iff_eq]
  exact tuple_injective.eq_iff

/-- **Keys sort and group like the times they encode.**  The comparison of two
keys is that of the tuples of their times, it is equality only for equal times,
and both keys have a text of their day, which is the same text exactly if the
times fall on the same day of the calendar. -/
theorem keys_sort_and_group :
    (compareTo a.key b.key = .lt ↔ a.tuple < b.tuple) ∧
      (compareTo a.key b.key = .gt ↔ b.tuple < a.tuple) ∧
      (compareTo a.key b.key = .eq ↔ a = b) ∧
      ∃ dayOfA dayOfB, dayText a.key = .ok dayOfA ∧ dayText b.key = .ok dayOfB ∧
        (dayOfA = dayOfB ↔ a.year = b.year ∧ a.month = b.month ∧ a.day = b.day) := by
  refine ⟨compareTo_key_lt_iff a b, compareTo_key_gt_iff a b, compareTo_key_eq_iff a b, _, _,
    dayText_key a, dayText_key b, ?_⟩
  rw [format_day_toDateTime_iff]
  simp [WallClock.calendarDay, DateTime.calendarDay, toDateTime]

end

end Record
end FlutterSugar
