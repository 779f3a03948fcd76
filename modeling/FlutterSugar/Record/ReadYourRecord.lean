import FlutterSugar.Record.Chart
import FlutterSugar.Record.Keys
import FlutterSugar.Record.Pdfcreator
import Mathlib.Data.List.Induction

/-!
# Reading one's own record

Calls at times that never decrease, none of which fails or overlaps another.  The
newest key then always lies on the day that was recorded last: it is a day that is
recorded again, or the new key becomes the newest.  So the membership test and
the write agree, the document is the map of the last values by day, and the first
entry of every view is the one just recorded.

## Main definitions

* `NeverDecrease`, `stamped` — the times of the calls, and the calls.
* `lastValues` — the last value given for each day.
* `Stands` — the invariant of a run.
* `ViewsShow` — what the four views show.
* `read_your_record` — this is so after every run.
-/

namespace FlutterSugar
namespace Record
open Lib Std WallClock

/-! ## Runs -/

/-- The times of the calls never decrease. -/
def NeverDecrease (calls : List (WallClock × ℤ)) : Prop :=
  calls.Pairwise fun a b => (compareTime a.1 b.1).isLE

/-- The calls, with the texts of their times. -/
def stamped (calls : List (WallClock × ℤ)) : List (Timestamp × ℤ) :=
  calls.map fun call => (Timestamp.now call.1, call.2)

/-- The last value given for each day. -/
def lastValues (calls : List (WallClock × ℤ)) : CalendarDay → Option ℤ :=
  calls.foldl (fun m call => Function.update m call.1.calendarDay (some call.2)) fun _ => none

theorem lastValues_concat (calls : List (WallClock × ℤ)) (t : WallClock) (i : ℤ) :
    lastValues (calls ++ [(t, i)]) =
      Function.update (lastValues calls) t.calendarDay (some i) := by
  simp [lastValues]

theorem recordAll_concat (db : RecordDoc) (calls : List (WallClock × ℤ)) (t : WallClock) (i : ℤ) :
    recordAll db (stamped (calls ++ [(t, i)])) =
      (updateUser noFailures (recordAll db (stamped calls)) t.key i).1 := by
  simp [recordAll, stamped, Timestamp.now]

/-! ## The invariant -/

/-- What holds of the document after some calls. -/
structure Stands (calls : List (WallClock × ℤ)) (d : Document ℤ) : Prop where
  keys : ∀ k ∈ d, ∃ call ∈ calls, k = call.1.key
  oneEntryPerDay : OneEntryPerDay d
  days : dayMap d = lastValues calls

/-- The newest entry is of the day of `t` and has the value `i`. -/
def Newest (t : WallClock) (i : ℤ) (d : Document ℤ) : Prop :=
  ∃ k, newestKey d = some k ∧ d[k]? = some i ∧ keyDay k = some t.calendarDay

section
variable {calls : List (WallClock × ℤ)} {d : Document ℤ} {t : WallClock} {i : ℤ}

theorem Stands.readable (h : Stands calls d) : Readable d := by
  intro k hk
  obtain ⟨call, -, rfl⟩ := h.keys k hk
  simp

theorem stands_empty : Stands [] ∅ where
  keys k hk := absurd hk (by simp)
  oneEntryPerDay := oneEntryPerDay_empty
  days := by
    ext day : 1
    simp [dayMap, lastValues]

/-- A day that is not stored is added under the newest key. -/
theorem Stands.insert_new (h : Stands calls d) (ht : ∀ call ∈ calls, (compareTime call.1 t).isLE)
    (hr : ¬ Recorded d t.key) :
    Stands (calls ++ [(t, i)]) (d.insert t.key i) ∧ Newest t i (d.insert t.key i) := by
  have hrec : RecordsDay d (d.insert t.key i) (Timestamp.now t).text i :=
    recordsDay_insert h.oneEntryPerDay rfl
      (Or.inr fun j hj => ne_keyDay_of_not_recorded hr hj)
  refine ⟨⟨?_, hrec.oneEntryPerDay, ?_⟩, t.key, ?_, by simp, by simp⟩
  · intro k hk
    rcases (Document.mem_insert d).mp hk with rfl | hk
    · exact ⟨(t, i), by simp, rfl⟩
    · obtain ⟨call, hcall, hkey⟩ := h.keys k hk
      exact ⟨call, by simp [hcall], hkey⟩
  · rw [dayMap_of_recordsDay h.oneEntryPerDay hrec, day_now, h.days, lastValues_concat]
  · apply newestKey_insert_of_newest
    intro k hk
    obtain ⟨call, hcall, rfl⟩ := h.keys k hk
    rw [compareTo_key_key]
    exact ht call hcall

/-- **The newest key is of the day that is recorded again**: it is not older than
the stored key of that day, and not newer than the time of the call. -/
theorem Stands.keyDay_newestKey (h : Stands calls d)
    (ht : ∀ call ∈ calls, (compareTime call.1 t).isLE) (hr : Recorded d t.key) {k : String}
    (hk : newestKey d = some k) : keyDay k = some t.calendarDay := by
  obtain ⟨j, hj, htext⟩ := hr
  obtain ⟨call, -, rfl⟩ := h.keys j hj
  obtain ⟨hmem, hle⟩ := (newestKey_eq_some_iff d k).mp hk
  obtain ⟨newest, hnewest, rfl⟩ := h.keys k hmem
  have hcall := hle _ hj
  rw [compareTo_key_key] at hcall
  rw [keyDay_key, calendarDay_eq_of_between hcall (ht newest hnewest)
    (dayText_key_eq_iff.mp htext)]

/-- A day that is stored is changed at the newest key. -/
theorem Stands.insert_recorded (h : Stands calls d)
    (ht : ∀ call ∈ calls, (compareTime call.1 t).isLE) (hr : Recorded d t.key) {k : String}
    (hk : newestKey d = some k) :
    Stands (calls ++ [(t, i)]) (d.insert k i) ∧ Newest t i (d.insert k i) := by
  have hmem := mem_of_newestKey hk
  have hday := h.keyDay_newestKey ht hr hk
  have hrec : RecordsDay d (d.insert k i) (Timestamp.now t).text i :=
    recordsDay_insert h.oneEntryPerDay (by simpa [Timestamp.now] using hday) (Or.inl hmem)
  refine ⟨⟨?_, hrec.oneEntryPerDay, ?_⟩, k, ?_, by simp, hday⟩
  · intro j hj
    rcases (Document.mem_insert d).mp hj with rfl | hj
    · obtain ⟨call, hcall, hkey⟩ := h.keys j hmem
      exact ⟨call, by simp [hcall], hkey⟩
    · obtain ⟨call, hcall, hkey⟩ := h.keys j hj
      exact ⟨call, by simp [hcall], hkey⟩
  · rw [dayMap_of_recordsDay h.oneEntryPerDay hrec, day_now, h.days, lastValues_concat]
  · rw [newestKey_insert_of_mem hmem, hk]

/-- One call, from a document that may not exist yet. -/
theorem Stands.updateUser {db : RecordDoc} (h : Stands calls (fields db))
    (ht : ∀ call ∈ calls, (compareTime call.1 t).isLE) :
    ∃ d', (updateUser noFailures db t.key i).1 = some d' ∧ Stands (calls ++ [(t, i)]) d' ∧
      Newest t i d' := by
  cases db with
  | none =>
    have hr : ¬ Recorded ∅ t.key := by
      intro ⟨k, hk, _⟩
      simp at hk
    refine ⟨_, ?_, h.insert_new ht hr⟩
    rw [updateUser_none]
    rfl
  | some d =>
    have hattempts : Attempts noFailures d t.key := ⟨rfl, rfl, h.readable, by simp⟩
    by_cases hr : Recorded d t.key
    · obtain ⟨j, hj, -⟩ := id hr
      obtain ⟨k, hk⟩ := exists_newestKey hj
      refine ⟨_, ?_, h.insert_recorded ht hr hk⟩
      rw [updateUser_recorded hattempts hr hk]
      rfl
    · refine ⟨_, ?_, h.insert_new ht hr⟩
      rw [updateUser_new hattempts hr]
      rfl

/-- **Every run keeps the invariant**, by induction on the calls, the last one
first. -/
theorem stands_run (calls : List (WallClock × ℤ)) (t : WallClock) (i : ℤ)
    (h : NeverDecrease (calls ++ [(t, i)])) :
    ∃ d, recordAll none (stamped (calls ++ [(t, i)])) = some d ∧
      Stands (calls ++ [(t, i)]) d ∧ Newest t i d := by
  induction calls using List.reverseRecOn generalizing t i with
  | nil =>
    rw [recordAll_concat]
    have hempty : Stands [] (fields (none : RecordDoc)) := stands_empty
    exact hempty.updateUser (by simp)
  | append_singleton calls call ih =>
    obtain ⟨hcalls, -, hle⟩ := List.pairwise_append.mp h
    obtain ⟨d, hd, hstands, -⟩ := ih call.1 call.2 hcalls
    rw [recordAll_concat, hd]
    have hd' : Stands (calls ++ [call]) (fields (some d)) := hstands
    apply hd'.updateUser
    intro c hc
    exact hle c hc (t, i) (by simp)

/-! ## The views -/

/-- Each view shows the value `i`, and those with a date show the day of `t`. -/
structure ViewsShow (t : WallClock) (i : ℤ) (d : Document ℤ) : Prop where
  badge : badge d = .ok (toString i)
  history : (historyList 8 d)[0]? = some (.ok (.record
    (DateFormat.format "M月dd日(" t.toDateTime ++ DateFormat.E t.toDateTime ++ ")") (toString i)))
  chart : ∃ points, spots d = .ok points ∧
    points.getLast? = some ⟨((points.length - 1 : ℕ) : ℤ), i⟩ ∧
      getTitlesWidget d ((points.length - 1 : ℕ) : ℤ) =
        .ok (DateFormat.format "M/dd" t.toDateTime)
  pdf : ∀ w title (profile : NamedProfile) now, 1 ≤ w → w ≤ d.size →
    ∃ page, create w title (some d) (some profile.doc) now = .ok page ∧
      page.rows.head? =
        some (DateFormat.format "yyyy年MM月d日" t.toDateTime, toString i ++ "mh/dl")

theorem formatDate_key {k : String} (h : keyDay k = some t.calendarDay) (pattern : String) :
    formatDate pattern k = .ok (DateFormat.format pattern t.toDateTime) := by
  rw [formatDate_congr (h.trans (keyDay_key t).symm)]
  simp [formatDate, t.parse_key]

theorem leadingText_key {k : String} (h : keyDay k = some t.calendarDay) :
    leadingText k =
      .ok (DateFormat.format "M月dd日(" t.toDateTime ++ DateFormat.E t.toDateTime ++ ")") := by
  obtain ⟨u, hu, htext⟩ := leadingText_of_isSome (k := k) (by simp [h])
  have hday : u.calendarDay = t.toDateTime.calendarDay := by
    simpa [keyDay, hu, WallClock.calendarDay] using h
  rw [htext, DateFormat.format_congr hday, DateFormat.E_congr hday]

/-- **The first entry is what every view shows.** -/
theorem Newest.viewsShow (hd : Readable d) (h : Newest t i d) : ViewsShow t i d := by
  obtain ⟨k, hk, hi, hday⟩ := h
  have he := head?_newestFirst hk hi
  have hsize : 0 < d.size := by
    rw [← length_newestFirst]
    exact (List.getElem?_eq_some_iff.mp he).1
  refine ⟨by rw [badge_eq, he]; rfl, ?_, ?_, ?_⟩
  · rw [historyList_getElem? (by omega) he, recordTile, leadingText_key hday]
    rfl
  · have hlast : (plotted d)[min d.size 7 - 1]? = some (k, i) := by
      rw [plotted_getElem? (by omega), Nat.sub_self, he]
    refine ⟨_, spots_eq d, ?_, ?_⟩
    · rw [List.getLast?_eq_getElem?, flget_getElem?, List.getElem?_map]
      simp [hlast]
    · rw [length_flget, List.length_map, length_plotted, getTitlesWidget_of_lt hlast,
        formatDate_key hday]
  · intro w title profile now hw hwsize
    obtain ⟨nickname, hname⟩ := profile.exists_nickname
    have hupTo : ReadableUpTo w d := by
      intro e hmem
      have hstored := mem_newestFirst.mp (List.mem_of_mem_take hmem)
      exact hd e.1 ((Document.mem_iff_exists _).mpr ⟨_, hstored⟩)
    have hfirst : ((newestFirst d).take w)[0]? = some (k, i) := by
      rw [List.getElem?_take_of_lt (by omega), he]
    refine ⟨_, create_eq_ok hwsize hupTo hname, ?_⟩
    have hdate := formatDate_eq_dateText (e := (k, i)) (by simp [hday])
    rw [formatDate_key hday, Except.ok.injEq] at hdate
    simp [Page.rows, List.range_succ_eq_map, dateAt, valueAt, hfirst, hdate]

/-- **Reading one's own record.**  After every run of calls at times that never
decrease, starting without a document, the document has one entry for each day
recorded so far, with the last value given for the day, and every view shows the
value that was recorded last, with its day. -/
theorem read_your_record (calls : List (WallClock × ℤ)) (t : WallClock) (i : ℤ)
    (h : NeverDecrease (calls ++ [(t, i)])) :
    ∃ d, recordAll none (stamped (calls ++ [(t, i)])) = some d ∧ Readable d ∧
      OneEntryPerDay d ∧ dayMap d = lastValues (calls ++ [(t, i)]) ∧ ViewsShow t i d := by
  obtain ⟨d, hd, hstands, hnewest⟩ := stands_run calls t i h
  exact ⟨d, hd, hstands.readable, hstands.oneEntryPerDay, hstands.days,
    hnewest.viewsShow hstands.readable⟩

/-- The morning of a day in March. -/
def morning : WallClock where
  year := 2024
  month := 3
  day := 1
  hour := 8
  minute := 0
  second := 0
  millisecond := 0
  microsecond := 0
  year_mem := by decide
  month_mem := by decide
  day_mem := by decide
  hour_lt := by decide
  minute_lt := by decide
  second_lt := by decide
  millisecond_lt := by decide
  microsecond_lt := by decide

/-- Two values of one morning: the second is shown. -/
theorem read_your_record_morning :
    ∃ d, recordAll none (stamped [(morning, 120), (morning, 95)]) = some d ∧ Readable d ∧
      OneEntryPerDay d ∧ dayMap d = lastValues [(morning, 120), (morning, 95)] ∧
        ViewsShow morning 95 d :=
  read_your_record [(morning, 120)] morning 95 (by
    simp only [NeverDecrease, List.cons_append, List.nil_append]
    decide)

end

end Record
end FlutterSugar
