import FlutterSugar.Record.Views
import FlutterSugar.Record.DayMap

/-!
# What the chart and the history list show

Both views of the same document are described by its entries in descending order
of the keys.  The points of the chart are the first seven of them from right to
left, and the labels, which come out of a separate sort, are theirs.

## Main definitions

* `PushRecord` — a document of timestamps and values between 0 and 200.
* `spots_eq`, `bottomList_eq` — the chart keeps the first seven entries.
* `badge_eq` — the badge shows the first value.
* `historyList_getElem?` — the history list starts with the first entries.
* `chart_describes_entries` — points, labels and rows show the same entries.
-/

namespace FlutterSugar
namespace Record
open Lib Std

/-- A record document as the page `Push3` writes it: it refuses a value above
200, and its field takes digits only. -/
structure PushRecord where
  doc : Document ℤ
  readable : Readable doc
  accepted : ∀ (k : String) (v : ℤ), doc[k]? = some v → 0 ≤ v ∧ v ≤ 200

/-- The entries that the chart shows, from left to right. -/
def plotted (d : Document ℤ) : List (String × ℤ) := ((newestFirst d).take 7).reverse

/-! ## The chart -/

section
variable {d : Document ℤ}

@[simp] theorem length_plotted (d : Document ℤ) : (plotted d).length = min d.size 7 := by
  simp [plotted, Nat.min_comm]

/-- Cutting a list to seven elements, if it has more. -/
theorem truncate_eq {α : Type} (l : List α) :
    (if l.length > 7 then setLength 7 l else .ok l) = .ok (l.take 7) := by
  by_cases h : l.length > 7
  · rw [if_pos h, setLength, if_pos (by omega)]
  · rw [if_neg h, List.take_of_length_le (by omega)]

/-- **The chart draws the first seven values**, the newest at the right. -/
theorem spots_eq (d : Document ℤ) : spots d = .ok (flget ((plotted d).map Prod.snd)) := by
  rw [spots, values_eq_newestFirst, truncate_eq, plotted, List.map_reverse, List.map_take]
  rfl

/-- **The labels belong to the first seven keys.** -/
theorem bottomList_eq (d : Document ℤ) : bottomList d = .ok ((plotted d).map Prod.fst) := by
  simp only [bottomList, ascending_eq_reverse, List.reverse_reverse, List.length_reverse]
  by_cases h : ((newestFirst d).map Prod.fst).length > 7
  · rw [if_pos h, setLength, if_pos (by omega)]
    simp [plotted, bind, Except.bind, pure, Except.pure]
  · rw [if_neg h]
    have hlength : (newestFirst d).length ≤ 7 := by
      rw [List.length_map] at h
      omega
    simp [plotted, List.take_of_length_le hlength, pure, Except.pure]

theorem flget_getElem? (l : List ℤ) (x : ℕ) :
    (flget l)[x]? = l[x]?.map fun v => ⟨x, v⟩ := by
  simp only [flget, List.getElem?_map, List.getElem?_zipIdx, Option.map_map, Nat.zero_add]
  rfl

@[simp] theorem length_flget (l : List ℤ) : (flget l).length = l.length := by
  simp [flget]

theorem getLast?_flget (l : List ℤ) : (flget l).getLast?.map FlSpot.y = l.getLast? := by
  rw [List.getLast?_eq_getElem?, flget_getElem?, length_flget, List.getLast?_eq_getElem?,
    Option.map_map]
  simp [Function.comp_def]

/-- The seven cases of the `switch` are one. -/
theorem getTitlesWidget_eq {x : ℕ} (hx : x ≤ 6) :
    getTitlesWidget d x = titleAt ((plotted d).map Prod.fst) x := by
  simp only [getTitlesWidget, bottomList_eq, bind, Except.bind]
  interval_cases x <;> rfl

theorem getTitlesWidget_of_lt {x : ℕ} {e : String × ℤ} (h : (plotted d)[x]? = some e) :
    getTitlesWidget d x = formatDate "M/dd" e.1 := by
  have hx : x < (plotted d).length := (List.getElem?_eq_some_iff.mp h).1
  have hkey : ((plotted d).map Prod.fst)[x]? = some e.1 := by simp [h]
  rw [length_plotted] at hx
  have hcase : ((plotted d).map Prod.fst).length ≥ x + 1 := by
    rw [List.length_map, length_plotted]
    omega
  rw [getTitlesWidget_eq (by omega), titleAt, if_pos hcase]
  simp [elementAt, hkey, bind, Except.bind]

theorem getTitlesWidget_of_le {x : ℕ} (h : min d.size 7 ≤ x) (hx : x ≤ 6) :
    getTitlesWidget d x = .ok "" := by
  rw [getTitlesWidget_eq hx, titleAt, if_neg (by simp; omega)]
  rfl

/-- The entry at a position of the chart is so many places before the newest. -/
theorem plotted_getElem? {x : ℕ} (hx : x < min d.size 7) :
    (plotted d)[x]? = (newestFirst d)[min d.size 7 - 1 - x]? := by
  have hlength : ((newestFirst d).take 7).length = min d.size 7 := by simp [Nat.min_comm]
  rw [plotted, List.getElem?_reverse (by omega), hlength, List.getElem?_take_of_lt (by omega)]

end

/-! ## The badge -/

/-- The badge shows the first value, or the `null` that the list is filled up
with. -/
theorem badge_eq (d : Document ℤ) :
    badge d = .ok (nullableToString ((newestFirst d)[0]?.map Prod.snd)) := by
  rw [badge, values_eq_newestFirst]
  cases newestFirst d <;> rfl

/-! ## The history list -/

/-- A row of the history list shows an entry. -/
def recordTile (e : String × ℤ) : Except DartError Tile := do
  return .record (← leadingText e.1) (toString e.2)

/-- The tile at a position before the last slot is the row of the entry there. -/
theorem historyTile_eq {d : Document ℤ} {sugarCount j : ℕ} {e : String × ℤ}
    (hj : j < sugarCount - 1) (he : (newestFirst d)[j]? = some e) :
    historyTile sugarCount (SplayTreeMap.from d fun a b => compareTo b a) j = recordTile e := by
  have hkey : ((newestFirst d).map Prod.fst)[j]? = some e.1 := by simp [he]
  have hvalue : ((newestFirst d).map Prod.snd)[j]? = some e.2 := by simp [he]
  rw [historyTile, if_pos hj, keys_eq_newestFirst, values_eq_newestFirst]
  simp [elementAt, hkey, hvalue, recordTile, bind, Except.bind]

/-- **The history list starts with the first entries**, one fewer than its size
if it does not reach the end. -/
theorem historyList_getElem? {d : Document ℤ} {sugarCount j : ℕ} {e : String × ℤ}
    (hj : j < sugarCount - 1) (he : (newestFirst d)[j]? = some e) :
    (historyList sugarCount d)[j]? = some (recordTile e) := by
  have hlt : j < d.size := by
    rw [← length_newestFirst]
    exact (List.getElem?_eq_some_iff.mp he).1
  have hcount : j < if sugarCount > d.size then d.size else sugarCount := by
    split <;> omega
  rw [historyList, size_from, List.getElem?_map, List.getElem?_range hcount, Option.map_some,
    historyTile_eq hj he]

theorem leadingText_of_isSome {k : String} (h : (keyDay k).isSome) :
    ∃ t, DateTime.parse k = some t ∧
      leadingText k = .ok (DateFormat.format "M月dd日(" t ++ DateFormat.E t ++ ")") := by
  obtain ⟨t, ht, -⟩ := formatDate_of_isSome h ""
  exact ⟨t, ht, by simp [leadingText, ht]⟩

/-- The entries of a readable document have rows with a date and their value. -/
theorem recordTile_of_readable {d : Document ℤ} (hd : Readable d) {e : String × ℤ}
    (he : e ∈ newestFirst d) : ∃ leading, recordTile e = .ok (.record leading (toString e.2)) := by
  have hkey : e.1 ∈ d := (Document.mem_iff_exists d).mpr ⟨e.2, mem_newestFirst.mp he⟩
  obtain ⟨t, -, ht⟩ := leadingText_of_isSome (hd e.1 hkey)
  refine ⟨DateFormat.format "M月dd日(" t ++ DateFormat.E t ++ ")", ?_⟩
  rw [recordTile, ht]
  rfl

/-! ## Points, labels and rows -/

/-- The first entries of a readable document have rows that show their values. -/
theorem history_shows_value {d : Document ℤ} (hd : Readable d) (taps : ℕ) {j : ℕ}
    {e : String × ℤ}
    (hj : j < 7) (he : (newestFirst d)[j]? = some e) :
    ∃ leading, (historyList (8 + 8 * taps) d)[j]? =
      some (.ok (.record leading (toString e.2))) := by
  obtain ⟨leading, hrow⟩ := recordTile_of_readable hd (List.mem_of_getElem? he)
  exact ⟨leading, by rw [historyList_getElem? (by omega) he, hrow]⟩

/-- **Points, labels and rows describe the same entries.**  With `m` the number of
entries, but at most seven, there are `m` points at `0, …, m - 1`; the point and
the label at `x` are the value and the date of the `x`-th oldest of the `m`
newest entries; there are no labels from `m` to 6; and from right to left the
points are the values of the first `m` rows of the history list, however often
it was extended. -/
theorem chart_describes_entries (d : PushRecord) (taps : ℕ) :
    ∃ points, spots d.doc = .ok points ∧ points.length = min d.doc.size 7 ∧
      (∀ x < min d.doc.size 7, ∃ k v t,
        (newestFirst d.doc)[min d.doc.size 7 - 1 - x]? = some (k, v) ∧ 0 ≤ v ∧ v ≤ 200 ∧
          points[x]? = some ⟨x, v⟩ ∧ DateTime.parse k = some t ∧
            getTitlesWidget d.doc x = .ok (DateFormat.format "M/dd" t)) ∧
      (∀ x : ℕ, min d.doc.size 7 ≤ x → x ≤ 6 → getTitlesWidget d.doc x = .ok "") ∧
      ∀ j < min d.doc.size 7, ∃ leading v,
        (points.map FlSpot.y).reverse[j]? = some v ∧
          (historyList (8 + 8 * taps) d.doc)[j]? = some (.ok (.record leading (toString v))) := by
  refine ⟨_, spots_eq d.doc, by simp, ?_, ?_, ?_⟩
  · intro x hx
    obtain ⟨⟨k, v⟩, he⟩ : ∃ e, (plotted d.doc)[x]? = some e :=
      ⟨_, List.getElem?_eq_getElem (by simpa using hx)⟩
    have hentry : (newestFirst d.doc)[min d.doc.size 7 - 1 - x]? = some (k, v) := by
      rw [← plotted_getElem? hx, he]
    have hstored : d.doc[k]? = some v := mem_newestFirst.mp (List.mem_of_getElem? hentry)
    obtain ⟨t, ht, htext⟩ := formatDate_of_isSome
      (d.readable k ((Document.mem_iff_exists _).mpr ⟨v, hstored⟩)) "M/dd"
    obtain ⟨hnonneg, hle⟩ := d.accepted k v hstored
    refine ⟨k, v, t, hentry, hnonneg, hle, ?_, ht, ?_⟩
    · rw [flget_getElem?, List.getElem?_map, he]
      rfl
    · rw [getTitlesWidget_of_lt he, htext]
  · intro x hx hx6
    exact getTitlesWidget_of_le hx hx6
  · intro j hj
    obtain ⟨e, he⟩ : ∃ e, (newestFirst d.doc)[j]? = some e :=
      ⟨_, List.getElem?_eq_getElem (by rw [length_newestFirst]; omega)⟩
    obtain ⟨leading, hrow⟩ := history_shows_value d.readable taps (by omega) he
    refine ⟨leading, e.2, ?_, hrow⟩
    have hys : (flget ((plotted d.doc).map Prod.snd)).map FlSpot.y =
        (plotted d.doc).map Prod.snd := by
      ext x : 1
      rw [List.getElem?_map, flget_getElem?, Option.map_map]
      simp [Function.comp_def]
    rw [hys, plotted, List.map_reverse, List.reverse_reverse, List.getElem?_map,
      List.getElem?_take_of_lt (by omega), he]
    rfl

end Record
end FlutterSugar
