import FlutterSugar.Record.DayMap
import FlutterSugar.Record.Views

/-!
# `Pdfcreator.create`

The output page reads the document to cap the chosen number of days by its
length, and `create` reads the document again to print so many entries.  They go
into a table of two column pairs with 15 rows each, which has room for 30, while
31 can be chosen.

## Main definitions

* `week` — the length that the output page passes on.
* `create` — the texts of the page.
* `Prints` — the table shows the newest entries and nothing else.
* `create_prints_iff` — when it does.
-/

namespace FlutterSugar
namespace Record
open Lib Std

/-! ## `outputPDF.dart` -/

/-- The items of the dropdown button, by their number of weeks. -/
inductive OutWeek
  | one
  | two
  | three
  | four
  deriving DecidableEq, Repr

/-- The number of days of an item. -/
def OutWeek.value : OutWeek → ℕ
  | .one => 7
  | .two => 14
  | .three => 21
  | .four => 31

/-- The `week` of the page that is opened, the document having been read. -/
def week (outWeek : OutWeek) (data : Document ℤ) : ℕ :=
  if outWeek.value > data.size then data.size else outWeek.value

/-! ## `pdfcreator.dart` -/

/-- The texts of the page, the table by columns. -/
structure Page where
  title : String
  datepdf : String
  nickname : String
  dates : List String
  values : List String
  dates' : List String
  values' : List String
  deriving DecidableEq, Repr

/-- A field of a snapshot. -/
def snapshotField (snapshot : Stored Dyn) (field : String) : Except DartError Dyn :=
  match snapshot.bind fun d => d[field]? with
  | none => .error .stateError
  | some v => .ok v

/-- A cell with the date of an entry. -/
def dateCell (list2 : List (List Dyn)) (index : ℕ) : Except DartError String :=
  if index < list2.length then do
    let first ← setFirst (← elementAt list2 index)
    formatDate "yyyy年MM月d日" (← first.asString)
  else return ""

/-- A cell with the value of an entry. -/
def valueCell (list2 : List (List Dyn)) (index : ℕ) : Except DartError String :=
  if index < list2.length then do
    let last ← setLast (← elementAt list2 index)
    return last.toString ++ "mh/dl"
  else return ""

/-- `Pdfcreator.create(w, s)`, given what it reads. -/
def create (w : ℕ) (s : String) (data : RecordDoc) (pdfName : Stored Dyn) (now : DateTime) :
    Except DartError Page := do
  let sn ← (match data with
    | none => .error .typeError
    | some sn => .ok sn : Except DartError (Document ℤ))
  let sn := SplayTreeMap.from sn fun a b => compareTo b a
  let datepdf := DateFormat.format "yyyy年MM月d日" now
  -- An entry becomes a set of its key and its value.
  let list := sn.entries.map fun e => setLiteral [Dyn.str e.1, Dyn.int e.2]
  let list2 ← setLength w list
  let nickname ← snapshotField pdfName "ニックネーム"
  return {
    title := s
    datepdf := datepdf
    nickname := nickname.toString
    dates := ← (List.range 15).mapM fun index => dateCell list2 index
    values := ← (List.range 15).mapM fun index => valueCell list2 index
    dates' := ← (List.range 15).mapM fun index => dateCell list2 (index + 15)
    values' := ← (List.range 15).mapM fun index => valueCell list2 (index + 15) }

/-! ## The table -/

/-- The rows of the table, the first column pair first. -/
def Page.rows (page : Page) : List (String × String) :=
  page.dates.zip page.values ++ page.dates'.zip page.values'

/-- The row of an entry. -/
def entryRow (e : String × ℤ) : Except DartError (String × String) := do
  return (← formatDate "yyyy年MM月d日" e.1, toString e.2 ++ "mh/dl")

/-- The table shows the `w` newest entries, each in one row, and nothing else. -/
def Prints (w : ℕ) (d : Document ℤ) (page : Except DartError Page) : Prop :=
  ∃ p rows, page = .ok p ∧ ((newestFirst d).take w).mapM entryRow = .ok rows ∧ rows.length = w ∧
    p.rows = rows ++ List.replicate (30 - w) ("", "")

/-- The entries that are printed, as sets. -/
def entrySets (w : ℕ) (d : Document ℤ) : List (List Dyn) :=
  ((newestFirst d).take w).map fun e => [Dyn.str e.1, Dyn.int e.2]

theorem setLiteral_entry (e : String × ℤ) :
    setLiteral [Dyn.str e.1, Dyn.int e.2] = [Dyn.str e.1, Dyn.int e.2] := by
  simp [setLiteral, List.eraseDups_cons]

theorem setLength_entries {w : ℕ} {d : Document ℤ} (h : w ≤ d.size) :
    setLength w ((SplayTreeMap.from d fun a b => compareTo b a).entries.map fun e =>
      setLiteral [Dyn.str e.1, Dyn.int e.2]) = .ok (entrySets w d) := by
  have hlength : (newestFirst d).length = d.size := length_newestFirst d
  rw [newestFirst] at hlength
  rw [setLength, if_pos (by rw [List.length_map]; omega)]
  simp only [setLiteral_entry, entrySets, newestFirst, List.map_take]

theorem setLength_entries_of_lt {w : ℕ} {d : Document ℤ} (h : d.size < w) :
    setLength w ((SplayTreeMap.from d fun a b => compareTo b a).entries.map fun e =>
      setLiteral [Dyn.str e.1, Dyn.int e.2]) = .error .typeError := by
  have hlength : (newestFirst d).length = d.size := length_newestFirst d
  rw [newestFirst] at hlength
  rw [setLength, if_neg (by rw [List.length_map]; omega)]

section
variable {w : ℕ} {d : Document ℤ} {s : String} {pdfName : Stored Dyn} {now : DateTime}

/-- The text of a date that can be parsed. -/
def dateText (e : String × ℤ) : String :=
  match DateTime.parse e.1 with
  | none => ""
  | some t => DateFormat.format "yyyy年MM月d日" t

theorem formatDate_eq_dateText {e : String × ℤ} (h : (keyDay e.1).isSome) :
    formatDate "yyyy年MM月d日" e.1 = .ok (dateText e) := by
  obtain ⟨t, ht, htext⟩ := formatDate_of_isSome h "yyyy年MM月d日"
  rw [htext, dateText, ht]

/-- The `w` newest keys can be parsed. -/
def ReadableUpTo (w : ℕ) (d : Document ℤ) : Prop :=
  ∀ e ∈ (newestFirst d).take w, (keyDay e.1).isSome

theorem entryRow_eq (h : ReadableUpTo w d) :
    ((newestFirst d).take w).mapM entryRow =
      .ok (((newestFirst d).take w).map fun e => (dateText e, toString e.2 ++ "mh/dl")) := by
  apply mapM_eq_ok
  intro e he
  rw [entryRow, formatDate_eq_dateText (h e he)]
  rfl

/-- A row that fails to be formatted is a key that cannot be parsed. -/
theorem readableUpTo_of_entryRow {rows : List (String × String)}
    (h : ((newestFirst d).take w).mapM entryRow = .ok rows) : ReadableUpTo w d := by
  intro e he
  obtain ⟨row, hrow⟩ := ok_of_mapM_ok h he
  obtain ⟨x, hx, -⟩ := bind_eq_ok.mp hrow
  rw [keyDay]
  rw [formatDate] at hx
  cases hparse : DateTime.parse e.1 with
  | none =>
    rw [hparse] at hx
    cases hx
  | some t => rfl

/-- The date in a row, if there is an entry for it. -/
def dateAt (w : ℕ) (d : Document ℤ) (index : ℕ) : String :=
  (((newestFirst d).take w)[index]?.map dateText).getD ""

/-- The value in a row, if there is an entry for it. -/
def valueAt (w : ℕ) (d : Document ℤ) (index : ℕ) : String :=
  (((newestFirst d).take w)[index]?.map fun e => toString e.2 ++ "mh/dl").getD ""

theorem dateCell_eq (h : ReadableUpTo w d) (index : ℕ) :
    dateCell (entrySets w d) index = .ok (dateAt w d index) := by
  rw [dateAt]
  cases he : ((newestFirst d).take w)[index]? with
  | none =>
    have hlength := List.getElem?_eq_none_iff.mp he
    rw [dateCell, if_neg (by rw [entrySets, List.length_map]; omega)]
    rfl
  | some e =>
    have hlength := (List.getElem?_eq_some_iff.mp he).1
    have hset : (entrySets w d)[index]? = some [Dyn.str e.1, Dyn.int e.2] := by
      rw [entrySets, List.getElem?_map, he]
      rfl
    rw [dateCell, if_pos (by rw [entrySets, List.length_map]; omega), elementAt, hset]
    simpa [setFirst, bind, Except.bind] using
      formatDate_eq_dateText (h e (List.mem_of_getElem? he))

theorem valueCell_eq (w : ℕ) (d : Document ℤ) (index : ℕ) :
    valueCell (entrySets w d) index = .ok (valueAt w d index) := by
  rw [valueAt]
  cases he : ((newestFirst d).take w)[index]? with
  | none =>
    have hlength := List.getElem?_eq_none_iff.mp he
    rw [valueCell, if_neg (by rw [entrySets, List.length_map]; omega)]
    rfl
  | some e =>
    have hlength := (List.getElem?_eq_some_iff.mp he).1
    have hset : (entrySets w d)[index]? = some [Dyn.str e.1, Dyn.int e.2] := by
      rw [entrySets, List.getElem?_map, he]
      rfl
    rw [valueCell, if_pos (by rw [entrySets, List.length_map]; omega), elementAt, hset]
    rfl

/-- Two column pairs of 15 rows are one of 30. -/
theorem zip_columns (f g : ℕ → String) :
    ((List.range 15).map f).zip ((List.range 15).map g) ++
        ((List.range 15).map fun i => f (i + 15)).zip ((List.range 15).map fun i => g (i + 15)) =
      (List.range 30).map fun i => (f i, g i) := by
  rw [show List.range 30 = List.range 15 ++ (List.range 15).map (· + 15) by decide, List.map_append,
    List.map_map, List.zip_map', List.zip_map']
  rfl

/-- Cells behind the end of a list are empty. -/
theorem map_range_getD {α : Type} (f g : α → String) {l : List α} {n : ℕ} (h : l.length ≤ n) :
    (List.range n).map (fun i => ((l[i]?.map f).getD "", (l[i]?.map g).getD "")) =
      (l.map fun e => (f e, g e)) ++ List.replicate (n - l.length) ("", "") := by
  ext i : 1
  by_cases hi : i < l.length
  · rw [List.getElem?_append_left (by simpa using hi)]
    simp [List.getElem?_range (show i < n by omega), List.getElem?_eq_getElem hi]
  · have hnone : l[i]? = none := List.getElem?_eq_none (by omega)
    rw [List.getElem?_append_right (by simpa using hi), List.length_map, List.getElem?_replicate]
    by_cases hn : i < n
    · rw [if_pos (by omega)]
      simp [List.getElem?_range hn, hnone]
    · rw [if_neg (by omega)]
      simp
      omega

/-- The page of a length that the document has. -/
theorem create_eq_ok (hw : w ≤ d.size) (h : ReadableUpTo w d) {nickname : Dyn}
    (hname : snapshotField pdfName "ニックネーム" = .ok nickname) :
    create w s (some d) pdfName now = .ok {
      title := s
      datepdf := DateFormat.format "yyyy年MM月d日" now
      nickname := nickname.toString
      dates := (List.range 15).map (dateAt w d)
      values := (List.range 15).map (valueAt w d)
      dates' := (List.range 15).map fun i => dateAt w d (i + 15)
      values' := (List.range 15).map fun i => valueAt w d (i + 15) } := by
  have hdates : (List.range 15).mapM (fun i => dateCell (entrySets w d) i) =
      .ok ((List.range 15).map (dateAt w d)) := mapM_eq_ok fun i _ => dateCell_eq h i
  have hvalues : (List.range 15).mapM (fun i => valueCell (entrySets w d) i) =
      .ok ((List.range 15).map (valueAt w d)) := mapM_eq_ok fun i _ => valueCell_eq w d i
  have hdates' : (List.range 15).mapM (fun i => dateCell (entrySets w d) (i + 15)) =
      .ok ((List.range 15).map fun i => dateAt w d (i + 15)) :=
    mapM_eq_ok fun i _ => dateCell_eq h (i + 15)
  have hvalues' : (List.range 15).mapM (fun i => valueCell (entrySets w d) (i + 15)) =
      .ok ((List.range 15).map fun i => valueAt w d (i + 15)) :=
    mapM_eq_ok fun i _ => valueCell_eq w d (i + 15)
  simp only [create, bind, Except.bind, setLength_entries hw, hname, hdates, hvalues, hdates',
    hvalues', pure, Except.pure]

/-- A page has a table of 30 rows. -/
theorem length_rows {data : RecordDoc} {p : Page} (h : create w s data pdfName now = .ok p) :
    p.rows.length = 30 := by
  obtain ⟨sn, -, h⟩ := bind_eq_ok.mp h
  obtain ⟨list2, -, h⟩ := bind_eq_ok.mp h
  obtain ⟨nickname, -, h⟩ := bind_eq_ok.mp h
  obtain ⟨dates, hdates, h⟩ := bind_eq_ok.mp h
  obtain ⟨values, hvalues, h⟩ := bind_eq_ok.mp h
  obtain ⟨dates', hdates', h⟩ := bind_eq_ok.mp h
  obtain ⟨values', hvalues', h⟩ := bind_eq_ok.mp h
  cases h
  simp [Page.rows, length_of_mapM_ok hdates, length_of_mapM_ok hvalues,
    length_of_mapM_ok hdates', length_of_mapM_ok hvalues']

/-- **When the table shows the newest entries.** -/
theorem prints_iff {nickname : Dyn} (hname : snapshotField pdfName "ニックネーム" = .ok nickname) :
    Prints w d (create w s (some d) pdfName now) ↔ w ≤ 30 ∧ w ≤ d.size ∧ ReadableUpTo w d := by
  constructor
  · rintro ⟨p, rows, hp, hrows, hlength, htable⟩
    have hlength' := congrArg List.length htable
    rw [length_rows hp, List.length_append, List.length_replicate, hlength] at hlength'
    refine ⟨by omega, ?_, readableUpTo_of_entryRow hrows⟩
    by_contra hlt
    obtain ⟨sn, hsn, hp⟩ := bind_eq_ok.mp hp
    cases hsn
    obtain ⟨list2, hlist2, -⟩ := bind_eq_ok.mp hp
    rw [setLength_entries_of_lt (by omega)] at hlist2
    cases hlist2
  · intro ⟨hw, hsize, hread⟩
    have htake : ((newestFirst d).take w).length = w := by simp; omega
    refine ⟨_, _, create_eq_ok hsize hread hname, entryRow_eq hread, by simpa using hsize, ?_⟩
    have hcells := map_range_getD dateText (fun e => toString e.2 ++ "mh/dl")
      (l := (newestFirst d).take w) (n := 30) (by omega)
    rw [htake] at hcells
    rw [← hcells]
    exact zip_columns _ _

end

/-! ## Printing what the output page has counted -/

/-- A profile with a nickname, as the profile page shows it. -/
structure NamedProfile where
  doc : Document Dyn
  named : "ニックネーム" ∈ doc

theorem NamedProfile.exists_nickname (profile : NamedProfile) :
    ∃ nickname, snapshotField (some profile.doc) "ニックネーム" = .ok nickname := by
  obtain ⟨v, hv⟩ := (Document.mem_iff_exists _).mp profile.named
  exact ⟨v, by simp [snapshotField, hv]⟩

theorem week_le (outWeek : OutWeek) (data : Document ℤ) : week outWeek data ≤ data.size := by
  rw [week]
  split <;> omega

/-- **When the PDF loses no record and duplicates none.**  The output page reads
`R₁`, calls make `R₂` of it, and `create` prints `R₂`.  The table has to have room
for the chosen length, and `R₂` has to have so many dates that can be parsed;
that is so if the dates of `R₁` can be. -/
theorem create_prints_iff (R₁ : Document ℤ) (outWeek : OutWeek) (calls : List (Timestamp × ℤ))
    (s : String) (profile : NamedProfile) (now : DateTime) :
    (Prints (week outWeek R₁) (fields (recordAll (some R₁) calls))
        (create (week outWeek R₁) s (recordAll (some R₁) calls) (some profile.doc) now) ↔
      week outWeek R₁ ≤ 30 ∧ week outWeek R₁ ≤ (fields (recordAll (some R₁) calls)).size ∧
        ReadableUpTo (week outWeek R₁) (fields (recordAll (some R₁) calls))) ∧
    (Readable R₁ →
      (Prints (week outWeek R₁) (fields (recordAll (some R₁) calls))
          (create (week outWeek R₁) s (recordAll (some R₁) calls) (some profile.doc) now) ↔
        week outWeek R₁ ≤ 30)) := by
  obtain ⟨nickname, hname⟩ := profile.exists_nickname
  obtain ⟨R₂, hR₂⟩ := exists_recordAll R₁ calls
  rw [hR₂, fields_some]
  refine ⟨prints_iff hname, ?_⟩
  intro hread
  obtain ⟨R₂', hR₂', hread₂, hsize⟩ := recordAll_readable hread calls
  obtain rfl : R₂ = R₂' := Option.some.inj (hR₂.symm.trans hR₂')
  have hupTo : ReadableUpTo (week outWeek R₁) R₂ := by
    intro e he
    have hstored := mem_newestFirst.mp (List.mem_of_mem_take he)
    exact hread₂ e.1 ((Document.mem_iff_exists _).mpr ⟨_, hstored⟩)
  have hle := week_le outWeek R₁
  rw [prints_iff hname]
  constructor
  · intro h
    exact h.1
  · intro h
    exact ⟨h, by omega, hupTo⟩

/-- A value for each day of January. -/
def january : Document ℤ :=
  .ofList ((List.range 31).map fun i =>
    ("2024-01-" ++ DateTime.twoDigits (i + 1) ++ " 08:00:00.000", 100)) compareTo

/-- A month of 31 records does not fit into the table. -/
theorem not_create_prints :
    ¬ ∀ (R₁ : Document ℤ) (outWeek : OutWeek) (calls : List (Timestamp × ℤ)) (s : String)
      (profile : NamedProfile) (now : DateTime),
      Prints (week outWeek R₁) (fields (recordAll (some R₁) calls))
        (create (week outWeek R₁) s (recordAll (some R₁) calls) (some profile.doc) now) := by
  intro h
  have hsize : week .four january = 31 := by decide +kernel
  obtain ⟨p, rows, hp, -, hlength, htable⟩ := h january .four [] "f"
    ⟨(∅ : Document Dyn).insert "ニックネーム" (.str "a"), ExtTreeMap.mem_insert_self⟩
    ⟨2024, 2, 1, 8, 0, 0, 0, 0, false⟩
  have hrows := length_rows hp
  rw [hsize] at hlength htable
  rw [htable, List.length_append, List.length_replicate, hlength] at hrows
  omega

end Record
end FlutterSugar
