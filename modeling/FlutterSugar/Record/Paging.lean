import FlutterSugar.Lib.Run
import FlutterSugar.Record.Chart

/-!
# Paging of the history list

The list of past values shows a page of `sugarCount` slots.  If the document does
not fill the page, every slot is a row.  Otherwise the last slot is a tile to see
more, and a tap on it adds eight slots, up to thirty-two.  The document may change
between two taps, and its size may then pass the size of the page in either
direction.

## Main definitions

* `HistoryPage`, `HistoryPage.step` — the page, taps, and changes of the document.
* `HistoryPage.shown`, `HistoryPage.older` — the entries on the page, and the rest.
* `HistoryPage.ShowsNewest` — what the list shows.
* `paging_complete` — this is so after every run, and every tap helps.
-/

namespace FlutterSugar
namespace Record
open Lib Std

/-- The number of slots, and the document that was delivered last. -/
structure HistoryPage where
  sugarCount : ℕ
  doc : Document ℤ

namespace HistoryPage

/-- `_CheckState.initState`. -/
def initState (doc : Document ℤ) : HistoryPage := ⟨8, doc⟩

/-- The tiles of the list. -/
def tiles (s : HistoryPage) : List (Except DartError Tile) := historyList s.sugarCount s.doc

/-- `onTap` of the tile to see more: the page afterwards, and the toast. -/
def onTap (s : HistoryPage) : HistoryPage × Option String :=
  if s.sugarCount < 32 then
    ({ s with sugarCount := s.sugarCount + 8 }, none)
  else
    (s, some "取得上限(1ヶ月分)に達しました。")

inductive Act
  | tap
  /-- A snapshot of the document is delivered. -/
  | change (doc : Document ℤ)

/-- A tap needs the tile to see more. -/
def step (s : HistoryPage) : Act → Option HistoryPage
  | .tap => if .ok .expand ∈ s.tiles then some s.onTap.1 else none
  | .change doc => some { s with doc }

/-- The entries that have a row. -/
def shown (s : HistoryPage) : List (String × ℤ) := (newestFirst s.doc).take (s.sugarCount - 1)

/-- The entries that have none. -/
def older (s : HistoryPage) : List (String × ℤ) := (newestFirst s.doc).drop (s.sugarCount - 1)

/-! ## The tiles of a page -/

section
variable (s : HistoryPage)

@[simp] theorem shown_append_older : s.shown ++ s.older = newestFirst s.doc :=
  List.take_append_drop _ _

@[simp] theorem length_shown : s.shown.length = min s.doc.size (s.sugarCount - 1) := by
  rw [shown, List.length_take, length_newestFirst, Nat.min_comm]

theorem older_eq_nil_iff : s.older = [] ↔ s.doc.size ≤ s.sugarCount - 1 := by
  rw [older, List.drop_eq_nil_iff, length_newestFirst]

/-- A row is not the tile to see more. -/
theorem recordTile_ne_expand (e : String × ℤ) : recordTile e ≠ .ok .expand := by
  rw [recordTile]
  cases leadingText e.1 <;> simp [bind, Except.bind, pure, Except.pure]

/-- The row of an entry needs a key that can be parsed. -/
theorem exists_record_iff (e : String × ℤ) :
    (∃ leading, recordTile e = .ok (.record leading (toString e.2))) ↔
      (DateTime.parse e.1).isSome := by
  rw [recordTile, leadingText]
  cases DateTime.parse e.1 with
  | none => simp [bind, Except.bind]
  | some t => simp [bind, Except.bind, pure, Except.pure]

/-- The slots before the last one are the rows of the entries on the page. -/
theorem map_historyTile (s : HistoryPage) :
    (List.range s.shown.length).map
        (historyTile s.sugarCount (SplayTreeMap.from s.doc fun a b => compareTo b a)) =
      s.shown.map recordTile := by
  ext j : 1
  rw [List.getElem?_map, List.getElem?_map]
  by_cases hj : j < s.shown.length
  · have he : (newestFirst s.doc)[j]? = some s.shown[j] := by
      rw [← s.shown_append_older, List.getElem?_append_left hj, List.getElem?_eq_getElem hj]
    have hpage : j < s.sugarCount - 1 := by
      rw [length_shown] at hj
      omega
    rw [List.getElem?_range hj, Option.map_some, historyTile_eq hpage he,
      List.getElem?_eq_getElem hj, Option.map_some]
  · have hrange : (List.range s.shown.length).length ≤ j := by
      rw [List.length_range]
      omega
    rw [List.getElem?_eq_none hrange, List.getElem?_eq_none (by omega)]
    rfl

/-- **The tiles of a page**: the rows of the entries on it, and a tile to see more
if there are others. -/
theorem tiles_eq (hpos : 0 < s.sugarCount) :
    s.tiles = s.shown.map recordTile ++ if s.older = [] then [] else [.ok .expand] := by
  rw [tiles, historyList, size_from, ← map_historyTile]
  have hlength := s.length_shown
  by_cases hall : s.doc.size ≤ s.sugarCount - 1
  · have hcount : (if s.sugarCount > s.doc.size then s.doc.size else s.sugarCount) =
        s.shown.length := by
      rw [if_pos (by omega)]
      omega
    rw [if_pos (s.older_eq_nil_iff.mpr hall), hcount, List.append_nil]
  · have hcount : (if s.sugarCount > s.doc.size then s.doc.size else s.sugarCount) =
        s.shown.length + 1 := by
      rw [if_neg (by omega)]
      omega
    have hlast : ¬ s.shown.length < s.sugarCount - 1 := by omega
    rw [if_neg (mt s.older_eq_nil_iff.mp hall), hcount, List.range_succ, List.map_append,
      List.map_singleton, historyTile, if_neg hlast]
    rfl

/-- The tile to see more is there exactly if there is more to see. -/
theorem expand_mem_tiles (hpos : 0 < s.sugarCount) :
    .ok .expand ∈ s.tiles ↔ s.sugarCount ≤ s.doc.size := by
  have hrows : .ok .expand ∉ s.shown.map recordTile := by
    intro h
    obtain ⟨e, -, he⟩ := List.mem_map.mp h
    exact recordTile_ne_expand e he
  rw [s.tiles_eq hpos, List.mem_append, or_iff_right hrows]
  split
  next hnil =>
    have hall := s.older_eq_nil_iff.mp hnil
    exact iff_of_false List.not_mem_nil (by omega)
  next hne =>
    have hleft := mt s.older_eq_nil_iff.mpr hne
    exact iff_of_true (List.mem_singleton.mpr rfl) (by omega)

/-- A tile other than the one to see more is the row of the entry at its place. -/
theorem row_of_tile (hpos : 0 < s.sugarCount) {j : ℕ} {tile : Except DartError Tile}
    (htile : s.tiles[j]? = some tile) (hne : tile ≠ .ok .expand) :
    j < s.sugarCount - 1 ∧ ∃ e, (newestFirst s.doc)[j]? = some e ∧ tile = recordTile e := by
  rw [s.tiles_eq hpos] at htile
  have hj : j < (s.shown.map recordTile).length := by
    by_contra hge
    have hmem : tile ∈ if s.older = [] then [] else [.ok .expand] := by
      rw [List.getElem?_append_right (by omega)] at htile
      exact List.mem_of_getElem? htile
    split at hmem
    · exact absurd hmem List.not_mem_nil
    · exact hne (List.mem_singleton.mp hmem)
  have hpage : j < s.sugarCount - 1 := by
    rw [List.length_map, length_shown] at hj
    omega
  rw [List.getElem?_append_left hj, List.getElem?_map, Option.map_eq_some_iff] at htile
  obtain ⟨e, he, hrow⟩ := htile
  rw [shown, List.getElem?_take_of_lt hpage] at he
  exact ⟨hpage, e, he, hrow.symm⟩

end

/-! ## Steps -/

section
variable {s t : HistoryPage}

/-- The page has at most four sizes. -/
def Sized (s : HistoryPage) : Prop := s.sugarCount ∈ [8, 16, 24, 32]

theorem Sized.pos (h : s.Sized) : 0 < s.sugarCount := by
  simp only [Sized, List.mem_cons, List.not_mem_nil, or_false] at h
  omega

/-- A tap leaves the document alone, and adds eight slots to fewer than thirty-two. -/
theorem step_tap (h : step s .tap = some t) :
    t.doc = s.doc ∧
      t.sugarCount = if s.sugarCount < 32 then s.sugarCount + 8 else s.sugarCount := by
  rw [step] at h
  split at h
  · rw [Option.some.injEq] at h
    rw [← h, onTap]
    split
    · exact ⟨rfl, rfl⟩
    · exact ⟨rfl, rfl⟩
  · cases h

theorem Sized.step {a : Act} (h : s.Sized) (hstep : step s a = some t) : t.Sized := by
  cases a with
  | tap =>
    obtain ⟨-, hcount⟩ := step_tap hstep
    simp only [Sized, List.mem_cons, List.not_mem_nil, or_false] at h ⊢
    split at hcount
    · omega
    · omega
  | change doc =>
    rw [HistoryPage.step, Option.some.injEq] at hstep
    rw [← hstep]
    exact h

theorem Sized.run {doc : Document ℤ} {acts : List Act}
    (hrun : run HistoryPage.step (initState doc) acts = some s) : s.Sized :=
  run_invariant_of_step (P := Sized) (fun _ _ _ h hstep => h.step hstep)
    (by simp [Sized, initState]) hrun

/-- **A tap hides no row.** -/
theorem tiles_getElem?_tap (hs : s.Sized) (hstep : HistoryPage.step s .tap = some t) {j : ℕ}
    {tile : Except DartError Tile} (htile : s.tiles[j]? = some tile) (hne : tile ≠ .ok .expand) :
    t.tiles[j]? = some tile := by
  obtain ⟨hdoc, hcount⟩ := step_tap hstep
  obtain ⟨hpage, e, he, rfl⟩ := s.row_of_tile hs.pos htile hne
  have hgrown : j < t.sugarCount - 1 := by
    split at hcount <;> omega
  exact historyList_getElem? hgrown (by rw [hdoc, he])

/-- **Each of the 31 newest entries is reached by tapping**: as long as it has no
row the tile to see more is there, and a tap adds eight slots. -/
theorem exists_taps (hs : s.Sized) {j : ℕ} {e : String × ℤ} (hj : j < 31)
    (he : (newestFirst s.doc)[j]? = some e) :
    ∃ taps t, run HistoryPage.step s (List.replicate taps .tap) = some t ∧ t.doc = s.doc ∧
      t.tiles[j]? = some (recordTile e) := by
  induction hmissing : 32 - s.sugarCount using Nat.strong_induction_on generalizing s with
  | _ missing ih =>
    by_cases hpage : j < s.sugarCount - 1
    · exact ⟨0, s, rfl, rfl, historyList_getElem? hpage he⟩
    · have hsize : j < s.doc.size := by
        rw [← length_newestFirst]
        exact (List.getElem?_eq_some_iff.mp he).1
      have hexpand : .ok .expand ∈ s.tiles := (s.expand_mem_tiles hs.pos).mpr (by omega)
      obtain ⟨u, hu⟩ : ∃ u, HistoryPage.step s .tap = some u := ⟨_, if_pos hexpand⟩
      obtain ⟨hdoc, hcount⟩ := step_tap hu
      rw [if_pos (by omega)] at hcount
      obtain ⟨taps, t, ht, htdoc, htile⟩ :=
        ih (32 - u.sugarCount) (by omega) (hs.step hu) (by rw [hdoc, he]) rfl
      refine ⟨taps + 1, t, ?_, htdoc.trans hdoc, htile⟩
      rw [List.replicate_succ, run_cons_eq_some]
      exact ⟨u, hu, ht⟩

end

/-- What the list shows of the document: a row for each entry on the page, which
are the newest ones, each once and in strictly descending order of the keys, and
a tile to see more exactly if there are others.  The row of an entry has its value
exactly if the key can be parsed; it throws otherwise. -/
structure ShowsNewest (s : HistoryPage) : Prop where
  tiles : s.tiles = s.shown.map recordTile ++ if s.older = [] then [] else [.ok .expand]
  length_shown : s.shown.length = min s.doc.size (s.sugarCount - 1)
  entries : ∀ k v, (k, v) ∈ s.shown ++ s.older ↔ s.doc[k]? = some v
  descending : (s.shown ++ s.older).Pairwise fun a b => compareTo b.1 a.1 = .lt
  expand : .ok .expand ∈ s.tiles ↔ s.shown.length < s.doc.size
  rows : ∀ e ∈ s.shown, (∃ leading, recordTile e = .ok (.record leading (toString e.2))) ↔
    (DateTime.parse e.1).isSome

theorem Sized.showsNewest {s : HistoryPage} (hs : s.Sized) : s.ShowsNewest where
  tiles := s.tiles_eq hs.pos
  length_shown := s.length_shown
  entries k v := by
    rw [shown_append_older]
    exact mem_newestFirst
  descending := by
    rw [shown_append_older]
    exact pairwise_newestFirst s.doc
  expand := by
    have hpos := hs.pos
    rw [s.expand_mem_tiles hpos, s.length_shown]
    omega
  rows e _ := exists_record_iff e

/-- **Paging is complete.**  After every run of taps and changes of the document
the list shows the newest entries, a tap hides none of its rows, and each of the
31 newest entries can be brought on the page by tapping, with its value if its key
can be parsed. -/
theorem paging_complete {doc : Document ℤ} {acts : List Act} {s : HistoryPage}
    (hrun : run step (initState doc) acts = some s) :
    s.ShowsNewest ∧
      (∀ t, s.step .tap = some t → t.doc = s.doc ∧ ∀ (j : ℕ) tile, s.tiles[j]? = some tile →
        tile ≠ .ok .expand → t.tiles[j]? = some tile) ∧
      ∀ j < 31, ∀ e, (newestFirst s.doc)[j]? = some e →
        ∃ taps t, run step s (List.replicate taps .tap) = some t ∧ t.doc = s.doc ∧
          t.tiles[j]? = some (recordTile e) ∧
            ((DateTime.parse e.1).isSome →
              ∃ leading, t.tiles[j]? = some (.ok (.record leading (toString e.2)))) := by
  have hs := Sized.run hrun
  refine ⟨hs.showsNewest, ?_, ?_⟩
  · intro t ht
    exact ⟨(step_tap ht).1, fun j tile htile hne => tiles_getElem?_tap hs ht htile hne⟩
  · intro j hj e he
    obtain ⟨taps, t, ht, hdoc, htile⟩ := exists_taps hs hj he
    refine ⟨taps, t, ht, hdoc, htile, ?_⟩
    intro hparse
    obtain ⟨leading, hrow⟩ := (exists_record_iff e).mpr hparse
    exact ⟨leading, by rw [htile, hrow]⟩

/-- An entry whose key is no time. -/
def noTime : Document ℤ := (∅ : Document ℤ).insert "x" 5

/-- It is on the page, and the list has no row for it. -/
theorem not_paging_complete :
    run step (initState noTime) [] = some (initState noTime) ∧
      min noTime.size ((initState noTime).sugarCount - 1) = 1 ∧
        ∀ tile ∈ (initState noTime).tiles, ∀ leading title, tile ≠ .ok (.record leading title) := by
  refine ⟨rfl, by decide +kernel, ?_⟩
  have htiles : (initState noTime).tiles = [.error .formatException] := by decide +kernel
  rw [htiles]
  simp

/-- Values of eight days: as many as there are slots at first. -/
def eightDays : Document ℤ :=
  ExtTreeMap.ofList [("2024-03-01 08:00:00.000", 95), ("2024-03-02 08:00:00.000", 102),
    ("2024-03-03 08:00:00.000", 99), ("2024-03-04 08:00:00.000", 120),
    ("2024-03-05 08:00:00.000", 88), ("2024-03-06 08:00:00.000", 91),
    ("2024-03-07 08:00:00.000", 105), ("2024-03-08 08:00:00.000", 97)] compareTo

/-- The last slot hides the oldest of eight values, and a tap brings it up. -/
theorem paging_complete_eightDays :
    run step (initState ∅) [.change eightDays, .tap] = some ⟨16, eightDays⟩ ∧
      ShowsNewest ⟨16, eightDays⟩ := by
  have hsize : 8 ≤ eightDays.size := by decide +kernel
  have hexpand : .ok .expand ∈ tiles ⟨8, eightDays⟩ :=
    (expand_mem_tiles _ (by decide)).mpr hsize
  have htap : step ⟨8, eightDays⟩ .tap = some ⟨16, eightDays⟩ := by
    rw [step, if_pos hexpand]
    rfl
  have hrun : run step (initState ∅) [.change eightDays, .tap] = some ⟨16, eightDays⟩ := by
    rw [run_cons_eq_some]
    exact ⟨⟨8, eightDays⟩, rfl, by rw [run_cons, htap]; rfl⟩
  exact ⟨hrun, (paging_complete hrun).1⟩

end HistoryPage
end Record
end FlutterSugar
