import FlutterSugar.Record.UpdateUser
import Mathlib.Data.List.GetD

/-!
# The views of the record

The badge and the history list of `check.dart` and the chart of
`lineChart.dart`.  Each sorts the document anew.  All of them enumerate the
entries newest first; the chart then reverses what it keeps of them, and finds
its labels by way of the opposite order.

## Main definitions

* `newestFirst` — the entries of a document in descending order of the keys.
* `badge` — the value next to the name.
* `historyTile`, `historyList` — the list of past values.
* `spots`, `getTitlesWidget` — the points of the chart and the labels below.
-/

namespace FlutterSugar
namespace Record
open Lib Std

/-- The entries of `SplayTreeMap.from(map, (a, b) => b.compareTo(a))`. -/
def newestFirst (map : Document ℤ) : List (String × ℤ) :=
  (SplayTreeMap.from map fun a b => compareTo b a).entries

/-! ## `check.dart` -/

/-- The badge of `_CheckState.build`. -/
def badge (map : Document ℤ) : Except DartError String := do
  let map2 := SplayTreeMap.from map fun a b => compareTo b a
  let list := setLengthNullable 7 (map2.values.map some)
  return nullableToString (← elementAt list 0)

/-- A tile of the history list. -/
inductive Tile
  /-- A date and a value. -/
  | record (leading title : String)
  /-- The tile that is tapped to see more. -/
  | expand
  deriving DecidableEq, Repr

/-- `DateFormat('M月dd日(').format(…) + DateFormat.E('ja').format(…) + ')'`. -/
def leadingText (key : String) : Except DartError String :=
  match DateTime.parse key with
  | none => .error .formatException
  | some t => .ok (DateFormat.format "M月dd日(" t ++ DateFormat.E t ++ ")")

/-- The `itemBuilder` of the history list. -/
def historyTile (sugarCount : ℕ) (map : SplayTreeMap ℤ fun a b => compareTo b a) (index : ℕ) :
    Except DartError Tile :=
  if index < sugarCount - 1 then do
    let leading ← leadingText (← elementAt map.keys index)
    let value ← elementAt map.values index
    return .record leading (toString value)
  else return .expand

/-- The history list of `_CheckState.build`. -/
def historyList (sugarCount : ℕ) (data : Document ℤ) : List (Except DartError Tile) :=
  let map := SplayTreeMap.from data fun a b => compareTo b a
  let itemCount := if sugarCount > map.size then map.size else sugarCount
  (List.range itemCount).map (historyTile sugarCount map)

/-! ## `lineChart.dart` -/

/-- A point of the chart.  Its coordinates are doubles with an integer value. -/
structure FlSpot where
  x : ℤ
  y : ℤ
  deriving DecidableEq, Repr

def flget (list3 : List ℤ) : List FlSpot :=
  list3.zipIdx.map fun e => ⟨e.2, e.1⟩

/-- The points that `_LineChartWidgetState.build` draws. -/
def spots (map : Document ℤ) : Except DartError (List FlSpot) := do
  let map2 := SplayTreeMap.from map fun a b => compareTo b a
  let list := map2.values
  let list ← (if list.length > 7 then setLength 7 list else .ok list : Except DartError (List ℤ))
  return flget list.reverse

/-- The keys below the chart. -/
def bottomList (map : Document ℤ) : Except DartError (List String) := do
  -- The parameters of this comparator are swapped: the order ascends.
  let map3 := SplayTreeMap.from map fun b a => compareTo b a
  let bottomList := map3.keys
  if bottomList.length > 7 then
    return (← setLength 7 bottomList.reverse).reverse
  else return bottomList

/-- One case of the `switch`. -/
def titleAt (bottomList : List String) (index : ℕ) : Except DartError String :=
  if bottomList.length ≥ index + 1 then do
    formatDate "M/dd" (← elementAt bottomList index)
  else return ""

/-- The label at a position of the bottom axis, `value.toInt()` being given. -/
def getTitlesWidget (map : Document ℤ) (value : ℤ) : Except DartError String := do
  let bottomList ← bottomList map
  match value with
  | 0 => titleAt bottomList 0
  | 1 => titleAt bottomList 1
  | 2 => titleAt bottomList 2
  | 3 => titleAt bottomList 3
  | 4 => titleAt bottomList 4
  | 5 => titleAt bottomList 5
  | 6 => titleAt bottomList 6
  | _ => return ""

/-! ## Entries, newest first -/

section
variable {d : Document ℤ}

theorem keys_eq_newestFirst (d : Document ℤ) :
    (SplayTreeMap.from d fun a b => compareTo b a).keys = (newestFirst d).map Prod.fst :=
  ExtTreeMap.map_fst_toList_eq_keys.symm

theorem values_eq_newestFirst (d : Document ℤ) :
    (SplayTreeMap.from d fun a b => compareTo b a).values = (newestFirst d).map Prod.snd := rfl

@[simp] theorem length_newestFirst (d : Document ℤ) : (newestFirst d).length = d.size :=
  length_toList_resort d

theorem size_from (d : Document ℤ) :
    (SplayTreeMap.from d fun a b => compareTo b a).size = d.size := by
  rw [← ExtTreeMap.length_toList]
  exact length_toList_resort d

theorem mem_newestFirst {k : String} {v : ℤ} : (k, v) ∈ newestFirst d ↔ d[k]? = some v :=
  mem_toList_resort d (k, v)

/-- The keys of the entries descend strictly. -/
theorem pairwise_newestFirst (d : Document ℤ) :
    (newestFirst d).Pairwise fun a b => compareTo b.1 a.1 = .lt :=
  (SplayTreeMap.from d fun a b => compareTo b a).ordered_keys_toList

/-- The ascending order is the reverse. -/
theorem ascending_eq_reverse (d : Document ℤ) :
    (SplayTreeMap.from d fun b a => compareTo b a).keys =
      ((newestFirst d).map Prod.fst).reverse := by
  have h : (newestFirst d).reverse =
      (SplayTreeMap.from d fun b a => compareTo b a).toList := by
    rw [newestFirst, SplayTreeMap.entries, SplayTreeMap.from, toList_resort_opposite,
      List.reverse_reverse]
    rfl
  rw [← ExtTreeMap.map_fst_toList_eq_keys, ← List.map_reverse, h]

/-- The first of the entries belongs to the newest key. -/
theorem head?_newestFirst {k : String} {v : ℤ} (hk : newestKey d = some k)
    (hv : d[k]? = some v) : (newestFirst d)[0]? = some (k, v) := by
  have hkeys : ((newestFirst d).map Prod.fst).head? = some k := by
    rw [← keys_eq_newestFirst]
    exact hk
  cases h : newestFirst d with
  | nil => rw [h] at hkeys; cases hkeys
  | cons e es =>
    rw [h, List.map_cons, List.head?_cons, Option.some.injEq] at hkeys
    have hmem : (e.1, e.2) ∈ newestFirst d := by simp [h]
    rw [mem_newestFirst, hkeys, hv, Option.some.injEq] at hmem
    rw [List.getElem?_cons_zero, ← hkeys, hmem]

end

end Record
end FlutterSugar
