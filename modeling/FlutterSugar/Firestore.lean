import FlutterSugar.Dart.Core

/-!
# Documents of Cloud Firestore

A document is a finite map from field names to values.  `set` replaces the whole
document, `set` with `merge` changes the named fields only, and `update` does so
on a document that exists.  A write that fails changes nothing.

## Main definitions

* `Document V`, `Stored V` — a document, and what is stored where one may be.
* `set`, `setMerge`, `update` — the writes.
-/

namespace FlutterSugar
open Lib Std

/-- The fields of a document. -/
abbrev Document (V : Type) := ExtTreeMap String V compareTo

/-- What is stored under the name of a document: `none` if it does not exist.
This is also what `snapshot.data()` returns for a snapshot of it. -/
abbrev Stored (V : Type) := Option (Document V)

namespace Firestore
variable {V : Type}

/-- `set(fields)`. -/
def set (fields : List (String × V)) : Stored V := some (ExtTreeMap.ofList fields compareTo)

/-- `set(fields, SetOptions(merge: true))`. -/
def setMerge (old : Stored V) (fields : List (String × V)) : Stored V :=
  some ((old.getD ∅).insertMany fields)

/-- `update(fields)`, an error if the document does not exist. -/
def update (old : Stored V) (fields : List (String × V)) : Except DartError (Stored V) :=
  match old with
  | none => .error .firebaseException
  | some d => .ok (some (d.insertMany fields))

@[simp] theorem set_singleton (k : String) (v : V) :
    set [(k, v)] = some ((∅ : Document V).insert k v) := rfl

@[simp] theorem setMerge_singleton (d : Document V) (k : String) (v : V) :
    setMerge (some d) [(k, v)] = some (d.insert k v) := rfl

end Firestore

namespace Document
variable {V : Type}

@[simp] theorem compareTo_eq_iff {s t : String} : compareTo s t = .eq ↔ s = t :=
  LawfulEqCmp.compare_eq_iff_eq

theorem getElem?_insert (d : Document V) (k j : String) (v : V) :
    (d.insert k v)[j]? = if k = j then some v else d[j]? := by
  rw [ExtTreeMap.getElem?_insert]
  simp only [compareTo_eq_iff]

theorem getElem?_insert_ne (d : Document V) {k j : String} (h : k ≠ j) (v : V) :
    (d.insert k v)[j]? = d[j]? := by
  simp [getElem?_insert, h]

theorem mem_insert (d : Document V) {k j : String} {v : V} :
    j ∈ d.insert k v ↔ j = k ∨ j ∈ d := by
  rw [ExtTreeMap.mem_insert, compareTo_eq_iff, eq_comm]

theorem mem_iff_exists (d : Document V) {k : String} : k ∈ d ↔ ∃ v, d[k]? = some v := by
  rw [ExtTreeMap.mem_iff_isSome_getElem?, Option.isSome_iff_exists]

theorem mem_insertMany (d : Document V) {l : List (String × V)} {k : String} :
    k ∈ d.insertMany l ↔ k ∈ d ∨ k ∈ l.map Prod.fst := by
  rw [ExtTreeMap.mem_insertMany_list, List.contains_iff_mem]

/-- What a field holds after a write was written or was there. -/
theorem of_getElem?_insertMany {d : Document V} {l : List (String × V)} {k : String} {v : V}
    (h : (d.insertMany l)[k]? = some v) : (k, v) ∈ l ∨ d[k]? = some v := by
  induction l generalizing d with
  | nil => exact Or.inr (by simpa using h)
  | cons e l ih =>
    rw [ExtTreeMap.insertMany_cons] at h
    rcases ih h with hmem | hold
    · exact Or.inl (List.mem_cons_of_mem e hmem)
    · rw [getElem?_insert] at hold
      split at hold
      next hkey =>
        have hv : e.2 = v := Option.some.inj hold
        exact Or.inl (by simp [← hkey, ← hv])
      next => exact Or.inr hold

/-- A field that is written once holds what was written. -/
theorem getElem?_insertMany_of_mem {d : Document V} {l : List (String × V)} {k : String} {v : V}
    (hl : (l.map Prod.fst).Nodup) (h : (k, v) ∈ l) : (d.insertMany l)[k]? = some v := by
  refine ExtTreeMap.getElem?_insertMany_list_of_mem (compareTo_eq_iff.mpr rfl) ?_ h
  refine (List.pairwise_map.mp hl).imp ?_
  intro a b hne heq
  exact hne (compareTo_eq_iff.mp heq)

/-- Writing the value a field already has changes nothing. -/
theorem insert_eq_self (d : Document V) {k : String} {v : V} (h : d[k]? = some v) :
    d.insert k v = d := by
  ext j : 1
  rw [getElem?_insert]
  split
  next hkj => rw [← hkj, h]
  next => rfl

/-- The later write to a field wins. -/
theorem insert_insert_self (d : Document V) (k : String) (u v : V) :
    (d.insert k u).insert k v = d.insert k v := by
  ext j : 1
  rw [getElem?_insert, getElem?_insert, getElem?_insert]
  split <;> rfl

/-- Writes to different fields can be exchanged. -/
theorem insert_comm (d : Document V) {k j : String} (h : k ≠ j) (u v : V) :
    (d.insert k u).insert j v = (d.insert j v).insert k u := by
  ext l : 1
  simp only [getElem?_insert]
  grind

end Document
end FlutterSugar
