import FlutterSugar.Lib.Cursor
import Mathlib.Data.String.Basic

/-!
# The fields of a document

The SDK keeps the fields of a document in an array that is sorted by their names.
`ApplyChanges` writes a changed copy of such an array in one pass over the fields,
the changed fields and the deleted ones, and stops when the copy has as many
fields as it is to have.

Its cursor in the deleted fields moves on only where it meets one of them.  A
deleted field that is not there stops it, and what is deleted after that field is
copied; if it comes before the last field of the copy, it takes the place of one
that should have stayed.

## Main definitions

* `ObjectValue V`, `TransformMap V`, `FieldMask` — fields, changes of fields, and
  names of fields.
* `applyChanges`, `setAll` — the changed copy.
* `applyChanges_eq_iff` — when the copy is right.
-/

namespace FlutterSugar.Local
open Lib List

variable {V : Type}

/-- The fields of a document, sorted by name. -/
abbrev ObjectValue (V : Type) := SortedMap String V

/-- Fields to be set, and fields to be deleted (`nullopt`). -/
abbrev TransformMap (V : Type) := SortedMap String (Option V)

abbrev FieldMask := Finset String

/-- The fields of a mask in the order of a `std::set`. -/
def FieldMask.paths (mask : FieldMask) : List String := mask.sort

/-! ## The pass of `ApplyChanges` -/

def calculateSizeOfUnion (parent upserts : ObjectValue V) (deletes : Finset String) : ℕ :=
  upserts.entries.length + parent.entries.countP fun e => e.1 ∉ deletes ∧ e.1 ∉ upserts

/-- The loop of `ApplyChanges`, which has `n` entries yet to write. -/
def mergeLoop : ℕ → List ((_ : String) × V) → List String → List ((_ : String) × V) →
    List ((_ : String) × V)
  | 0, _, _, _ => []
  | n + 1, s :: source, deletes, upserts =>
    -- the source key is deleted
    if deletes.head? = some s.1 then mergeLoop (n + 1) source deletes.tail upserts
    else
      match upserts with
      | [] => s :: mergeLoop n source deletes []
      | u :: upserts =>
        -- the source key is updated, or comes before the next upsert
        if u.1 = s.1 then ⟨s.1, u.2⟩ :: mergeLoop n source deletes upserts
        else if s.1 < u.1 then s :: mergeLoop n source deletes (u :: upserts)
        else u :: mergeLoop n (s :: source) deletes upserts
  | n + 1, [], deletes, u :: upserts => u :: mergeLoop n [] deletes upserts
  -- there is nothing left to read, see `length_applyChanges`
  | _ + 1, [], _, [] => []
termination_by n source => source.length + n

/-- The loop skips, merges, and stops. -/
theorem mergeLoop_eq (n : ℕ) (source : List ((_ : String) × V)) (deletes : List String)
    (upserts : List ((_ : String) × V)) :
    mergeLoop n source deletes upserts =
      (mergeOver (skipListed source deletes) upserts).take n := by
  induction n, source, deletes, upserts using mergeLoop.induct with
  | case1 => simp [mergeLoop]
  | case2 n s source deletes upserts hdel ih =>
    rw [skipListed_cons, if_pos hdel, ← ih, mergeLoop.eq_def]
    simp only [hdel, if_true]
  | case3 n s source deletes hdel ih =>
    rw [skipListed_cons, if_neg hdel, mergeOver_nil, take_succ_cons]
    simp [mergeLoop, hdel, ih]
  | case4 n s source deletes hdel u upserts heq ih =>
    rw [skipListed_cons, if_neg hdel]
    have hu : (⟨s.1, u.2⟩ : (_ : String) × V) = u := by rw [← heq]
    simp [mergeLoop, mergeOver, hdel, heq, ih, hu]
  | case5 n s source deletes hdel u upserts hne hlt ih =>
    rw [skipListed_cons, if_neg hdel]
    simp [mergeLoop, mergeOver, hdel, hne, hlt, ih]
  | case6 n s source deletes hdel u upserts hne hlt ih =>
    rw [skipListed_cons, if_neg hdel] at ih ⊢
    simp [mergeLoop, mergeOver, hdel, hne, hlt, ih, Ne.symm hne]
  | case7 n deletes u upserts ih => simp_all [mergeLoop, skipListed]
  | case8 => simp [mergeLoop, skipListed]

/-- The entries that the loop would write if nothing stopped it. -/
def pass (parent upserts : ObjectValue V) (deletes : Finset String) : List ((_ : String) × V) :=
  mergeOver (skipListed parent.entries deletes.sort) upserts.entries

theorem ascending_skipped (parent : ObjectValue V) (deletes : Finset String) :
    Ascending (skipListed parent.entries deletes.sort) :=
  parent.ascending.sublist (skipListed_sublist _ _)

theorem ascending_pass (parent upserts : ObjectValue V) (deletes : Finset String) :
    Ascending (pass parent upserts deletes) :=
  ascending_mergeOver (ascending_skipped parent deletes) upserts.ascending

/-- Without the deleted fields, and with the upserts. -/
def applyChanges (parent upserts : ObjectValue V) (deletes : Finset String) : ObjectValue V where
  entries :=
    mergeLoop (calculateSizeOfUnion parent upserts deletes) parent.entries deletes.sort
      upserts.entries
  ascending := by
    rw [mergeLoop_eq]
    exact (ascending_pass parent upserts deletes).sublist (take_sublist _ _)

theorem entries_applyChanges (parent upserts : ObjectValue V) (deletes : Finset String) :
    (applyChanges parent upserts deletes).entries =
      (pass parent upserts deletes).take (calculateSizeOfUnion parent upserts deletes) :=
  mergeLoop_eq _ _ _ _

theorem mem_pass {parent upserts : ObjectValue V} {deletes : Finset String}
    {e : (_ : String) × V} :
    e ∈ pass parent upserts deletes ↔ upserts.get e.1 = some e.2 ∨
      parent.get e.1 = some e.2 ∧ e.1 ∉ upserts ∧
        (e.1 ∈ deletes → ∃ d ∈ deletes, d < e.1 ∧ d ∉ parent) := by
  rw [pass, mem_mergeOver (ascending_skipped parent deletes) upserts.ascending,
    mem_skipListed parent.ascending deletes.sortedLT_sort.pairwise, SortedMap.get_eq_some_iff,
    SortedMap.get_eq_some_iff]
  simp only [Finset.mem_sort]
  exact or_congr_right (by rw [and_assoc, and_comm (a := _ → _)]; rfl)

/-! ## What it is to return -/

def changed (parent upserts : ObjectValue V) (deletes : Finset String) : ObjectValue V :=
  (parent.filterMap fun k v => if k ∈ deletes then none else some v).override upserts

theorem get_changed (parent upserts : ObjectValue V) (deletes : Finset String) (k : String) :
    (changed parent upserts deletes).get k =
      (upserts.get k).or (if k ∈ deletes then none else parent.get k) := by
  rw [changed, SortedMap.get_override, SortedMap.get_filterMap]
  by_cases hk : k ∈ deletes <;> simp [hk]

/-- `CalculateSizeOfUnion` counts the fields of the changed document. -/
theorem calculateSizeOfUnion_eq (parent upserts : ObjectValue V) (deletes : Finset String) :
    calculateSizeOfUnion parent upserts deletes =
      (changed parent upserts deletes).entries.length := by
  rw [changed, SortedMap.override, length_mergeOver (SortedMap.ascending _) upserts.ascending,
    SortedMap.filterMap, countP_filterMap, calculateSizeOfUnion]
  congr 1
  refine countP_congr fun e _ => ?_
  by_cases he : e.1 ∈ deletes
  · simp [he]
  · have hmem : e.1 ∈ upserts ↔ e.1 ∈ upserts.entries.keys := Iff.rfl
    simp [he, hmem]

/-- A field that is to stay. -/
def Kept (upserts : ObjectValue V) (deletes : Finset String) (e : (_ : String) × V) : Bool :=
  e.1 ∈ upserts ∨ e.1 ∉ deletes

theorem kept_iff {upserts : ObjectValue V} {deletes : Finset String} {e : (_ : String) × V} :
    Kept upserts deletes e ↔ e.1 ∈ upserts ∨ e.1 ∉ deletes := decide_eq_true_iff

/-- The entries of the changed document are those of the pass that are to stay. -/
theorem filter_kept (parent upserts : ObjectValue V) (deletes : Finset String) :
    (pass parent upserts deletes).filter (Kept upserts deletes) =
      (changed parent upserts deletes).entries := by
  refine ((ascending_pass parent upserts deletes).sublist filter_sublist).eq_of_mem_iff
    (SortedMap.ascending _) ?_
  intro e
  have hget : e ∈ (changed parent upserts deletes).entries ↔
      (changed parent upserts deletes).get e.1 = some e.2 := SortedMap.get_eq_some_iff.symm
  rw [mem_filter, mem_pass, kept_iff, hget, get_changed, ← SortedMap.isSome_get]
  cases upserts.get e.1 with
  | some v => simp
  | none => by_cases he : e.1 ∈ deletes <;> simp [he]

theorem calculateSizeOfUnion_eq_countP (parent upserts : ObjectValue V)
    (deletes : Finset String) :
    calculateSizeOfUnion parent upserts deletes =
      (pass parent upserts deletes).countP (Kept upserts deletes) := by
  rw [calculateSizeOfUnion_eq, ← filter_kept, countP_eq_length_filter]

/-- The loop writes as many entries as it is to write. -/
theorem length_applyChanges (parent upserts : ObjectValue V) (deletes : Finset String) :
    (applyChanges parent upserts deletes).entries.length =
      calculateSizeOfUnion parent upserts deletes := by
  rw [entries_applyChanges, length_take, calculateSizeOfUnion_eq_countP]
  exact min_eq_left countP_le_length

/-- A deleted field that is not there hides one that is. -/
def Hidden (parent upserts : ObjectValue V) (deletes : Finset String) (d' : String) : Prop :=
  d' ∈ parent ∧ d' ∉ upserts ∧ d' ∈ deletes ∧ ∃ d ∈ deletes, d < d' ∧ d ∉ parent

/-- **`ApplyChanges` is right if what is hidden comes last**, and only then:
otherwise a field that should have stayed is lost. -/
theorem applyChanges_eq_iff (parent upserts : ObjectValue V) (deletes : Finset String) :
    applyChanges parent upserts deletes = changed parent upserts deletes ↔
      ∀ d', Hidden parent upserts deletes d' →
        ∀ k, k ∈ upserts ∨ k ∈ parent ∧ k ∉ deletes → k < d' := by
  rw [← SortedMap.entries_inj, ← filter_kept, entries_applyChanges, calculateSizeOfUnion_eq_countP,
    take_countP_eq_filter_iff, (ascending_pass parent upserts deletes).pairwise_iff]
  constructor
  · intro h d' hhidden k hk
    obtain ⟨hdp', hdu', hd', d, hd, hlt, hdp⟩ := hhidden
    obtain ⟨v', hv'⟩ := SortedMap.mem_iff_exists.mp hdp'
    have hhidden : ⟨d', v'⟩ ∈ pass parent upserts deletes :=
      mem_pass.mpr (Or.inr ⟨hv', hdu', fun _ => ⟨d, hd, hlt, hdp⟩⟩)
    have hlost : ¬ Kept upserts deletes ⟨d', v'⟩ := by simp [kept_iff, hdu', hd']
    have hstays : ∃ v, ⟨k, v⟩ ∈ pass parent upserts deletes ∧ Kept upserts deletes ⟨k, v⟩ := by
      by_cases hku : k ∈ upserts
      · obtain ⟨v, hv⟩ := SortedMap.mem_iff_exists.mp hku
        exact ⟨v, mem_pass.mpr (Or.inl hv), kept_iff.mpr (Or.inl hku)⟩
      · obtain ⟨hkp, hkd⟩ := hk.resolve_left hku
        obtain ⟨v, hv⟩ := SortedMap.mem_iff_exists.mp hkp
        exact ⟨v, mem_pass.mpr (Or.inr ⟨hv, hku, fun hkd' => absurd hkd' hkd⟩),
          kept_iff.mpr (Or.inr hkd)⟩
    obtain ⟨v, hv, hkept⟩ := hstays
    rcases lt_trichotomy k d' with hk' | rfl | hk'
    · exact hk'
    · exact absurd hkept hlost
    · exact absurd (h _ hhidden _ hv hk' hkept) hlost
  · intro h e he f hf hlt hkept
    by_contra hlost
    rw [kept_iff, not_or, not_not] at hlost
    obtain ⟨hparent, -, hhidden⟩ := (mem_pass.mp he).resolve_left fun hu =>
      hlost.1 (SortedMap.mem_iff_exists.mpr ⟨e.2, hu⟩)
    obtain ⟨d, hd, hde, hdp⟩ := hhidden hlost.2
    have hstays : f.1 ∈ upserts ∨ f.1 ∈ parent ∧ f.1 ∉ deletes := by
      rcases kept_iff.mp hkept with hfu | hfd
      · exact Or.inl hfu
      · rcases mem_pass.mp hf with hu | ⟨hp, -⟩
        · exact Or.inl (SortedMap.mem_iff_exists.mpr ⟨f.2, hu⟩)
        · exact Or.inr ⟨SortedMap.mem_iff_exists.mpr ⟨f.2, hp⟩, hfd⟩
    have hep : e.1 ∈ parent := SortedMap.mem_iff_exists.mpr ⟨e.2, hparent⟩
    exact lt_asymm hlt (h e.1 ⟨hep, hlost.1, hlost.2, d, hd, hde, hdp⟩ f.1 hstays)

/-- Nothing is hidden by a single deleted field. -/
theorem applyChanges_of_subset (parent upserts : ObjectValue V) {deletes : Finset String}
    {d : String} (h : deletes ⊆ {d}) :
    applyChanges parent upserts deletes = changed parent upserts deletes := by
  refine (applyChanges_eq_iff parent upserts deletes).mpr ?_
  intro d' hhidden
  obtain ⟨-, -, hd', e, he, hlt, -⟩ := hhidden
  rw [Finset.mem_singleton.mp (h hd'), Finset.mem_singleton.mp (h he)] at hlt
  exact absurd hlt (lt_irrefl d)

/-! ## The operations of `ObjectValue` -/

/-- The fields to be set. -/
def TransformMap.upserts (data : TransformMap V) : ObjectValue V := data.filterMap fun _ v => v

/-- The fields to be deleted. -/
def TransformMap.deletes (data : TransformMap V) : Finset String :=
  (data.filterMap fun _ v => if v.isNone then some () else none).keys

theorem TransformMap.mem_upserts {data : TransformMap V} {k : String} :
    k ∈ data.upserts ↔ ∃ v, data.get k = some (some v) := by
  simp [upserts, SortedMap.mem_iff_exists, SortedMap.get_filterMap, Option.bind_eq_some_iff]

theorem TransformMap.mem_deletes {data : TransformMap V} {k : String} :
    k ∈ data.deletes ↔ data.get k = some none := by
  rw [deletes, SortedMap.mem_keys, ← SortedMap.isSome_get, SortedMap.get_filterMap]
  rcases data.get k with - | - | v <;> simp

namespace ObjectValue
open TransformMap

/-- `Set(path, value)` of a field of the document itself. -/
def set (x : ObjectValue V) (path : String) (value : V) : ObjectValue V :=
  applyChanges x (.single path value) ∅

/-- `Delete(path)` of a field of the document itself. -/
def delete (x : ObjectValue V) (path : String) : ObjectValue V := applyChanges x ∅ {path}

/-- `SetAll(data)`, all of whose fields have the same parent. -/
def setAll (x : ObjectValue V) (data : TransformMap V) : ObjectValue V :=
  applyChanges x data.upserts data.deletes

theorem get_set (x : ObjectValue V) (path : String) (value : V) (k : String) :
    (x.set path value).get k = if k = path then some value else x.get k := by
  rw [set, applyChanges_of_subset x _ (Finset.empty_subset {path}), get_changed,
    SortedMap.get_single]
  by_cases hk : k = path <;> simp [hk]

theorem get_delete (x : ObjectValue V) (path : String) (k : String) :
    (x.delete path).get k = if k = path then none else x.get k := by
  rw [delete, applyChanges_of_subset x _ (Finset.Subset.refl {path}), get_changed]
  simp

/-- What `SetAll` is to do. -/
theorem get_changed_setAll (x : ObjectValue V) (data : TransformMap V) (k : String) :
    (changed x data.upserts data.deletes).get k = (data.get k).getD (x.get k) := by
  have hdel : k ∈ data.deletes ↔ data.get k = some none := mem_deletes
  rw [get_changed, upserts, SortedMap.get_filterMap]
  rcases h : data.get k with - | - | v <;> simp [hdel, h]

/-- What is set when nothing is deleted. -/
theorem get_setAll (x : ObjectValue V) {data : TransformMap V}
    (h : ∀ k, data.get k ≠ some none) (k : String) :
    (x.setAll data).get k = (data.get k).getD (x.get k) := by
  have hempty : data.deletes ⊆ {k} := by
    intro j hj
    exact absurd (mem_deletes.mp hj) (h j)
  rw [setAll, applyChanges_of_subset x _ hempty, get_changed_setAll]

/-- **`SetAll` sets and deletes the fields it is to**, and no others, exactly if no
field that it is to delete, and that comes after one that is to be deleted but is not
there, comes before a field that stays. -/
theorem setAll_iff (x : ObjectValue V) (data : TransformMap V) :
    (∀ k, (x.setAll data).get k = (data.get k).getD (x.get k)) ↔
      ∀ d d', data.get d = some none → d ∉ x → data.get d' = some none → d' ∈ x → d < d' →
        ∀ k, (∃ v, data.get k = some (some v)) ∨ k ∈ x ∧ data.get k = none → k < d' := by
  have heq : (∀ k, (x.setAll data).get k = (data.get k).getD (x.get k)) ↔
      x.setAll data = changed x data.upserts data.deletes := by
    simp only [← get_changed_setAll]
    exact ⟨SortedMap.ext_get, fun h k => congrArg (SortedMap.get · k) h⟩
  have hstays : ∀ k, (∃ v, data.get k = some (some v)) ∨ k ∈ x ∧ data.get k = none ↔
      k ∈ data.upserts ∨ k ∈ x ∧ k ∉ data.deletes := by
    intro k
    rw [mem_upserts, mem_deletes]
    rcases data.get k with - | - | v <;> simp
  rw [heq, setAll, applyChanges_eq_iff]
  simp only [hstays]
  constructor
  · intro h d d' hd hdx hd' hdx' hlt
    refine h d' ⟨hdx', ?_, mem_deletes.mpr hd', d, mem_deletes.mpr hd, hlt, hdx⟩
    rw [mem_upserts, hd']
    simp
  · intro h d' hhidden
    obtain ⟨hdx', -, hd', d, hd, hlt, hdx⟩ := hhidden
    exact h d d' (mem_deletes.mp hd) hdx (mem_deletes.mp hd') hdx' hlt

end ObjectValue

end FlutterSugar.Local
