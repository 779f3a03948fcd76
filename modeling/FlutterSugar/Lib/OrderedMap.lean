import Std.Data.ExtTreeMap.Lemmas
import Mathlib.Data.List.Basic
import Mathlib.Data.Nat.Notation
import Mathlib.Tactic.Common

/-!
# Maps enumerated under several orders

A finite map is enumerated in the order of its comparator.  `resort` makes a map
with the same entries and another comparator; enumerating under the opposite
comparator reverses the list.  The first key of an enumeration is the least one.

## Main definitions

* `resort cmp' m` — the entries of `m`, ordered by `cmp'`.
* `toList_resort_opposite` — the opposite order reverses the enumeration.
* `head?_keys_resort` — the first key is the least.
-/

namespace FlutterSugar.Lib
open Std

variable {α β : Type} [DecidableEq α] {cmp cmp' : α → α → Ordering}
variable [TransCmp cmp] [LawfulEqCmp cmp] [TransCmp cmp'] [LawfulEqCmp cmp']

/-- Two lists that are strictly sorted by one comparator and have the same
members are equal. -/
theorem eq_of_sorted {γ : Type} {r : γ → γ → Prop} (irrefl : ∀ x, ¬ r x x)
    (asymm : ∀ x y, r x y → ¬ r y x) {l l' : List γ} (hl : l.Pairwise r) (hl' : l'.Pairwise r)
    (hmem : ∀ x, x ∈ l ↔ x ∈ l') : l = l' := by
  induction l generalizing l' with
  | nil =>
    cases l' with
    | nil => rfl
    | cons y l' => exact absurd ((hmem y).mpr (by simp)) (by simp)
  | cons x l ih =>
    cases l' with
    | nil => exact absurd ((hmem x).mp (by simp)) (by simp)
    | cons y l' =>
      have hx := List.pairwise_cons.mp hl
      have hy := List.pairwise_cons.mp hl'
      have hxy : x = y := by
        rcases List.mem_cons.mp ((hmem x).mp (by simp)) with h | h
        · exact h
        · rcases List.mem_cons.mp ((hmem y).mpr (by simp)) with h' | h'
          · exact h'.symm
          · exact absurd (hx.1 y h') (asymm _ _ (hy.1 x h))
      subst hxy
      congr 1
      refine ih hx.2 hy.2 fun z => ⟨fun hz => ?_, fun hz => ?_⟩
      · rcases List.mem_cons.mp ((hmem z).mp (by simp [hz])) with rfl | h
        · exact absurd (hx.1 z hz) (irrefl z)
        · exact h
      · rcases List.mem_cons.mp ((hmem z).mpr (by simp [hz])) with rfl | h
        · exact absurd (hy.1 z hz) (irrefl z)
        · exact h

/-- The entries of `m`, ordered by `cmp'`. -/
def resort (cmp' : α → α → Ordering) (m : ExtTreeMap α β cmp) : ExtTreeMap α β cmp' :=
  ExtTreeMap.ofList m.toList cmp'

/-- A map with another order has the same entries. -/
@[simp] theorem getElem?_resort (m : ExtTreeMap α β cmp) (k : α) :
    (resort cmp' m)[k]? = m[k]? := by
  have hdistinct : m.toList.Pairwise (fun a b => ¬ cmp' a.1 b.1 = .eq) := by
    refine m.distinct_keys_toList.imp fun h h' => h ?_
    rw [LawfulEqCmp.eq_of_compare h']
    exact ReflCmp.compare_self
  cases h : m[k]? with
  | some v =>
    exact ExtTreeMap.getElem?_ofList_of_mem ReflCmp.compare_self hdistinct
      (ExtTreeMap.mem_toList_iff_getElem?_eq_some.mpr h)
  | none =>
    refine ExtTreeMap.getElem?_ofList_of_contains_eq_false ?_
    rw [ExtTreeMap.map_fst_toList_eq_keys, ExtTreeMap.contains_keys,
      ExtTreeMap.contains_eq_isSome_getElem?, h]
    rfl

@[simp] theorem mem_resort (m : ExtTreeMap α β cmp) (k : α) : k ∈ resort cmp' m ↔ k ∈ m := by
  rw [ExtTreeMap.mem_iff_isSome_getElem?, getElem?_resort, ExtTreeMap.mem_iff_isSome_getElem?]

theorem mem_toList_resort (m : ExtTreeMap α β cmp) (e : α × β) :
    e ∈ (resort cmp' m).toList ↔ m[e.1]? = some e.2 := by
  rw [show e = (e.1, e.2) from rfl, ExtTreeMap.mem_toList_iff_getElem?_eq_some, getElem?_resort]

omit [DecidableEq α] in
theorem distinct_toList (m : ExtTreeMap α β cmp) : m.toList.Pairwise fun a b => a ≠ b := by
  refine m.distinct_keys_toList.imp fun h he => h ?_
  rw [he]
  exact ReflCmp.compare_self

/-- **The opposite order reverses the enumeration.** -/
theorem toList_resort_opposite (m : ExtTreeMap α β cmp) :
    (resort (fun a b => cmp' b a) m).toList = (resort cmp' m).toList.reverse := by
  have hswap : ∀ a b, cmp' a b = (cmp' b a).swap := fun _ _ => OrientedCmp.eq_swap
  refine eq_of_sorted (r := fun a b : α × β => cmp' b.1 a.1 = .lt) ?_ ?_
    (resort (fun a b => cmp' b a) m).ordered_keys_toList ?_ ?_
  · intro x h
    simp [ReflCmp.compare_self] at h
  · intro x y h h'
    rw [hswap, h'] at h
    cases h
  · exact List.pairwise_reverse.mpr (resort cmp' m).ordered_keys_toList
  · intro e
    rw [List.mem_reverse, mem_toList_resort, mem_toList_resort]

@[simp] theorem length_toList_resort (m : ExtTreeMap α β cmp) :
    (resort cmp' m).toList.length = m.size := by
  have hperm : (resort cmp' m).toList.Perm m.toList := by
    apply (List.perm_ext_iff_of_nodup (distinct_toList _) (distinct_toList _)).mpr
    intro e
    rw [mem_toList_resort, ← ExtTreeMap.mem_toList_iff_getElem?_eq_some]
  rw [hperm.length_eq, ExtTreeMap.length_toList]

/-- **The first key of an enumeration is the least key.** -/
theorem head?_keys_resort (m : ExtTreeMap α β cmp) (k : α) :
    (resort cmp' m).keys.head? = some k ↔ k ∈ m ∧ ∀ j ∈ m, (cmp' k j).isLE := by
  rw [← ExtTreeMap.minKey?_eq_head?_keys, ExtTreeMap.minKey?_eq_some_iff_mem_and_forall]
  simp only [mem_resort]

/-- An enumeration has a first key unless the map is empty. -/
theorem exists_head?_keys_resort (m : ExtTreeMap α β cmp) {k : α} (hk : k ∈ m) :
    ∃ j, (resort cmp' m).keys.head? = some j := by
  cases h : (resort cmp' m).keys with
  | nil =>
    have hmem : k ∈ (resort cmp' m).keys := ExtTreeMap.mem_keys.mpr ((mem_resort m k).mpr hk)
    rw [h] at hmem
    exact absurd hmem (by simp)
  | cons j js => exact ⟨j, rfl⟩

end FlutterSugar.Lib
