import Mathlib.Data.Finset.Sort
import Mathlib.Data.List.Sigma
import Mathlib.Tactic.Common

/-!
# Maps as ascending lists of entries

A finite map whose entries are kept in the order of their keys.  Two such maps
with the same lookups are equal, so that every operation is specified by what it
does to a lookup.

## Main definitions

* `SortedMap α β` — a list of entries whose keys ascend.
* `get`, `override`, `filterMap`, `ofFinset` — lookup and the operations.
-/

namespace FlutterSugar.Lib
open List

variable {α β γ : Type*} [LinearOrder α]

/-- The keys of the entries ascend. -/
def Ascending (l : List ((_ : α) × β)) : Prop := l.Pairwise fun e f => e.1 < f.1

instance (l : List ((_ : α) × β)) : Decidable (Ascending l) :=
  inferInstanceAs (Decidable (l.Pairwise _))

theorem ascending_nil : Ascending ([] : List ((_ : α) × β)) := Pairwise.nil

theorem ascending_singleton (e : (_ : α) × β) : Ascending [e] := pairwise_singleton _ _

theorem Ascending.nodupKeys {l : List ((_ : α) × β)} (h : Ascending l) : l.NodupKeys :=
  nodupKeys_iff_pairwise.mpr (h.imp ne_of_lt)

/-- Ascending lists with the same members are equal. -/
theorem Ascending.eq_of_mem_iff {l l' : List ((_ : α) × β)} (h : Ascending l) (h' : Ascending l')
    (hmem : ∀ e, e ∈ l ↔ e ∈ l') : l = l' := by
  have hperm : l ~ l' := (perm_ext_iff_of_nodup h.nodupKeys.nodup h'.nodupKeys.nodup).mpr hmem
  refine hperm.eq_of_pairwise ?_ h h'
  intro e f _ _ hlt hgt
  exact absurd hlt hgt.asymm

/-- A relation between entries and later ones. -/
theorem Ascending.pairwise_iff {l : List ((_ : α) × β)} (h : Ascending l)
    {r : (_ : α) × β → (_ : α) × β → Prop} :
    l.Pairwise r ↔ ∀ e ∈ l, ∀ f ∈ l, e.1 < f.1 → r e f := by
  constructor
  · intro hr
    induction l with
    | nil => simp
    | cons a l ih =>
      have hlt : ∀ f ∈ l, a.1 < f.1 := fun f hf => rel_of_pairwise_cons h hf
      intro e he f hf hef
      rcases mem_cons.mp he with rfl | hel <;> rcases mem_cons.mp hf with rfl | hfl
      · exact absurd hef (lt_irrefl _)
      · exact rel_of_pairwise_cons hr hfl
      · exact absurd hef (hlt e hel).not_gt
      · exact ih h.of_cons hr.of_cons e hel f hfl hef
  · intro hall
    exact h.imp_of_mem fun he hf => hall _ he _ hf

/-- A finite map, as the list of its entries in the order of their keys. -/
structure SortedMap (α β : Type*) [LinearOrder α] where
  entries : List ((_ : α) × β)
  ascending : Ascending entries

namespace SortedMap

def get (m : SortedMap α β) (k : α) : Option β := m.entries.dlookup k

instance : Membership α (SortedMap α β) := ⟨fun m k => k ∈ m.entries.keys⟩

instance (m : SortedMap α β) (k : α) : Decidable (k ∈ m) :=
  inferInstanceAs (Decidable (k ∈ m.entries.keys))

instance : EmptyCollection (SortedMap α β) := ⟨⟨[], ascending_nil⟩⟩

theorem get_eq_some_iff {m : SortedMap α β} {k : α} {v : β} :
    m.get k = some v ↔ ⟨k, v⟩ ∈ m.entries :=
  mem_dlookup_iff m.ascending.nodupKeys

theorem isSome_get {m : SortedMap α β} {k : α} : (m.get k).isSome ↔ k ∈ m := dlookup_isSome

theorem get_eq_none_iff {m : SortedMap α β} {k : α} : m.get k = none ↔ k ∉ m := dlookup_eq_none

theorem mem_iff_exists {m : SortedMap α β} {k : α} : k ∈ m ↔ ∃ v, m.get k = some v := by
  rw [← isSome_get, Option.isSome_iff_exists]

@[simp] theorem get_empty (k : α) : (∅ : SortedMap α β).get k = none := rfl

theorem entries_inj {m n : SortedMap α β} : m.entries = n.entries ↔ m = n := by
  constructor
  · intro h
    cases m
    cases n
    cases h
    rfl
  · rintro rfl
    rfl

instance [DecidableEq β] : DecidableEq (SortedMap α β) :=
  fun _ _ => decidable_of_iff _ entries_inj

/-- **Maps with the same lookups are equal.** -/
@[ext] theorem ext_get {m n : SortedMap α β} (h : ∀ k, m.get k = n.get k) : m = n := by
  obtain ⟨l, hl⟩ := m
  obtain ⟨l', hl'⟩ := n
  refine entries_inj.mp (hl.eq_of_mem_iff hl' ?_)
  intro e
  have hm : (⟨l, hl⟩ : SortedMap α β).get e.1 = some e.2 ↔ e ∈ l := get_eq_some_iff
  have hn : (⟨l', hl'⟩ : SortedMap α β).get e.1 = some e.2 ↔ e ∈ l' := get_eq_some_iff
  rw [← hm, ← hn, h]

/-- One entry. -/
def single (k : α) (v : β) : SortedMap α β := ⟨[⟨k, v⟩], ascending_singleton _⟩

theorem get_single (k j : α) (v : β) :
    (single k v).get j = if j = k then some v else none := by
  ext w
  rw [get_eq_some_iff]
  by_cases h : j = k
  · simp [single, h, eq_comm]
  · simp [single, h]

/-- The keys. -/
def keys (m : SortedMap α β) : Finset α := m.entries.keys.toFinset

@[simp] theorem mem_keys {m : SortedMap α β} {k : α} : k ∈ m.keys ↔ k ∈ m := mem_toFinset

end SortedMap

/-! ## The union of two lists -/

/-- The union of two ascending lists, where the entries of the second replace those
of the first with the same keys. -/
def mergeOver : List ((_ : α) × β) → List ((_ : α) × β) → List ((_ : α) × β)
  | [], us => us
  | l, [] => l
  | s :: l, u :: us =>
    if s.1 < u.1 then s :: mergeOver l (u :: us)
    else if s.1 = u.1 then u :: mergeOver l us
    else u :: mergeOver (s :: l) us
termination_by l us => l.length + us.length

@[simp] theorem mergeOver_nil (l : List ((_ : α) × β)) : mergeOver l [] = l := by
  cases l <;> simp [mergeOver]

@[simp] theorem nil_mergeOver (us : List ((_ : α) × β)) : mergeOver [] us = us := by
  simp [mergeOver]

theorem Ascending.not_mem_keys {s : (_ : α) × β} {l : List ((_ : α) × β)}
    (h : Ascending (s :: l)) {k : α} (hk : k ≤ s.1) : k ∉ l.keys := by
  intro hmem
  obtain ⟨v, hv⟩ := mem_keys.mp hmem
  exact absurd (rel_of_pairwise_cons h hv) hk.not_gt

theorem mem_mergeOver {l us : List ((_ : α) × β)} (hl : Ascending l) (hu : Ascending us)
    {e : (_ : α) × β} : e ∈ mergeOver l us ↔ e ∈ us ∨ e ∈ l ∧ e.1 ∉ us.keys := by
  induction l, us using mergeOver.induct with
  | case1 us => simp
  | case2 l => simp
  | case3 s l u us hlt ih =>
    have hs : s.1 ∉ (u :: us).keys := by
      rw [keys_cons, mem_cons, not_or]
      exact ⟨hlt.ne, hu.not_mem_keys hlt.le⟩
    rw [mergeOver, if_pos hlt, mem_cons, ih hl.of_cons hu]
    grind
  | case4 s l u us hlt heq ih =>
    have hul : u.1 ∉ l.keys := hl.not_mem_keys heq.ge
    rw [mergeOver, if_neg hlt, if_pos heq, mem_cons, ih hl.of_cons hu.of_cons]
    have := fun h => mem_keys_of_mem (s := e) (l := l) h
    grind [keys_cons]
  | case5 s l u us hlt hne ih =>
    have hgt : u.1 < s.1 := lt_of_le_of_ne (not_lt.mp hlt) (Ne.symm hne)
    have hul : u.1 ∉ (s :: l).keys := by
      rw [keys_cons, mem_cons, not_or]
      exact ⟨hgt.ne, hl.not_mem_keys hgt.le⟩
    rw [mergeOver, if_neg hlt, if_neg hne, mem_cons, ih hl hu.of_cons]
    have := fun h => mem_keys_of_mem (s := e) (l := s :: l) h
    grind [keys_cons]

theorem ascending_mergeOver {l us : List ((_ : α) × β)} (hl : Ascending l) (hu : Ascending us) :
    Ascending (mergeOver l us) := by
  induction l, us using mergeOver.induct with
  | case1 us => simpa using hu
  | case2 l => simpa using hl
  | case3 s l u us hlt ih =>
    rw [mergeOver, if_pos hlt]
    refine (ih hl.of_cons hu).cons ?_
    intro e he
    rcases (mem_mergeOver hl.of_cons hu).mp he with he | ⟨he, -⟩
    · rcases mem_cons.mp he with rfl | he
      · exact hlt
      · exact hlt.trans (rel_of_pairwise_cons hu he)
    · exact rel_of_pairwise_cons hl he
  | case4 s l u us hlt heq ih =>
    rw [mergeOver, if_neg hlt, if_pos heq]
    refine (ih hl.of_cons hu.of_cons).cons ?_
    intro e he
    rcases (mem_mergeOver hl.of_cons hu.of_cons).mp he with he | ⟨he, -⟩
    · exact rel_of_pairwise_cons hu he
    · exact heq ▸ rel_of_pairwise_cons hl he
  | case5 s l u us hlt hne ih =>
    have hgt : u.1 < s.1 := lt_of_le_of_ne (not_lt.mp hlt) (Ne.symm hne)
    rw [mergeOver, if_neg hlt, if_neg hne]
    refine (ih hl hu.of_cons).cons ?_
    intro e he
    rcases (mem_mergeOver hl hu.of_cons).mp he with he | ⟨he, -⟩
    · exact rel_of_pairwise_cons hu he
    · rcases mem_cons.mp he with rfl | he
      · exact hgt
      · exact hgt.trans (rel_of_pairwise_cons hl he)

/-- The union has the entries of the second list and those of the first that are
not replaced. -/
theorem length_mergeOver {l us : List ((_ : α) × β)} (hl : Ascending l) (hu : Ascending us) :
    (mergeOver l us).length = us.length + l.countP fun e => e.1 ∉ us.keys := by
  induction l, us using mergeOver.induct with
  | case1 us => simp
  | case2 l => simp
  | case3 s l u us hlt ih =>
    have hs : s.1 ∉ (u :: us).keys := by
      rw [keys_cons, mem_cons, not_or]
      exact ⟨hlt.ne, hu.not_mem_keys hlt.le⟩
    rw [mergeOver, if_pos hlt, length_cons, ih hl.of_cons hu, countP_cons_of_pos (by simpa using hs)]
    rfl
  | case4 s l u us hlt heq ih =>
    have hrest : l.countP (fun e => e.1 ∉ (u :: us).keys) = l.countP fun e => e.1 ∉ us.keys := by
      refine countP_congr fun e he => ?_
      have hne : e.1 ≠ u.1 := (heq ▸ rel_of_pairwise_cons hl he).ne'
      simp [hne]
    rw [mergeOver, if_neg hlt, if_pos heq, length_cons, ih hl.of_cons hu.of_cons,
      countP_cons_of_neg (by simp [heq]), hrest, length_cons]
    omega
  | case5 s l u us hlt hne ih =>
    have hgt : u.1 < s.1 := lt_of_le_of_ne (not_lt.mp hlt) (Ne.symm hne)
    have hall : (s :: l).countP (fun e => e.1 ∉ (u :: us).keys) =
        (s :: l).countP fun e => e.1 ∉ us.keys := by
      refine countP_congr fun e he => ?_
      have hne : e.1 ≠ u.1 := by
        rcases mem_cons.mp he with rfl | he
        · exact hgt.ne'
        · exact (hgt.trans (rel_of_pairwise_cons hl he)).ne'
      simp [hne]
    rw [mergeOver, if_neg hlt, if_neg hne, length_cons, ih hl hu.of_cons, hall, length_cons]
    omega

namespace SortedMap

/-- The entries of `m`, those of `n` in their place. -/
def override (m n : SortedMap α β) : SortedMap α β :=
  ⟨mergeOver m.entries n.entries, ascending_mergeOver m.ascending n.ascending⟩

theorem get_override (m n : SortedMap α β) (k : α) :
    (m.override n).get k = (n.get k).or (m.get k) := by
  ext v
  have hmem : (m.override n).get k = some v ↔
      n.get k = some v ∨ m.get k = some v ∧ n.get k = none := by
    rw [get_eq_some_iff, get_eq_some_iff, get_eq_some_iff, get_eq_none_iff]
    exact mem_mergeOver m.ascending n.ascending
  rw [hmem]
  cases n.get k <;> simp

theorem override_assoc (l m n : SortedMap α β) :
    (l.override m).override n = l.override (m.override n) := by
  ext k : 1
  simp only [get_override]
  cases n.get k <;> rfl

@[simp] theorem empty_override (m : SortedMap α β) : (∅ : SortedMap α β).override m = m := by
  ext k : 1
  rw [get_override, get_empty]
  cases m.get k <;> rfl

theorem keys_override (m n : SortedMap α β) : (m.override n).keys = m.keys ∪ n.keys := by
  ext k
  rw [Finset.mem_union, mem_keys, mem_keys, mem_keys, ← isSome_get, get_override,
    Option.isSome_or, Bool.or_eq_true, isSome_get, isSome_get, or_comm]

/-- The entries with a value under `f`. -/
def filterMap (f : α → β → Option γ) (m : SortedMap α β) : SortedMap α γ where
  entries := m.entries.filterMap fun e => (f e.1 e.2).map fun v => ⟨e.1, v⟩
  ascending := by
    refine pairwise_filterMap.mpr (m.ascending.imp ?_)
    intro e e' hlt b hb b' hb'
    obtain ⟨v, -, rfl⟩ := Option.map_eq_some_iff.mp hb
    obtain ⟨v', -, rfl⟩ := Option.map_eq_some_iff.mp hb'
    exact hlt

theorem get_filterMap (f : α → β → Option γ) (m : SortedMap α β) (k : α) :
    (m.filterMap f).get k = (m.get k).bind (f k) := by
  ext v
  rw [get_eq_some_iff, Option.bind_eq_some_iff]
  simp only [get_eq_some_iff]
  constructor
  · intro h
    obtain ⟨⟨j, w⟩, hmem, hw⟩ := mem_filterMap.mp h
    obtain ⟨u, hu, heq⟩ := Option.map_eq_some_iff.mp hw
    cases heq
    exact ⟨w, hmem, hu⟩
  · intro h
    obtain ⟨w, hmem, hw⟩ := h
    exact mem_filterMap.mpr ⟨⟨k, w⟩, hmem, by simp [hw]⟩

/-- The values of `f` on a finite set of keys. -/
def ofFinset (s : Finset α) (f : α → β) : SortedMap α β where
  entries := s.sort.map fun k => ⟨k, f k⟩
  ascending := pairwise_map.mpr s.sortedLT_sort.pairwise

theorem get_ofFinset (s : Finset α) (f : α → β) (k : α) :
    (ofFinset s f).get k = if k ∈ s then some (f k) else none := by
  ext v
  rw [get_eq_some_iff]
  simp [ofFinset, and_comm, eq_comm]

end SortedMap

end FlutterSugar.Lib
