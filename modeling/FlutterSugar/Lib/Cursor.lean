import FlutterSugar.Lib.SortedMap

/-!
# One pass over ascending lists

A pass drops from an ascending list the entries that a second ascending list
names.  Its cursor in the second list moves on only where it matches: once it
stands on a key that the first list does not have, nothing more is dropped.

A pass may also stop after the number of entries that it is to keep.  It has then
kept those, and no others, exactly if they come first.

## Main definitions

* `skipListed l ds` — what such a pass leaves of `l`.
* `mem_skipListed` — an entry stays if it is not named, or named after a key that is
  not there.
* `take_countP_eq_filter_iff` — when the first entries are those to be kept.
-/

namespace FlutterSugar.Lib
open List

variable {α β : Type*} [LinearOrder α]

/-- What is left of `l` by a pass whose cursor in `ds` moves on only where it
matches. -/
def skipListed : List ((_ : α) × β) → List α → List ((_ : α) × β)
  | [], _ => []
  | l, [] => l
  | s :: l, d :: ds => if d = s.1 then skipListed l ds else s :: skipListed l (d :: ds)

@[simp] theorem skipListed_nil (l : List ((_ : α) × β)) : skipListed l [] = l := by
  cases l <;> rfl

theorem skipListed_cons (s : (_ : α) × β) (l : List ((_ : α) × β)) (ds : List α) :
    skipListed (s :: l) ds =
      if ds.head? = some s.1 then skipListed l ds.tail else s :: skipListed l ds := by
  cases ds <;> simp [skipListed]

theorem skipListed_sublist (l : List ((_ : α) × β)) (ds : List α) : skipListed l ds <+ l := by
  induction l generalizing ds with
  | nil => exact Sublist.refl []
  | cons s l ih =>
    cases ds with
    | nil => exact Sublist.refl (s :: l)
    | cons d ds =>
      rw [skipListed]
      split
      · exact (ih ds).cons s
      · exact (ih (d :: ds)).cons_cons s

/-- **A named entry stays if a smaller key is named that is not there.** -/
theorem mem_skipListed {l : List ((_ : α) × β)} {ds : List α} (hl : Ascending l)
    (hds : ds.Pairwise (· < ·)) {e : (_ : α) × β} :
    e ∈ skipListed l ds ↔ e ∈ l ∧ (e.1 ∈ ds → ∃ d ∈ ds, d < e.1 ∧ d ∉ l.keys) := by
  induction l generalizing ds with
  | nil => simp [skipListed]
  | cons s l ih =>
    cases ds with
    | nil => simp
    | cons d ds =>
      have hnext : ∀ d' ∈ ds, d < d' := fun d' hd' => rel_of_pairwise_cons hds hd'
      have hkeys : ∀ k, k ∈ (s :: l).keys ↔ k = s.1 ∨ k ∈ l.keys := fun k => by
        rw [keys_cons, mem_cons]
      rw [skipListed]
      split
      next heq =>
        -- `s` is dropped, and so is the key from which the cursor moves on
        subst heq
        rw [ih hl.of_cons hds.of_cons, mem_cons]
        constructor
        · intro h
          obtain ⟨he, hnamed⟩ := h
          have hlt : s.1 < e.1 := rel_of_pairwise_cons hl he
          refine ⟨Or.inr he, ?_⟩
          grind
        · intro h
          obtain ⟨rfl | he, hnamed⟩ := h
          · obtain ⟨d', hd', hlt, -⟩ := hnamed (by simp)
            grind
          · refine ⟨he, ?_⟩
            grind
      next hne =>
        rw [mem_cons, mem_cons, ih hl.of_cons hds]
        constructor
        · intro h
          -- the cursor stands on `d`, which is not there if it is smaller than `s.1`
          have habsent : d < s.1 → d ∉ (s :: l).keys := by
            intro hlt
            rw [hkeys, not_or]
            exact ⟨hlt.ne, hl.not_mem_keys hlt.le⟩
          rcases h with rfl | ⟨he, hnamed⟩
          · refine ⟨Or.inl rfl, ?_⟩
            grind
          · have hlt : s.1 < e.1 := rel_of_pairwise_cons hl he
            refine ⟨Or.inr he, ?_⟩
            grind
        · intro h
          obtain ⟨rfl | he, hnamed⟩ := h
          · exact Or.inl rfl
          · refine Or.inr ⟨he, ?_⟩
            grind

/-- **The first entries are those that satisfy `p`** exactly if no entry that does
comes after one that does not. -/
theorem take_countP_eq_filter_iff {γ : Type*} (p : γ → Bool) (l : List γ) :
    l.take (l.countP p) = l.filter p ↔ l.Pairwise fun a b => p b → p a := by
  induction l with
  | nil => simp
  | cons a l ih =>
    by_cases ha : p a
    · rw [countP_cons_of_pos ha, take_succ_cons, filter_cons_of_pos ha, cons_inj_right, ih,
        pairwise_cons]
      simp [ha]
    · rw [countP_cons_of_neg ha, filter_cons_of_neg ha, pairwise_cons]
      cases hn : l.countP p with
      | zero =>
        -- there is nothing to keep
        have hnone : ∀ b ∈ l, ¬ p b := countP_eq_zero.mp hn
        rw [take_zero, filter_eq_nil_iff.mpr hnone]
        refine iff_of_true rfl ⟨fun b hb hp => absurd hp (hnone b hb), ?_⟩
        exact pairwise_of_forall_mem_list fun b _ c hc hp => absurd hp (hnone c hc)
      | succ n =>
        obtain ⟨b, hb, hp⟩ := countP_pos_iff.mp (by omega : 0 < l.countP p)
        refine iff_of_false ?_ fun h => ha (h.1 b hb hp)
        intro heq
        have hmem : a ∈ l.filter p := heq ▸ mem_cons_self
        exact ha (mem_filter.mp hmem).2

end FlutterSugar.Lib
