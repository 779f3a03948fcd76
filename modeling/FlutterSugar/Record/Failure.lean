import FlutterSugar.Record.DayMap

/-!
# What a failing call destroys

The one catch clause of `updateUser` covers a document that does not exist, a
read that fails, a key that cannot be parsed and a merging write that fails, and
in all of these cases replaces the document by the single new field.  Only the
first of them has no history to lose.

## Main definitions

* `KeepsOtherDays` — the entries of other days survive a call.
* `LosesNothing` — what saves them.
* `updateUser_keepsOtherDays_iff` — nothing else does.
-/

namespace FlutterSugar
namespace Record
open Lib Std

/-- Every entry of `d` whose day is not the day of `s` is stored in `db'`, with
its value. -/
def KeepsOtherDays (d : Document ℤ) (s : String) (db' : RecordDoc) : Prop :=
  ∀ k v day, d[k]? = some v → keyDay k = some day → keyDay s ≠ some day →
    ∃ d', db' = some d' ∧ d'[k]? = some v

/-- All entries that have a day are of the day of `s`. -/
def OnlyDay (d : Document ℤ) (s : String) : Prop :=
  ∀ k ∈ d, keyDay k = none ∨ keyDay k = keyDay s

/-- Either the `try` block gets through and does not change the newest entry if
that is of another day, or the replacing write fails as well or finds nothing to
destroy. -/
def LosesNothing (f : Failures) (d : Document ℤ) (s : String) (i : ℤ) : Prop :=
  (Attempts f d s ∧
    (¬ Recorded d s ∨ ∃ k, newestKey d = some k ∧ (keyDay k = keyDay s ∨ d[k]? = some i))) ∨
  (¬ Attempts f d s ∧ (f.replace = true ∨ OnlyDay d s))

variable {d : Document ℤ} {s : String} {i : ℤ}

theorem KeepsOtherDays.refl (d : Document ℤ) (s : String) : KeepsOtherDays d s (some d) :=
  fun _ _ _ hv _ _ => ⟨d, rfl, hv⟩

/-- Writing to a key loses its old value only. -/
theorem keepsOtherDays_insert_iff {k : String} (hk : k ∈ d → (keyDay k).isSome) :
    KeepsOtherDays d s (some (d.insert k i)) ↔ k ∉ d ∨ keyDay k = keyDay s ∨ d[k]? = some i := by
  constructor
  · intro h
    by_cases hmem : k ∈ d
    · obtain ⟨v, hv⟩ := (Document.mem_iff_exists d).mp hmem
      obtain ⟨day, hday⟩ := Option.isSome_iff_exists.mp (hk hmem)
      by_cases hs : keyDay s = some day
      · exact Or.inr (Or.inl (hday.trans hs.symm))
      · obtain ⟨d', hd', hkept⟩ := h k v day hv hday hs
        rw [← Option.some.inj hd', Document.getElem?_insert, if_pos rfl] at hkept
        exact Or.inr (Or.inr (by rw [hv, ← hkept]))
    · exact Or.inl hmem
  · intro h j v day hj hday hs
    refine ⟨_, rfl, ?_⟩
    by_cases hjk : k = j
    · subst hjk
      rcases h with h | h | h
      · exact absurd ((Document.mem_iff_exists d).mpr ⟨v, hj⟩) h
      · exact absurd (h.symm.trans hday) hs
      · rw [Document.getElem?_insert, if_pos rfl, ← h, hj]
    · rw [Document.getElem?_insert_ne d hjk, hj]

/-- Replacing the document loses every entry of another day. -/
theorem keepsOtherDays_replace_iff :
    KeepsOtherDays d s (some ((∅ : Document ℤ).insert s i)) ↔ OnlyDay d s := by
  constructor
  · intro h k hk
    obtain ⟨v, hv⟩ := (Document.mem_iff_exists d).mp hk
    cases hday : keyDay k with
    | none => exact Or.inl rfl
    | some day =>
      by_cases hs : keyDay s = some day
      · exact Or.inr hs.symm
      · obtain ⟨d', hd', hkept⟩ := h k v day hv hday hs
        have hks : s = k := by
          by_contra hne
          rw [← Option.some.inj hd', Document.getElem?_insert_ne _ hne] at hkept
          simp at hkept
        exact Or.inr (by rw [← hday, hks])
  · intro h k v day hv hday hs
    rcases h k ((Document.mem_iff_exists d).mpr ⟨v, hv⟩) with hnone | hsame
    · rw [hday] at hnone; cases hnone
    · exact absurd (hsame.symm.trans hday) hs

/-- **When a call keeps the history of the other days**, whatever fails. -/
theorem updateUser_keepsOtherDays_iff (f : Failures) (d : Document ℤ) (s : String) (i : ℤ) :
    KeepsOtherDays d s (updateUser f (some d) s i).1 ↔ LosesNothing f d s i := by
  by_cases ha : Attempts f d s
  · by_cases hr : Recorded d s
    · obtain ⟨j, hj, -⟩ := id hr
      obtain ⟨k, hk⟩ := exists_newestKey hj
      have hmem := mem_of_newestKey hk
      rw [updateUser_recorded ha hr hk,
        keepsOtherDays_insert_iff fun _ => ha.2.2.1 k hmem]
      simp [LosesNothing, ha, hr, hk, hmem]
    · rw [updateUser_new ha hr, keepsOtherDays_insert_iff fun _ => ha.2.2.2]
      simp [LosesNothing, ha, hr]
  · rw [updateUser_caught ha]
    cases hf : f.replace with
    | true => simpa [LosesNothing, ha, hf] using KeepsOtherDays.refl d s
    | false => simpa [LosesNothing, ha, hf] using keepsOtherDays_replace_iff

/-- A read that fails once costs the whole history. -/
theorem updateUser_not_keepsOtherDays :
    ¬ ∀ (f : Failures) (d : Document ℤ) (s : String) (i : ℤ),
      KeepsOtherDays d s (updateUser f (some d) s i).1 := by
  intro h
  obtain ⟨d', hd', hkept⟩ := h ⟨true, false, false⟩ twoDays "2024-03-03 08:00:00.000" 150
    "2024-03-01 08:00:00.000" 100 ⟨2024, 3, 1⟩ (by decide +kernel) (by decide +kernel)
    (by decide +kernel)
  have hlost : ((updateUser ⟨true, false, false⟩ (some twoDays)
      "2024-03-03 08:00:00.000" 150).1.bind fun d => d["2024-03-01 08:00:00.000"]?) = none := by
    decide +kernel
  rw [hd', Option.bind_some, hkept] at hlost
  cases hlost

end Record
end FlutterSugar
