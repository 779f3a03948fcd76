import Mathlib.Data.List.Basic
import Mathlib.Data.Nat.Notation
import Mathlib.Tactic.Common

/-!
# Strings compared by UTF-16 code units

A string is read as the sequence of its UTF-16 code units and two strings are
compared lexicographically on them.  The order is total, transitive and separates
different strings, which is what an ordered map keyed by strings needs.

## Main definitions

* `codeUnits s` — the UTF-16 code units of a string.
* `compareTo s t` — the comparison of two strings.
* `compareLex_append` — equally long prefixes are compared first.
-/

namespace FlutterSugar.Lib

/-- The code units of one scalar value: itself below `0x10000`, otherwise a
surrogate pair. -/
def charUnits (c : Char) : List ℕ :=
  if c.toNat < 0x10000 then [c.toNat]
  else [0xD800 + (c.toNat - 0x10000) / 0x400, 0xDC00 + (c.toNat - 0x10000) % 0x400]

/-- The UTF-16 code units of a string. -/
def codeUnits (s : String) : List ℕ := s.toList.flatMap charUnits

/-- Compare two strings by their code units, the first difference deciding. -/
def compareTo (s t : String) : Ordering := List.compareLex compare (codeUnits s) (codeUnits t)

theorem charUnits_of_lt {c : Char} (h : c.toNat < 0x10000) : charUnits c = [c.toNat] := by
  simp [charUnits, h]

/-- A scalar value is never a surrogate. -/
theorem toNat_scalar (c : Char) :
    c.toNat < 0xD800 ∨ (0xDFFF < c.toNat ∧ c.toNat < 0x110000) := c.valid

theorem charUnits_ne_nil (c : Char) : charUnits c ≠ [] := by
  rw [charUnits]
  split <;> simp

/-- The units of a character can be told from what follows them. -/
theorem charUnits_append_inj {c d : Char} {u v : List ℕ}
    (h : charUnits c ++ u = charUnits d ++ v) : c = d ∧ u = v := by
  have hc := toNat_scalar c
  have hd := toNat_scalar d
  unfold charUnits at h
  by_cases h1 : c.toNat < 0x10000 <;> by_cases h2 : d.toNat < 0x10000 <;>
    simp only [h1, h2, if_true, if_false, List.cons_append, List.nil_append,
      List.cons.injEq] at h
  · exact ⟨Char.toNat_inj.mp h.1, h.2⟩
  · omega
  · omega
  · exact ⟨Char.toNat_inj.mp (by omega), h.2.2⟩

theorem flatMap_charUnits_injective (cs ds : List Char)
    (h : cs.flatMap charUnits = ds.flatMap charUnits) : cs = ds := by
  induction cs generalizing ds with
  | nil =>
    cases ds with
    | nil => rfl
    | cons d ds => simp [charUnits_ne_nil] at h
  | cons c cs ih =>
    cases ds with
    | nil => simp [charUnits_ne_nil] at h
    | cons d ds =>
      simp only [List.flatMap_cons] at h
      obtain ⟨hcd, hrest⟩ := charUnits_append_inj h
      rw [hcd, ih ds hrest]

/-- Different strings have different code units. -/
theorem codeUnits_injective : Function.Injective codeUnits := by
  intro s t h
  exact String.toList_injective (flatMap_charUnits_injective _ _ h)

instance : Std.TransCmp compareTo where
  eq_swap {s t} := by
    rw [compareTo]
    exact Std.OrientedCmp.eq_swap
  isLE_trans {s t u} := by
    rw [compareTo]
    exact Std.TransCmp.isLE_trans

instance : Std.LawfulEqCmp compareTo where
  compare_self {s} := by
    rw [compareTo]
    exact Std.ReflCmp.compare_self
  eq_of_compare {s t} h := by
    rw [compareTo] at h
    exact codeUnits_injective (Std.LawfulEqCmp.eq_of_compare h)

/-- Below `0x10000` a code unit is the scalar value itself. -/
theorem codeUnits_ofList {cs : List Char} (h : ∀ c ∈ cs, c.toNat < 0x10000) :
    codeUnits (String.ofList cs) = cs.map Char.toNat := by
  simp only [codeUnits, String.toList_ofList]
  induction cs with
  | nil => rfl
  | cons c cs ih =>
    have hc : c.toNat < 0x10000 := h c (by simp)
    have hcs : ∀ d ∈ cs, d.toNat < 0x10000 := fun d hd => h d (by simp [hd])
    simp [List.flatMap_cons, charUnits_of_lt hc, ih hcs]

/-- A comparison of two concatenations is decided by their equally long first
parts, and by what follows only when these are the same. -/
theorem compareLex_append {α : Type*} (cmp : α → α → Ordering) {u u' : List α}
    (h : u.length = u'.length) (v v' : List α) :
    List.compareLex cmp (u ++ v) (u' ++ v') =
      (List.compareLex cmp u u').then (List.compareLex cmp v v') := by
  induction u generalizing u' with
  | nil =>
    cases u' with
    | nil => simp [List.compareLex_nil_nil]
    | cons x u' => simp at h
  | cons x u ih =>
    cases u' with
    | nil => simp at h
    | cons y u' =>
      have hlen : u.length = u'.length := by simpa using h
      simp only [List.cons_append, List.compareLex_cons_cons, ih hlen, Ordering.then_assoc]

end FlutterSugar.Lib
