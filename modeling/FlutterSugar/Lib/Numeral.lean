import FlutterSugar.Lib.CodeUnit
import Mathlib.Tactic.Ring
import Mathlib.Order.Basic

/-!
# Decimal numerals of a fixed width

`padded w n` writes `n` in decimal with zeros on the left up to width `w`.  Below
`10 ^ w` such numerals have one width, read back to the number they write, and
are ordered as strings exactly as the numbers are.

## Main definitions

* `padded w n` — the numeral.
* `takeDigits w cs` — read exactly `w` digits off the front of a text.
* `compare_padded` — numerals of one width compare as their numbers.
-/

namespace FlutterSugar.Lib

/-- `n` in decimal, with zeros on the left up to width `w`. -/
def padded (w n : ℕ) : List Char := List.leftpad w '0' (Nat.toDigits 10 n)

/-- Read exactly `w` digits off the front; the value read and what is left. -/
def takeDigits (w : ℕ) (cs : List Char) : Option (ℕ × List Char) :=
  if (cs.take w).length = w ∧ (cs.take w).all Char.isDigit then
    some (Nat.ofDigitChars 10 (cs.take w) 0, cs.drop w)
  else none

/-! ## Reading a numeral back -/

@[simp] theorem ofDigitChars_padded (w n : ℕ) : Nat.ofDigitChars 10 (padded w n) 0 = n := by
  simp [padded, List.leftpad, Nat.ofDigitChars_append]

theorem padded_injective (w : ℕ) : Function.Injective (padded w) := by
  intro m n h
  rw [← ofDigitChars_padded w m, h, ofDigitChars_padded]

theorem isDigit_of_mem_padded {w n : ℕ} {c : Char} (h : c ∈ padded w n) : c.isDigit := by
  rcases List.mem_append.mp h with hz | hd
  · rw [(List.mem_replicate.mp hz).2]; rfl
  · exact Nat.isDigit_of_mem_toDigits (by decide) (by decide) hd

theorem length_padded {w n : ℕ} (hw : 0 < w) (hn : n < 10 ^ w) : (padded w n).length = w := by
  have h := (Nat.length_toDigits_le_iff (by decide) hw).mpr hn
  simp only [padded, List.length_leftpad]
  omega

theorem takeDigits_padded {w n : ℕ} (hw : 0 < w) (hn : n < 10 ^ w) (rest : List Char) :
    takeDigits w (padded w n ++ rest) = some (n, rest) := by
  have hlen := length_padded hw hn
  have htake : (padded w n ++ rest).take w = padded w n := by
    rw [List.take_append_of_le_length (by omega), List.take_of_length_le (by omega)]
  have hdrop : (padded w n ++ rest).drop w = rest := by
    rw [List.drop_append_of_le_length (by omega), List.drop_of_length_le (by omega)]
    rfl
  have hall : (padded w n).all Char.isDigit := by
    simpa using fun c hc => isDigit_of_mem_padded hc
  simp [takeDigits, htake, hdrop, hlen, hall]

/-- A text with a non-digit among its first `w` characters has no `w` digits in
front. -/
theorem takeDigits_of_not_digit {w : ℕ} {u v : List Char} {c : Char} (hu : u.length < w)
    (hc : c.isDigit = false) : takeDigits w (u ++ c :: v) = none := by
  have hmem : c ∈ (u ++ c :: v).take w := by
    rw [List.take_append]
    obtain ⟨k, hk⟩ : ∃ k, w - u.length = k + 1 := ⟨w - u.length - 1, by omega⟩
    simp [hk]
  have hall : ((u ++ c :: v).take w).all Char.isDigit = false := by
    rw [List.all_eq_false]
    exact ⟨c, hmem, by simp [hc]⟩
  simp [takeDigits, hall]

/-- A separator that occurs in neither prefix can be told from it. -/
theorem append_cons_inj {α : Type*} {p : α → Prop} {u u' v v' : List α} {c : α} (hc : ¬ p c)
    (hu : ∀ x ∈ u, p x) (hu' : ∀ x ∈ u', p x) :
    u ++ c :: v = u' ++ c :: v' ↔ u = u' ∧ v = v' := by
  induction u generalizing u' with
  | nil =>
    cases u' with
    | nil => simp
    | cons y u' =>
      have hy : c ≠ y := by rintro rfl; exact hc (hu' c (by simp))
      simp [hy]
  | cons x u ih =>
    cases u' with
    | nil =>
      have hx : x ≠ c := by rintro rfl; exact hc (hu x (by simp))
      simp [hx]
    | cons y u' =>
      have hrest : u ++ c :: v = u' ++ c :: v' ↔ u = u' ∧ v = v' :=
        ih (fun z hz => hu z (by simp [hz])) fun z hz => hu' z (by simp [hz])
      simp only [List.cons_append, List.cons.injEq, hrest]
      exact and_assoc.symm

/-- A numeral and the separator after it determine the number. -/
theorem padded_append_cons_inj {w m n : ℕ} {c : Char} {v v' : List Char}
    (hc : c.isDigit = false) :
    padded w m ++ c :: v = padded w n ++ c :: v' ↔ m = n ∧ v = v' := by
  rw [append_cons_inj (p := fun x => x.isDigit = true) (by simp [hc])
    (fun _ h => isDigit_of_mem_padded h) (fun _ h => isDigit_of_mem_padded h),
    (padded_injective w).eq_iff]

/-! ## Order -/

theorem toNat_of_isDigit {c : Char} (h : c.isDigit) : 48 ≤ c.toNat ∧ c.toNat ≤ 57 := by
  simpa [Char.isDigit, UInt32.le_iff_toNat_le] using h

theorem ofDigitChars_lt {cs : List Char} (h : ∀ c ∈ cs, c.isDigit) :
    Nat.ofDigitChars 10 cs 0 < 10 ^ cs.length := by
  induction cs with
  | nil => simp
  | cons c cs ih =>
    have hc := toNat_of_isDigit (h c (by simp))
    have hcs := ih fun d hd => h d (by simp [hd])
    rw [Nat.ofDigitChars_cons, Nat.ofDigitChars_eq_ofDigitChars_zero, List.length_cons,
      Nat.pow_succ]
    have hd : c.toNat - '0'.toNat ≤ 9 := by
      change c.toNat - 48 ≤ 9
      omega
    have := Nat.mul_le_mul_left (10 ^ cs.length) hd
    simp only [Nat.mul_zero, Nat.zero_add]
    omega

/-- Digit strings of one length are ordered as the numbers they write: a smaller
first digit outweighs all the digits after it. -/
theorem compare_digits {cs ds : List Char} (hlen : cs.length = ds.length)
    (hcs : ∀ c ∈ cs, c.isDigit) (hds : ∀ d ∈ ds, d.isDigit) :
    List.compareLex compare (cs.map Char.toNat) (ds.map Char.toNat) =
      compare (Nat.ofDigitChars 10 cs 0) (Nat.ofDigitChars 10 ds 0) := by
  induction cs generalizing ds with
  | nil =>
    cases ds with
    | nil => simp [List.compareLex_nil_nil]
    | cons d ds => simp at hlen
  | cons c cs ih =>
    cases ds with
    | nil => simp at hlen
    | cons d ds =>
      have hl : cs.length = ds.length := by simpa using hlen
      have hc := toNat_of_isDigit (hcs c (by simp))
      have hd := toNat_of_isDigit (hds d (by simp))
      have hcs' : ∀ x ∈ cs, x.isDigit := fun x hx => hcs x (by simp [hx])
      have hds' : ∀ x ∈ ds, x.isDigit := fun x hx => hds x (by simp [hx])
      have hclt := ofDigitChars_lt hcs'
      have hdlt := ofDigitChars_lt hds'
      have hval : ∀ (x : Char) (xs : List Char), Nat.ofDigitChars 10 (x :: xs) 0 =
          10 ^ xs.length * (x.toNat - 48) + Nat.ofDigitChars 10 xs 0 := by
        intro x xs
        rw [Nat.ofDigitChars_cons, Nat.ofDigitChars_eq_ofDigitChars_zero, Nat.mul_zero,
          Nat.zero_add]
        rfl
      simp only [List.map_cons, List.compareLex_cons_cons, ih hl hcs' hds', hval, ← hl]
      rw [← hl] at hdlt
      rcases Nat.lt_trichotomy c.toNat d.toNat with h | h | h
      · have hle : c.toNat - 48 + 1 ≤ d.toNat - 48 := by omega
        have hmul := Nat.mul_le_mul_left (10 ^ cs.length) hle
        rw [Nat.mul_add, Nat.mul_one] at hmul
        have hhead : compare c.toNat d.toNat = .lt := Nat.compare_eq_lt.mpr h
        have hall : compare (10 ^ cs.length * (c.toNat - 48) + Nat.ofDigitChars 10 cs 0)
            (10 ^ cs.length * (d.toNat - 48) + Nat.ofDigitChars 10 ds 0) = .lt :=
          Nat.compare_eq_lt.mpr (by omega)
        rw [hhead, hall]
        rfl
      · have hhead : compare c.toNat d.toNat = .eq := Nat.compare_eq_eq.mpr h
        rw [hhead, h]
        simp only [Nat.compare_eq_ite_lt, Nat.add_lt_add_iff_left]
        rfl
      · have hle : d.toNat - 48 + 1 ≤ c.toNat - 48 := by omega
        have hmul := Nat.mul_le_mul_left (10 ^ cs.length) hle
        rw [Nat.mul_add, Nat.mul_one] at hmul
        have hhead : compare c.toNat d.toNat = .gt := Nat.compare_eq_gt.mpr h
        have hall : compare (10 ^ cs.length * (c.toNat - 48) + Nat.ofDigitChars 10 cs 0)
            (10 ^ cs.length * (d.toNat - 48) + Nat.ofDigitChars 10 ds 0) = .gt :=
          Nat.compare_eq_gt.mpr (by omega)
        rw [hhead, hall]
        rfl

/-- **Numerals of one width compare as their numbers.** -/
theorem compare_padded {w m n : ℕ} (hw : 0 < w) (hm : m < 10 ^ w) (hn : n < 10 ^ w) :
    List.compareLex compare ((padded w m).map Char.toNat) ((padded w n).map Char.toNat) =
      compare m n := by
  rw [compare_digits (by rw [length_padded hw hm, length_padded hw hn])
    (fun _ h => isDigit_of_mem_padded h) (fun _ h => isDigit_of_mem_padded h),
    ofDigitChars_padded, ofDigitChars_padded]

/-- A numeral in front of a separator decides a comparison before the rest. -/
theorem compare_padded_append_cons {w m n : ℕ} (hw : 0 < w) (hm : m < 10 ^ w) (hn : n < 10 ^ w)
    (c : Char) (v v' : List Char) :
    List.compareLex compare ((padded w m ++ c :: v).map Char.toNat)
        ((padded w n ++ c :: v').map Char.toNat) =
      (compare m n).then (List.compareLex compare (v.map Char.toNat) (v'.map Char.toNat)) := by
  simp only [List.map_append, List.map_cons]
  rw [compareLex_append _ (by simp [length_padded hw hm, length_padded hw hn]),
    compare_padded hw hm hn, List.compareLex_cons_cons, Nat.compare_eq_eq.mpr rfl]
  rfl

end FlutterSugar.Lib
