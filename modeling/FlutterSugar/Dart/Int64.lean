import FlutterSugar.Dart.Core

/-!
# Arithmetic of `int`

An `int` of `dart:core` has 64 bits: a difference out of range wraps around, and
the absolute value of the least value is that value again.

## Main definitions

* `int.sub`, `int.abs`, `int.isNegative` — the operations, on values in range.
* `int.distance` — what the absolute value of a difference is.
* `int.abs_sub` — and that it is this.
-/

namespace FlutterSugar
namespace int
open Lib

/-- A value that an `int` can have. -/
structure Value where
  toInt : ℤ
  range : -9223372036854775808 ≤ toInt ∧ toInt ≤ 9223372036854775807

/-- `a - b`. -/
def sub (a b : ℤ) : ℤ := Int.bmod (a - b) 18446744073709551616

def isNegative (a : ℤ) : Bool := a < 0

/-- `a.abs()`, which is `-a` for a negative value. -/
def abs (a : ℤ) : ℤ := if isNegative a then sub 0 a else a

/-- The absolute value of a difference, by the difference of the numbers: from
`2 ^ 63` on it is not the distance. -/
def distance (difference : ℤ) : ℤ :=
  if difference.natAbs < 9223372036854775808 then difference.natAbs
  else if difference.natAbs = 9223372036854775808 then -9223372036854775808
  else 18446744073709551616 - difference.natAbs

example : abs (-9223372036854775808) = -9223372036854775808 := by decide

/-! ## Differences -/

/-- A difference is moved into the range by multiples of `2 ^ 64`. -/
theorem sub_eq {a b : ℤ} (turns : ℤ)
    (hlow : -9223372036854775808 ≤ a - b - 18446744073709551616 * turns)
    (hhigh : a - b - 18446744073709551616 * turns < 9223372036854775808) :
    sub a b = a - b - 18446744073709551616 * turns := by
  have hbmod := Int.sub_mul_bmod_self_left (a - b) 18446744073709551616 turns
  rw [sub, ← hbmod]
  exact Int.bmod_eq_of_le (by omega) (by omega)

/-- A difference in range does not wrap around. -/
theorem sub_eq_of_natAbs_lt {a b : ℤ} (h : (a - b).natAbs < 9223372036854775808) :
    sub a b = a - b := by
  rw [sub_eq 0 (by omega) (by omega)]
  omega

theorem abs_eq_natAbs {a : ℤ} (h : a.natAbs < 9223372036854775808) : abs a = a.natAbs := by
  rw [abs, isNegative]
  by_cases ha : a < 0
  · rw [if_pos (by simpa using ha), sub_eq_of_natAbs_lt (by omega)]
    omega
  · rw [if_neg (by simpa using ha)]
    omega

theorem abs_least : abs (-9223372036854775808) = -9223372036854775808 := by decide

/-- **The absolute value of a difference**, with the two ways in which it wraps
around. -/
theorem abs_sub (a b : Value) : abs (sub a.toInt b.toInt) = distance (a.toInt - b.toInt) := by
  have ha := a.range
  have hb := b.range
  generalize a.toInt = x at ha ⊢
  generalize b.toInt = y at hb ⊢
  rw [distance]
  split_ifs with hsmall hleast
  · rw [sub_eq_of_natAbs_lt hsmall, abs_eq_natAbs hsmall]
  · have hsub : sub x y = -9223372036854775808 := by
      rcases Int.lt_or_le (x - y) 0 with hneg | hpos
      · rw [sub_eq 0 (by omega) (by omega)]
        omega
      · rw [sub_eq 1 (by omega) (by omega)]
        omega
    rw [hsub, abs_least]
  · rcases Int.lt_or_le (x - y) 0 with hneg | hpos
    · rw [sub_eq (-1) (by omega) (by omega), abs_eq_natAbs (by omega)]
      omega
    · rw [sub_eq 1 (by omega) (by omega), abs_eq_natAbs (by omega)]
      omega

/-- A difference that wraps around has the wrong sign, unless it is the least
value. -/
theorem isNegative_sub_of_le (a b : Value)
    (h : 9223372036854775808 ≤ (a.toInt - b.toInt).natAbs)
    (hne : a.toInt - b.toInt ≠ -9223372036854775808) :
    isNegative (sub a.toInt b.toInt) = decide (b.toInt ≤ a.toInt) := by
  have ha := a.range
  have hb := b.range
  generalize a.toInt = x at ha h hne ⊢
  generalize b.toInt = y at hb h hne ⊢
  rw [isNegative, decide_eq_decide]
  rcases Int.lt_or_le (x - y) 0 with hneg | hpos
  · rw [sub_eq (-1) (by omega) (by omega)]
    omega
  · rw [sub_eq 1 (by omega) (by omega)]
    omega

/-! ## The range of a literal -/

theorem inRange_eq_some {m n : ℤ} (h : inRange m = some n) :
    -9223372036854775808 ≤ n ∧ n ≤ 9223372036854775807 := by
  rw [inRange] at h
  split at h
  next hm => exact Option.some.inj h ▸ hm
  next => cases h

theorem magnitude_range {sign n : ℤ} {cs : List Char} (h : magnitude sign cs = some n) :
    -9223372036854775808 ≤ n ∧ n ≤ 9223372036854775807 := by
  rw [magnitude.eq_def] at h
  split at h
  next x ds =>
    split_ifs at h
    · obtain ⟨digits, -, h⟩ := Option.bind_eq_some_iff.mp h
      simp only at h
      split_ifs at h
      · rw [Option.some.injEq] at h
        have hlow := Int.le_bmod (x := (digits.foldl (fun acc d => 16 * acc + d) 0 : ℕ))
          (m := 18446744073709551616) (by decide)
        have hhigh := Int.bmod_lt (x := (digits.foldl (fun acc d => 16 * acc + d) 0 : ℕ))
          (m := 18446744073709551616) (by decide)
        omega
      · exact inRange_eq_some h
    · exact inRange_eq_some h
  next =>
    split_ifs at h
    exact inRange_eq_some h

/-- **A text that is accepted is a value in range.** -/
theorem parse_range {s : String} {n : ℤ} (h : parse s = some n) :
    -9223372036854775808 ≤ n ∧ n ≤ 9223372036854775807 := by
  rw [parse] at h
  split at h
  · exact magnitude_range h
  · exact magnitude_range h
  · exact magnitude_range h

/-! ## The sign of a text -/

/-- The text of a number has no plus sign. -/
theorem plus_not_mem_toString (n : ℤ) : '+' ∉ (toString n).toList := by
  intro h
  have hdigits : ∀ k : ℕ, '+' ∉ Nat.toDigits 10 k := by
    intro k hk
    exact absurd (Nat.isDigit_of_mem_toDigits (by decide) (by decide) hk) (by decide)
  rw [Int.toString_eq_repr, Int.repr_eq_if] at h
  split at h
  · rw [Nat.repr_eq_ofList_toDigits, String.toList_ofList] at h
    exact hdigits _ h
  · rw [String.toList_append] at h
    rcases List.mem_append.mp h with hsign | hnum
    · exact absurd hsign (by decide)
    · rw [Nat.repr_eq_ofList_toDigits, String.toList_ofList] at hnum
      exact hdigits _ hnum

end int
end FlutterSugar
