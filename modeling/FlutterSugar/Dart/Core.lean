import FlutterSugar.Lib.Numeral
import FlutterSugar.Lib.OrderedMap
import Std.Data.String.ToInt

/-!
# Values and collections of `dart:core` and `dart:collection`

What the app uses of them: the values of a `dynamic` variable, `int.parse`, the
length setter of a list, and `SplayTreeMap.from` with a comparator on strings.

## Main definitions

* `DartError` — the exceptions and errors that the app can meet.
* `Dyn` — a `dynamic` value.
* `int.parse` — reading an integer literal.
* `setLength`, `setLengthNullable` — `list..length = n`.
* `SplayTreeMap.from` — a map ordered by a comparator.
-/

namespace FlutterSugar
open Lib Std

/-- What is thrown. -/
inductive DartError
  /-- A text that cannot be parsed. -/
  | formatException
  /-- A failed cast or a `!` on `null`. -/
  | typeError
  /-- An index outside of a list. -/
  | rangeError
  /-- An element or a field that does not exist. -/
  | stateError
  /-- A read or a write of the database that failed. -/
  | firebaseException
  deriving DecidableEq, Repr

/-- A value of type `dynamic`. -/
inductive Dyn
  | str (s : String)
  | int (n : ℤ)
  deriving DecidableEq, Repr

namespace Dyn

/-- `Object.toString`. -/
def toString : Dyn → String
  | .str s => s
  | .int n => ToString.toString n

/-- The implicit cast to `String`. -/
def asString : Dyn → Except DartError String
  | .str s => .ok s
  | .int _ => .error .typeError

@[simp] theorem toString_str (s : String) : toString (.str s) = s := rfl

@[simp] theorem toString_int (n : ℤ) : toString (.int n) = ToString.toString n := rfl

@[simp] theorem asString_str (s : String) : asString (.str s) = .ok s := rfl

end Dyn

/-! ## Integer literals -/

namespace int

/-- White space as `String.trim` removes it. -/
def isWhitespace (c : Char) : Bool :=
  let n := c.toNat
  (0x9 ≤ n && n ≤ 0xD) || n = 0x20 || n = 0x85 || n = 0xA0 || n = 0x1680 ||
    (0x2000 ≤ n && n ≤ 0x200A) || n = 0x2028 || n = 0x2029 || n = 0x202F || n = 0x205F ||
    n = 0x3000 || n = 0xFEFF

def trim (cs : List Char) : List Char :=
  ((cs.dropWhile isWhitespace).reverse.dropWhile isWhitespace).reverse

/-- The digits of a hexadecimal literal. -/
def hexDigit (c : Char) : Option ℕ :=
  if c.isDigit then some (c.toNat - '0'.toNat)
  else if 'a' ≤ c ∧ c ≤ 'f' then some (c.toNat - 'a'.toNat + 10)
  else if 'A' ≤ c ∧ c ≤ 'F' then some (c.toNat - 'A'.toNat + 10)
  else none

/-- A value that fits into 64 bits. -/
def inRange (n : ℤ) : Option ℤ :=
  if -9223372036854775808 ≤ n ∧ n ≤ 9223372036854775807 then some n else none

/-- The unsigned part of a literal, with the sign applied. -/
def magnitude (sign : ℤ) : List Char → Option ℤ
  | '0' :: x :: ds =>
    if x = 'x' ∨ x = 'X' then
      if ds = [] then none
      else do
        let digits ← ds.mapM hexDigit
        let n : ℕ := digits.foldl (fun acc d => 16 * acc + d) 0
        -- A positive hexadecimal literal may use all 64 bits.
        if sign = 1 ∧ n < 18446744073709551616 then some (Int.bmod n 18446744073709551616)
        else inRange (sign * n)
    else if ('0' :: x :: ds).all Char.isDigit then
      inRange (sign * Nat.ofDigitChars 10 ('0' :: x :: ds) 0)
    else none
  | ds => if ds ≠ [] ∧ ds.all Char.isDigit then inRange (sign * Nat.ofDigitChars 10 ds 0) else none

/-- `int.parse`, with `none` for the `FormatException`. -/
def parse (source : String) : Option ℤ :=
  match trim source.toList with
  | '-' :: ds => magnitude (-1) ds
  | '+' :: ds => magnitude 1 ds
  | ds => magnitude 1 ds

/-- `int.parse`, thrown. -/
def parseOrThrow (source : String) : Except DartError ℤ :=
  match parse source with
  | none => .error .formatException
  | some n => .ok n

theorem parseOrThrow_of_parse {source : String} {n : ℤ} (h : parse source = some n) :
    parseOrThrow source = .ok n := by
  rw [parseOrThrow, h]

example : parse " 007 " = some 7 := by decide
example : parse "-0x1F" = some (-31) := by decide
example : parse "9223372036854775808" = none := by decide

theorem isWhitespace_of_isDigit {c : Char} (h : c.isDigit) : isWhitespace c = false := by
  have hc := toNat_of_isDigit h
  simp only [isWhitespace, Bool.or_eq_false_iff, Bool.and_eq_false_iff, decide_eq_false_iff_not]
  omega

theorem dropWhile_isWhitespace {cs : List Char} (h : ∀ c ∈ cs, c.isDigit) :
    cs.dropWhile isWhitespace = cs := by
  cases cs with
  | nil => rfl
  | cons c cs => simp [isWhitespace_of_isDigit (h c (by simp))]

theorem trim_of_isDigit {cs : List Char} (h : ∀ c ∈ cs, c.isDigit) : trim cs = cs := by
  have hrev : ∀ c ∈ cs.reverse, c.isDigit := by
    intro c hc
    exact h c (List.mem_reverse.mp hc)
  rw [trim, dropWhile_isWhitespace h, dropWhile_isWhitespace hrev, List.reverse_reverse]

/-- Digits are not taken for a hexadecimal literal. -/
theorem magnitude_of_isDigit {cs : List Char} (sign : ℤ) (hne : cs ≠ [])
    (h : ∀ c ∈ cs, c.isDigit) : magnitude sign cs = inRange (sign * Nat.ofDigitChars 10 cs 0) := by
  have hall : cs.all Char.isDigit := by simpa using h
  unfold magnitude
  split
  next x ds =>
    have hx : ¬ (x = 'x' ∨ x = 'X') := by
      intro hx
      have hdigit := h x (by simp)
      rcases hx with rfl | rfl <;> exact absurd hdigit (by decide)
    rw [if_neg hx, if_pos hall]
  next => rw [if_pos ⟨hne, hall⟩]

/-- A text of digits is read as the number it writes. -/
theorem parse_of_isDigit {s : String} (hne : s ≠ "") (h : ∀ c ∈ s.toList, c.isDigit)
    (hle : Nat.ofDigitChars 10 s.toList 0 ≤ 9223372036854775807) :
    parse s = some (Nat.ofDigitChars 10 s.toList 0 : ℤ) := by
  have hcs : s.toList ≠ [] := by simpa using hne
  have hrange : inRange (1 * Nat.ofDigitChars 10 s.toList 0) =
      some (Nat.ofDigitChars 10 s.toList 0 : ℤ) := by
    rw [inRange, one_mul, if_pos (by omega)]
  have hsign : ∀ c ∈ s.toList, c ≠ '-' ∧ c ≠ '+' := by
    intro c hc
    have hdigit := h c hc
    exact ⟨by rintro rfl; exact absurd hdigit (by decide),
      by rintro rfl; exact absurd hdigit (by decide)⟩
  rw [parse, trim_of_isDigit h]
  split
  next ds heq => exact absurd rfl (hsign '-' (by simp [heq])).1
  next ds heq => exact absurd rfl (hsign '+' (by simp [heq])).2
  next => rw [magnitude_of_isDigit 1 hcs h, hrange]

/-- The text of a natural number is read as the number. -/
theorem parse_toString {n : ℤ} (hn : 0 ≤ n) (hle : n ≤ 9223372036854775807) :
    parse (toString n) = some n := by
  obtain ⟨k, rfl⟩ := Int.eq_ofNat_of_zero_le hn
  have hchars : (toString (k : ℤ)).toList = Nat.toDigits 10 k := by
    rw [Int.toString_eq_repr, Int.repr_eq_if, if_pos hn, Nat.repr_eq_ofList_toDigits,
      String.toList_ofList]
    rfl
  have hne : toString (k : ℤ) ≠ "" := by
    intro h
    rw [h] at hchars
    exact Nat.toDigits_ne_nil hchars.symm
  have hvalue : Nat.ofDigitChars 10 (toString (k : ℤ)).toList 0 = k := by
    rw [hchars]
    exact Nat.ofDigitChars_toDigits (by decide) (by decide)
  rw [parse_of_isDigit hne, hvalue]
  · intro c hc
    rw [hchars] at hc
    exact Nat.isDigit_of_mem_toDigits (by decide) (by decide) hc
  · rw [hvalue]
    omega

end int

/-! ## Lists and maps -/

/-- Mapping a list by a function that throws on no element. -/
theorem mapM_ok {ε α β : Type} {f : α → Except ε β} {l : List α}
    (h : ∀ a ∈ l, ∃ b, f a = .ok b) :
    ∃ bs, l.mapM f = .ok bs ∧ ∀ b, b ∈ bs ↔ ∃ a ∈ l, f a = .ok b := by
  induction l with
  | nil => exact ⟨[], rfl, by simp⟩
  | cons a l ih =>
    obtain ⟨b, hb⟩ := h a (by simp)
    obtain ⟨bs, hbs, hmem⟩ := ih fun x hx => h x (by simp [hx])
    refine ⟨b :: bs, by simp [List.mapM_cons, hb, hbs, bind, Except.bind, pure, Except.pure], ?_⟩
    intro c
    simp only [List.mem_cons, hmem, exists_eq_or_imp, hb, Except.ok.injEq]
    exact or_congr eq_comm Iff.rfl

/-- Mapping a list by a function that throws on some element. -/
theorem mapM_error {ε α β : Type} {f : α → Except ε β} {l : List α}
    (h : ∃ a ∈ l, ∃ e, f a = .error e) : ∃ e, l.mapM f = .error e := by
  induction l with
  | nil => simp at h
  | cons a l ih =>
    cases ha : f a with
    | error e => exact ⟨e, by simp [List.mapM_cons, ha, bind, Except.bind]⟩
    | ok b =>
      obtain ⟨x, hx, e, he⟩ := h
      have hl : ∃ x ∈ l, ∃ e, f x = .error e := by
        rcases List.mem_cons.mp hx with rfl | hx
        · rw [ha] at he; cases he
        · exact ⟨x, hx, e, he⟩
      obtain ⟨e', he'⟩ := ih hl
      exact ⟨e', by simp [List.mapM_cons, ha, he', bind, Except.bind]⟩

/-- A block that returns has returned from each of its statements. -/
theorem bind_eq_ok {ε α β : Type} {x : Except ε α} {f : α → Except ε β} {b : β} :
    (x >>= f) = .ok b ↔ ∃ a, x = .ok a ∧ f a = .ok b := by
  cases x <;> simp [bind, Except.bind]

theorem mapM_eq_ok {ε α β : Type} {f : α → Except ε β} {g : α → β} {l : List α}
    (h : ∀ a ∈ l, f a = .ok (g a)) : l.mapM f = .ok (l.map g) := by
  induction l with
  | nil => rfl
  | cons a l ih =>
    rw [List.mapM_cons, h a (by simp), ih fun x hx => h x (by simp [hx])]
    rfl

theorem length_of_mapM_ok {ε α β : Type} {f : α → Except ε β} {l : List α} {bs : List β}
    (h : l.mapM f = .ok bs) : bs.length = l.length := by
  induction l generalizing bs with
  | nil =>
    cases h
    rfl
  | cons a l ih =>
    rw [List.mapM_cons] at h
    obtain ⟨b, -, h⟩ := bind_eq_ok.mp h
    obtain ⟨bs', hbs', h⟩ := bind_eq_ok.mp h
    cases h
    simp [ih hbs']

theorem ok_of_mapM_ok {ε α β : Type} {f : α → Except ε β} {l : List α} {bs : List β}
    (h : l.mapM f = .ok bs) {a : α} (ha : a ∈ l) : ∃ b, f a = .ok b := by
  cases hf : f a with
  | ok b => exact ⟨b, rfl⟩
  | error e =>
    obtain ⟨e', he'⟩ := mapM_error ⟨a, ha, e, hf⟩
    rw [h] at he'
    cases he'

/-- `list..length = n` on a list whose elements cannot be `null`: growing it is
an error. -/
def setLength {α : Type} (n : ℕ) (l : List α) : Except DartError (List α) :=
  if n ≤ l.length then .ok (l.take n) else .error .typeError

/-- `list..length = n` on a list of nullable elements: it grows by `null`. -/
def setLengthNullable {α : Type} (n : ℕ) (l : List (Option α)) : List (Option α) :=
  l.take n ++ List.replicate (n - l.length) none

/-- `list.elementAt(index)`, and `list[index]`. -/
def elementAt {α : Type} (l : List α) (index : ℕ) : Except DartError α :=
  match l[index]? with
  | none => .error .rangeError
  | some a => .ok a

theorem elementAt_eq_ok {α : Type} {l : List α} {index : ℕ} {a : α} :
    elementAt l index = .ok a ↔ l[index]? = some a := by
  cases h : l[index]? <;> simp [elementAt, h]

theorem elementAt_of_lt {α : Type} {l : List α} {index : ℕ} (h : index < l.length) :
    elementAt l index = .ok l[index] := by
  simp [elementAt, h]

/-- `toString` of a value that may be `null`. -/
def nullableToString {α : Type} [ToString α] : Option α → String
  | none => "null"
  | some a => toString a

theorem null_ne_toString (v : ℤ) : "null" ≠ toString v := by
  intro h
  rw [Int.toString_eq_repr, Int.repr_eq_if] at h
  have hchars := congrArg String.toList h
  split at hchars
  · simp only [Nat.repr_eq_ofList_toDigits, String.toList_ofList] at hchars
    have hn : 'n' ∈ Nat.toDigits 10 v.toNat := by
      rw [← hchars]
      decide
    exact absurd (Nat.isDigit_of_mem_toDigits (by decide) (by decide) hn) (by decide)
  · simp [String.toList_append] at hchars

/-- Integers are told apart by their texts, and from `null`. -/
theorem nullableToString_eq_iff (o : Option ℤ) (v : ℤ) :
    nullableToString o = toString v ↔ o = some v := by
  cases o with
  | none =>
    simpa [nullableToString] using null_ne_toString v
  | some u =>
    rw [nullableToString, Int.toString_eq_repr, Int.toString_eq_repr, Int.repr_inj,
      Option.some.injEq]

/-- A set literal `{x, y, …}` in the order of insertion. -/
def setLiteral {α : Type} [DecidableEq α] (l : List α) : List α := l.eraseDups

/-- `set.first`. -/
def setFirst {α : Type} (set : List α) : Except DartError α :=
  match set.head? with
  | none => .error .stateError
  | some a => .ok a

/-- `set.last`. -/
def setLast {α : Type} (set : List α) : Except DartError α :=
  match set.getLast? with
  | none => .error .stateError
  | some a => .ok a

/-- A map with string keys, enumerated in the order of the comparator. -/
abbrev SplayTreeMap (V : Type) (compare : String → String → Ordering) :=
  ExtTreeMap String V compare

/-- `SplayTreeMap.from(map, compare)`. -/
def SplayTreeMap.from {V : Type} {cmp : String → String → Ordering} [TransCmp cmp]
    (map : ExtTreeMap String V cmp) (compare : String → String → Ordering) :
    SplayTreeMap V compare :=
  resort compare map

namespace SplayTreeMap
variable {V : Type} {compare : String → String → Ordering}

/-- `map.entries.toList()`. -/
def entries [TransCmp compare] (map : SplayTreeMap V compare) : List (String × V) := map.toList

/-- `map.values.toList()`. -/
def values [TransCmp compare] (map : SplayTreeMap V compare) : List V :=
  map.entries.map Prod.snd

end SplayTreeMap

end FlutterSugar
