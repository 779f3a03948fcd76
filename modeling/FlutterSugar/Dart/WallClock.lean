import FlutterSugar.Dart.DateTime
import Mathlib.Data.List.TakeWhile

/-!
# Times a clock can show, and the texts that encode them

`DateTime.now().toString()` is the key under which a value is recorded.  For the
times a clock can show in the years 1 to 9999 every component but the
microseconds has a fixed width, and the text is read back to the time it encodes.

## Main definitions

* `WallClock` — a local time of an existing day in the years 1 to 9999.
* `WallClock.key` — the text of the time.
* `WallClock.parse_key` — the text is read back.
* `WallClock.compareTo_key_key` — texts are ordered as the times they encode.
-/

namespace FlutterSugar
open Lib

/-- A local time in the years 1 to 9999. -/
structure WallClock where
  year : ℕ
  month : ℕ
  day : ℕ
  hour : ℕ
  minute : ℕ
  second : ℕ
  millisecond : ℕ
  microsecond : ℕ
  year_mem : 1 ≤ year ∧ year ≤ 9999
  month_mem : 1 ≤ month ∧ month ≤ 12
  day_mem : 1 ≤ day ∧ (day : ℤ) ≤ daysInMonth year month
  hour_lt : hour < 24
  minute_lt : minute < 60
  second_lt : second < 60
  millisecond_lt : millisecond < 1000
  microsecond_lt : microsecond < 1000

namespace WallClock

/-- The time as a `DateTime` in local time. -/
def toDateTime (t : WallClock) : DateTime where
  year := t.year
  month := t.month
  day := t.day
  hour := t.hour
  minute := t.minute
  second := t.second
  millisecond := t.millisecond
  microsecond := t.microsecond
  isUtc := false

/-- The record key of the time. -/
def key (t : WallClock) : String := t.toDateTime.toString

/-! ## The text of a time -/

theorem length_toDigits {k n : ℕ} (h : 10 ^ k ≤ n) (h' : n < 10 ^ (k + 1)) :
    (Nat.toDigits 10 n).length = k + 1 := by
  have hle := (Nat.length_toDigits_le_iff (by decide) (Nat.succ_pos k)).mpr h'
  rcases k with _ | k
  · have := Nat.length_toDigits_pos (b := 10) (n := n)
    omega
  · have hgt := mt (Nat.length_toDigits_le_iff (b := 10) (n := n) (by decide) (Nat.succ_pos k)).mp
      (by omega)
    omega

/-- A number that fills the width is written without zeros on the left. -/
theorem padded_of_le {k n : ℕ} (h : 10 ^ k ≤ n) : padded (k + 1) n = Nat.toDigits 10 n := by
  have hlength : k + 1 ≤ (Nat.toDigits 10 n).length := by
    rcases k with _ | k
    · exact Nat.length_toDigits_pos
    · have hgt := mt (Nat.length_toDigits_le_iff (b := 10) (n := n) (by decide)
        (Nat.succ_pos k)).mp (by omega)
      omega
  rw [padded, List.leftpad, Nat.sub_eq_zero_of_le hlength, List.replicate_zero, List.nil_append]

theorem toList_twoDigits (n : ℕ) : (DateTime.twoDigits n).toList = padded 2 n := by
  rw [DateTime.twoDigits]
  split
  · rw [padded_of_le (by omega)]
    simp
  · rw [padded, List.leftpad, Nat.toDigits_of_lt_base (by omega)]
    simp [Nat.toDigits_of_lt_base (show n < 10 by omega), List.replicate_succ]

theorem toList_threeDigits (n : ℕ) : (DateTime.threeDigits n).toList = padded 3 n := by
  rw [DateTime.threeDigits]
  split_ifs
  · rw [padded_of_le (by omega)]
    simp
  · rw [padded, List.leftpad, length_toDigits (k := 1) (by omega) (by omega)]
    simp [List.replicate_succ]
  · rw [padded, List.leftpad, Nat.toDigits_of_lt_base (by omega)]
    simp [Nat.toDigits_of_lt_base (show n < 10 by omega), List.replicate_succ]

/-- A year is written with at least four digits, after its sign. -/
theorem toList_fourDigits (n : ℤ) :
    (DateTime.fourDigits n).toList = (if n < 0 then ['-'] else []) ++ padded 4 n.natAbs := by
  have hsign : (if n < 0 then "-" else "").toList = if n < 0 then ['-'] else [] := by
    split <;> rfl
  rw [← hsign]
  simp only [DateTime.fourDigits]
  generalize (if n < 0 then "-" else "") = sign
  split_ifs
  · rw [padded_of_le (by omega)]
    simp
  · rw [padded, List.leftpad, length_toDigits (k := 2) (by omega) (by omega)]
    simp [List.replicate_succ]
  · rw [padded, List.leftpad, length_toDigits (k := 1) (by omega) (by omega)]
    simp [List.replicate_succ]
  · rw [padded, List.leftpad, Nat.toDigits_of_lt_base (by omega)]
    simp [Nat.toDigits_of_lt_base (show n.natAbs < 10 by omega), List.replicate_succ]

theorem day_le (t : WallClock) : t.day ≤ 31 := by
  have h := t.day_mem.2
  rw [daysInMonth] at h
  split_ifs at h <;> omega

/-- The text after the seconds: milliseconds always, microseconds unless zero. -/
def fraction (t : WallClock) : List Char :=
  padded 3 t.millisecond ++ (if t.microsecond = 0 then [] else padded 3 t.microsecond)

theorem toList_key (t : WallClock) : t.key.toList =
    padded 4 t.year ++ '-' :: (padded 2 t.month ++ '-' :: (padded 2 t.day ++ ' ' ::
      (padded 2 t.hour ++ ':' :: (padded 2 t.minute ++ ':' :: (padded 2 t.second ++ '.' ::
        t.fraction))))) := by
  have hyear : (DateTime.fourDigits t.year).toList = padded 4 t.year := by
    rw [toList_fourDigits, if_neg (by omega), List.nil_append, Int.natAbs_natCast]
  simp only [key, toDateTime, DateTime.toString, String.toList_append, hyear, toList_twoDigits,
    toList_threeDigits, fraction]
  by_cases h0 : t.microsecond = 0 <;> simp [h0, toList_threeDigits]

/-! ## Reading the text back -/

theorem isDigit_fraction (t : WallClock) : ∀ c ∈ t.fraction, c.isDigit := by
  intro c hc
  rcases List.mem_append.mp hc with h | h
  · exact isDigit_of_mem_padded h
  · split at h
    · simp at h
    · exact isDigit_of_mem_padded h

theorem fractionPart_fraction (t : WallClock) :
    DateTime.fractionPart ('.' :: t.fraction) =
      (t.millisecond * 1000 + t.microsecond, []) := by
  have htake : t.fraction.takeWhile Char.isDigit = t.fraction :=
    List.takeWhile_eq_self_iff.mpr (isDigit_fraction t)
  have hdrop : t.fraction.dropWhile Char.isDigit = [] :=
    List.dropWhile_eq_nil_iff.mpr (isDigit_fraction t)
  have hms := length_padded (w := 3) (by decide) t.millisecond_lt
  have hne : t.fraction ≠ [] := by
    intro h
    have := congrArg List.length h
    simp [fraction, hms] at this
  have hvalue : Nat.ofDigitChars 10 ((t.fraction ++ List.replicate 6 '0').take 6) 0 =
      t.millisecond * 1000 + t.microsecond := by
    rw [fraction]
    split
    next hus =>
      rw [List.append_nil, List.take_append, hms, List.take_of_length_le (by omega),
        Nat.ofDigitChars_append, ofDigitChars_padded,
        show (List.replicate 6 '0').take (6 - 3) = List.replicate 3 '0' from rfl,
        Nat.ofDigitChars_replicate_zero, hus]
      omega
    next hus =>
      have hlen := length_padded (w := 3) (by decide) t.microsecond_lt
      rw [List.take_append, List.length_append, hms, hlen,
        List.take_of_length_le (by simp [hms, hlen])]
      simp only [Nat.sub_self, List.take_zero, List.append_nil, Nat.ofDigitChars_append,
        ofDigitChars_padded]
      rw [Nat.ofDigitChars_eq_ofDigitChars_zero, hlen, ofDigitChars_padded]
      omega
  simp only [DateTime.fractionPart, htake, hdrop, hvalue]
  simp [hne]

theorem signPart_of_digit {c : Char} (hc : c.isDigit) (cs : List Char) :
    DateTime.signPart (c :: cs) = (1, c :: cs) := by
  have hminus : c ≠ '-' := by rintro rfl; exact absurd hc (by decide)
  have hplus : c ≠ '+' := by rintro rfl; exact absurd hc (by decide)
  simp [DateTime.signPart, hminus, hplus]

/-- A padded numeral starts with a digit, hence without a sign. -/
theorem signPart_padded {w n : ℕ} (hw : 0 < w) (hn : n < 10 ^ w) (rest : List Char) :
    DateTime.signPart (padded w n ++ rest) = (1, padded w n ++ rest) := by
  have hlen := length_padded hw hn
  cases h : padded w n with
  | nil => rw [h] at hlen; simp at hlen; omega
  | cons c cs =>
    have hc : c.isDigit := isDigit_of_mem_padded (w := w) (n := n) (by simp [h])
    exact signPart_of_digit hc _

@[simp] theorem skip_self (c : Char) (cs : List Char) : DateTime.skip c (c :: cs) = cs := by
  simp [DateTime.skip]

/-- The components that the text of a time holds. -/
def components (t : WallClock) : DateTime.Components where
  year := t.year
  month := t.month
  day := t.day
  hour := t.hour
  minute := t.minute
  second := t.second
  micros := t.millisecond * 1000 + t.microsecond
  zone := none

/-- A year of more than four digits does not match: the fifth character is `-`. -/
theorem matchFormat_key_of_lt {width : ℕ} (h : 4 < width) (t : WallClock) :
    DateTime.matchFormat width t.key.toList = none := by
  have hyear : t.year < 10 ^ 4 := by have := t.year_mem; omega
  have hlen := length_padded (w := 4) (by decide) hyear
  simp only [DateTime.matchFormat, DateTime.datePart, toList_key,
    signPart_padded (w := 4) (by decide) hyear]
  rw [takeDigits_of_not_digit (by omega) (by decide)]
  rfl

theorem datePart_padded {y m d : ℕ} (hy : y < 10 ^ 4) (hm : m < 10 ^ 2) (hd : d < 10 ^ 2)
    (rest : List Char) :
    DateTime.datePart 4 (padded 4 y ++ '-' :: (padded 2 m ++ '-' :: (padded 2 d ++ rest))) =
      some (((y : ℤ), m, d), rest) := by
  simp [DateTime.datePart, signPart_padded (w := 4) (by decide) hy,
    takeDigits_padded (w := 4) (by decide) hy, takeDigits_padded (w := 2) (by decide) hm,
    takeDigits_padded (w := 2) (by decide) hd]

theorem timePart_padded {h m s us : ℕ} (hh : h < 10 ^ 2) (hm : m < 10 ^ 2) (hs : s < 10 ^ 2)
    {frac : List Char} (hfrac : DateTime.fractionPart frac = (us, [])) :
    DateTime.timePart (' ' :: (padded 2 h ++ ':' :: (padded 2 m ++ ':' :: (padded 2 s ++ frac)))) =
      some (h, m, s, us, none) := by
  simp [DateTime.timePart, takeDigits_padded (w := 2) (by decide) hh,
    takeDigits_padded (w := 2) (by decide) hm, takeDigits_padded (w := 2) (by decide) hs,
    hfrac, DateTime.zonePart]

theorem matchFormat_key (t : WallClock) :
    DateTime.matchFormat 4 t.key.toList = some t.components := by
  have hdate := datePart_padded (y := t.year) (m := t.month) (d := t.day)
    (by have := t.year_mem; omega) (by have := t.month_mem; omega) (by have := t.day_le; omega)
  have htime := timePart_padded (h := t.hour) (m := t.minute) (s := t.second)
    (by have := t.hour_lt; omega) (by have := t.minute_lt; omega) (by have := t.second_lt; omega)
    (fractionPart_fraction t)
  rw [toList_key, DateTime.matchFormat, hdate]
  simp [htime, components]

theorem ofComponents_components (t : WallClock) :
    DateTime.ofComponents t.components = some t.toDateTime := by
  have hmonth := t.month_mem
  have hday := t.day_mem
  have hhour := t.hour_lt
  have hminute := t.minute_lt
  have hsecond := t.second_lt
  have hms := t.millisecond_lt
  have hus := t.microsecond_lt
  obtain ⟨time, htime⟩ : ∃ time : ℤ, time = ((t.hour * 60 + t.minute) * 60 + t.second) * 1000000 +
    (t.millisecond * 1000 + t.microsecond) := ⟨_, rfl⟩
  have hmonth0 : ((t.month : ℤ) - 1) / 12 = 0 := by omega
  have hmonth1 : ((t.month : ℤ) - 1) % 12 + 1 = t.month := by omega
  have hover : time / 86400000000 = 0 := by omega
  have hrest : time % 86400000000 = time := by omega
  have hdays : daysFromCivil t.year t.month 1 + ((t.day : ℤ) - 1) + 0 =
      daysFromCivil t.year t.month t.day := by
    simp only [daysFromCivil, dayOfEra]
    omega
  have hbounds := daysFromCivil_bounds (y := t.year) (m := t.month) (d := t.day)
    (by have := t.year_mem; omega) (by omega) (by have := t.day_le; omega)
  have hdate := civilFromDays_daysFromCivil (y := t.year) (m := t.month) (d := t.day)
    (by omega) ⟨by omega, hday.2⟩
  have hrange : (daysFromCivil t.year t.month t.day * 86400000000 + time).natAbs ≤
      8640000000000000000 := by omega
  simp only [DateTime.ofComponents, components, Option.getD_none, Int.sub_zero, ← htime, hmonth0,
    hmonth1, hover, hrest, Int.add_zero, hdays, hrange, hdate, if_true, toDateTime,
    Option.isSome_none, Option.some.injEq, DateTime.mk.injEq, Int.toNat_natCast, true_and,
    and_true]
  omega

/-- **The text of a time is read back to the time.** -/
theorem parse_key (t : WallClock) : DateTime.parse t.key = some t.toDateTime := by
  simp only [DateTime.parse, List.findSome?_cons, matchFormat_key_of_lt (by decide : 4 < 6),
    matchFormat_key_of_lt (by decide : 4 < 5), matchFormat_key]
  exact ofComponents_components t

/-! ## Order of the texts -/

/-- Times are ordered by their components, the larger ones first. -/
def compareTime (a b : WallClock) : Ordering :=
  (compare a.year b.year).then <| (compare a.month b.month).then <|
    (compare a.day b.day).then <| (compare a.hour b.hour).then <|
      (compare a.minute b.minute).then <| (compare a.second b.second).then <|
        (compare a.millisecond b.millisecond).then (compare a.microsecond b.microsecond)

theorem codeUnits_key (t : WallClock) : codeUnits t.key = t.key.toList.map Char.toNat := by
  have hdigit : ∀ {c : Char}, c.isDigit → c.toNat < 0x10000 := by
    intro c hc
    have := toNat_of_isDigit hc
    omega
  have hpad : ∀ {w n : ℕ} {c : Char}, c ∈ padded w n → c.toNat < 0x10000 :=
    fun h => hdigit (isDigit_of_mem_padded h)
  have hfrac : ∀ {c : Char}, c ∈ t.fraction → c.toNat < 0x10000 :=
    fun h => hdigit (isDigit_fraction t _ h)
  have hkey : ∀ c ∈ t.key.toList, c.toNat < 0x10000 := by
    intro c hc
    simp only [toList_key, List.mem_append, List.mem_cons] at hc
    rcases hc with h | rfl | h | rfl | h | rfl | h | rfl | h | rfl | h | rfl | h
    all_goals first | exact hpad h | exact hfrac h | decide
  have h := codeUnits_ofList hkey
  rwa [String.ofList_toList] at h

/-- Leaving zero microseconds out keeps the order: a text that ends is smaller
than one that goes on. -/
theorem compare_fraction (a b : WallClock) :
    List.compareLex compare (a.fraction.map Char.toNat) (b.fraction.map Char.toNat) =
      (compare a.millisecond b.millisecond).then (compare a.microsecond b.microsecond) := by
  have hlen : ∀ {n : ℕ}, n < 1000 → (padded 3 n).length = 3 :=
    fun h => length_padded (by decide) h
  have hcons : ∀ {n : ℕ}, n < 1000 → ∃ x xs, (padded 3 n).map Char.toNat = x :: xs := by
    intro n hn
    cases h : padded 3 n with
    | nil => have := hlen hn; rw [h] at this; simp at this
    | cons x xs => exact ⟨_, _, rfl⟩
  simp only [fraction, List.map_append]
  rw [compareLex_append _ (by simp [hlen a.millisecond_lt, hlen b.millisecond_lt]),
    compare_padded (by decide) a.millisecond_lt b.millisecond_lt]
  congr 1
  by_cases ha : a.microsecond = 0 <;> by_cases hb : b.microsecond = 0 <;>
    simp only [ha, hb, if_true, if_false, List.map_nil]
  · simp [List.compareLex_nil_nil]
  · obtain ⟨x, xs, hx⟩ := hcons b.microsecond_lt
    rw [hx, List.compareLex_nil_cons, Nat.compare_eq_lt.mpr (by omega)]
  · obtain ⟨x, xs, hx⟩ := hcons a.microsecond_lt
    rw [hx, List.compareLex_cons_nil, Nat.compare_eq_gt.mpr (by omega)]
  · exact compare_padded (by decide) a.microsecond_lt b.microsecond_lt

/-- A time that is not later falls on a day that is not later. -/
theorem day_le_of_compareTime {a b : WallClock} (h : (compareTime a b).isLE) :
    a.year < b.year ∨ a.year = b.year ∧
      (a.month < b.month ∨ a.month = b.month ∧ a.day ≤ b.day) := by
  rw [compareTime] at h
  rcases Nat.lt_trichotomy a.year b.year with hy | hy | hy
  · exact Or.inl hy
  · rw [Nat.compare_eq_eq.mpr hy] at h
    refine Or.inr ⟨hy, ?_⟩
    rcases Nat.lt_trichotomy a.month b.month with hm | hm | hm
    · exact Or.inl hm
    · rw [Nat.compare_eq_eq.mpr hm] at h
      refine Or.inr ⟨hm, ?_⟩
      by_contra hd
      rw [Nat.compare_eq_gt.mpr (by omega)] at h
      cases h
    · rw [Nat.compare_eq_gt.mpr hm] at h
      cases h
  · rw [Nat.compare_eq_gt.mpr hy] at h
    cases h

/-- **The texts of two times are ordered as the times are.** -/
theorem compareTo_key_key (a b : WallClock) : compareTo a.key b.key = compareTime a b := by
  have hyear : ∀ t : WallClock, t.year < 10 ^ 4 := fun t => by have := t.year_mem; omega
  have hmonth : ∀ t : WallClock, t.month < 10 ^ 2 := fun t => by have := t.month_mem; omega
  have hday : ∀ t : WallClock, t.day < 10 ^ 2 := fun t => by have := t.day_le; omega
  have hhour : ∀ t : WallClock, t.hour < 10 ^ 2 := fun t => by have := t.hour_lt; omega
  have hminute : ∀ t : WallClock, t.minute < 10 ^ 2 := fun t => by have := t.minute_lt; omega
  have hsecond : ∀ t : WallClock, t.second < 10 ^ 2 := fun t => by have := t.second_lt; omega
  rw [compareTo, compareTime]
  rw [codeUnits_key, codeUnits_key, toList_key, toList_key,
    compare_padded_append_cons (by decide) (hyear a) (hyear b),
    compare_padded_append_cons (by decide) (hmonth a) (hmonth b),
    compare_padded_append_cons (by decide) (hday a) (hday b),
    compare_padded_append_cons (by decide) (hhour a) (hhour b),
    compare_padded_append_cons (by decide) (hminute a) (hminute b),
    compare_padded_append_cons (by decide) (hsecond a) (hsecond b), compare_fraction]

end WallClock
end FlutterSugar
