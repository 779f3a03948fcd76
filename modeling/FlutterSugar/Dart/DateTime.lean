import FlutterSugar.Lib.Numeral
import FlutterSugar.Lib.Calendar

/-!
# `DateTime` of `dart:core`

The record keys are texts written by `DateTime.toString` and read back by
`DateTime.parse`.  Both follow their documentation: `toString` pads every
component to a fixed width and leaves the microseconds out when they are zero;
`parse` accepts the formats of the documented grammar, lets a component that is
out of range overflow into the next larger one, and refuses every other text.
The local time zone is taken to have no gap at the times parsed, so that a local
time is determined by its components.

## Main definitions

* `DateTime` — a point in time, by its components.
* `DateTime.toString`, `DateTime.parse` — writing and reading.
-/

namespace FlutterSugar
open Lib

/-- A point in time, by the components that its getters return. -/
structure DateTime where
  year : ℤ
  month : ℕ
  day : ℕ
  hour : ℕ
  minute : ℕ
  second : ℕ
  millisecond : ℕ
  microsecond : ℕ
  isUtc : Bool
  deriving DecidableEq, Repr

namespace DateTime

/-! ## Writing -/

def fourDigits (n : ℤ) : String :=
  let absN := n.natAbs
  let sign := if n < 0 then "-" else ""
  if 1000 ≤ absN then sign ++ absN.repr
  else if 100 ≤ absN then sign ++ "0" ++ absN.repr
  else if 10 ≤ absN then sign ++ "00" ++ absN.repr
  else sign ++ "000" ++ absN.repr

def threeDigits (n : ℕ) : String :=
  if 100 ≤ n then n.repr else if 10 ≤ n then "0" ++ n.repr else "00" ++ n.repr

def twoDigits (n : ℕ) : String :=
  if 10 ≤ n then n.repr else "0" ++ n.repr

/-- `DateTime.toString`: the microseconds are omitted when they are zero. -/
def toString (t : DateTime) : String :=
  let us := if t.microsecond = 0 then "" else threeDigits t.microsecond
  fourDigits t.year ++ "-" ++ twoDigits t.month ++ "-" ++ twoDigits t.day ++ " " ++
    twoDigits t.hour ++ ":" ++ twoDigits t.minute ++ ":" ++ twoDigits t.second ++ "." ++
    threeDigits t.millisecond ++ us ++ (if t.isUtc then "Z" else "")

/-! ## Reading -/

/-- Drop an optional character. -/
def skip (c : Char) : List Char → List Char
  | [] => []
  | x :: xs => if x = c then xs else x :: xs

/-- The groups of the format `DateTime.parse` matches.  `zone` is the offset in
minutes of a time given with a time zone. -/
structure Components where
  year : ℤ
  month : ℤ
  day : ℤ
  hour : ℤ
  minute : ℤ
  second : ℤ
  micros : ℤ
  zone : Option ℤ
  deriving DecidableEq, Repr

/-- `[+-]?`: the sign of the year. -/
def signPart : List Char → ℤ × List Char
  | [] => (1, [])
  | c :: cs => if c = '-' then (-1, cs) else if c = '+' then (1, cs) else (1, c :: cs)

/-- `([+-]?\d{4,6})-?(\d\d)-?(\d\d)` with a year of `width` digits. -/
def datePart (width : ℕ) (cs : List Char) : Option ((ℤ × ℕ × ℕ) × List Char) := do
  let (sign, cs) := signPart cs
  let (years, cs) ← takeDigits width cs
  let (month, cs) ← takeDigits 2 (skip '-' cs)
  let (day, cs) ← takeDigits 2 (skip '-' cs)
  return ((sign * years, month, day), cs)

/-- `(?:[.,](\d+))?`: the first six digits of the fraction, as microseconds. -/
def fractionPart : List Char → ℕ × List Char
  | [] => (0, [])
  | c :: cs =>
    let digits := cs.takeWhile Char.isDigit
    if (c = '.' ∨ c = ',') ∧ digits ≠ [] then
      (Nat.ofDigitChars 10 ((digits ++ List.replicate 6 '0').take 6) 0, cs.dropWhile Char.isDigit)
    else (0, c :: cs)

/-- `( ?[zZ]| ?([-+])(\d\d)(?::?(\d\d))?)?$`: the offset of a time zone, if one
is given, up to the end of the text. -/
def zonePart (cs : List Char) : Option (Option ℤ) :=
  match cs with
  | [] => some none
  | _ =>
    match skip ' ' cs with
    | [] => none
    | c :: rest =>
      if (c = 'z' ∨ c = 'Z') ∧ rest = [] then some (some 0)
      else if c = '+' ∨ c = '-' then do
        let sign : ℤ := if c = '-' then -1 else 1
        let (hours, rest) ← takeDigits 2 rest
        if rest = [] then some (some (sign * (60 * hours)))
        else do
          let (minutes, rest) ← takeDigits 2 (skip ':' rest)
          if rest = [] then some (some (sign * (60 * hours + minutes))) else none
      else none

/-- `(?:[ T](\d\d)(?::?(\d\d)(?::?(\d\d)(?:[.,](\d+))?)?)?…)?$`: hour, minute,
second, microseconds and time zone. -/
def timePart (cs : List Char) : Option (ℕ × ℕ × ℕ × ℕ × Option ℤ) :=
  match cs with
  | [] => some (0, 0, 0, 0, none)
  | c :: cs =>
    if c = ' ' ∨ c = 'T' then do
      let (hour, cs) ← takeDigits 2 cs
      match takeDigits 2 (skip ':' cs) with
      | none => return (hour, 0, 0, 0, ← zonePart cs)
      | some (minute, cs) =>
        match takeDigits 2 (skip ':' cs) with
        | none => return (hour, minute, 0, 0, ← zonePart cs)
        | some (second, cs) =>
          let (micros, cs) := fractionPart cs
          return (hour, minute, second, micros, ← zonePart cs)
    else none

/-- The whole format, with a year of `width` digits. -/
def matchFormat (width : ℕ) (cs : List Char) : Option Components := do
  let ((year, month, day), cs) ← datePart width cs
  let (hour, minute, second, micros, zone) ← timePart cs
  return { year, month, day, hour, minute, second, micros, zone }

/-- The time of a list of components, larger components taking the overflow of
smaller ones; `none` when it is more than 100,000,000 days from 1970. -/
def ofComponents (c : Components) : Option DateTime :=
  -- A time zone other than the local one is converted to the equivalent UTC time.
  let minute := c.minute - c.zone.getD 0
  let time := ((c.hour * 60 + minute) * 60 + c.second) * 1000000 + c.micros
  let days := daysFromCivil (c.year + (c.month - 1) / 12) ((c.month - 1) % 12 + 1) 1 +
    (c.day - 1) + time / 86400000000
  let rest := time % 86400000000
  if (days * 86400000000 + rest).natAbs ≤ 8640000000000000000 then
    let (year, month, day) := civilFromDays days
    some {
      year := year
      month := month.toNat
      day := day.toNat
      hour := (rest / 3600000000).toNat
      minute := (rest / 60000000 % 60).toNat
      second := (rest / 1000000 % 60).toNat
      millisecond := (rest / 1000 % 1000).toNat
      microsecond := (rest % 1000).toNat
      isUtc := c.zone.isSome }
  else none

/-- `DateTime.parse`, with `none` for the `FormatException`.  The pattern takes
as many digits for the year as leave a match. -/
def parse (formattedString : String) : Option DateTime := do
  let c ← [6, 5, 4].findSome? fun width => matchFormat width formattedString.toList
  ofComponents c

/-- `DateTime.weekday`, `1` for Monday up to `7` for Sunday. -/
def weekday (t : DateTime) : ℕ := (weekdayOfDays (daysFromCivil t.year t.month t.day)).toNat

example : parse "20120227 13:27" = parse "2012-02-27T13:27:00,000000" := by decide
example : parse "2012-02-27T23:00-0500" = parse "2012-02-28 04:00:00.000Z" := by decide
example : (parse "2023-02-30").map toString = some "2023-03-02 00:00:00.000" := by decide

end DateTime

end FlutterSugar
