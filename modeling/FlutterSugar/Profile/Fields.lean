import FlutterSugar.Firestore

/-!
# The fields of a profile

`AuthService.AuthAdd` of `firebase/db.dart` writes six fields from five positions
of a list.  Numbers come from text fields that let through at most three digits;
they are stored as texts and parsed again where they are used.

## Main definitions

* `DigitText`, `numberOf` — a number field and the number that it enters.
* `authFields`, `authAdd` — the profile that is written.
* `GoodField` — a field as the readers of the profile need it.
* `ProfileOk` — a profile with the six fields, all of them good.
-/

namespace FlutterSugar
namespace Profile
open Lib Std

/-! ## Input -/

/-- What `FilteringTextInputFormatter.digitsOnly` and
`LengthLimitingTextInputFormatter(3)` let through. -/
structure DigitText where
  text : String
  digits : text.toList.all Char.isDigit
  length_le : text.length ≤ 3

/-- The number that `onChanged` takes from the field. -/
def numberOf (value : DigitText) : Except DartError ℤ :=
  if value.text = "" then .ok 0 else int.parseOrThrow value.text

/-- The three circles to tap. -/
inductive Gender
  | male
  | female
  | other
  deriving DecidableEq, Repr

def Gender.text : Gender → String
  | .male => "男性"
  | .female => "女性"
  | .other => "その他"

/-- A text of at most three digits is a number. -/
theorem DigitText.parse_eq (value : DigitText) (h : value.text ≠ "") :
    ∃ n : ℤ, int.parse value.text = some n ∧ 0 ≤ n ∧ n < 1000 := by
  have hdigits : ∀ c ∈ value.text.toList, c.isDigit := by simpa using value.digits
  have hlt := ofDigitChars_lt hdigits
  have hpow : 10 ^ value.text.toList.length ≤ 10 ^ 3 :=
    Nat.pow_le_pow_right (by decide) (by rw [String.length_toList]; exact value.length_le)
  refine ⟨Nat.ofDigitChars 10 value.text.toList 0, int.parse_of_isDigit h hdigits ?_, ?_, ?_⟩
  all_goals omega

theorem numberOf_ok (value : DigitText) : ∃ n, numberOf value = .ok n ∧ 0 ≤ n ∧ n < 1000 := by
  by_cases h : value.text = ""
  · exact ⟨0, by simp [numberOf, h], by omega, by omega⟩
  · obtain ⟨n, hn, hbounds⟩ := value.parse_eq h
    exact ⟨n, by rw [numberOf, if_neg h, int.parseOrThrow_of_parse hn], hbounds⟩

/-! ## `AuthAdd` -/

/-- The fields that `AuthAdd` writes. -/
def authFields (li : List Dyn) : Except DartError (List (String × Dyn)) := do
  return [
    ("ニックネーム", ← elementAt li 0),
    ("プロフィール画像", .str ""),
    ("性別", .str (← elementAt li 1).toString),
    ("平均血糖値", .str (← elementAt li 2).toString),
    ("目標血糖値", .str (← elementAt li 3).toString),
    ("血圧", .str (← elementAt li 4).toString)]

/-- `AuthService.AuthAdd`. -/
def authAdd (li : List Dyn) (profile : Stored Dyn) : Except DartError (Stored Dyn) := do
  return Firestore.setMerge profile (← authFields li)

/-- The fields, by the positions that they are taken from. -/
theorem authFields_eq {li : List Dyn} {a b c d e : Dyn} (ha : li[0]? = some a)
    (hb : li[1]? = some b) (hc : li[2]? = some c) (hd : li[3]? = some d) (he : li[4]? = some e) :
    authFields li = .ok [("ニックネーム", a), ("プロフィール画像", .str ""), ("性別", .str b.toString),
      ("平均血糖値", .str c.toString), ("目標血糖値", .str d.toString), ("血圧", .str e.toString)] := by
  rw [authFields, elementAt_eq_ok.mpr ha, elementAt_eq_ok.mpr hb, elementAt_eq_ok.mpr hc,
    elementAt_eq_ok.mpr hd, elementAt_eq_ok.mpr he]
  rfl

/-! ## Fields that can be read -/

/-- The names of the fields. -/
def fieldNames : List String :=
  ["ニックネーム", "プロフィール画像", "性別", "平均血糖値", "目標血糖値", "血圧"]

theorem nodup_fieldNames : fieldNames.Nodup := by decide

/-- A name that is not empty. -/
def Nickname (value : Dyn) : Prop := ∃ s, value = .str s ∧ s ≠ ""

/-- One of the three texts. -/
def GenderText (s : String) : Prop := ∃ g : Gender, s = g.text

/-- A text that `int.parse` reads as a value of at most 200. -/
def NumberText (s : String) : Prop := ∃ n, int.parse s = some n ∧ 0 ≤ n ∧ n ≤ 200

instance : (value : Dyn) → Decidable (Nickname value)
  | .str s => decidable_of_iff (s ≠ "") (by simp [Nickname])
  | .int _ => isFalse (by simp [Nickname])

instance (s : String) : Decidable (GenderText s) :=
  decidable_of_iff (s = Gender.male.text ∨ s = Gender.female.text ∨ s = Gender.other.text) <| by
    constructor
    · rintro (h | h | h) <;> exact ⟨_, h⟩
    · rintro ⟨g, h⟩
      cases g <;> simp [h]

instance (s : String) : Decidable (NumberText s) :=
  match h : int.parse s with
  | none => isFalse (by simp [NumberText, h])
  | some n => decidable_of_iff (0 ≤ n ∧ n ≤ 200) (by simp [NumberText, h])

/-- A field as the readers of the profile need it. -/
def GoodField (key : String) (value : Dyn) : Prop :=
  if key = "ニックネーム" then Nickname value
  else if key = "性別" then ∃ s, value = .str s ∧ GenderText s
  else if key = "プロフィール画像" then True
  else ∃ s, value = .str s ∧ NumberText s

/-- A profile with exactly the six fields, all of them good. -/
structure ProfileOk (d : Document Dyn) : Prop where
  keys : ∀ k, k ∈ d ↔ k ∈ fieldNames
  fields : ∀ k v, d[k]? = some v → GoodField k v

theorem GoodField.number {key : String} {value : Dyn} (h : GoodField key value)
    (hname : key ≠ "ニックネーム") (hgender : key ≠ "性別") (himage : key ≠ "プロフィール画像") :
    ∃ s, value = .str s ∧ NumberText s := by
  simpa [GoodField, hname, hgender, himage] using h

theorem goodField_number {key s : String} (h : NumberText s) (hname : key ≠ "ニックネーム")
    (hgender : key ≠ "性別") : GoodField key (.str s) := by
  rw [GoodField, if_neg hname, if_neg hgender]
  split
  next => trivial
  next => exact ⟨s, rfl, h⟩

theorem goodField_nickname {s : String} (h : s ≠ "") : GoodField "ニックネーム" (.str s) := ⟨s, rfl, h⟩

theorem goodField_gender {s : String} (h : GenderText s) : GoodField "性別" (.str s) := ⟨s, rfl, h⟩

/-- A merging write of good fields to a profile that is good or does not exist. -/
theorem ProfileOk.insertMany {d : Document Dyn} {fields : List (String × Dyn)}
    (hd : ∀ k v, d[k]? = some v → GoodField k v)
    (hkeys : ∀ k, k ∈ d ∨ k ∈ fields.map Prod.fst ↔ k ∈ fieldNames)
    (hfields : ∀ e ∈ fields, GoodField e.1 e.2) : ProfileOk (d.insertMany fields) where
  keys k := by
    rw [← hkeys, Document.mem_insertMany]
  fields k v h := by
    rcases Document.of_getElem?_insertMany h with hmem | hold
    · exact hfields (k, v) hmem
    · exact hd k v hold

end Profile
end FlutterSugar
