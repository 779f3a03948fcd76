import FlutterSugar.Profile.Fields
import FlutterSugar.Record.Keys
import Mathlib.Data.List.Induction

/-!
# The page that records a value

`Push3` of `push.dart` shows the day on which it was opened and asks for a value.
What was typed is kept twice: the field keeps its text, and `onChanged` copies it
to a variable of `build`, which every new build declares again.  The button reads
the variable, and stores under the time of the press.

## Main definitions

* `Push3`, `Push3.after` — the page, and the page after edits, builds and time.
* `Push3.onPressed` — what the button does.
* `Push3.SubmitsShown` — what is shown is what is submitted.
* `submits_shown_iff` — when this is so.
-/

namespace FlutterSugar
namespace Record
open Lib Profile

/-- The page: the day of `widget.date`, the text of the field, the variable `input`
of the last build, and the time on the clock. -/
structure Push3 where
  date : DateTime
  text : DigitText
  input : Option String
  now : DateTime

namespace Push3

/-- The text of an empty field. -/
def emptyText : DigitText := ⟨"", by decide, by decide⟩

/-- The floating button opens the page with the time of the tap. -/
def opened (date : DateTime) : Push3 := ⟨date, emptyText, none, date⟩

/-- `dat`, the day in the heading of the page. -/
def dat (p : Push3) : String := DateFormat.format "yyyy年M月dd日" p.date

inductive Act
  /-- The field gets another text, and `onChanged` is called with it. -/
  | edit (value : DigitText)
  /-- A new `build`; the field keeps its text. -/
  | rebuild
  /-- Time passes. -/
  | tick (now : DateTime)

def act (p : Push3) : Act → Push3
  | .edit value => { p with text := value, input := some value.text }
  | .rebuild => { p with input := none }
  | .tick now => { p with now }

/-- The page after some edits, builds and ticks. -/
def after (date : DateTime) (acts : List Act) : Push3 := acts.foldl act (opened date)

inductive Effect
  | showToast (msg : String)
  | updateUser (s : String) (i : ℤ)
  /-- The home screen is pushed. -/
  | pushMyApp
  deriving DecidableEq, Repr

/-- `onPressed` of the button. -/
def onPressed (p : Push3) : Except DartError (List Effect) :=
  match p.input with
  | none => .ok [.showToast "数値を入力してください。"]
  | some input =>
    if input = "" then .ok [.showToast "数値を入力してください。"]
    else do
      if (← int.parseOrThrow input) ≤ 200 then
        return [.updateUser p.now.toString (← int.parseOrThrow input), .pushMyApp]
      else return [.showToast "正しい値を入力してください。"]

/-- The calls of `updateUser`. -/
def calls (effects : List Effect) : List (String × ℤ) :=
  effects.filterMap fun effect =>
    match effect with
    | .updateUser s i => some (s, i)
    | _ => none

/-- The field is empty or shows more than 200. -/
def ShowsRefused (p : Push3) : Prop :=
  p.text.text = "" ∨ ∃ n, int.parse p.text.text = some n ∧ 200 < n

/-- **What is shown is what is submitted**: a number of at most 200 by exactly one
call, with a timestamp on the day that the page displays, and nothing if the
field is empty or shows more than 200. -/
def SubmitsShown (p : Push3) : Prop :=
  ∃ effects, p.onPressed = .ok effects ∧
    (∀ n, int.parse p.text.text = some n → n ≤ 200 →
      ∃ t : DateTime, calls effects = [(t.toString, n)] ∧
        DateFormat.format "yyyy年M月dd日" t = p.dat) ∧
    (p.ShowsRefused → calls effects = [])

/-- It is still the day that the page displays. -/
def OnDisplayedDay (p : Push3) : Prop := DateFormat.format "yyyy年M月dd日" p.now = p.dat

/-- The text was edited, and the page was not built again since. -/
def EditedSinceBuild (acts : List Act) : Prop :=
  ∃ before value later, acts = before ++ .edit value :: later ∧ .rebuild ∉ later

/-- On clock times the days are compared, not only their texts. -/
theorem onDisplayedDay_iff {date now : WallClock} {p : Push3} (hdate : p.date = date.toDateTime)
    (hnow : p.now = now.toDateTime) : p.OnDisplayedDay ↔ now.calendarDay = date.calendarDay := by
  rw [OnDisplayedDay, dat, hdate, hnow, format_day_toDateTime_iff]

/-! ## The two copies of the text -/

theorem after_concat (date : DateTime) (acts : List Act) (a : Act) :
    after date (acts ++ [a]) = (after date acts).act a := by
  simp [after]

theorem not_editedSinceBuild_nil : ¬ EditedSinceBuild [] := by
  intro h
  obtain ⟨before, value, later, hnil, -⟩ := h
  simp at hnil

theorem editedSinceBuild_concat (acts : List Act) (a : Act) :
    EditedSinceBuild (acts ++ [a]) ↔
      (∃ value, a = .edit value) ∨ a ≠ .rebuild ∧ EditedSinceBuild acts := by
  constructor
  · intro h
    obtain ⟨before, value, later, hacts, hlater⟩ := h
    rcases List.eq_nil_or_concat' later with rfl | ⟨later, b, rfl⟩
    · obtain ⟨-, ha⟩ := List.append_inj' hacts rfl
      exact Or.inl ⟨value, List.singleton_inj.mp ha⟩
    · rw [← List.cons_append, ← List.append_assoc] at hacts
      obtain ⟨rfl, ha⟩ := List.append_inj' hacts rfl
      rw [List.singleton_inj.mp ha]
      refine Or.inr ⟨?_, before, value, later, rfl, ?_⟩
      · rintro rfl
        exact hlater (by simp)
      · intro hmem
        exact hlater (by simp [hmem])
  · intro h
    rcases h with ⟨value, rfl⟩ | ⟨ha, before, value, later, rfl, hlater⟩
    · exact ⟨acts, value, [], rfl, by simp⟩
    · refine ⟨before, value, later ++ [a], by simp, ?_⟩
      intro hmem
      rcases List.mem_append.mp hmem with hmem | hmem
      · exact hlater hmem
      · exact ha (List.mem_singleton.mp hmem).symm

/-- **The variable holds the text of the field** if the text was edited since the
last build, and nothing otherwise. -/
theorem input_after (date : DateTime) (acts : List Act) :
    (EditedSinceBuild acts → (after date acts).input = some (after date acts).text.text) ∧
      (¬ EditedSinceBuild acts → (after date acts).input = none) := by
  induction acts using List.reverseRecOn with
  | nil => exact ⟨fun h => absurd h not_editedSinceBuild_nil, fun _ => rfl⟩
  | append_singleton acts a ih =>
    rw [after_concat, editedSinceBuild_concat]
    cases a with
    | edit value => exact ⟨fun _ => rfl, fun h => absurd (Or.inl ⟨value, rfl⟩) h⟩
    | rebuild => simp [act]
    | tick now => simpa [act] using ih

/-! ## The button -/

section
variable {p : Push3}

/-- Nothing is submitted as long as the variable is empty. -/
theorem onPressed_of_none (h : p.input = none) :
    p.onPressed = .ok [.showToast "数値を入力してください。"] := by
  rw [onPressed, h]

theorem onPressed_of_empty (h : p.input = some "") :
    p.onPressed = .ok [.showToast "数値を入力してください。"] := by
  rw [onPressed, h]
  rfl

/-- A number is submitted if it is at most 200. -/
theorem onPressed_of_parse {input : String} {n : ℤ} (h : p.input = some input)
    (hinput : input ≠ "") (hn : int.parse input = some n) :
    p.onPressed =
      .ok (if n ≤ 200 then [.updateUser p.now.toString n, .pushMyApp]
        else [.showToast "正しい値を入力してください。"]) := by
  simp only [onPressed, h, hinput, if_false, int.parseOrThrow_of_parse hn, bind, Except.bind]
  split <;> rfl

/-- A text that is not to be refused is a number of at most 200. -/
theorem exists_number (h : ¬ p.ShowsRefused) :
    p.text.text ≠ "" ∧ ∃ n, int.parse p.text.text = some n ∧ n ≤ 200 := by
  rw [ShowsRefused, not_or] at h
  obtain ⟨hne, hlarge⟩ := h
  obtain ⟨n, hn, -⟩ := p.text.parse_eq hne
  refine ⟨hne, n, hn, ?_⟩
  by_contra hlt
  exact hlarge ⟨n, hn, by omega⟩

theorem parse_empty : int.parse "" = none := by decide

/-- An empty field, or more than 200, is refused whatever the variable holds. -/
theorem submitsShown_of_showsRefused (h : p.ShowsRefused)
    (hinput : p.input = some p.text.text ∨ p.input = none) : p.SubmitsShown := by
  have htoast : ∃ msg, p.onPressed = .ok [.showToast msg] := by
    rcases hinput with hinput | hinput
    · rcases id h with hempty | ⟨n, hn, hlt⟩
      · rw [hempty] at hinput
        exact ⟨_, onPressed_of_empty hinput⟩
      · have hne : p.text.text ≠ "" := by
          intro hempty
          rw [hempty, parse_empty] at hn
          cases hn
        refine ⟨"正しい値を入力してください。", ?_⟩
        rw [onPressed_of_parse hinput hne hn, if_neg (by omega)]
    · exact ⟨_, onPressed_of_none hinput⟩
  obtain ⟨msg, hpress⟩ := htoast
  refine ⟨_, hpress, ?_, fun _ => rfl⟩
  intro n hn hle
  rcases h with hempty | ⟨m, hm, hlt⟩
  · rw [hempty, parse_empty] at hn
    cases hn
  · rw [hm, Option.some.injEq] at hn
    omega

/-- A number that is not in the variable is not submitted. -/
theorem not_submitsShown_of_none (h : ¬ p.ShowsRefused) (hinput : p.input = none) :
    ¬ p.SubmitsShown := by
  intro hsubmits
  obtain ⟨effects, hpress, hnumber, -⟩ := hsubmits
  obtain ⟨-, n, hn, hle⟩ := exists_number h
  obtain ⟨t, hcalls, -⟩ := hnumber n hn hle
  rw [onPressed_of_none hinput, Except.ok.injEq] at hpress
  rw [← hpress] at hcalls
  cases hcalls

/-- A number that is in the variable is submitted, under the time of the press. -/
theorem submitsShown_iff_of_some (h : ¬ p.ShowsRefused) (hinput : p.input = some p.text.text) :
    p.SubmitsShown ↔ p.OnDisplayedDay := by
  obtain ⟨hne, n, hn, hle⟩ := exists_number h
  have hpress : p.onPressed = .ok [.updateUser p.now.toString n, .pushMyApp] := by
    rw [onPressed_of_parse hinput hne hn, if_pos hle]
  constructor
  · intro hsubmits
    obtain ⟨effects, hpress', hnumber, -⟩ := hsubmits
    obtain ⟨t, hcalls, hday⟩ := hnumber n hn hle
    rw [hpress, Except.ok.injEq] at hpress'
    have hkey : (p.now.toString, n) = (t.toString, n) := by
      rw [← hpress'] at hcalls
      exact List.singleton_inj.mp hcalls
    rw [OnDisplayedDay, ← hday]
    exact DateFormat.format_congr (calendarDay_eq_of_toString_eq (Prod.ext_iff.mp hkey).1) _
  · intro hday
    refine ⟨_, hpress, ?_, fun hrefused => absurd hrefused h⟩
    intro m hm _
    rw [hn, Option.some.injEq] at hm
    exact ⟨p.now, by rw [← hm]; rfl, hday⟩

end

/-- **When the page submits what it shows.**  After any edits, builds and ticks
this is so exactly if the text is to be refused anyway, or it was edited since the
last build and it is still the day that the page displays. -/
theorem submits_shown_iff (date : DateTime) (acts : List Act) :
    (after date acts).SubmitsShown ↔
      (after date acts).ShowsRefused ∨
        EditedSinceBuild acts ∧ (after date acts).OnDisplayedDay := by
  obtain ⟨hsome, hnone⟩ := input_after date acts
  by_cases hrefused : (after date acts).ShowsRefused
  · refine iff_of_true (submitsShown_of_showsRefused hrefused ?_) (Or.inl hrefused)
    by_cases hedited : EditedSinceBuild acts
    · exact Or.inl (hsome hedited)
    · exact Or.inr (hnone hedited)
  · rw [or_iff_right hrefused]
    by_cases hedited : EditedSinceBuild acts
    · rw [submitsShown_iff_of_some hrefused (hsome hedited), and_iff_right hedited]
    · exact iff_of_false (not_submitsShown_of_none hrefused (hnone hedited))
        fun h => hedited h.1

/-- Ten seconds before midnight. -/
def beforeMidnight : DateTime := ⟨2024, 3, 7, 23, 59, 50, 0, 0, false⟩

def afterMidnight : DateTime := ⟨2024, 3, 8, 0, 0, 5, 0, 0, false⟩

def hundredTwenty : DigitText := ⟨"120", by decide, by decide⟩

/-- A build between the edit and the press loses the value that is shown, and a
press after midnight stores it for a day that is not shown. -/
theorem rebuilt_page_loses_value :
    ¬ (after beforeMidnight [.edit hundredTwenty, .rebuild]).SubmitsShown ∧
      ¬ (after beforeMidnight [.edit hundredTwenty, .tick afterMidnight]).SubmitsShown := by
  have hrefused : ∀ p : Push3, p.text = hundredTwenty → ¬ p.ShowsRefused := by
    intro p hp
    rw [ShowsRefused, hp, not_or]
    refine ⟨by decide, ?_⟩
    intro hlarge
    obtain ⟨n, hn, hlt⟩ := hlarge
    have hparse : int.parse hundredTwenty.text = some 120 := by decide
    rw [hparse, Option.some.injEq] at hn
    omega
  constructor
  · exact not_submitsShown_of_none (hrefused _ rfl) rfl
  · rw [submitsShown_iff_of_some (hrefused _ rfl) rfl]
    have hdays : DateFormat.format "yyyy年M月dd日" afterMidnight ≠
        DateFormat.format "yyyy年M月dd日" beforeMidnight := by decide
    exact hdays

end Push3
end Record
end FlutterSugar
