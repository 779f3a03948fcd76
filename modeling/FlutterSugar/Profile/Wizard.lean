import FlutterSugar.Lib.Run
import FlutterSugar.Profile.Fields

/-!
# The registration wizard

The three pages of `userAdd.dart`.  They share one list, and each page appends
what it has asked for when it is left for the next one.  Nothing is ever removed
from the list, so that a page which is left a second time appends a second time.

## Main definitions

* `Wizard`, `Wizard.step` — the pages, the list, and what can be tapped.
* `Watched` — a wizard along with what its pages showed when they were left.
* `InPlace` — what is appended stands where `AuthAdd` reads it.
* `wizard_stores_shown` — such steps store what was shown.
-/

namespace FlutterSugar
namespace Profile
open Lib Std

/-! ## The pages -/

/-- The numbers of the third page. -/
structure Numbers where
  average : ℤ
  target : ℤ
  blPress : ℤ
  deriving DecidableEq, Repr

inductive NumberField
  | average
  | target
  | blPress
  deriving DecidableEq, Repr

def Numbers.set (n : Numbers) (field : NumberField) (value : ℤ) : Numbers :=
  match field with
  | .average => { n with average := value }
  | .target => { n with target := value }
  | .blPress => { n with blPress := value }

/-- The page on top, with the state of the pages that were pushed. -/
inductive Route
  /-- `UserAddPage`. -/
  | page1
  /-- `UserAddPage2`. -/
  | page2 (gender : String)
  /-- `UserAddPage3`, above a second page. -/
  | page3 (gender : String) (numbers : Numbers)
  /-- The confirmation, above a third page. -/
  | dialog (gender : String) (numbers : Numbers)
  deriving DecidableEq, Repr

/-- The shared list, the text of the first page, and the page on top. -/
structure Wizard where
  userConf : List Dyn
  text : String
  route : Route
  deriving DecidableEq, Repr

namespace Wizard

/-- A wizard that has just been opened. -/
def start : Wizard := ⟨[], "", .page1⟩

inductive Act
  | editText (value : String)
  | next
  | choose (gender : Gender)
  | editNumber (field : NumberField) (value : DigitText)
  | register
  /-- A pop of the second or of the third page. -/
  | back
  | cancel
  | ok

/-- What a tap does on the page on top. -/
def step (w : Wizard) (a : Act) : Option Wizard :=
  match w.route, a with
  | .page1, .editText value => some { w with text := value }
  | .page1, .next =>
    if w.text ≠ "" then
      some { w with userConf := w.userConf ++ [.str w.text], route := .page2 "" }
    else some w
  | .page2 _, .choose gender => some { w with route := .page2 gender.text }
  | .page2 gender, .next =>
    if gender ≠ "" then
      some { w with userConf := w.userConf ++ [.str gender], route := .page3 gender ⟨0, 0, 0⟩ }
    else some w
  | .page2 _, .back => some { w with route := .page1 }
  | .page3 gender numbers, .editNumber field value =>
    match numberOf value with
    | .ok n => some { w with route := .page3 gender (numbers.set field n) }
    | .error _ => some w
  | .page3 gender n, .register =>
    if n.average ≠ 0 ∨ n.blPress ≠ 0 ∨ n.target ≠ 0 then
      some { w with
        userConf := w.userConf ++ [.int n.average, .int n.target, .int n.blPress]
        route := .dialog gender n }
    else some w
  | .page3 gender _, .back => some { w with route := .page2 gender }
  | .dialog gender numbers, .cancel => some { w with route := .page3 gender numbers }
  -- `AuthAdd` is called with the list; the home screen is pushed above the dialog.
  | .dialog _ _, .ok => some w
  | _, _ => none

/-- The confirmation is given in the dialog, and changes nothing there. -/
theorem step_ok {w w' : Wizard} (h : w.step .ok = some w') :
    w' = w ∧ ∃ gender numbers, w.route = .dialog gender numbers := by
  obtain ⟨li, text, route⟩ := w
  cases route with
  | dialog gender numbers => exact ⟨(Option.some.inj h).symm, gender, numbers, rfl⟩
  | page1 | page2 | page3 => cases h

/-! ## What is appended -/

/-- What a tap appends to the list. -/
def added (w : Wizard) (a : Act) : List Dyn :=
  match w.route, a with
  | .page1, .next => if w.text ≠ "" then [.str w.text] else []
  | .page2 gender, .next => if gender ≠ "" then [.str gender] else []
  | .page3 _ n, .register =>
    if n.average ≠ 0 ∨ n.blPress ≠ 0 ∨ n.target ≠ 0 then
      [.int n.average, .int n.target, .int n.blPress]
    else []
  | _, _ => []

/-- The position from which `AuthAdd` reads what the page on top has asked for. -/
def position (w : Wizard) : ℕ :=
  match w.route with
  | .page1 => 0
  | .page2 _ => 1
  | .page3 _ _ => 2
  | .dialog _ _ => 5

/-! What the three pages append when they are left. -/

theorem added_leave1 (li : List Dyn) {text : String} (h : text ≠ "") :
    added ⟨li, text, .page1⟩ .next = [.str text] := if_pos h

theorem added_leave2 (li : List Dyn) (text : String) {gender : String} (h : gender ≠ "") :
    added ⟨li, text, .page2 gender⟩ .next = [.str gender] := if_pos h

theorem added_leave3 (li : List Dyn) (text gender : String) {n : Numbers}
    (h : n.average ≠ 0 ∨ n.blPress ≠ 0 ∨ n.target ≠ 0) :
    added ⟨li, text, .page3 gender n⟩ .register =
      [.int n.average, .int n.target, .int n.blPress] := if_pos h

/-- What a step can do: keep the page, leave it for the next one, or go back. -/
inductive Moves : Wizard → Act → Wizard → Prop
  | stay (w : Wizard) (a : Act) (h : w.added a = []) : Moves w a w
  | editText (li : List Dyn) (text value : String) :
    Moves ⟨li, text, .page1⟩ (.editText value) ⟨li, value, .page1⟩
  | leave1 (li : List Dyn) (text : String) (h : text ≠ "") :
    Moves ⟨li, text, .page1⟩ .next ⟨li ++ [.str text], text, .page2 ""⟩
  | choose (li : List Dyn) (text gender : String) (g : Gender) :
    Moves ⟨li, text, .page2 gender⟩ (.choose g) ⟨li, text, .page2 g.text⟩
  | leave2 (li : List Dyn) (text gender : String) (h : gender ≠ "") :
    Moves ⟨li, text, .page2 gender⟩ .next ⟨li ++ [.str gender], text, .page3 gender ⟨0, 0, 0⟩⟩
  | back2 (li : List Dyn) (text gender : String) :
    Moves ⟨li, text, .page2 gender⟩ .back ⟨li, text, .page1⟩
  | editNumber (li : List Dyn) (text gender : String) (numbers : Numbers) (field : NumberField)
    (value : DigitText) (n : ℤ) (h : numberOf value = .ok n) :
    Moves ⟨li, text, .page3 gender numbers⟩ (.editNumber field value)
      ⟨li, text, .page3 gender (numbers.set field n)⟩
  | leave3 (li : List Dyn) (text gender : String) (n : Numbers)
    (h : n.average ≠ 0 ∨ n.blPress ≠ 0 ∨ n.target ≠ 0) :
    Moves ⟨li, text, .page3 gender n⟩ .register
      ⟨li ++ [.int n.average, .int n.target, .int n.blPress], text, .dialog gender n⟩
  | back3 (li : List Dyn) (text gender : String) (numbers : Numbers) :
    Moves ⟨li, text, .page3 gender numbers⟩ .back ⟨li, text, .page2 gender⟩
  | cancel (li : List Dyn) (text gender : String) (numbers : Numbers) :
    Moves ⟨li, text, .dialog gender numbers⟩ .cancel ⟨li, text, .page3 gender numbers⟩

theorem moves_of_step {w w' : Wizard} {a : Act} (h : w.step a = some w') : Moves w a w' := by
  obtain ⟨li, text, route⟩ := w
  cases route with
  | page1 =>
    cases a <;> simp only [step, Option.some.injEq, reduceCtorEq] at h
    case editText value => exact h ▸ .editText li text value
    case next =>
      split at h <;> cases h
      next hne => exact .leave1 li text hne
      next hne => exact .stay _ _ (by simpa [added] using hne)
  | page2 gender =>
    cases a <;> simp only [step, Option.some.injEq, reduceCtorEq] at h
    case next =>
      split at h <;> cases h
      next hne => exact .leave2 li text gender hne
      next hne => exact .stay _ _ (by simpa [added] using hne)
    case choose g => exact h ▸ .choose li text gender g
    case back => exact h ▸ .back2 li text gender
  | page3 gender numbers =>
    cases a <;> simp only [step, Option.some.injEq, reduceCtorEq] at h
    case editNumber field value =>
      split at h <;> cases h
      next n hn => exact .editNumber li text gender numbers field value n hn
      next => exact .stay _ _ rfl
    case register =>
      split at h <;> cases h
      next hne => exact .leave3 li text gender numbers hne
      next hne => exact .stay _ _ (if_neg hne)
    case back => exact h ▸ .back3 li text gender numbers
  | dialog gender numbers =>
    cases a <;> simp only [step, Option.some.injEq, reduceCtorEq] at h
    case cancel => exact h ▸ .cancel li text gender numbers
    case ok => exact h ▸ .stay _ _ rfl

/-- **The list only grows**, by what the tap appends. -/
theorem userConf_step {w w' : Wizard} {a : Act} (h : w.step a = some w') :
    w'.userConf = w.userConf ++ w.added a := by
  cases moves_of_step h with
  | stay _ _ hadded => rw [hadded, List.append_nil]
  | leave1 li text hne => rw [added_leave1 li hne]
  | leave2 li text gender hne => rw [added_leave2 li text hne]
  | leave3 li text gender n hne => rw [added_leave3 li text gender hne]
  | editText | choose | back2 | editNumber | back3 | cancel => simp [added]

/-- What a tap appends stands where `AuthAdd` will read it. -/
def InPlace (w : Wizard) (a : Act) : Prop :=
  ∀ j < (w.added a).length, (w.userConf ++ w.added a)[w.position + j]? = (w.added a)[j]?

instance (w : Wizard) (a : Act) : Decidable (w.InPlace a) :=
  inferInstanceAs (Decidable (∀ j < (w.added a).length, _))

/-- So it does when each page before was left once. -/
theorem inPlace_of_length {w : Wizard} (h : w.userConf.length = w.position) (a : Act) :
    w.InPlace a := by
  intro j _
  rw [← h, List.getElem?_append_right (by omega), Nat.add_sub_cancel_left]

end Wizard

/-! ## What was shown -/

/-- What a user has seen when leaving the pages. -/
structure Shown where
  nickname : String
  gender : String
  numbers : Numbers
  deriving DecidableEq, Repr

/-- A step that leaves a page, or opens the dialog, updates what was shown. -/
def Shown.observe (shown : Shown) (w w' : Wizard) : Shown :=
  match w.route, w'.route with
  | .page1, .page2 _ => { shown with nickname := w.text }
  | .page2 gender, .page1 => { shown with gender := gender }
  | .page2 gender, .page3 _ _ => { shown with gender := gender }
  | .page3 _ numbers, .dialog _ _ => { shown with numbers := numbers }
  | _, _ => shown

theorem Shown.observe_self (shown : Shown) (w : Wizard) : shown.observe w w = shown := by
  obtain ⟨li, text, route⟩ := w
  cases route <;> rfl

/-- A wizard and what its pages have shown. -/
structure Watched where
  wizard : Wizard
  shown : Shown
  deriving DecidableEq, Repr

/-! Where `AuthAdd` reads them. -/

def NicknameIn (shown : Shown) (li : List Dyn) : Prop := li[0]? = some (.str shown.nickname)

def GenderIn (shown : Shown) (li : List Dyn) : Prop := li[1]? = some (.str shown.gender)

def NumbersIn (shown : Shown) (li : List Dyn) : Prop :=
  li[2]? = some (.int shown.numbers.average) ∧ li[3]? = some (.int shown.numbers.target) ∧
    li[4]? = some (.int shown.numbers.blPress)

/-- The profile has the values that were shown. -/
structure ProfileShows (shown : Shown) (d : Document Dyn) : Prop where
  nickname : d["ニックネーム"]? = some (.str shown.nickname)
  gender : d["性別"]? = some (.str shown.gender)
  average : d["平均血糖値"]? = some (.str (toString shown.numbers.average))
  target : d["目標血糖値"]? = some (.str (toString shown.numbers.target))
  blPress : d["血圧"]? = some (.str (toString shown.numbers.blPress))

namespace Watched

def start : Watched := ⟨Wizard.start, ⟨"", "", ⟨0, 0, 0⟩⟩⟩

def step (x : Watched) (a : Wizard.Act) : Option Watched :=
  (x.wizard.step a).map fun w => ⟨w, x.shown.observe x.wizard w⟩

/-- The condition on a step. -/
def StepOk (x : Watched) (a : Wizard.Act) : Prop := x.wizard.InPlace a

instance (x : Watched) (a : Wizard.Act) : Decidable (x.StepOk a) :=
  inferInstanceAs (Decidable (x.wizard.InPlace a))

/-- What the pages below the top one have shown stands in the list. -/
def Inv (x : Watched) : Prop :=
  match x.wizard.route with
  | .page1 => True
  | .page2 _ => NicknameIn x.shown x.wizard.userConf
  | .page3 gender _ =>
    NicknameIn x.shown x.wizard.userConf ∧ x.shown.gender = gender ∧
      GenderIn x.shown x.wizard.userConf
  | .dialog gender numbers =>
    NicknameIn x.shown x.wizard.userConf ∧ x.shown.gender = gender ∧
      GenderIn x.shown x.wizard.userConf ∧ x.shown.numbers = numbers ∧
      NumbersIn x.shown x.wizard.userConf

theorem inv_start : start.Inv := trivial

theorem inv_step {x y : Watched} {a : Wizard.Act} (h : x.Inv) (hok : x.StepOk a)
    (hstep : x.step a = some y) : y.Inv := by
  rw [step, Option.map_eq_some_iff] at hstep
  obtain ⟨w', hw', rfl⟩ := hstep
  have hgrow := Wizard.userConf_step hw'
  rw [StepOk, Wizard.InPlace, ← hgrow] at hok
  -- What stands in the list stays there, whatever is appended.
  have hstays : ∀ (i : ℕ) (v : Dyn), x.wizard.userConf[i]? = some v →
      w'.userConf[i]? = some v := by
    intro i v hv
    rw [hgrow, List.getElem?_append_left (List.getElem?_eq_some_iff.mp hv).1]
    exact hv
  clear hgrow
  obtain ⟨w, shown⟩ := x
  cases Wizard.moves_of_step hw' with
  | stay =>
    rw [Shown.observe_self]
    exact h
  | editText | back2 => trivial
  | leave1 li text hne =>
    rw [Wizard.added_leave1 li hne] at hok
    exact hok 0 (by simp)
  | leave2 li text gender hne =>
    rw [Wizard.added_leave2 li text hne] at hok
    exact ⟨hstays 0 _ h, rfl, hok 0 (by simp)⟩
  | leave3 li text gender n hne =>
    obtain ⟨hname, hgender, hin⟩ := h
    rw [Wizard.added_leave3 li text gender hne] at hok
    exact ⟨hstays 0 _ hname, hgender, hstays 1 _ hin, rfl, hok 0 (by simp), hok 1 (by simp),
      hok 2 (by simp)⟩
  | choose | editNumber => exact h
  | back3 => exact h.1
  | cancel => exact ⟨h.1, h.2.1, h.2.2.1⟩

theorem inv_run {x : Watched} {acts : List Wizard.Act}
    (hok : StepsMeet step StepOk start acts) (hrun : run step start acts = some x) : x.Inv :=
  run_invariant (fun _ _ _ h ha hstep => inv_step h ha hstep) inv_start hok hrun

end Watched

/-- `AuthAdd` writes what stands at the five positions. -/
theorem authAdd_shows {shown : Shown} {li : List Dyn} (hname : NicknameIn shown li)
    (hgender : GenderIn shown li) (hnumbers : NumbersIn shown li) (profile : Stored Dyn) :
    ∃ d, authAdd li profile = .ok (some d) ∧ ProfileShows shown d := by
  obtain ⟨haverage, htarget, hblPress⟩ := hnumbers
  have hfields := authFields_eq hname hgender haverage htarget hblPress
  refine ⟨_, by rw [authAdd, hfields]; rfl, ?_⟩
  constructor
  all_goals
    apply Document.getElem?_insertMany_of_mem
    · exact nodup_fieldNames
    · simp

/-- **The wizard stores what its pages show**, after every sequence of taps that
ends with the confirmation and in which each page appends in place. -/
theorem wizard_stores_shown {acts : List Wizard.Act} {x : Watched}
    (hok : StepsMeet Watched.step Watched.StepOk Watched.start acts)
    (hrun : run Watched.step Watched.start (acts ++ [.ok]) = some x) (profile : Stored Dyn) :
    ∃ d, authAdd x.wizard.userConf profile = .ok (some d) ∧ ProfileShows x.shown d := by
  obtain ⟨y, hy, hconfirm⟩ := run_concat_eq_some.mp hrun
  have hinv := Watched.inv_run hok hy
  rw [Watched.step, Option.map_eq_some_iff] at hconfirm
  obtain ⟨w, hw, rfl⟩ := hconfirm
  obtain ⟨rfl, gender, numbers, hroute⟩ := Wizard.step_ok hw
  rw [Watched.Inv, hroute] at hinv
  obtain ⟨hname, -, hgender, -, hnumbers⟩ := hinv
  rw [Shown.observe_self]
  exact authAdd_shows hname hgender hnumbers profile

/-- The number that is entered in the examples. -/
def hundred : DigitText := ⟨"100", by decide, by decide⟩

/-- A registration without going back. -/
def straight : List Wizard.Act :=
  [.editText "a", .next, .choose .male, .next, .editNumber .average hundred, .register]

theorem wizard_stores_shown_straight :
    ∃ d, authAdd [.str "a", .str "男性", .int 100, .int 0, .int 0] none = .ok (some d) ∧
      ProfileShows ⟨"a", "男性", ⟨100, 0, 0⟩⟩ d :=
  @wizard_stores_shown straight
    ⟨⟨[.str "a", .str "男性", .int 100, .int 0, .int 0], "a", .dialog "男性" ⟨100, 0, 0⟩⟩,
      ⟨"a", "男性", ⟨100, 0, 0⟩⟩⟩ (by decide) (by decide) none

/-- A nickname that was corrected after going back is not stored. -/
theorem not_wizard_stores_shown :
    ¬ ∀ (acts : List Wizard.Act) (x : Watched),
      run Watched.step Watched.start (acts ++ [.ok]) = some x →
        ∀ profile, ∃ d, authAdd x.wizard.userConf profile = .ok (some d) ∧
          ProfileShows x.shown d := by
  intro h
  have hrun : run Watched.step Watched.start
      ([.editText "a", .next, .back, .editText "b", .next, .choose .male, .next,
        .editNumber .average hundred, .register] ++ [.ok]) =
      some ⟨⟨[.str "a", .str "b", .str "男性", .int 100, .int 0, .int 0], "b",
        .dialog "男性" ⟨100, 0, 0⟩⟩, ⟨"b", "男性", ⟨100, 0, 0⟩⟩⟩ := by decide
  obtain ⟨d, hd, hshows⟩ := h _ _ hrun none
  have hold : (authAdd [.str "a", .str "b", .str "男性", .int 100, .int 0, .int 0] none).map
      (fun profile => profile.bind fun d => d["ニックネーム"]?) = .ok (some (.str "a")) := by decide
  rw [hd] at hold
  have hfirst : d["ニックネーム"]? = some (.str "a") := Except.ok.inj hold
  have hlast : d["ニックネーム"]? = some (.str "b") := hshows.nickname
  rw [hfirst] at hlast
  exact absurd hlast (by decide)

end Profile
end FlutterSugar
