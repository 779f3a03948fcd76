import FlutterSugar.Profile.Wizard

/-!
# The app around a profile

`userCheck` of `firebase/db.dart` and the home screen of `main.dart`, which shows
the app or opens the wizard; the tiles of `profile.dart` and the edit pages of
`push.dart`; and the row of `check.dart` that parses the target.  Writes are
not awaited: they are delivered, or lost, in any order.

## Main definitions

* `Home`, `userCheck` — a home screen and the answer it waits for.
* `Edit` — a page to edit one field.
* `Write` — what is sent and not delivered yet.
* `App`, `App.step` — all of it, and what can happen next.
* `profileTile`, `historyTarget` — the readers of the profile.
-/

namespace FlutterSugar
namespace Profile
open Lib Std

/-! ## The readers -/

/-- The title of a tile of `_ProfileState.build` and the text behind it, the
entries of the document being given in the order of the map. -/
def profileTile (map : List (String × Dyn)) (index : ℕ) : Except DartError (String × String) := do
  let key ← elementAt (map.map Prod.fst) index
  let value ← elementAt (map.map Prod.snd) index
  if key = "平均血糖値" ∨ key = "目標血糖値" then return (key, value.toString ++ "mg/dl")
  else if key = "血圧" then return (key, value.toString ++ "mmHg")
  else return (key, value.toString)

/-- `int.parse(map2['目標血糖値'])` of the history row in `_CheckState.build`. -/
def historyTarget (map2 : Document Dyn) : Except DartError ℤ :=
  match map2["目標血糖値"]? with
  | none => .error .typeError
  | some value => do int.parseOrThrow (← value.asString)

/-! ## Edit pages -/

inductive EditPage
  | push
  | push2
  | push4
  deriving DecidableEq, Repr

/-- The page behind a tile, `none` for the upload of an image. -/
def editPage (key : String) : Option EditPage :=
  if key ≠ "性別" then
    if key = "ニックネーム" then some .push
    else if key = "プロフィール画像" then none
    else some .push4
  else some .push2

/-- An open page: the only entry of `widget.param`, and the variable `data`. -/
structure Edit where
  page : EditPage
  key : String
  value : Dyn
  data : Dyn
  deriving DecidableEq, Repr

namespace Edit

/-- The first `build`: two of the pages show the value as a `String`. -/
def build (page : EditPage) (key : String) (value : Dyn) : Except DartError Edit :=
  match page with
  | .push4 => .ok ⟨page, key, value, value⟩
  | .push | .push2 => do
    let _ ← value.asString
    return ⟨page, key, value, value⟩

inductive Act
  | typeText (text : String)
  | typeDigits (value : DigitText)
  | choose (gender : Gender)
  /-- A new `build`, which reads `data` from `widget.param` again. -/
  | rebuild

def step (e : Edit) (a : Act) : Option Edit :=
  match e.page, a with
  | .push, .typeText text => some { e with data := .str text }
  | .push4, .typeDigits value => some { e with data := .str value.text }
  | .push2, .choose gender => some { e with value := .str gender.text }
  | _, .rebuild => some { e with data := e.value }
  | _, _ => none

/-- `onPressed`: the value to write, `none` if a toast is shown instead. -/
def onPressed (e : Edit) : Except DartError (Option Dyn) :=
  match e.page with
  | .push => if e.data ≠ .str "" then .ok (some e.data) else .ok none
  | .push2 => .ok (some e.value)
  | .push4 =>
    if e.data ≠ .str "" then do
      if (← int.parseOrThrow (← e.data.asString)) ≤ 200 then return some e.data else return none
    else .ok none

end Edit

/-! ## The home screen -/

/-- A home screen waits for the answer of `userCheck` or shows it. -/
inductive Home
  | waiting
  | shown (data : Bool)
  deriving DecidableEq, Repr

/-- The `try` block of `AuthService.userCheck`. -/
def userExists (fails : Bool) (profile : Stored Dyn) : Except DartError Bool :=
  if fails then .error .firebaseException else .ok profile.isSome

/-- `AuthService.userCheck`. -/
def userCheck (fails : Bool) (profile : Stored Dyn) : Bool :=
  match userExists fails profile with
  | .ok check => check
  | .error _ => false

/-! ## The app -/

/-- A write on its way. -/
inductive Write
  | authAdd (fields : List (String × Dyn))
  | update (key : String) (data : Dyn)
  deriving DecidableEq, Repr

/-- What a write makes of the profile. -/
def Write.deliver (profile : Stored Dyn) : Write → Stored Dyn
  | .authAdd fields => Firestore.setMerge profile fields
  | .update key data =>
    match Firestore.update profile [(key, data)] with
    | .ok profile' => profile'
    | .error _ => profile

/-- `AuthAdd` is the write of its fields, delivered at once. -/
theorem authAdd_eq_deliver (li : List Dyn) (profile : Stored Dyn) :
    authAdd li profile = (authFields li).map fun fields => (Write.authAdd fields).deliver profile := by
  cases h : authFields li with
  | error e => rw [authAdd, h]; rfl
  | ok fields => rw [authAdd, h]; rfl

/-- What a tap in a wizard sends. -/
def Wizard.sent (w : Wizard) : Act → List Write
  | .ok =>
    match authFields w.userConf with
    | .ok fields => [.authAdd fields]
    | .error _ => []
  | _ => []

/-- The profile, the pages that have been opened, and the writes on their way. -/
structure App where
  profile : Stored Dyn
  homes : List Home
  wizards : List Wizard
  edits : List Edit
  pending : List Write

namespace App

def start (profile : Stored Dyn) : App := ⟨profile, [], [], [], []⟩

inductive Action
  | openHome
  /-- `setState` of a home screen. -/
  | rebuild (h : ℕ)
  /-- The answer to `userCheck`, whose read may have failed. -/
  | answer (h : ℕ) (fails : Bool)
  | wizard (n : ℕ) (a : Wizard.Act)
  /-- A tap on the tile of a field. -/
  | openEdit (key : String)
  | edit (n : ℕ) (a : Edit.Act)
  | confirm (n : ℕ)
  | deliver (k : ℕ)
  | lose (k : ℕ)

/-- The `builder` of the home screen: for `false` it pushes a wizard. -/
def answered (x : App) (h : ℕ) (data : Bool) : App :=
  if data = true then { x with homes := x.homes.set h (.shown true) }
  else { x with homes := x.homes.set h (.shown false), wizards := x.wizards ++ [Wizard.start] }

def step (x : App) : Action → Option App
  | .openHome => some { x with homes := x.homes ++ [.waiting] }
  | .rebuild h =>
    if h < x.homes.length then some { x with homes := x.homes.set h .waiting } else none
  | .answer h fails =>
    if x.homes[h]? = some .waiting then some (x.answered h (userCheck fails x.profile)) else none
  | .wizard n a => do
    let w ← x.wizards[n]?
    let w' ← w.step a
    return { x with wizards := x.wizards.set n w', pending := x.pending ++ w.sent a }
  | .openEdit key => do
    guard (Home.shown true ∈ x.homes)
    let map ← x.profile
    let value ← map[key]?
    let page ← editPage key
    match Edit.build page key value with
    | .ok e => return { x with edits := x.edits ++ [e] }
    | .error _ => return x
  | .edit n a => do
    let e ← x.edits[n]?
    let e' ← e.step a
    return { x with edits := x.edits.set n e' }
  | .confirm n => do
    let e ← x.edits[n]?
    match e.onPressed with
    | .ok (some data) =>
      return { x with edits := x.edits.eraseIdx n, pending := x.pending ++ [.update e.key data] }
    | .ok none => return x
    | .error _ => return x
  | .deliver k => do
    let write ← x.pending[k]?
    return { x with profile := write.deliver x.profile, pending := x.pending.eraseIdx k }
  | .lose k =>
    if k < x.pending.length then some { x with pending := x.pending.eraseIdx k } else none

/-- A first wizard that is filled in and confirmed. -/
def register (nickname : String) (average : DigitText) : List Action :=
  ([.editText nickname, .next, .choose .male, .next, .editNumber .average average, .register,
    .ok] : List Wizard.Act).map (.wizard 0)

/-! ## What a step can do -/

/-- The steps, with what each of them has found. -/
inductive Moves (x : App) : Action → App → Prop
  | openHome : Moves x .openHome { x with homes := x.homes ++ [.waiting] }
  | rebuild (h : ℕ) : Moves x (.rebuild h) { x with homes := x.homes.set h .waiting }
  | showApp (h : ℕ) (fails : Bool) (hcheck : userCheck fails x.profile = true) :
    Moves x (.answer h fails) { x with homes := x.homes.set h (.shown true) }
  | pushWizard (h : ℕ) (fails : Bool) (hcheck : userCheck fails x.profile = false) :
    Moves x (.answer h fails)
      { x with homes := x.homes.set h (.shown false), wizards := x.wizards ++ [Wizard.start] }
  | wizard (n : ℕ) (a : Wizard.Act) (w w' : Wizard) (hw : x.wizards[n]? = some w)
    (hstep : w.step a = some w') :
    Moves x (.wizard n a)
      { x with wizards := x.wizards.set n w', pending := x.pending ++ w.sent a }
  | openEdit (map : Document Dyn) (key : String) (value : Dyn) (page : EditPage) (e : Edit)
    (hmap : x.profile = some map) (hvalue : map[key]? = some value)
    (hpage : editPage key = some page) (he : Edit.build page key value = .ok e) :
    Moves x (.openEdit key) { x with edits := x.edits ++ [e] }
  | edit (n : ℕ) (a : Edit.Act) (e e' : Edit) (he : x.edits[n]? = some e)
    (hstep : e.step a = some e') : Moves x (.edit n a) { x with edits := x.edits.set n e' }
  | write (n : ℕ) (e : Edit) (data : Dyn) (he : x.edits[n]? = some e)
    (hdata : e.onPressed = .ok (some data)) :
    Moves x (.confirm n)
      { x with edits := x.edits.eraseIdx n, pending := x.pending ++ [.update e.key data] }
  | deliver (k : ℕ) (write : Write) (hwrite : x.pending[k]? = some write) :
    Moves x (.deliver k)
      { x with profile := write.deliver x.profile, pending := x.pending.eraseIdx k }
  | lose (k : ℕ) : Moves x (.lose k) { x with pending := x.pending.eraseIdx k }
  /-- A page that cannot be built, or a button that writes nothing. -/
  | stay (a : Action) (ha : ∀ h fails, a ≠ .answer h fails) : Moves x a x

theorem moves_of_step {x y : App} {a : Action} (h : x.step a = some y) : Moves x a y := by
  cases a with
  | openHome => exact Option.some.inj h ▸ .openHome
  | rebuild h =>
    rw [step] at h
    split at h <;> cases h
    exact .rebuild _
  | answer h fails =>
    rw [step] at h
    split at h <;> cases h
    rw [answered]
    split
    next hcheck => exact .showApp _ fails hcheck
    next hcheck => exact .pushWizard _ fails (by simpa using hcheck)
  | wizard n a =>
    simp only [step, Option.bind_eq_bind, Option.bind_eq_some_iff] at h
    obtain ⟨w, hw, w', hstep, h⟩ := h
    cases h
    exact .wizard n a w w' hw hstep
  | openEdit key =>
    simp only [step, Option.bind_eq_bind, Option.bind_eq_some_iff] at h
    obtain ⟨-, -, map, hmap, value, hvalue, page, hpage, h⟩ := h
    split at h <;> cases h
    next e he => exact .openEdit map key value page e hmap hvalue hpage he
    next => exact .stay _ (by simp)
  | edit n a =>
    simp only [step, Option.bind_eq_bind, Option.bind_eq_some_iff] at h
    obtain ⟨e, he, e', hstep, h⟩ := h
    cases h
    exact .edit n a e e' he hstep
  | confirm n =>
    simp only [step, Option.bind_eq_bind, Option.bind_eq_some_iff] at h
    obtain ⟨e, he, h⟩ := h
    split at h <;> cases h
    next data hdata => exact .write n e data he hdata
    next => exact .stay _ (by simp)
    next => exact .stay _ (by simp)
  | deliver k =>
    simp only [step, Option.bind_eq_bind, Option.bind_eq_some_iff] at h
    obtain ⟨write, hwrite, h⟩ := h
    cases h
    exact .deliver k write hwrite
  | lose k =>
    rw [step] at h
    split at h <;> cases h
    exact .lose k

end App

end Profile
end FlutterSugar
