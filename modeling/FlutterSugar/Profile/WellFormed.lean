import FlutterSugar.Profile.App

/-!
# Profiles that can be read

The edit pages check what they write, and the wizard restricts what can be
entered; but the wizard neither bounds the numbers nor minds the positions at
which they end up in its list.  A run in which the wizard appends only what fits
the position keeps the profile such that every reader can read it.

## Main definitions

* `GoodAt`, `Fits` — what `AuthAdd` can use from a position of the list.
* `fits_added_iff` — when a page that is left for the first time appends it.
* `App.Inv` — the invariant of such runs.
* `App.WellFormed` — the profile is good, and none of its readers throws.
* `wellFormed_of_run` — such runs keep the profile well formed.
-/

namespace FlutterSugar
namespace Profile
open Lib Std

/-! ## The list of the wizard -/

/-- A value that `AuthAdd` makes a good field of, when read at the position. -/
def GoodAt (position : ℕ) (value : Dyn) : Prop :=
  match position with
  | 0 => Nickname value
  | 1 => GenderText value.toString
  | 2 | 3 | 4 => NumberText value.toString
  | _ => True

instance (position : ℕ) (value : Dyn) : Decidable (GoodAt position value) :=
  match position with
  | 0 => inferInstanceAs (Decidable (Nickname value))
  | 1 => inferInstanceAs (Decidable (GenderText value.toString))
  | 2 | 3 | 4 => inferInstanceAs (Decidable (NumberText value.toString))
  | _ + 5 => isTrue trivial

/-- Values that fit the positions from `start` on. -/
def Fits (start : ℕ) (values : List Dyn) : Prop := ∀ e ∈ values.zipIdx start, GoodAt e.2 e.1

instance (start : ℕ) (values : List Dyn) : Decidable (Fits start values) :=
  inferInstanceAs (Decidable (∀ e ∈ values.zipIdx start, GoodAt e.2 e.1))

theorem fits_append {li values : List Dyn} :
    Fits 0 (li ++ values) ↔ Fits 0 li ∧ Fits li.length values := by
  simp only [Fits, List.zipIdx_append, List.mem_append, or_imp, forall_and, Nat.zero_add]

theorem Fits.goodAt {li : List Dyn} {position : ℕ} {value : Dyn} (h : Fits 0 li)
    (hvalue : li[position]? = some value) : GoodAt position value :=
  h (value, position) (List.mk_mem_zipIdx_iff_getElem?.mpr hvalue)

/-- The fields that `AuthAdd` writes are the six, and good. -/
theorem authFields_good {li : List Dyn} {fields : List (String × Dyn)} (h : Fits 0 li)
    (hfields : authFields li = .ok fields) :
    fields.map Prod.fst = fieldNames ∧ ∀ e ∈ fields, GoodField e.1 e.2 := by
  simp only [authFields, bind_eq_ok] at hfields
  obtain ⟨a, ha, b, hb, c, hc, d, hd, e, he, hfields⟩ := hfields
  cases hfields
  have hname : Nickname a := h.goodAt (elementAt_eq_ok.mp ha)
  have hgender : GenderText b.toString := h.goodAt (elementAt_eq_ok.mp hb)
  have haverage : NumberText c.toString := h.goodAt (elementAt_eq_ok.mp hc)
  have htarget : NumberText d.toString := h.goodAt (elementAt_eq_ok.mp hd)
  have hblPress : NumberText e.toString := h.goodAt (elementAt_eq_ok.mp he)
  refine ⟨rfl, ?_⟩
  simp only [List.forall_mem_cons]
  exact ⟨hname, trivial, goodField_gender hgender,
    goodField_number haverage (by decide) (by decide),
    goodField_number htarget (by decide) (by decide),
    goodField_number hblPress (by decide) (by decide), by simp⟩

/-! ## What can be entered -/

/-- A number of at most three digits. -/
def ThreeDigits (n : ℤ) : Prop := 0 ≤ n ∧ n < 1000

/-- The pages hold one of the genders, if any, and numbers of three digits. -/
def Entered (w : Wizard) : Prop :=
  match w.route with
  | .page1 => True
  | .page2 gender => gender ≠ "" → GenderText gender
  | .page3 gender n | .dialog gender n =>
    (gender ≠ "" → GenderText gender) ∧ ThreeDigits n.average ∧ ThreeDigits n.target ∧
      ThreeDigits n.blPress

theorem entered_step {w w' : Wizard} {a : Wizard.Act} (h : Entered w)
    (hstep : w.step a = some w') : Entered w' := by
  have hzero : ThreeDigits 0 := ⟨le_rfl, by decide⟩
  cases Wizard.moves_of_step hstep with
  | stay => exact h
  | editText | back2 => trivial
  | leave1 =>
    intro hne
    exact absurd rfl hne
  | choose li text gender g =>
    intro _
    exact ⟨g, rfl⟩
  | leave2 => exact ⟨h, hzero, hzero, hzero⟩
  | editNumber li text gender numbers field value n hn =>
    obtain ⟨m, hm, hdigits⟩ := numberOf_ok value
    obtain rfl : n = m := Except.ok.inj (hn.symm.trans hm)
    obtain ⟨hgender, haverage, htarget, hblPress⟩ := h
    cases field with
    | average => exact ⟨hgender, hdigits, htarget, hblPress⟩
    | target => exact ⟨hgender, haverage, hdigits, hblPress⟩
    | blPress => exact ⟨hgender, haverage, htarget, hdigits⟩
  | leave3 => exact h
  | back3 => exact h.1
  | cancel => exact h

theorem numberText_toString {n : ℤ} (h : ThreeDigits n) : NumberText (toString n) ↔ n ≤ 200 := by
  have hparse : int.parse (toString n) = some n :=
    int.parse_toString h.1 (by have := h.2; omega)
  rw [NumberText, hparse]
  simp [h.1]

/-- **A page that is left for the first time** appends what fits, if its numbers
are not too large. -/
theorem fits_added_iff {w : Wizard} (a : Wizard.Act) (h : Entered w)
    (hlength : w.userConf.length = w.position) :
    Fits w.userConf.length (w.added a) ↔ ∀ n, .int n ∈ w.added a → n ≤ 200 := by
  rw [hlength]
  obtain ⟨li, text, route⟩ := w
  by_cases hadded : (⟨li, text, route⟩ : Wizard).added a = []
  · simp [hadded, Fits]
  · cases route with
    | page1 =>
      cases a <;> simp [Wizard.added] at hadded
      simp [Wizard.added_leave1 li hadded, Fits, Wizard.position, GoodAt, Nickname, hadded]
    | page2 gender =>
      cases a <;> simp [Wizard.added] at hadded
      simp [Wizard.added_leave2 li text hadded, Fits, Wizard.position, GoodAt, h hadded]
    | page3 gender n =>
      obtain ⟨-, haverage, htarget, hblPress⟩ := h
      cases a <;> simp only [Wizard.added, not_true_eq_false] at hadded
      have hne : n.average ≠ 0 ∨ n.blPress ≠ 0 ∨ n.target ≠ 0 := by
        by_contra hzero
        rw [if_neg hzero] at hadded
        exact hadded rfl
      rw [Wizard.added_leave3 li text gender hne]
      have hposition : (⟨li, text, .page3 gender n⟩ : Wizard).position = 2 := rfl
      simp only [Fits, hposition, List.zipIdx_cons, List.zipIdx_nil, List.forall_mem_cons, GoodAt,
        Dyn.toString, numberText_toString haverage, numberText_toString htarget,
        numberText_toString hblPress]
      simp
    | dialog gender n => cases a <;> simp [Wizard.added] at hadded

/-- What comes after the five positions is never read. -/
theorem fits_of_five_le {start : ℕ} (h : 5 ≤ start) (values : List Dyn) : Fits start values := by
  intro e he
  have hle := List.le_snd_of_mem_zipIdx he
  obtain ⟨k, hk⟩ : ∃ k, e.2 = k + 5 := ⟨e.2 - 5, by omega⟩
  rw [hk]
  trivial

/-! ## The edit pages -/

theorem editPage_eq_push {key : String} : editPage key = some .push ↔ key = "ニックネーム" := by
  grind [editPage]

theorem editPage_eq_push2 {key : String} : editPage key = some .push2 ↔ key = "性別" := by
  grind [editPage]

theorem editPage_eq_push4 {key : String} : editPage key = some .push4 ↔
    key ≠ "性別" ∧ key ≠ "ニックネーム" ∧ key ≠ "プロフィール画像" := by
  grind [editPage]

/-- A page that was opened for a field of a good profile. -/
structure EditOk (e : Edit) : Prop where
  page : editPage e.key = some e.page
  known : e.key ∈ fieldNames
  value : GoodField e.key e.value
  name : e.page = .push → ∃ s, e.data = .str s
  digits : e.page = .push4 → ∃ s, e.data = .str s ∧ (s ≠ "" → ∃ n, int.parse s = some n ∧ 0 ≤ n)

/-- What a page starts with is good, so that it can be typed over. -/
theorem editOk_of_value {key : String} {page : EditPage} {value : Dyn}
    (hpage : editPage key = some page) (hknown : key ∈ fieldNames) (hvalue : GoodField key value) :
    EditOk ⟨page, key, value, value⟩ where
  page := hpage
  known := hknown
  value := hvalue
  name := by
    rintro rfl
    obtain rfl := editPage_eq_push.mp hpage
    obtain ⟨s, hs, -⟩ : Nickname value := hvalue
    exact ⟨s, hs⟩
  digits := by
    rintro rfl
    obtain ⟨hgender, hname, himage⟩ := editPage_eq_push4.mp hpage
    obtain ⟨s, hs, n, hn, hn0, -⟩ := hvalue.number hname hgender himage
    exact ⟨s, hs, fun _ => ⟨n, hn, hn0⟩⟩

theorem editOk_build {key : String} {page : EditPage} {value : Dyn} {e : Edit}
    (hpage : editPage key = some page) (hknown : key ∈ fieldNames) (hvalue : GoodField key value)
    (he : Edit.build page key value = .ok e) : EditOk e := by
  have heq : e = ⟨page, key, value, value⟩ := by
    cases page <;> cases value <;> cases he <;> rfl
  rw [heq]
  exact editOk_of_value hpage hknown hvalue

theorem editOk_step {e e' : Edit} {a : Edit.Act} (h : EditOk e) (hstep : e.step a = some e') :
    EditOk e' := by
  obtain ⟨page, key, value, data⟩ := e
  cases page <;> cases a <;>
    simp only [Edit.step, Option.some.injEq, reduceCtorEq] at hstep <;> subst hstep
  case push.typeText text => exact { h with name := fun _ => ⟨text, rfl⟩, digits := nofun }
  case push4.typeDigits value =>
    exact { h with name := nofun, digits := fun _ => ⟨value.text, rfl, fun hne => by
      obtain ⟨n, hn, hn0, -⟩ := value.parse_eq hne
      exact ⟨n, hn, hn0⟩⟩ }
  case push2.choose g =>
    obtain rfl : key = "性別" := editPage_eq_push2.mp h.page
    exact { h with value := goodField_gender ⟨g, rfl⟩ }
  case push.rebuild | push2.rebuild | push4.rebuild => exact editOk_of_value h.page h.known h.value

/-- **No button of an edit page throws**, and what it writes is good. -/
theorem onPressed_ok {e : Edit} (h : EditOk e) :
    ∃ written, e.onPressed = .ok written ∧ ∀ data ∈ written, GoodField e.key data := by
  obtain ⟨page, key, value, data⟩ := e
  cases page with
  | push =>
    obtain rfl : key = "ニックネーム" := editPage_eq_push.mp h.page
    obtain ⟨s, rfl⟩ : ∃ s, data = .str s := h.name rfl
    by_cases hs : s = ""
    · exact ⟨none, by simp [Edit.onPressed, hs], by simp⟩
    · exact ⟨some (.str s), by simp [Edit.onPressed, hs], by simpa using goodField_nickname hs⟩
  | push2 => exact ⟨some value, rfl, by simpa using h.value⟩
  | push4 =>
    obtain ⟨s, rfl, hparse⟩ : ∃ s, data = .str s ∧ (s ≠ "" → ∃ n, int.parse s = some n ∧ 0 ≤ n) :=
      h.digits rfl
    obtain ⟨hgender, hname, -⟩ := editPage_eq_push4.mp h.page
    by_cases hs : s = ""
    · exact ⟨none, by simp [Edit.onPressed, hs], by simp⟩
    · obtain ⟨n, hn, hn0⟩ := hparse hs
      have hvalue : int.parseOrThrow s = .ok n := int.parseOrThrow_of_parse hn
      by_cases h200 : n ≤ 200
      · have hwritten : (⟨.push4, key, value, .str s⟩ : Edit).onPressed = .ok (some (.str s)) := by
          simp [Edit.onPressed, hs, hvalue, h200, bind, Except.bind]
          rfl
        exact ⟨some (.str s), hwritten, by
          simpa using goodField_number ⟨n, hn, hn0, h200⟩ hname hgender⟩
      · have htoast : (⟨.push4, key, value, .str s⟩ : Edit).onPressed = .ok none := by
          simp [Edit.onPressed, hs, hvalue, h200, bind, Except.bind]
          rfl
        exact ⟨none, htoast, by simp⟩

/-! ## The writes -/

/-- A write of good fields. -/
def WriteOk : Write → Prop
  | .authAdd fields => fields.map Prod.fst = fieldNames ∧ ∀ e ∈ fields, GoodField e.1 e.2
  | .update key data => key ∈ fieldNames ∧ GoodField key data

theorem profileOk_deliver {profile : Stored Dyn} {write : Write}
    (h : ∀ d, profile = some d → ProfileOk d) (hwrite : WriteOk write) {d : Document Dyn}
    (hd : write.deliver profile = some d) : ProfileOk d := by
  cases write with
  | authAdd fields =>
    obtain ⟨hnames, hgood⟩ := hwrite
    rw [← Option.some.inj hd]
    cases profile with
    | none =>
      apply ProfileOk.insertMany ?_ ?_ hgood
      · simp
      · simp [hnames]
    | some old =>
      have hold := h old rfl
      apply ProfileOk.insertMany hold.fields ?_ hgood
      intro k
      rw [hnames, hold.keys, or_self]
  | update key data =>
    obtain ⟨hknown, hgood⟩ := hwrite
    cases profile with
    | none => cases hd
    | some old =>
      have hold := h old rfl
      rw [← Option.some.inj hd]
      apply ProfileOk.insertMany hold.fields
      · intro k
        rw [hold.keys, List.map_singleton, List.mem_singleton]
        constructor
        · rintro (hk | rfl)
          · exact hk
          · exact hknown
        · exact Or.inl
      · simpa using hgood

/-! ## Runs -/

namespace App

/-- What a wizard appends fits the positions at which it ends up. -/
def StepOk (x : App) : Action → Prop
  | .wizard n a => ∀ w ∈ x.wizards[n]?, Fits w.userConf.length (w.added a)
  | _ => True

instance (x : App) : (a : Action) → Decidable (StepOk x a)
  | .wizard n _ => inferInstanceAs (Decidable (∀ w ∈ x.wizards[n]?, _))
  | .openHome | .rebuild _ | .answer _ _ | .openEdit _ | .edit _ _ | .confirm _ | .deliver _
  | .lose _ => isTrue trivial

/-- All lists, pages and writes are such that the profile stays good. -/
structure Inv (x : App) : Prop where
  profile : ∀ d, x.profile = some d → ProfileOk d
  wizards : ∀ w ∈ x.wizards, Fits 0 w.userConf
  edits : ∀ e ∈ x.edits, EditOk e
  pending : ∀ write ∈ x.pending, WriteOk write

theorem inv_start : Inv (start none) := by
  constructor <;> simp [start]

theorem writeOk_sent {w : Wizard} {a : Wizard.Act} (h : Fits 0 w.userConf) :
    ∀ write ∈ w.sent a, WriteOk write := by
  intro write hwrite
  unfold Wizard.sent at hwrite
  split at hwrite
  next =>
    split at hwrite
    next fields hfields =>
      rw [List.mem_singleton.mp hwrite]
      exact authFields_good h hfields
    next => cases hwrite
  next => cases hwrite

theorem inv_step {x y : App} {a : Action} (h : Inv x) (hok : StepOk x a)
    (hstep : x.step a = some y) : Inv y := by
  cases moves_of_step hstep with
  | openHome | rebuild | showApp | stay => exact ⟨h.profile, h.wizards, h.edits, h.pending⟩
  | pushWizard =>
    refine { h with wizards := ?_ }
    intro w hw
    rcases List.mem_append.mp hw with hold | hnew
    · exact h.wizards w hold
    · rw [List.mem_singleton.mp hnew]
      simp [Wizard.start, Fits]
  | wizard n b w w' hw hmove =>
    have hlist := h.wizards w (List.mem_of_getElem? hw)
    refine { h with wizards := ?_, pending := ?_ }
    · intro v hv
      rcases List.mem_or_eq_of_mem_set hv with hold | rfl
      · exact h.wizards v hold
      · rw [Wizard.userConf_step hmove, fits_append]
        exact ⟨hlist, hok w hw⟩
    · intro write hwrite
      rcases List.mem_append.mp hwrite with hold | hnew
      · exact h.pending write hold
      · exact writeOk_sent hlist write hnew
  | openEdit map key value page e hmap hvalue hpage he =>
    have hgood := h.profile map hmap
    have hknown : key ∈ fieldNames := (hgood.keys key).mp ((map.mem_iff_exists).mpr ⟨value, hvalue⟩)
    refine { h with edits := ?_ }
    intro e' he'
    rcases List.mem_append.mp he' with hold | hnew
    · exact h.edits e' hold
    · rw [List.mem_singleton.mp hnew]
      exact editOk_build hpage hknown (hgood.fields key value hvalue) he
  | edit n b e e' he hmove =>
    refine { h with edits := ?_ }
    intro e'' he''
    rcases List.mem_or_eq_of_mem_set he'' with hold | rfl
    · exact h.edits e'' hold
    · exact editOk_step (h.edits e (List.mem_of_getElem? he)) hmove
  | write n e data he hdata =>
    have hedit := h.edits e (List.mem_of_getElem? he)
    refine { h with edits := ?_, pending := ?_ }
    · intro e' he'
      exact h.edits e' (List.mem_of_mem_eraseIdx he')
    · intro write hwrite
      rcases List.mem_append.mp hwrite with hold | hnew
      · exact h.pending write hold
      · rw [List.mem_singleton.mp hnew]
        obtain ⟨written, hwritten, hgood⟩ := onPressed_ok hedit
        rw [hdata, Except.ok.injEq] at hwritten
        exact ⟨hedit.known, hgood data (by simp [← hwritten])⟩
  | deliver k write hwrite =>
    refine { h with profile := ?_, pending := ?_ }
    · intro d hd
      exact profileOk_deliver h.profile (h.pending write (List.mem_of_getElem? hwrite)) hd
    · intro write' hwrite'
      exact h.pending write' (List.mem_of_mem_eraseIdx hwrite')
  | lose k =>
    refine { h with pending := ?_ }
    intro write hwrite
    exact h.pending write (List.mem_of_mem_eraseIdx hwrite)

/-- The wizards append where their pages are meant to, or behind all that is read,
and no number is larger than the edit pages allow. -/
def Straight (x : App) : Action → Prop
  | .wizard n a => ∀ w ∈ x.wizards[n]?,
    (w.added a = [] ∨ w.userConf.length = w.position ∨ 5 ≤ w.userConf.length) ∧
      ∀ value, .int value ∈ w.added a → value ≤ 200
  | _ => True

theorem entered_of_step {x y : App} {a : Action} (h : ∀ w ∈ x.wizards, Entered w)
    (hstep : x.step a = some y) : ∀ w ∈ y.wizards, Entered w := by
  cases moves_of_step hstep with
  | openHome | rebuild | showApp | openEdit | edit | write | deliver | lose | stay => exact h
  | pushWizard =>
    intro w hw
    rcases List.mem_append.mp hw with hold | hnew
    · exact h w hold
    · rw [List.mem_singleton.mp hnew]
      trivial
  | wizard n b w w' hw hmove =>
    intro v hv
    rcases List.mem_or_eq_of_mem_set hv with hold | rfl
    · exact h v hold
    · exact entered_step (h w (List.mem_of_getElem? hw)) hmove

/-- **A run without going back** meets the condition, if the numbers are not too
large. -/
theorem stepOk_of_straight {acts : List Action} (h : StepsMeet step Straight (start none) acts) :
    StepsMeet step StepOk (start none) acts := by
  apply stepsMeet_of_invariant (P := fun x => ∀ w ∈ x.wizards, Entered w) ?_ ?_ (by simp [start]) h
  · intro x a y hx _ hstep
    exact entered_of_step hx hstep
  · intro x a hx ha
    cases a with
    | wizard n b =>
      intro w hw
      obtain ⟨hplace, hle⟩ := ha w hw
      rcases hplace with hnone | hlength | hfive
      · rw [hnone]
        intro e he
        cases he
      · exact (fits_added_iff b (hx w (List.mem_of_getElem? hw)) hlength).mpr hle
      · exact fits_of_five_le hfive _
    | openHome | rebuild | answer | openEdit | edit | confirm | deliver | lose => trivial

/-- The profile is good and can be read: the target and the tiles, in whatever
order the map lists its entries.  No button of an edit page throws. -/
structure WellFormed (x : App) : Prop where
  profile : ∀ d, x.profile = some d → ProfileOk d
  target : ∀ d, x.profile = some d → ∃ n, historyTarget d = .ok n
  tiles : ∀ d, x.profile = some d → ∀ map : List (String × Dyn), map.Perm d.toList →
    ∀ index < fieldNames.length, ∃ tile, profileTile map index = .ok tile
  edits : ∀ e ∈ x.edits, ∃ written, e.onPressed = .ok written

end App

theorem historyTarget_ok {d : Document Dyn} (h : ProfileOk d) : ∃ n, historyTarget d = .ok n := by
  obtain ⟨value, hvalue⟩ := (d.mem_iff_exists).mp ((h.keys "目標血糖値").mpr (by decide))
  obtain ⟨s, rfl, n, hn, -⟩ := (h.fields _ _ hvalue).number (by decide) (by decide) (by decide)
  exact ⟨n, by rw [historyTarget, hvalue]; exact int.parseOrThrow_of_parse hn⟩

theorem profileTile_ok {d : Document Dyn} (h : ProfileOk d) {map : List (String × Dyn)}
    (hmap : map.Perm d.toList) {index : ℕ} (hindex : index < fieldNames.length) :
    ∃ tile, profileTile map index = .ok tile := by
  have hkeys : d.keys.Perm fieldNames := by
    apply (List.perm_ext_iff_of_nodup ExtTreeMap.nodup_keys nodup_fieldNames).mpr
    intro k
    rw [ExtTreeMap.mem_keys, h.keys]
  have hlength : map.length = fieldNames.length := by
    rw [hmap.length_eq, ExtTreeMap.length_toList, ← ExtTreeMap.length_keys, hkeys.length_eq]
  have hmap' : index < (map.map Prod.fst).length ∧ index < (map.map Prod.snd).length := by
    simp [hlength, hindex]
  rw [profileTile, elementAt_of_lt hmap'.1, elementAt_of_lt hmap'.2]
  simp only [bind, Except.bind]
  split
  next => exact ⟨_, rfl⟩
  next => split <;> exact ⟨_, rfl⟩

/-- **Runs in which the wizard appends what fits keep the profile well formed.** -/
theorem wellFormed_of_run {acts : List App.Action} {x : App}
    (hok : StepsMeet App.step App.StepOk (App.start none) acts)
    (hrun : run App.step (App.start none) acts = some x) : x.WellFormed := by
  have hinv : x.Inv :=
    run_invariant (fun _ _ _ h ha hstep => App.inv_step h ha hstep) App.inv_start hok hrun
  constructor
  · exact hinv.profile
  · intro d hd
    exact historyTarget_ok (hinv.profile d hd)
  · intro d hd map hmap index hindex
    exact profileTile_ok (hinv.profile d hd) hmap hindex
  · intro e he
    obtain ⟨written, hwritten, -⟩ := onPressed_ok (hinv.edits e he)
    exact ⟨written, hwritten⟩

/-- A registration, and an edit of the blood pressure. -/
def firstRun : List App.Action :=
  [.openHome, .answer 0 false] ++ App.register "a" hundred ++
    [.deliver 0, .openHome, .answer 1 false, .openEdit "血圧", .edit 0 (.typeDigits hundred),
      .confirm 0, .deliver 0]

theorem wellFormed_of_run_firstRun :
    ∃ x, run App.step (App.start none) firstRun = some x ∧ x.WellFormed := by
  have hsome : (run App.step (App.start none) firstRun).isSome := by decide
  obtain ⟨x, hx⟩ := Option.isSome_iff_exists.mp hsome
  exact ⟨x, hx, wellFormed_of_run (by decide) hx⟩

/-- The wizard takes a number that no edit page would. -/
theorem not_wellFormed_of_run :
    ¬ ∀ (acts : List App.Action) (x : App),
      run App.step (App.start none) acts = some x → x.WellFormed := by
  intro h
  have haverage : ((run App.step (App.start none) ([.openHome, .answer 0 false] ++
      App.register "a" ⟨"999", by decide, by decide⟩ ++ [.deliver 0])).bind fun x =>
        x.profile.bind fun d => d["平均血糖値"]?) = some (.str "999") := by decide
  obtain ⟨x, hx, hprofile⟩ := Option.bind_eq_some_iff.mp haverage
  obtain ⟨d, hd, hvalue⟩ := Option.bind_eq_some_iff.mp hprofile
  have hgood := ((h _ x hx).profile d hd).fields _ _ hvalue
  obtain ⟨s, hs, hnumber⟩ := hgood.number (by decide) (by decide) (by decide)
  obtain rfl : "999" = s := Dyn.str.inj hs
  exact absurd hnumber (by decide)

end Profile
end FlutterSugar
