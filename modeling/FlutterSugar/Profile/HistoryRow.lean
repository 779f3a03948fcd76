import FlutterSugar.Dart.Int64
import FlutterSugar.Profile.App

/-!
# A row of the history list

A row of `check.dart` compares its value with the target of the profile twice.
The signed difference follows the snapshots of the profile; the face at the end
of the row is chosen by what a single read returned, which was started when the
screen was opened.  Each of them computes the band of the distance by itself.

## Main definitions

* `Band` — the three bands, with their colours and faces.
* `differenceText`, `trailingIcon` — the two parts of a row.
* `HistoryRow`, `HistoryRow.step` — what a row has seen and what it shows.
* `HistoryRow.Agree` — the two parts show one band of one target.
* `row_agrees_iff` — when they always do.
-/

namespace FlutterSugar
namespace Profile
open Lib Std

/-! ## The two parts of a row -/

/-- `Colors.green`, `Colors.orange.shade400` and `Colors.red`. -/
inductive RowColor
  | green
  | orangeShade400
  | red
  deriving DecidableEq, Repr

/-- The faces of `Icons`. -/
inductive Face
  | mood
  | sentimentSatisfied
  | sentimentVeryDissatisfied
  deriving DecidableEq, Repr

structure Difference where
  text : String
  color : RowColor
  deriving DecidableEq, Repr

structure FaceIcon where
  face : Face
  color : RowColor
  deriving DecidableEq, Repr

/-- The signed difference, `k` being the value of the row. -/
def differenceText (k : ℤ) (map2 : Document Dyn) : Except DartError Difference := do
  let i := int.sub k (← historyTarget map2)
  if int.isNegative i then
    if int.abs i < 20 then return ⟨"(" ++ toString i ++ ")", .green⟩
    else if int.abs i < 40 then return ⟨"(" ++ toString i ++ ")", .orangeShade400⟩
    else return ⟨"(" ++ toString i ++ ")", .red⟩
  else
    if int.abs i < 20 then return ⟨"(+" ++ toString i ++ ")", .green⟩
    else if int.abs i < 40 then return ⟨"(+" ++ toString i ++ ")", .orangeShade400⟩
    else return ⟨"(+" ++ toString i ++ ")", .red⟩

/-- The face at the end of the row. -/
def trailingIcon (k : ℤ) (map2 : Document Dyn) : Except DartError FaceIcon := do
  let i := int.sub k (← historyTarget map2)
  if int.abs i < 20 then return ⟨.mood, .green⟩
  else if int.abs i < 40 then return ⟨.sentimentSatisfied, .orangeShade400⟩
  else return ⟨.sentimentVeryDissatisfied, .red⟩

/-- What stands behind the value. -/
inductive NumberWidget
  | placeholder (text : String)
  | difference (d : Difference)
  deriving DecidableEq, Repr

/-- What stands at the end of the row. -/
inductive TrailingWidget
  /-- The `CircularProgressIndicator`. -/
  | progress
  | loading (text : String)
  | icon (i : FaceIcon)
  deriving DecidableEq, Repr

/-- What a builder knows of its future or stream. -/
inductive AsyncSnapshot (α : Type)
  | waiting
  | hasError
  | hasData (data : α)
  deriving DecidableEq, Repr

def AsyncSnapshot.map {α β : Type} (f : α → β) : AsyncSnapshot α → AsyncSnapshot β
  | .waiting => .waiting
  | .hasError => .hasError
  | .hasData data => .hasData (f data)

/-- The `StreamBuilder` over the snapshots of the profile. -/
def numberWidget (k : ℤ) : AsyncSnapshot (Document Dyn) → Except DartError NumberWidget
  | .hasData map2 => do return .difference (← differenceText k map2)
  | .waiting | .hasError => return .placeholder "(+0.1)"

/-- The `FutureBuilder` over `_data`. -/
def trailingWidget (k : ℤ) : AsyncSnapshot (Document Dyn) → Except DartError TrailingWidget
  | .hasError => return .progress
  | .hasData map2 => do return .icon (← trailingIcon k map2)
  | .waiting => return .loading "loading"

/-! ## A row on the screen -/

/-- A version of the profile, with a target that `int.parse` accepts. -/
structure TargetProfile where
  doc : Document Dyn
  text : String
  target : ℤ
  stored : doc["目標血糖値"]? = some (.str text)
  parsed : int.parse text = some target

/-- The versions of the profile since the screen was opened, what the read and the
stream have returned of them, and what the row shows.  `pending` is set while a
snapshot is delivered and not rendered. -/
structure HistoryRow where
  versions : List TargetProfile
  data : AsyncSnapshot TargetProfile
  snapshot : AsyncSnapshot TargetProfile
  pending : Bool
  number : Except DartError NumberWidget
  trailing : Except DartError TrailingWidget

namespace HistoryRow

/-- The screen is opened: the read is started, and nothing is known yet. -/
def mount (profile : TargetProfile) : HistoryRow where
  versions := [profile]
  data := .waiting
  snapshot := .waiting
  pending := false
  number := .ok (.placeholder "(+0.1)")
  trailing := .ok (.loading "loading")

inductive Act
  /-- The profile gets another target. -/
  | change (profile : TargetProfile)
  /-- The stream delivers a version. -/
  | deliver (version : ℕ)
  | streamFails
  /-- The read returns a version. -/
  | answer (version : ℕ)
  | readFails
  /-- The row is built again. -/
  | frame

/-- What can happen next to a row with the value `k`. -/
def step (k : ℤ) (s : HistoryRow) : Act → Option HistoryRow
  | .change profile => some { s with versions := s.versions ++ [profile] }
  | .deliver version =>
    s.versions[version]?.map fun p => { s with snapshot := .hasData p, pending := true }
  | .streamFails => some { s with snapshot := .hasError, pending := true }
  | .answer version =>
    match s.data with
    | .waiting => s.versions[version]?.map fun p => { s with data := .hasData p }
    | _ => none
  | .readFails =>
    match s.data with
    | .waiting => some { s with data := .hasError }
    | _ => none
  | .frame => some { s with
      number := numberWidget k (s.snapshot.map TargetProfile.doc)
      trailing := trailingWidget k (s.data.map TargetProfile.doc)
      pending := false }

end HistoryRow

/-! ## Bands -/

/-- The bands of a distance from the target. -/
inductive Band
  | below20
  | below40
  | from40
  deriving DecidableEq, Repr

namespace Band

def of (distance : ℤ) : Band :=
  if distance < 20 then .below20 else if distance < 40 then .below40 else .from40

def color : Band → RowColor
  | below20 => .green
  | below40 => .orangeShade400
  | from40 => .red

def face : Band → Face
  | below20 => .mood
  | below40 => .sentimentSatisfied
  | from40 => .sentimentVeryDissatisfied

theorem color_injective : Function.Injective color := by
  intro a b h
  cases a <;> cases b <;> first | rfl | cases h

end Band

/-- The band of the distance between a value and a target. -/
def bandOf (k target : ℤ) : Band := Band.of (k - target).natAbs

namespace HistoryRow

/-- **The two parts agree.**  If every delivered snapshot is rendered and both parts
are resolved, their colours are that of the band of the target delivered last, and
there is a plus sign exactly if the value is not below it. -/
def Agree (k : ℤ) (s : HistoryRow) : Prop :=
  s.pending = false → ∀ difference icon p, s.number = .ok (.difference difference) →
    s.trailing = .ok (.icon icon) → s.snapshot = .hasData p →
      difference.color = (bandOf k p.target).color ∧ icon.color = (bandOf k p.target).color ∧
        ('+' ∈ difference.text.toList ↔ p.target ≤ k)

/-- A frame with both parts resolved finds the same band for the target that was
read as for the target that was delivered, which is not `2 ^ 63` away or more. -/
def ReadIsCurrent (k : ℤ) (s : HistoryRow) (a : Act) : Prop :=
  a = .frame → ∀ p read, s.snapshot = .hasData p → s.data = .hasData read →
    (k - p.target).natAbs < 9223372036854775808 ∧
      Band.of (int.distance (k - read.target)) = bandOf k p.target

end HistoryRow

/-! ## What the parts show -/

section
variable (k : int.Value) (p : TargetProfile)

/-- The target as a value of 64 bits. -/
def TargetProfile.value : int.Value := ⟨p.target, int.parse_range p.parsed⟩

theorem TargetProfile.historyTarget_doc : historyTarget p.doc = .ok p.target := by
  rw [historyTarget, p.stored]
  exact int.parseOrThrow_of_parse p.parsed

/-- The difference from the target of a profile, in the colour of its band. -/
def TargetProfile.difference (k : ℤ) : Difference :=
  ⟨(if int.isNegative (int.sub k p.target) then "(" else "(+") ++
    toString (int.sub k p.target) ++ ")", (Band.of (int.abs (int.sub k p.target))).color⟩

/-- The face of the band of that difference. -/
def TargetProfile.icon (k : ℤ) : FaceIcon :=
  ⟨(Band.of (int.abs (int.sub k p.target))).face, (Band.of (int.abs (int.sub k p.target))).color⟩

/-- The six branches differ in the sign and in the band. -/
theorem differenceText_doc (k : ℤ) : differenceText k p.doc = .ok (p.difference k) := by
  simp only [differenceText, p.historyTarget_doc, bind, Except.bind, pure, Except.pure,
    TargetProfile.difference, Band.of]
  split_ifs <;> rfl

/-- The three branches differ in the band. -/
theorem trailingIcon_doc (k : ℤ) : trailingIcon k p.doc = .ok (p.icon k) := by
  simp only [trailingIcon, p.historyTarget_doc, bind, Except.bind, pure, Except.pure,
    TargetProfile.icon, Band.of]
  split_ifs <;> rfl

theorem numberWidget_doc (k : ℤ) :
    numberWidget k (.hasData p.doc) = .ok (.difference (p.difference k)) := by
  rw [numberWidget, differenceText_doc]
  rfl

theorem trailingWidget_doc (k : ℤ) : trailingWidget k (.hasData p.doc) = .ok (.icon (p.icon k)) := by
  rw [trailingWidget, trailingIcon_doc]
  rfl

/-- The sign in front of the number is the only one that can be a plus. -/
theorem plus_mem_difference (k : ℤ) :
    '+' ∈ (p.difference k).text.toList ↔ int.isNegative (int.sub k p.target) = false := by
  have hnumber := int.plus_not_mem_toString (int.sub k p.target)
  rw [TargetProfile.difference, String.toList_append, String.toList_append, List.mem_append,
    List.mem_append, or_assoc, or_iff_left]
  · cases int.isNegative (int.sub k p.target) <;> decide
  · rintro (h | h)
    · exact hnumber h
    · exact absurd h (by decide)

/-- **The colour and the sign of the difference are right** exactly if it does not
wrap around. -/
theorem difference_right_iff :
    (p.difference k.toInt).color = (bandOf k.toInt p.target).color ∧
        ('+' ∈ (p.difference k.toInt).text.toList ↔ p.target ≤ k.toInt) ↔
      (k.toInt - p.target).natAbs < 9223372036854775808 := by
  rw [plus_mem_difference, TargetProfile.difference]
  have habs : int.abs (int.sub k.toInt p.target) = int.distance (k.toInt - p.target) :=
    int.abs_sub k p.value
  rw [habs, Band.color_injective.eq_iff, bandOf]
  by_cases hsmall : (k.toInt - p.target).natAbs < 9223372036854775808
  · refine iff_of_true ⟨?_, ?_⟩ hsmall
    · rw [int.distance, if_pos hsmall]
    · rw [int.sub_eq_of_natAbs_lt hsmall, int.isNegative, decide_eq_false_iff_not]
      omega
  · refine iff_of_false ?_ hsmall
    intro h
    obtain ⟨hband, hsign⟩ := h
    by_cases hleast : k.toInt - p.target = -9223372036854775808
    · rw [hleast] at hband
      exact absurd hband (by decide)
    · have hwrong := int.isNegative_sub_of_le k p.value (by exact Nat.le_of_not_lt hsmall) hleast
      change int.isNegative (int.sub k.toInt p.target) = decide (p.target ≤ k.toInt) at hwrong
      rw [hwrong, decide_eq_false_iff_not] at hsign
      exact not_iff_self hsign

theorem icon_color_iff (read : TargetProfile) :
    (read.icon k.toInt).color = (bandOf k.toInt p.target).color ↔
      Band.of (int.distance (k.toInt - read.target)) = bandOf k.toInt p.target := by
  rw [TargetProfile.icon]
  have habs : int.abs (int.sub k.toInt read.target) = int.distance (k.toInt - read.target) :=
    int.abs_sub k read.value
  rw [habs, Band.color_injective.eq_iff]

end

namespace HistoryRow

/-! ## Steps -/

section
variable {k : int.Value} {s t : HistoryRow}

/-- Before the first frame nothing is resolved. -/
theorem agree_mount (k : ℤ) (profile : TargetProfile) : Agree k (mount profile) := by
  intro _ difference icon p hnumber
  cases hnumber

/-- **A frame makes the two parts agree** exactly if the read is current. -/
theorem agree_frame (hstep : step k.toInt s .frame = some t) :
    Agree k.toInt t ↔ ReadIsCurrent k.toInt s .frame := by
  rw [step, Option.some.injEq] at hstep
  rw [← hstep]
  constructor
  · intro hagree _ p read hp hread
    have hnumber : numberWidget k.toInt (s.snapshot.map TargetProfile.doc) =
        .ok (.difference (p.difference k.toInt)) := by
      rw [hp]
      exact numberWidget_doc p k.toInt
    have htrailing : trailingWidget k.toInt (s.data.map TargetProfile.doc) =
        .ok (.icon (read.icon k.toInt)) := by
      rw [hread]
      exact trailingWidget_doc read k.toInt
    obtain ⟨hcolor, hicon, hsign⟩ := hagree rfl _ _ p hnumber htrailing hp
    exact ⟨(difference_right_iff k p).mp ⟨hcolor, hsign⟩, (icon_color_iff k p read).mp hicon⟩
  · intro hok _ difference icon p hnumber htrailing hp
    change s.snapshot = .hasData p at hp
    cases hdata : s.data with
    | waiting | hasError =>
      rw [hdata] at htrailing
      cases htrailing
    | hasData read =>
      obtain ⟨hsmall, hband⟩ := hok rfl p read hp hdata
      obtain ⟨hcolor, hsign⟩ := (difference_right_iff k p).mpr hsmall
      rw [hp] at hnumber
      rw [hdata] at htrailing
      cases (numberWidget_doc p k.toInt).symm.trans hnumber
      cases (trailingWidget_doc read k.toInt).symm.trans htrailing
      exact ⟨hcolor, (icon_color_iff k p read).mpr hband, hsign⟩

/-- Between two frames the row shows what it showed, and a snapshot that is
delivered is not rendered yet. -/
theorem agree_step {a : Act} (ha : a ≠ .frame) (h : Agree k.toInt s)
    (hstep : step k.toInt s a = some t) : Agree k.toInt t := by
  cases a with
  | change profile =>
    cases hstep
    exact h
  | deliver version =>
    obtain ⟨p, -, rfl⟩ := Option.map_eq_some_iff.mp hstep
    intro hpending
    cases hpending
  | streamFails =>
    cases hstep
    intro hpending
    cases hpending
  | answer version =>
    rw [step] at hstep
    split at hstep
    · obtain ⟨p, -, rfl⟩ := Option.map_eq_some_iff.mp hstep
      exact h
    · cases hstep
  | readFails =>
    rw [step] at hstep
    split at hstep
    · cases hstep
      exact h
    · cases hstep
  | frame => exact absurd rfl ha

theorem agree_step_iff {a : Act} (h : Agree k.toInt s) (hstep : step k.toInt s a = some t) :
    Agree k.toInt t ↔ ReadIsCurrent k.toInt s a := by
  by_cases ha : a = .frame
  · subst ha
    exact agree_frame hstep
  · exact iff_of_true (agree_step ha h hstep) fun hframe => absurd hframe ha

end

/-- **When number and face never contradict each other**: exactly if every frame
that resolves both finds the read current. -/
theorem row_agrees_iff (k : int.Value) (profile : TargetProfile) {acts : List Act}
    {s : HistoryRow} (hrun : run (step k.toInt) (mount profile) acts = some s) :
    Always (step k.toInt) (Agree k.toInt) (mount profile) acts ↔
      StepsMeet (step k.toInt) (ReadIsCurrent k.toInt) (mount profile) acts :=
  always_iff_stepsMeet (fun _ _ _ h hstep => agree_step_iff h hstep)
    (agree_mount k.toInt profile) hrun

/-! ## A target that does not change -/

/-- Nothing but one version of the profile has been seen. -/
structure SeenOnly (profile : TargetProfile) (s : HistoryRow) : Prop where
  versions : s.versions = [profile]
  data : ∀ p, s.data = .hasData p → p = profile
  snapshot : ∀ p, s.snapshot = .hasData p → p = profile

theorem SeenOnly.of_version {profile p : TargetProfile} {s : HistoryRow} (h : SeenOnly profile s)
    {version : ℕ} (hp : s.versions[version]? = some p) : p = profile := by
  have hmem := List.mem_of_getElem? hp
  rw [h.versions] at hmem
  exact List.mem_singleton.mp hmem

theorem SeenOnly.step {profile : TargetProfile} {k : ℤ} {s t : HistoryRow} {a : Act}
    (h : SeenOnly profile s) (ha : ∀ p, a ≠ .change p) (hstep : step k s a = some t) :
    SeenOnly profile t := by
  cases a with
  | change p => exact absurd rfl (ha p)
  | deliver version =>
    obtain ⟨p, hp, rfl⟩ := Option.map_eq_some_iff.mp hstep
    refine ⟨h.versions, h.data, ?_⟩
    intro q hq
    cases hq
    exact h.of_version hp
  | streamFails =>
    cases hstep
    refine ⟨h.versions, h.data, ?_⟩
    intro q hq
    cases hq
  | answer version =>
    rw [HistoryRow.step] at hstep
    split at hstep
    · obtain ⟨p, hp, rfl⟩ := Option.map_eq_some_iff.mp hstep
      refine ⟨h.versions, ?_, h.snapshot⟩
      intro q hq
      cases hq
      exact h.of_version hp
    · cases hstep
  | readFails =>
    rw [HistoryRow.step] at hstep
    split at hstep
    · cases hstep
      refine ⟨h.versions, ?_, h.snapshot⟩
      intro q hq
      cases hq
    · cases hstep
  | frame =>
    cases hstep
    exact ⟨h.versions, h.data, h.snapshot⟩

/-- **As long as the target does not change**, every frame finds the read current. -/
theorem stepsMeet_of_unchanged {k : ℤ} {profile : TargetProfile} {acts : List Act}
    (hsmall : (k - profile.target).natAbs < 9223372036854775808)
    (hacts : ∀ a ∈ acts, ∀ p, a ≠ .change p) :
    StepsMeet (step k) (ReadIsCurrent k) (mount profile) acts := by
  have hmount : SeenOnly profile (mount profile) := by
    refine ⟨rfl, ?_, ?_⟩
    · intro p hp
      cases hp
    · intro p hp
      cases hp
  refine stepsMeet_of_invariant (P := SeenOnly profile) ?_ ?_ hmount
    (stepsMeet_of_forall_mem _ hacts)
  · intro s a t hs ha hstep
    exact hs.step ha hstep
  · intro s a hs _ _ p read hp hread
    rw [hs.snapshot p hp, hs.data read hread]
    refine ⟨hsmall, ?_⟩
    rw [int.distance, if_pos hsmall, bandOf]

/-! ## A target that changes -/

/-- A profile with the target 100. -/
def target100 : TargetProfile where
  doc := (∅ : Document Dyn).insert "目標血糖値" (.str "100")
  text := "100"
  target := 100
  stored := by simp
  parsed := by decide

def target150 : TargetProfile where
  doc := (∅ : Document Dyn).insert "目標血糖値" (.str "150")
  text := "150"
  target := 150
  stored := by simp
  parsed := by decide

def value100 : int.Value := ⟨100, by decide⟩

/-- Before a change both parts are resolved and agree. -/
theorem row_agrees_iff_unchanged :
    Always (step value100.toInt) (Agree value100.toInt) (mount target100)
      [.deliver 0, .answer 0, .frame] := by
  have hrun : run (step value100.toInt) (mount target100) [.deliver 0, .answer 0, .frame] =
      some ⟨[target100], .hasData target100, .hasData target100, false,
        numberWidget 100 (.hasData target100.doc), trailingWidget 100 (.hasData target100.doc)⟩ :=
    rfl
  refine (row_agrees_iff value100 target100 hrun).mpr (stepsMeet_of_unchanged (by decide) ?_)
  simp

/-- The read returns the first target, and the target changes afterwards: the face
stays, and the number turns red. -/
theorem stale_face_contradicts :
    ∃ s, run (step value100.toInt) (mount target100)
        [.deliver 0, .answer 0, .frame, .change target150, .deliver 1, .frame] = some s ∧
      ¬ Agree value100.toInt s := by
  refine ⟨_, rfl, ?_⟩
  intro hagree
  obtain ⟨-, hicon, -⟩ := hagree rfl _ _ target150 (numberWidget_doc target150 100)
    (trailingWidget_doc target100 100) rfl
  exact absurd hicon (by decide)

end HistoryRow

end Profile
end FlutterSugar
