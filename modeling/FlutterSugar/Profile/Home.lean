import FlutterSugar.Profile.App

/-!
# Who gets to the registration

`userCheck` answers `false` both if there is no profile and if the read has
failed, and the home screen opens the wizard in either case.  A user who has a
profile is spared exactly as long as every read succeeds; as soon as one
has failed, the wizard can replace the profile.

## Main definitions

* `ReadsSucceed` — the step is not the answer to a read that failed.
* `ChangesByEdit` — the step changes the profile by delivering an edit, if at all.
* `never_registered_iff` — the wizard stays closed exactly if no read fails.
-/

namespace FlutterSugar
namespace Profile
open Lib Std

namespace App

/-- No answer comes from a read that failed. -/
def ReadsSucceed (_ : App) (a : Action) : Prop := ∀ h, a ≠ .answer h true

/-- The profile stays what it is, or the write of an edit page is delivered. -/
def ChangesByEdit (x : App) (a : Action) : Prop :=
  ∀ y, x.step a = some y → y.profile = x.profile ∨
    ∃ k key data, a = .deliver k ∧ x.pending[k]? = some (.update key data)

/-- A user who has a profile and has not been sent to the wizard. -/
structure Spared (x : App) : Prop where
  profile : x.profile.isSome
  wizards : x.wizards = []
  pending : ∀ write ∈ x.pending, ∃ key data, write = .update key data

theorem spared_start (d : Document Dyn) : Spared (start (some d)) := ⟨rfl, rfl, by simp [start]⟩

/-- A delivered write leaves a profile. -/
theorem isSome_deliver {profile : Stored Dyn} (h : profile.isSome) (write : Write) :
    (write.deliver profile).isSome := by
  obtain ⟨d, rfl⟩ := Option.isSome_iff_exists.mp h
  cases write <;> rfl

theorem userCheck_of_isSome {profile : Stored Dyn} (h : profile.isSome) (fails : Bool) :
    userCheck fails profile = !fails := by
  cases fails
  · simp [userCheck, userExists, h]
  · rfl

theorem spared_step {x y : App} {a : Action} (h : Spared x) (hok : ReadsSucceed x a)
    (hstep : x.step a = some y) : Spared y := by
  cases moves_of_step hstep with
  | openHome | rebuild | showApp | openEdit | edit | stay => exact ⟨h.profile, h.wizards, h.pending⟩
  | pushWizard n fails hcheck =>
    rw [userCheck_of_isSome h.profile] at hcheck
    exact absurd (by simpa using hcheck) fun hfails : fails = true => hok n (hfails ▸ rfl)
  | wizard n b w w' hw =>
    rw [h.wizards] at hw
    cases hw
  | write n e data =>
    refine ⟨h.profile, h.wizards, ?_⟩
    intro write hwrite
    rcases List.mem_append.mp hwrite with hold | hnew
    · exact h.pending write hold
    · exact ⟨e.key, data, List.mem_singleton.mp hnew⟩
  | deliver k write =>
    refine ⟨isSome_deliver h.profile write, h.wizards, ?_⟩
    intro write' hwrite'
    exact h.pending write' (List.mem_of_mem_eraseIdx hwrite')
  | lose k =>
    refine ⟨h.profile, h.wizards, ?_⟩
    intro write hwrite
    exact h.pending write (List.mem_of_mem_eraseIdx hwrite)

/-- Only an edit can be on its way. -/
theorem changesByEdit_of_spared {x : App} {a : Action} (h : Spared x) : ChangesByEdit x a := by
  intro y hstep
  cases moves_of_step hstep with
  | deliver k write hwrite =>
    obtain ⟨key, data, rfl⟩ := h.pending write (List.mem_of_getElem? hwrite)
    exact Or.inr ⟨k, key, data, rfl, hwrite⟩
  | openHome | rebuild | showApp | pushWizard | wizard | openEdit | edit | write | lose | stay =>
    exact Or.inl rfl

theorem isSome_step {x y : App} {a : Action} (h : x.profile.isSome) (hstep : x.step a = some y) :
    y.profile.isSome := by
  cases moves_of_step hstep with
  | deliver k write => exact isSome_deliver h write
  | openHome | rebuild | showApp | pushWizard | wizard | openEdit | edit | write | lose | stay =>
    exact h

/-- The first wizard is opened by a read that fails. -/
theorem wizards_step {x y : App} {a : Action} (h : x.profile.isSome)
    (hstep : x.step a = some y) : y.wizards = [] ↔ x.wizards = [] ∧ ReadsSucceed x a := by
  cases moves_of_step hstep with
  | showApp n fails hcheck =>
    have hfails : fails = false := by simpa [userCheck_of_isSome h] using hcheck
    simp [ReadsSucceed, hfails]
  | pushWizard n fails hcheck =>
    have hfails : fails = true := by simpa [userCheck_of_isSome h] using hcheck
    simp [ReadsSucceed, hfails]
  | wizard => simp [ReadsSucceed]
  | stay a ha => simp [ReadsSucceed, ha]
  | openHome | rebuild | openEdit | edit | write | deliver | lose => simp [ReadsSucceed]

end App

/-- **When a user who has a profile is not sent to the registration**, and the
profile changes through the edit pages only. -/
theorem never_registered_iff (d : Document Dyn) {acts : List App.Action} {x : App}
    (hrun : run App.step (App.start (some d)) acts = some x) :
    (x.wizards = [] ∧ StepsMeet App.step App.ChangesByEdit (App.start (some d)) acts) ↔
      StepsMeet App.step App.ReadsSucceed (App.start (some d)) acts := by
  have hiff : x.wizards = [] ↔ (App.start (some d)).wizards = [] ∧
      StepsMeet App.step App.ReadsSucceed (App.start (some d)) acts :=
    run_iff_stepsMeet (fun _ _ _ => App.isSome_step) (fun _ _ _ => App.wizards_step) rfl hrun
  constructor
  · intro ⟨hwizards, _⟩
    exact (hiff.mp hwizards).2
  · intro hok
    refine ⟨hiff.mpr ⟨rfl, hok⟩, ?_⟩
    apply stepsMeet_of_invariant (P := App.Spared) ?_ ?_ (App.spared_start d) hok
    · intro s a t hs ha hstep
      exact App.spared_step hs ha hstep
    · intro s a hs _
      exact App.changesByEdit_of_spared hs

/-- The profile of a user who has registered. -/
def registered : Document Dyn :=
  .ofList [("ニックネーム", .str "a"), ("プロフィール画像", .str ""), ("性別", .str "男性"),
    ("平均血糖値", .str "100"), ("目標血糖値", .str "90"), ("血圧", .str "120")] compareTo

/-- A home screen, and a nickname that has been edited. -/
def edited : App where
  profile := Write.deliver (some registered) (.update "ニックネーム" (.str "b"))
  homes := [.shown true]
  wizards := []
  edits := []
  pending := []

theorem never_registered_iff_edited :
    (edited.wizards = [] ∧ StepsMeet App.step App.ChangesByEdit (App.start (some registered))
        [.openHome, .answer 0 false, .openEdit "ニックネーム", .edit 0 (.typeText "b"), .confirm 0,
          .deliver 0]) ↔
      StepsMeet App.step App.ReadsSucceed (App.start (some registered))
        [.openHome, .answer 0 false, .openEdit "ニックネーム", .edit 0 (.typeText "b"), .confirm 0,
          .deliver 0] :=
  never_registered_iff registered rfl

/-- One failed read is enough to open the wizard. -/
theorem not_never_registered :
    ¬ ∀ (d : Document Dyn) (acts : List App.Action) (x : App),
      run App.step (App.start (some d)) acts = some x →
        x.wizards = [] ∧ StepsMeet App.step App.ChangesByEdit (App.start (some d)) acts := by
  intro h
  have hopened := h registered [.openHome, .answer 0 true]
    ⟨some registered, [.shown false], [Wizard.start], [], []⟩ rfl
  exact absurd hopened.1 (by simp)

-- The wizard then replaces the fields of the profile.
example : ((run App.step (App.start (some registered))
    ([.openHome, .answer 0 true] ++ App.register "b" hundred ++ [.deliver 0])).bind
      fun x => x.profile.bind fun d => d["目標血糖値"]?) = some (.str "0") := by decide

end Profile
end FlutterSugar
