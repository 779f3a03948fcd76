import FlutterSugar.Record.Calls
import FlutterSugar.Record.Push3
import FlutterSugar.Record.ReadYourRecord

/-!
# Accounts

Every user has a record document, in the collection with the name of their `uid`.
`updateUser` evaluates `auth.currentUser!.uid` again for each of its requests, so
that a call that is on its way when another user signs in goes on with the
document of that user.

## Main definitions

* `Accounts`, `Task` — the documents, who is signed in, and the calls on their
  way, with whose document they are for.
* `sessionStep` — presses of the button, answers, and users who come and go.
* `records_accepted`, `stored_was_recorded` — what every document holds.
-/

namespace FlutterSugar
namespace Record
open Lib Std

/-- The name of a user, and of their collection. -/
abbrev Uid := String

/-- The record documents, and who is signed in. -/
structure Accounts where
  docs : Uid → RecordDoc
  user : Option Uid

/-- A recording of a user, and the user whose document its request is for. -/
structure Task extends Recording where
  owner : Uid
  target : Uid

/-- The call waits for an answer. -/
def Call.asks : Call → Bool
  | .reading _ _ => true
  | .merging _ _ _ => true
  | .replacing _ _ => true
  | .returned => false
  | .threw => false

/-- Whose document the next request is for: `auth.currentUser!.uid`. -/
def Task.next (t : Task) (user : Option Uid) (c : Call) : Uid :=
  if c.asks then user.getD t.target else t.target

def Task.answer (fails : Bool) (a : Accounts) (t : Task) : Option (Accounts × Task) :=
  (t.call.answer fails a.user.isSome (a.docs t.target)).map fun r =>
    ({ a with docs := Function.update a.docs t.target r.1 },
      { t with call := r.2, target := t.next a.user r.2 })

/-- The page when its button is pressed. -/
def pressed (date : DateTime) (acts : List Push3.Act) (now : WallClock) : Push3 :=
  { Push3.after date acts with now := now.toDateTime }

/-- The calls that the button makes. -/
def pressCalls (p : Push3) : List (String × ℤ) :=
  match p.onPressed with
  | .ok effects => Push3.calls effects
  | .error _ => []

inductive Event
  /-- A press of the button of a page that was opened at `date`, after `acts`. -/
  | press (date : DateTime) (acts : List Push3.Act) (now : WallClock)
  | signIn (uid : Uid)
  | signOut

/-- Without a user, the call that a press makes throws at once. -/
def event (e : Event) (a : Accounts) : Accounts × List Task :=
  match e with
  | .press date acts now =>
    match a.user with
    | none => (a, [])
    | some uid => (a, (pressCalls (pressed date acts now)).map fun call =>
        { s := call.1, i := call.2, call := .reading call.1 call.2, owner := uid, target := uid })
  | .signIn uid => ({ a with user := some uid }, [])
  | .signOut => ({ a with user := none }, [])

abbrev Session := Pool Accounts Task

abbrev Session.Act := Pool.Act Event Bool

def sessionStep : Session → Session.Act → Option Session := Pool.step Task.answer event

/-- The app is started. -/
def Session.start (a : Accounts) : Session := ⟨a, []⟩

/-! ## What a press submits -/

/-- A press submits at most one number, and one of at most 200. -/
theorem pressCalls_pressed (date : DateTime) (acts : List Push3.Act) (now : WallClock) :
    pressCalls (pressed date acts now) = [] ∨
      ∃ n, 0 ≤ n ∧ n ≤ 200 ∧ pressCalls (pressed date acts now) = [(now.key, n)] := by
  obtain ⟨hsome, hnone⟩ := Push3.input_after date acts
  by_cases hedited : Push3.EditedSinceBuild acts
  · have hinput : (pressed date acts now).input = some (Push3.after date acts).text.text :=
      hsome hedited
    by_cases hempty : (Push3.after date acts).text.text = ""
    · rw [hempty] at hinput
      exact Or.inl (by rw [pressCalls, Push3.onPressed_of_empty hinput]; rfl)
    · obtain ⟨n, hn, hnonneg, -⟩ := (Push3.after date acts).text.parse_eq hempty
      have hpress := Push3.onPressed_of_parse hinput hempty hn
      by_cases hle : n ≤ 200
      · rw [if_pos hle] at hpress
        exact Or.inr ⟨n, hnonneg, hle, by rw [pressCalls, hpress]; rfl⟩
      · rw [if_neg hle] at hpress
        exact Or.inl (by rw [pressCalls, hpress]; rfl)
  · have hinput : (pressed date acts now).input = none := hnone hedited
    exact Or.inl (by rw [pressCalls, Push3.onPressed_of_none hinput]; rfl)

/-! ## What the documents hold -/

section
variable {K : String → Prop} {V : ℤ → Prop} {a : Accounts} {x : Session} {acts : List Session.Act}

/-- What the answer to a request has found. -/
theorem task_answer_eq_some {fails : Bool} {a a' : Accounts} {t t' : Task}
    (h : t.answer fails a = some (a', t')) :
    ∃ db', t.toRecording.answer ⟨fails, a.user.isSome⟩ (a.docs t.target) =
        some (db', t'.toRecording) ∧
      a' = { a with docs := Function.update a.docs t.target db' } ∧
      t'.owner = t.owner ∧ t'.target = t.next a.user t'.call := by
  obtain ⟨⟨db', c⟩, hc, hr⟩ := Option.map_eq_some_iff.mp h
  obtain ⟨rfl, rfl⟩ := Prod.mk.inj hr
  exact ⟨db', by rw [Recording.answer, hc]; rfl, rfl, rfl, rfl⟩

/-- The presses submit keys and values of a kind. -/
def Submits (K : String → Prop) (V : ℤ → Prop) (_ : Session) (act : Session.Act) : Prop :=
  ∀ date acts now, act = .event (.press date acts now) →
    ∀ call ∈ pressCalls (pressed date acts now), K call.1 ∧ V call.2

/-- What the documents hold was there or has been submitted. -/
theorem over_run (ha : ∀ uid, Over K V (a.docs uid))
    (hok : StepsMeet sessionStep (Submits K V) (Session.start a) acts)
    (hrun : run sessionStep (Session.start a) acts = some x) (uid : Uid) :
    Over K V (x.shared.docs uid) := by
  have hstart : Pool.Holds (fun a : Accounts => ∀ uid, Over K V (a.docs uid))
      (fun _ t => t.toRecording.From K V) (Session.start a) := ⟨ha, by simp [Session.start]⟩
  refine (Pool.holds_run ?_ ?_ hstart hok hrun).shared uid
  · intro x n fails _ t a' t' ht hanswer hdocs hfrom
    obtain ⟨db', hr, rfl, -⟩ := task_answer_eq_some hanswer
    obtain ⟨hdb', hfrom'⟩ := keeps_over hr (hdocs t.target) hfrom
    refine ⟨?_, hfrom', fun q hq => hq⟩
    intro uid
    by_cases huid : uid = t.target
    · rw [huid]
      simpa using hdb'
    · simpa [Function.update_of_ne huid] using hdocs uid
  · intro x e hok hdocs
    cases e with
    | press date acts now =>
      cases huser : x.shared.user with
      | none => exact ⟨by simpa [event, huser] using hdocs, by simp [event, huser], fun _ => id⟩
      | some uid =>
        refine ⟨by simpa [event, huser] using hdocs, ?_, fun _ => id⟩
        intro t ht
        simp only [event, huser, List.mem_map] at ht
        obtain ⟨call, hcall, rfl⟩ := ht
        obtain ⟨hk, hv⟩ := hok date acts now rfl call hcall
        exact ⟨hk, hv, rfl, rfl⟩
    | signIn uid => exact ⟨hdocs, by simp [event], fun _ => id⟩
    | signOut => exact ⟨hdocs, by simp [event], fun _ => id⟩

/-- Every document holds timestamps, and values between 0 and 200. -/
def Accepted (a : Accounts) : Prop :=
  ∀ uid, Over (fun k => (keyDay k).isSome) (fun v => 0 ≤ v ∧ v ≤ 200) (a.docs uid)

theorem accepted_iff : Accepted a ↔
    ∀ uid d, a.docs uid = some d → ∃ record : PushRecord, record.doc = d := by
  constructor
  · intro h uid d hd
    have hover := h uid
    rw [hd] at hover
    refine ⟨⟨d, ?_, fun k v hv => (hover k v hv).2⟩, rfl⟩
    intro k hk
    obtain ⟨v, hv⟩ := (Document.mem_iff_exists d).mp hk
    exact (hover k v hv).1
  · intro h uid k v hv
    cases hd : a.docs uid with
    | none => rw [hd] at hv; simp [fields] at hv
    | some d =>
      obtain ⟨record, rfl⟩ := h uid d hd
      rw [hd] at hv
      exact ⟨record.readable k ((Document.mem_iff_exists _).mpr ⟨v, hv⟩), record.accepted k v hv⟩

/-- Neither the chart with its labels, nor the badge, nor the history list throws on
the document, however often the list was extended.  Whether a PDF can be made of it is
another question. -/
structure ViewsDefined (d : Document ℤ) : Prop where
  points : ∃ points, spots d = .ok points
  labels : ∀ value, ∃ label, getTitlesWidget d value = .ok label
  badge : ∃ text, badge d = .ok text
  rows : ∀ sugarCount, ∀ row ∈ historyList sugarCount d, ∃ tile, row = .ok tile

theorem exists_label {d : Document ℤ} (hd : Readable d) (value : ℤ) :
    ∃ label, getTitlesWidget d value = .ok label := by
  by_cases hvalue : 0 ≤ value ∧ value ≤ 6
  · obtain ⟨x, rfl⟩ := Int.eq_ofNat_of_zero_le hvalue.1
    by_cases hx : x < min d.size 7
    · obtain ⟨e, he⟩ : ∃ e, (plotted d)[x]? = some e :=
        ⟨_, List.getElem?_eq_getElem (by simpa using hx)⟩
      have hmem : e ∈ newestFirst d := by
        rw [plotted_getElem? hx] at he
        exact List.mem_of_getElem? he
      have hkey : e.1 ∈ d := (Document.mem_iff_exists d).mpr ⟨e.2, mem_newestFirst.mp hmem⟩
      obtain ⟨t, -, ht⟩ := formatDate_of_isSome (hd e.1 hkey) "M/dd"
      exact ⟨_, by rw [getTitlesWidget_of_lt he, ht]⟩
    · exact ⟨"", getTitlesWidget_of_le (by omega) (by omega)⟩
  · refine ⟨"", ?_⟩
    simp only [getTitlesWidget, bottomList_eq, bind, Except.bind]
    split <;> first | rfl | omega

theorem exists_row {d : Document ℤ} (hd : Readable d) {sugarCount : ℕ} {row : Except DartError Tile}
    (hrow : row ∈ historyList sugarCount d) : ∃ tile, row = .ok tile := by
  obtain ⟨j, hj, rfl⟩ := List.mem_map.mp hrow
  rw [size_from, List.mem_range] at hj
  by_cases hlast : j < sugarCount - 1
  · have hlt : j < (newestFirst d).length := by
      rw [length_newestFirst]
      split at hj <;> omega
    obtain ⟨e, he⟩ : ∃ e, (newestFirst d)[j]? = some e := ⟨_, List.getElem?_eq_getElem hlt⟩
    obtain ⟨leading, hleading⟩ := recordTile_of_readable hd (List.mem_of_getElem? he)
    exact ⟨_, by rw [historyTile_eq hlast he, hleading]⟩
  · exact ⟨.expand, by rw [historyTile, if_neg hlast]; rfl⟩

theorem viewsDefined_of_readable {d : Document ℤ} (hd : Readable d) : ViewsDefined d where
  points := ⟨_, spots_eq d⟩
  labels := exists_label hd
  badge := ⟨_, badge_eq d⟩
  rows _ _ hrow := exists_row hd hrow

theorem submits_accepted (x : Session) (act : Session.Act) :
    Submits (fun k => (keyDay k).isSome) (fun v => 0 ≤ v ∧ v ≤ 200) x act := by
  intro date pageActs now _ call hcall
  rcases pressCalls_pressed date pageActs now with hnone | ⟨n, hnonneg, hle, hone⟩
  · rw [hnone] at hcall
    cases hcall
  · rw [hone, List.mem_singleton] at hcall
    rw [hcall]
    exact ⟨by simp, hnonneg, hle⟩

/-- A value is recorded on the morning of the 1st of March. -/
def morningPressed : Session.Act :=
  .event (.press Push3.beforeMidnight [.edit Push3.hundredTwenty] morning)

/-- Its two requests are answered. -/
def morningRecorded : List Session.Act := [morningPressed, .move 0 false, .move 0 false]

/-- A user without a document is signed in. -/
def newcomer : Accounts := ⟨fun _ => none, some "a"⟩

theorem exists_newcomer_run :
    ∃ x, run sessionStep (Session.start newcomer) morningRecorded = some x ∧
      (fields (x.shared.docs "a"))["2024-03-01 08:00:00.000"]? = some 120 := by
  have hstored : ((run sessionStep (Session.start newcomer) morningRecorded).bind fun x =>
      (fields (x.shared.docs "a"))["2024-03-01 08:00:00.000"]?) = some 120 := by decide +kernel
  exact Option.bind_eq_some_iff.mp hstored

/-- **What every document holds.**  Whoever presses, signs in or signs out, in
whatever order the requests are answered and whichever of them fail, every record
document holds timestamps and values between 0 and 200, as long as those at the start
do, and neither the chart nor the badge nor the history list throws on it. -/
theorem records_accepted
    (ha : ∀ uid d, a.docs uid = some d → ∃ record : PushRecord, record.doc = d)
    (hrun : run sessionStep (Session.start a) acts = some x) :
    ∀ uid d, x.shared.docs uid = some d →
      (∃ record : PushRecord, record.doc = d) ∧ ViewsDefined d := by
  have hok : StepsMeet sessionStep
      (Submits (fun k => (keyDay k).isSome) (fun v => 0 ≤ v ∧ v ≤ 200)) (Session.start a) acts :=
    stepsMeet_of_forall submits_accepted (Session.start a) acts
  have hx : Accepted x.shared := over_run (accepted_iff.mpr ha) hok hrun
  intro uid d hd
  obtain ⟨record, rfl⟩ := accepted_iff.mp hx uid d hd
  exact ⟨⟨record, rfl⟩, viewsDefined_of_readable record.readable⟩

theorem records_accepted_newcomer :
    ∃ x, run sessionStep (Session.start newcomer) morningRecorded = some x ∧
      ∀ uid d, x.shared.docs uid = some d →
        (∃ record : PushRecord, record.doc = d) ∧ ViewsDefined d := by
  obtain ⟨x, hrun, -⟩ := exists_newcomer_run
  exact ⟨x, hrun, records_accepted (fun _ _ h => by cases h) hrun⟩

/-- A press of the run made this call. -/
def Submitted (acts : List Session.Act) (call : String × ℤ) : Prop :=
  ∃ date pageActs now, .event (.press date pageActs now) ∈ acts ∧
    call ∈ pressCalls (pressed date pageActs now)

/-- **Nothing is stored that nobody recorded.**  Every key of a document was there
or is the time of a press, and every value was there or is the number that a press
submitted. -/
theorem stored_was_recorded (hrun : run sessionStep (Session.start a) acts = some x) {uid : Uid}
    {k : String} {v : ℤ} (h : (fields (x.shared.docs uid))[k]? = some v) :
    ((∃ uid, k ∈ fields (a.docs uid)) ∨ ∃ i, Submitted acts (k, i)) ∧
      ((∃ (uid : Uid) (j : String), (fields (a.docs uid))[j]? = some v) ∨ ∃ s, Submitted acts (s, v)) := by
  have hok : StepsMeet sessionStep
      (Submits (fun k => (∃ uid, k ∈ fields (a.docs uid)) ∨ ∃ i, Submitted acts (k, i))
        (fun v => (∃ (uid : Uid) (j : String), (fields (a.docs uid))[j]? = some v) ∨
          ∃ s, Submitted acts (s, v)))
      (Session.start a) acts := by
    refine stepsMeet_of_forall_mem (Session.start a) ?_
    intro act hact date pageActs now hpress call hcall
    have hsubmitted : Submitted acts call := ⟨date, pageActs, now, hpress ▸ hact, hcall⟩
    exact ⟨Or.inr ⟨call.2, hsubmitted⟩, Or.inr ⟨call.1, hsubmitted⟩⟩
  refine over_run ?_ hok hrun uid k v h
  intro uid j w hj
  exact ⟨Or.inl ⟨uid, (Document.mem_iff_exists _).mpr ⟨w, hj⟩⟩, Or.inl ⟨uid, j, hj⟩⟩

theorem stored_was_recorded_newcomer :
    ((∃ uid, "2024-03-01 08:00:00.000" ∈ fields (newcomer.docs uid)) ∨
        ∃ i, Submitted morningRecorded ("2024-03-01 08:00:00.000", i)) ∧
      ((∃ (uid : Uid) (j : String), (fields (newcomer.docs uid))[j]? = some 120) ∨
        ∃ s, Submitted morningRecorded (s, 120)) := by
  obtain ⟨x, hrun, hstored⟩ := exists_newcomer_run
  exact stored_was_recorded hrun hstored

end

end Record
end FlutterSugar
