import FlutterSugar.Record.Session

/-!
# Users who share a device

A call goes on with the document of whoever is signed in when it makes its next
request.  If that is never another user, each user runs as if nobody else were
there, and what was recorded stays.

## Main definitions

* `isolated_iff` — when no call gets to the document of another user.
* `alone`, `user_runs_alone` — what a user is concerned with, and that it is a run
  of that user.
* `recordings_kept` — what is kept as long as no request fails.
* `history_kept_iff` — when no key is ever lost.
-/

namespace FlutterSugar
namespace Record
open Lib Std

/-! ## Whose document a call gets to -/

/-- Every request is for the document of the user whose call it is. -/
def Isolated (x : Session) : Prop := ∀ t ∈ x.agents, t.target = t.owner

/-- When an answer makes a call ask again, nobody else is signed in. -/
def OwnerSignedIn (x : Session) : Session.Act → Prop
  | .event _ => True
  | .move n fails =>
    match x.agents[n]? with
    | none => True
    | some t => (t.call.step fails (x.shared.docs t.target)).2.asks →
        x.shared.user = none ∨ x.shared.user = some t.owner

instance (x : Session) : (act : Session.Act) → Decidable (OwnerSignedIn x act)
  | .event _ => isTrue trivial
  | .move n fails =>
    match h : x.agents[n]? with
    | none => isTrue (by simp [OwnerSignedIn, h])
    | some t => decidable_of_iff ((t.call.step fails (x.shared.docs t.target)).2.asks →
        x.shared.user = none ∨ x.shared.user = some t.owner) (by simp [OwnerSignedIn, h])

section
variable {a : Accounts} {x y : Session} {acts : List Session.Act}

theorem asks_proceed_true (c : Call) : (c.proceed true).asks = c.asks := by
  cases c <;> rfl

/-- The call of a task after an answer. -/
theorem call_of_answer {fails : Bool} {a a' : Accounts} {t t' : Task}
    (h : t.answer fails a = some (a', t')) :
    t'.call = (t.call.step fails (a.docs t.target)).2.proceed a.user.isSome := by
  obtain ⟨⟨db', c⟩, hc, hr⟩ := Option.map_eq_some_iff.mp h
  obtain ⟨-, rfl⟩ := Prod.mk.inj hr
  rw [Call.answer] at hc
  split at hc <;> cases hc
  rfl

/-- The target changes to another user only if that one is signed in when the
call asks again. -/
theorem target_eq_owner_iff {fails : Bool} {a a' : Accounts} {t t' : Task}
    (ht : t.target = t.owner) (h : t.answer fails a = some (a', t')) :
    t'.target = t'.owner ↔ ((t.call.step fails (a.docs t.target)).2.asks →
      a.user = none ∨ a.user = some t.owner) := by
  obtain ⟨-, -, -, howner, htarget⟩ := task_answer_eq_some h
  have hcall := call_of_answer h
  rw [htarget, howner, Task.next, hcall]
  cases huser : a.user with
  | none => simp [ht]
  | some uid =>
    rw [Option.isSome_some, asks_proceed_true]
    by_cases hasks : (t.call.step fails (a.docs t.target)).2.asks
    · simp [hasks]
    · simp [ht]

theorem isolated_event {e : Event} (hx : Isolated x) :
    Isolated ⟨(event e x.shared).1, x.agents ++ (event e x.shared).2⟩ := by
  intro t ht
  rcases List.mem_append.mp ht with hold | hnew
  · exact hx t hold
  · cases e with
    | press date pageActs now =>
      cases huser : x.shared.user with
      | none => simp [event, huser] at hnew
      | some uid =>
        simp only [event, huser, List.mem_map] at hnew
        obtain ⟨call, -, rfl⟩ := hnew
        rfl
    | signIn uid => simp [event] at hnew
    | signOut => simp [event] at hnew

theorem isolated_step (x : Session) (act : Session.Act) (y : Session) (hx : Isolated x)
    (h : sessionStep x act = some y) : Isolated y ↔ OwnerSignedIn x act := by
  cases act with
  | event e =>
    rw [sessionStep, Pool.step_event, Option.some.injEq] at h
    exact iff_of_true (h ▸ isolated_event hx) trivial
  | move n fails =>
    obtain ⟨t, a', t', ht, hanswer, rfl⟩ := Pool.step_move_eq_some.mp h
    have hlt : n < x.agents.length := (List.getElem?_eq_some_iff.mp ht).1
    have htarget := target_eq_owner_iff (hx t (List.mem_of_getElem? ht)) hanswer
    simp only [OwnerSignedIn, ht]
    rw [← htarget]
    constructor
    · intro hy
      exact hy t' (List.mem_set hlt t')
    · intro ht' q hq
      rcases List.mem_or_eq_of_mem_set hq with hold | rfl
      · exact hx q hold
      · exact ht'

theorem isolated_start (a : Accounts) : Isolated (Session.start a) := by
  simp [Isolated, Session.start]

/-- **When no call gets to the document of another user.**  In every state of a
run each request is for the document of the user who made the call, exactly if no
call asks again while another user is signed in. -/
theorem isolated_iff (hrun : run sessionStep (Session.start a) acts = some x) :
    Always sessionStep Isolated (Session.start a) acts ↔
      StepsMeet sessionStep OwnerSignedIn (Session.start a) acts :=
  always_iff_stepsMeet isolated_step (isolated_start a) hrun

theorem isolated_iff_newcomer :
    Always sessionStep Isolated (Session.start newcomer) morningRecorded ↔
      StepsMeet sessionStep OwnerSignedIn (Session.start newcomer) morningRecorded := by
  obtain ⟨x, hrun, -⟩ := exists_newcomer_run
  exact isolated_iff hrun

/-! ## A user alone -/

def docOf (uid : Uid) (a : Accounts) : RecordDoc := a.docs uid

/-- A call, if it is one of the user. -/
def recordingOf (uid : Uid) (t : Task) : Option Recording :=
  if t.owner = uid then some t.toRecording else none

theorem recordingOf_owner {uid : Uid} {t : Task} (h : t.owner = uid) :
    recordingOf uid t = some t.toRecording :=
  if_pos h

theorem recordingOf_other {uid : Uid} {t : Task} (h : t.owner ≠ uid) : recordingOf uid t = none :=
  if_neg h

/-- The document of a user, and the calls of that user. -/
def alone (uid : Uid) : Session → Pool RecordDoc Recording := Pool.view (docOf uid) (recordingOf uid)

/-- No request of the step fails, unless failures are allowed. -/
def FailsOnlyIf (failures : Prop) : Session.Act → Prop
  | .event _ => True
  | .move _ fails => fails = true → failures

def ReplyFailsOnlyIf (failures : Prop) : Pool.Act (Timestamp × ℤ) Reply → Prop
  | .event _ => True
  | .move _ reply => reply.fails = true → failures

/-- The presses of a user are those of the user alone, and those of others are not
seen. -/
theorem alone_event (uid : Uid) (e : Event) (failures : Prop) :
    ∃ bs, (∀ b ∈ bs, ReplyFailsOnlyIf failures b) ∧ run recordingStep (alone uid x) bs =
      some (alone uid ⟨(event e x.shared).1, x.agents ++ (event e x.shared).2⟩) := by
  have hnone : ∀ s', s'.docs uid = x.shared.docs uid →
      run recordingStep (alone uid x) [] = some (alone uid ⟨s', x.agents ++ []⟩) := by
    intro s' hs'
    simp [alone, Pool.view, docOf, hs']
  cases e with
  | signIn _ => exact ⟨[], by simp, hnone _ rfl⟩
  | signOut => exact ⟨[], by simp, hnone _ rfl⟩
  | press date pageActs now =>
    cases huser : x.shared.user with
    | none => exact ⟨[], by simp, by simpa only [event, huser] using hnone _ rfl⟩
    | some uid' =>
      simp only [event, huser]
      rcases pressCalls_pressed date pageActs now with hcalls | ⟨n, -, -, hcalls⟩
      · exact ⟨[], by simp, by simpa only [hcalls, List.map_nil] using hnone _ rfl⟩
      · rw [hcalls, List.map_singleton, alone, Pool.view_event]
        by_cases huid : uid' = uid
        · refine ⟨[.event (Timestamp.now now, n)], by simp [ReplyFailsOnlyIf], ?_⟩
          rw [List.filterMap_cons_some (recordingOf_owner huid)]
          rfl
        · refine ⟨[], by simp, ?_⟩
          rw [List.filterMap_cons_none (recordingOf_other huid), List.filterMap_nil,
            List.append_nil]
          rfl

/-- The answers to the calls of a user are those of the user alone, and those to
others are not seen. -/
theorem alone_move (uid : Uid) {n : ℕ} {fails : Bool} {failures : Prop} {t t' : Task}
    {a' : Accounts} (htarget : t.target = t.owner) (hfails : fails = true → failures)
    (ht : x.agents[n]? = some t) (hanswer : t.answer fails x.shared = some (a', t')) :
    ∃ bs, (∀ b ∈ bs, ReplyFailsOnlyIf failures b) ∧ run recordingStep (alone uid x) bs =
      some (alone uid ⟨a', x.agents.set n t'⟩) := by
  obtain ⟨db', hr, rfl, howner, -⟩ := task_answer_eq_some hanswer
  by_cases huid : t.owner = uid
  · have hdoc : docOf uid { x.shared with
        docs := Function.update x.shared.docs t.target db' } = db' := by
      rw [← huid, ← htarget]
      exact Function.update_self _ _ _
    have hanswer' : Recording.answer ⟨fails, x.shared.user.isSome⟩ (docOf uid x.shared)
        t.toRecording = some (docOf uid { x.shared with
          docs := Function.update x.shared.docs t.target db' }, t'.toRecording) := by
      rw [hdoc, docOf, ← huid, ← htarget]
      exact hr
    obtain ⟨m, hm⟩ : ∃ m, recordingStep (alone uid x) (.move m ⟨fails, x.shared.user.isSome⟩) = _ :=
      Pool.view_move ht (recordingOf_owner huid) (recordingOf_owner (howner.trans huid)) hanswer'
    refine ⟨[.move m ⟨fails, x.shared.user.isSome⟩], by simpa [ReplyFailsOnlyIf] using hfails, ?_⟩
    exact run_cons_eq_some.mpr ⟨_, hm, rfl⟩
  · have hdoc : docOf uid { x.shared with
        docs := Function.update x.shared.docs t.target db' } = docOf uid x.shared := by
      refine Function.update_of_ne ?_ _ _
      rw [htarget]
      exact fun h => huid h.symm
    have hview := Pool.view_other ht (recordingOf_other huid)
      (recordingOf_other fun h => huid (howner.symm.trans h)) hdoc
    exact ⟨[], by simp, congrArg some hview.symm⟩

/-- A step is a step of the user alone, or is not seen. -/
theorem alone_step (uid : Uid) (failures : Prop) (x : Session) (act : Session.Act) (y : Session)
    (h : Isolated x ∧ FailsOnlyIf failures act) (hstep : sessionStep x act = some y) :
    ∃ bs, (∀ b ∈ bs, ReplyFailsOnlyIf failures b) ∧
      run recordingStep (alone uid x) bs = some (alone uid y) := by
  cases act with
  | event e =>
    rw [sessionStep, Pool.step_event, Option.some.injEq] at hstep
    exact hstep ▸ alone_event uid e failures
  | move n fails =>
    obtain ⟨t, a', t', ht, hanswer, rfl⟩ := Pool.step_move_eq_some.mp hstep
    exact alone_move uid (h.1 t (List.mem_of_getElem? ht)) h.2 ht hanswer

/-- A run in which nobody else is signed in is a run of each user alone. -/
theorem alone_run (uid : Uid) (failures : Prop)
    (hok : StepsMeet sessionStep OwnerSignedIn (Session.start a) acts)
    (hfails : ∀ act ∈ acts, FailsOnlyIf failures act)
    (hrun : run sessionStep (Session.start a) acts = some x) :
    ∃ bs, (∀ b ∈ bs, ReplyFailsOnlyIf failures b) ∧
      run recordingStep ⟨a.docs uid, []⟩ bs = some (alone uid x) := by
  have hboth : StepsMeet sessionStep (fun x act => Isolated x ∧ FailsOnlyIf failures act)
      (Session.start a) acts := by
    refine stepsMeet_of_invariant (P := Isolated) ?_ ?_ (isolated_start a)
      (stepsMeet_and hok (stepsMeet_of_forall_mem (Session.start a) hfails))
    · intro x act y hx hact hstep
      exact (isolated_step x act y hx hstep).mpr hact.1
    · intro x act hx hact
      exact ⟨hx, hact.2⟩
  exact run_simulates (alone_step uid failures) hboth hrun

/-- **A user runs alone.**  As long as no call asks again while another user is
signed in, the document of a user and the calls of that user are those of a run in
which there is nobody else. -/
theorem user_runs_alone (uid : Uid)
    (hok : StepsMeet sessionStep OwnerSignedIn (Session.start a) acts)
    (hrun : run sessionStep (Session.start a) acts = some x) :
    ∃ bs, run recordingStep ⟨a.docs uid, []⟩ bs = some (alone uid x) := by
  have hfails : ∀ act ∈ acts, FailsOnlyIf True act := by
    intro act _
    cases act <;> simp [FailsOnlyIf]
  obtain ⟨bs, -, hbs⟩ := alone_run uid True hok hfails hrun
  exact ⟨bs, hbs⟩

/-- The same user has an empty document. -/
def emptied : Accounts := ⟨fun _ => some ∅, some "a"⟩

theorem exists_emptied_run :
    ∃ x, run sessionStep (Session.start emptied) morningRecorded = some x := by
  have hsome : (run sessionStep (Session.start emptied) morningRecorded).isSome := by
    decide +kernel
  exact Option.isSome_iff_exists.mp hsome

theorem user_runs_alone_emptied :
    ∃ x bs, run sessionStep (Session.start emptied) morningRecorded = some x ∧
      run recordingStep ⟨some ∅, []⟩ bs = some (alone "a" x) := by
  obtain ⟨x, hrun⟩ := exists_emptied_run
  obtain ⟨bs, hbs⟩ := user_runs_alone "a" (by decide +kernel) hrun
  exact ⟨x, bs, hrun, hbs⟩

/-- What is kept by a user alone as long as no request fails. -/
theorem sure_run {d : Document ℤ} (hd : Readable d) {bs : List (Pool.Act (Timestamp × ℤ) Reply)}
    {z : Pool RecordDoc Recording} (hbs : ∀ b ∈ bs, ReplyFailsOnlyIf False b)
    (hrun : run recordingStep ⟨some d, []⟩ bs = some z) :
    Pool.Holds (Extends d) Recording.Sure z := by
  have hstart : Pool.Holds (Extends d) Recording.Sure ⟨some d, []⟩ :=
    ⟨⟨d, rfl, hd, fun _ => id⟩, by simp⟩
  refine Pool.holds_run ?_ ?_ hstart
    (stepsMeet_of_forall_mem (⟨some d, []⟩ : Pool RecordDoc Recording) hbs) hrun
  · intro z m reply hok r db' r' _ hanswer
    have hfails : reply.fails = false := by
      cases hreply : reply.fails with
      | false => rfl
      | true => exact absurd (hok hreply) id
    exact keeps_sure hfails hanswer
  · intro z e _ hz
    refine ⟨hz, ?_, fun _ => id⟩
    intro r hr
    rw [press, List.mem_singleton] at hr
    exact hr ▸ sure_start _ _ _

/-- **A user's recordings are kept.**  If the document of a user exists with
readable keys, no request fails, and no call asks again while another user is
signed in, then however the calls overlap every key stays, and every call of the
user that has returned is in the document. -/
theorem recordings_kept {uid : Uid} {d : Document ℤ} (hd : a.docs uid = some d)
    (hread : Readable d) (hok : StepsMeet sessionStep OwnerSignedIn (Session.start a) acts)
    (hfails : ∀ n, .move n true ∉ acts)
    (hrun : run sessionStep (Session.start a) acts = some x) :
    ∃ d', x.shared.docs uid = some d' ∧ Readable d' ∧ (∀ k ∈ d, k ∈ d') ∧
      ∀ t ∈ x.agents, t.owner = uid → t.call = .returned → Recorded d' t.s := by
  have hfails' : ∀ act ∈ acts, FailsOnlyIf False act := by
    intro act hact
    cases act with
    | event e => trivial
    | move n fails => exact fun h => hfails n (h ▸ hact)
  obtain ⟨bs, hbs, halone⟩ := alone_run uid False hok hfails' hrun
  rw [hd] at halone
  have hsure := sure_run hread hbs halone
  obtain ⟨d', hd', hread', hkeys⟩ := hsure.shared
  refine ⟨d', hd', hread', hkeys, ?_⟩
  intro t ht howner hreturned
  have hmem : t.toRecording ∈ (alone uid x).agents :=
    List.mem_filterMap.mpr ⟨t, ht, recordingOf_owner howner⟩
  have hrec := hsure.agents _ hmem
  rw [Recording.Sure, hreturned, hd'] at hrec
  exact hrec

theorem recordings_kept_emptied :
    ∃ x d', run sessionStep (Session.start emptied) morningRecorded = some x ∧
      x.shared.docs "a" = some d' ∧ Readable d' ∧
        ∀ t ∈ x.agents, t.owner = "a" → t.call = .returned → Recorded d' t.s := by
  obtain ⟨x, hrun⟩ := exists_emptied_run
  obtain ⟨d', hd', hread, -, hreturned⟩ := recordings_kept (a := emptied) rfl readable_empty
    (by decide +kernel) (by simp [morningRecorded, morningPressed]) hrun
  exact ⟨x, d', hrun, hd', hread, hreturned⟩

/-! ## Keys that are lost -/

/-- No document loses a key. -/
def KeepsKeys (x y : Session) : Prop :=
  ∀ uid, ∀ k ∈ fields (x.shared.docs uid), k ∈ fields (y.shared.docs uid)

/-- The write of a catch clause only gets to a document that has no other key. -/
def SparesKeys (x : Session) : Session.Act → Prop
  | .event _ => True
  | .move n fails => ∀ t s i, x.agents[n]? = some t → t.call = .replacing s i → fails = false →
      ∀ k ∈ fields (x.shared.docs t.target), k = s

theorem mem_fields_insertMany {db : RecordDoc} {writes : List (String × ℤ)} {k : String}
    (h : k ∈ fields db) : k ∈ fields (Firestore.setMerge db writes) :=
  (Document.mem_insertMany _).mpr (Or.inl h)

theorem mem_fields_set {s k : String} {i : ℤ} :
    k ∈ fields (Firestore.set [(s, i)] : RecordDoc) ↔ k = s := by
  rw [Firestore.set_singleton, fields_some, Document.mem_insert]
  simp

/-- Only the write of a catch clause can lose a key. -/
theorem keeps_iff_of_answer {fails : Bool} {db db' : RecordDoc} {c c' : Call}
    (h : c.Answers fails db db' c') :
    (∀ k ∈ fields db, k ∈ fields db') ↔
      ∀ s i, c = .replacing s i → fails = false → ∀ k ∈ fields db, k = s := by
  cases h with
  | read | unread | unmerged => simp
  | merge s i writes => exact iff_of_true (fun k hk => mem_fields_insertMany hk) (by simp)
  | replace s i hfails =>
    constructor
    · intro hkeep s' i' hcall _ k hk
      cases hcall
      exact mem_fields_set.mp (hkeep k hk)
    · intro hspare k hk
      exact mem_fields_set.mpr (hspare s i rfl hfails k hk)
  | thrown c hc =>
    refine iff_of_true (fun k hk => hk) ?_
    intro s i hcall hfails
    rw [hc s i hcall] at hfails
    cases hfails

theorem keepsKeys_step (x : Session) (act : Session.Act) (y : Session)
    (h : sessionStep x act = some y) : KeepsKeys x y ↔ SparesKeys x act := by
  cases act with
  | event e =>
    rw [sessionStep, Pool.step_event, Option.some.injEq] at h
    subst h
    refine iff_of_true ?_ trivial
    intro uid k hk
    cases e with
    | press date pageActs now => cases huser : x.shared.user <;> simpa [event, huser] using hk
    | signIn _ => exact hk
    | signOut => exact hk
  | move n fails =>
    obtain ⟨t, a', t', ht, hanswer, rfl⟩ := Pool.step_move_eq_some.mp h
    obtain ⟨db', hr, rfl, -⟩ := task_answer_eq_some hanswer
    have hkeeps := keeps_iff_of_answer (answer_eq_some hr).1
    constructor
    · intro hxy t₀ s i ht₀ hcall hfails
      rw [ht, Option.some.injEq] at ht₀
      subst ht₀
      refine hkeeps.mp ?_ s i hcall hfails
      intro k hk
      simpa using hxy t.target k hk
    · intro hspares uid k hk
      by_cases huid : uid = t.target
      · subst huid
        simpa using hkeeps.mpr (fun s i => hspares t s i ht) k hk
      · simpa [Function.update_of_ne huid] using hk

/-- **When no key is ever lost.**  In a run every document keeps its keys, from
each state to each later one, exactly if the write of a catch clause only ever gets
to a document that has no other key. -/
theorem history_kept_iff (hrun : run sessionStep (Session.start a) acts = some x) :
    MonotoneRun sessionStep KeepsKeys (Session.start a) acts ↔
      StepsMeet sessionStep SparesKeys (Session.start a) acts :=
  monotone_iff_stepsMeet (fun _ _ _ => id) (fun _ _ _ h h' uid k hk => h' uid k (h uid k hk))
    keepsKeys_step hrun

theorem history_kept_iff_newcomer :
    MonotoneRun sessionStep KeepsKeys (Session.start newcomer) morningRecorded ↔
      StepsMeet sessionStep SparesKeys (Session.start newcomer) morningRecorded := by
  obtain ⟨x, hrun, -⟩ := exists_newcomer_run
  exact history_kept_iff hrun

/-- If another user signs in while the first call of a newcomer is on its way, the
document of that user is replaced by the one value. -/
theorem newcomer_replaces (docs : Uid → RecordDoc) {uid uid' : Uid} (hnew : docs uid = none) :
    (run sessionStep (Session.start ⟨docs, some uid⟩)
        [morningPressed, .event (.signIn uid'), .move 0 false, .move 0 false]).map
          (fun x => x.shared.docs uid') =
      some (some ((∅ : Document ℤ).insert morning.key 120)) := by
  have hcalls : pressCalls (pressed Push3.beforeMidnight [.edit Push3.hundredTwenty] morning) =
      [(morning.key, 120)] := by decide +kernel
  simp [run_cons, sessionStep, Pool.step, event, morningPressed, hcalls, Session.start,
    Task.answer, Call.answer, Call.step, Call.proceed, Task.next, Call.asks, hnew, chooseWrite_none]

end

end Record
end FlutterSugar
