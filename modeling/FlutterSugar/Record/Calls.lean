import FlutterSugar.Lib.Pool
import FlutterSugar.Record.Chart

/-!
# Any number of calls

A press of the button starts a call of `updateUser` and does not wait for it, so
that any number of calls can be on their way, each with a request that is
answered some time later or fails.  Whoever has signed out in between gets no
further request made: `auth.currentUser!` throws.

## Main definitions

* `Call.answer` — a call whose request is answered.
* `Recording`, `recordingStep` — the calls of one user, and their document.
* `Call.Answers`, `answers_of_answer` — what an answer can do.
* `Over`, `keeps_over` — what the document holds was recorded.
* `Recording.Sure`, `keeps_sure` — a call that has returned is in the document.
-/

namespace FlutterSugar
namespace Record
open Lib Std

/-! ## Answers -/

/-- The next request needs a user: without one, `auth.currentUser!` throws in the
`try` block, and again in the catch clause. -/
def Call.proceed (signedIn : Bool) : Call → Call
  | .reading s i => .reading s i
  | .merging s i fields => if signedIn then .merging s i fields else .threw
  | .replacing s i => if signedIn then .replacing s i else .threw
  | .returned => .returned
  | .threw => .threw

/-- The request of a call is answered, or fails. -/
def Call.answer (fails signedIn : Bool) (db : RecordDoc) (c : Call) : Option (RecordDoc × Call) :=
  if c = .returned ∨ c = .threw then none
  else some ((c.step fails db).1, (c.step fails db).2.proceed signedIn)

/-- What an answer can do, with what it has found. -/
inductive Call.Answers (fails : Bool) (db : RecordDoc) : Call → RecordDoc → Call → Prop
  | read (s : String) (i : ℤ) (d : Document ℤ) (k : String) (hfails : fails = false)
    (hdb : db = some d) (hd : Readable d)
    (hk : newestKey d = some k ∧ Recorded d s ∨ k = s ∧ (keyDay s).isSome) :
    Answers fails db (.reading s i) db (.merging s i [(k, i)])
  | unread (s : String) (i : ℤ)
    (h : fails = true ∨ ∀ d, db = some d → ¬ (Readable d ∧ (keyDay s).isSome)) :
    Answers fails db (.reading s i) db (.replacing s i)
  | merge (s : String) (i : ℤ) (fields : List (String × ℤ)) (hfails : fails = false) :
    Answers fails db (.merging s i fields) (Firestore.setMerge db fields) .returned
  | unmerged (s : String) (i : ℤ) (fields : List (String × ℤ)) (hfails : fails = true) :
    Answers fails db (.merging s i fields) db (.replacing s i)
  | replace (s : String) (i : ℤ) (hfails : fails = false) :
    Answers fails db (.replacing s i) (Firestore.set [(s, i)]) .returned
  /-- The last request has failed, or the user has signed out. -/
  | thrown (c : Call) (hc : ∀ s i, c = .replacing s i → fails = true) :
    Answers fails db c db .threw

/-- The `try` block merges one field, under a stored key or under the new one. -/
theorem chooseWrite_eq_ok {db : RecordDoc} {s : String} {i : ℤ} {fields : List (String × ℤ)}
    (h : chooseWrite db s i = .ok fields) :
    ∃ d k, db = some d ∧ Readable d ∧ fields = [(k, i)] ∧
      (newestKey d = some k ∧ Recorded d s ∨ k = s ∧ (keyDay s).isSome) := by
  cases db with
  | none => rw [chooseWrite_none] at h; cases h
  | some d =>
    by_cases hd : Readable d ∧ (keyDay s).isSome
    · by_cases hr : Recorded d s
      · obtain ⟨j, hj, -⟩ := id hr
        obtain ⟨k, hk⟩ := exists_newestKey hj
        rw [chooseWrite_recorded hd.1 hd.2 hr hk, Except.ok.injEq] at h
        exact ⟨d, k, rfl, hd.1, h.symm, Or.inl ⟨hk, hr⟩⟩
      · rw [chooseWrite_new hd.1 hd.2 hr, Except.ok.injEq] at h
        exact ⟨d, s, rfl, hd.1, h.symm, Or.inr ⟨rfl, hd.2⟩⟩
    · obtain ⟨e, he⟩ := chooseWrite_unreadable (i := i) hd
      rw [he] at h
      cases h

/-- On readable keys the `try` block gets to its write. -/
theorem not_readable_of_chooseWrite {db : RecordDoc} {s : String} {i : ℤ} {e : DartError}
    (h : chooseWrite db s i = .error e) (d : Document ℤ) (hdb : db = some d) :
    ¬ (Readable d ∧ (keyDay s).isSome) := by
  intro hd
  rw [hdb] at h
  by_cases hr : Recorded d s
  · obtain ⟨j, hj, -⟩ := id hr
    obtain ⟨k, hk⟩ := exists_newestKey hj
    rw [chooseWrite_recorded hd.1 hd.2 hr hk] at h
    cases h
  · rw [chooseWrite_new hd.1 hd.2 hr] at h
    cases h

theorem answers_of_answer {fails signedIn : Bool} {db db' : RecordDoc} {c c' : Call}
    (h : c.answer fails signedIn db = some (db', c')) : c.Answers fails db db' c' := by
  cases c with
  | reading s i =>
    cases fails with
    | true =>
      cases signedIn <;> simp only [Call.answer, Call.step, Call.proceed] at h <;> cases h
      · exact .thrown _ (by simp)
      · exact .unread s i (Or.inl rfl)
    | false =>
      cases hw : chooseWrite db s i with
      | ok fields =>
        obtain ⟨d, k, hdb, hd, rfl, hk⟩ := chooseWrite_eq_ok hw
        cases signedIn <;> simp only [Call.answer, Call.step, Call.proceed, hw] at h <;> cases h
        · exact .thrown _ (by simp)
        · exact .read s i d k rfl hdb hd hk
      | error e =>
        cases signedIn <;> simp only [Call.answer, Call.step, Call.proceed, hw] at h <;> cases h
        · exact .thrown _ (by simp)
        · exact .unread s i (Or.inr (not_readable_of_chooseWrite hw))
  | merging s i fields =>
    cases fails with
    | true =>
      cases signedIn <;> simp only [Call.answer, Call.step, Call.proceed] at h <;> cases h
      · exact .thrown _ (by simp)
      · exact .unmerged s i fields rfl
    | false =>
      simp only [Call.answer, Call.step, Call.proceed] at h
      cases h
      exact .merge s i fields rfl
  | replacing s i =>
    cases fails with
    | true =>
      simp only [Call.answer, Call.step, Call.proceed] at h
      cases h
      exact .thrown _ (by simp)
    | false =>
      simp only [Call.answer, Call.step, Call.proceed] at h
      cases h
      exact .replace s i rfl
  | returned => simp [Call.answer] at h
  | threw => simp [Call.answer] at h

/-! ## The calls of one user -/

/-- A call along with what it was called with. -/
structure Recording where
  s : String
  i : ℤ
  call : Call

/-- The call that a press starts. -/
def Recording.start (s : Timestamp) (i : ℤ) : Recording := ⟨s.text, i, .reading s.text i⟩

/-- How a request ends, and whether a user is signed in then. -/
structure Reply where
  fails : Bool
  signedIn : Bool

def Recording.answer (reply : Reply) (db : RecordDoc) (r : Recording) :
    Option (RecordDoc × Recording) :=
  (r.call.answer reply.fails reply.signedIn db).map fun a => (a.1, { r with call := a.2 })

/-- A press starts a call, which makes its first request. -/
def press (p : Timestamp × ℤ) (db : RecordDoc) : RecordDoc × List Recording :=
  (db, [Recording.start p.1 p.2])

/-- A user presses the button, or gets an answer. -/
def recordingStep : Pool RecordDoc Recording → Pool.Act (Timestamp × ℤ) Reply →
    Option (Pool RecordDoc Recording) :=
  Pool.step Recording.answer press

theorem answer_eq_some {reply : Reply} {db db' : RecordDoc} {r r' : Recording}
    (h : r.answer reply db = some (db', r')) :
    r.call.Answers reply.fails db db' r'.call ∧ r' = { r with call := r'.call } := by
  obtain ⟨⟨db₁, c⟩, ha, hr⟩ := Option.map_eq_some_iff.mp h
  obtain ⟨rfl, rfl⟩ := Prod.mk.inj hr
  exact ⟨answers_of_answer ha, rfl⟩

@[simp] theorem setMerge_one (db : RecordDoc) (k : String) (v : ℤ) :
    Firestore.setMerge db [(k, v)] = some ((fields db).insert k v) := rfl

/-! ## Where the entries come from -/

section
variable {K : String → Prop} {V : ℤ → Prop}

/-- All keys of a document are of a kind, and all of its values. -/
def Over (K : String → Prop) (V : ℤ → Prop) (db : RecordDoc) : Prop :=
  ∀ k v, (fields db)[k]? = some v → K k ∧ V v

/-- A call with such a key and such a value writes them only. -/
def Recording.From (K : String → Prop) (V : ℤ → Prop) (r : Recording) : Prop :=
  K r.s ∧ V r.i ∧
    match r.call with
    | .reading s i => s = r.s ∧ i = r.i
    | .merging s i fields => s = r.s ∧ i = r.i ∧ ∃ k, fields = [(k, r.i)] ∧ K k
    | .replacing s i => s = r.s ∧ i = r.i
    | .returned => True
    | .threw => True

theorem over_none : Over K V none := by
  intro k v h
  simp [fields] at h

theorem Over.insert {db : RecordDoc} (h : Over K V db) {k : String} {v : ℤ} (hk : K k) (hv : V v) :
    Over K V (some ((fields db).insert k v)) := by
  intro j w hj
  rw [fields_some, Document.getElem?_insert] at hj
  split at hj
  next hkj =>
    rw [Option.some.injEq] at hj
    exact ⟨hkj ▸ hk, hj ▸ hv⟩
  next => exact h j w hj

theorem Over.newestKey {d : Document ℤ} (h : Over K V (some d)) {k : String}
    (hk : newestKey d = some k) : K k := by
  obtain ⟨v, hv⟩ := (Document.mem_iff_exists d).mp (mem_of_newestKey hk)
  exact (h k v hv).1

/-- **What the document holds was recorded.**  No answer, failed or not, writes a
key or a value of another kind. -/
theorem keeps_over {reply : Reply} {db db' : RecordDoc} {r r' : Recording}
    (h : r.answer reply db = some (db', r')) (hdb : Over K V db) (hr : r.From K V) :
    Over K V db' ∧ r'.From K V := by
  obtain ⟨s, i, call⟩ := r
  obtain ⟨hanswer, hr'⟩ := answer_eq_some h
  obtain ⟨s', i', call'⟩ := r'
  cases hr'
  obtain ⟨hs, hi, hcall⟩ := hr
  cases hanswer with
  | read s₀ i₀ d k hfails hd hread hk =>
    obtain ⟨rfl, rfl⟩ := hcall
    refine ⟨hdb, hs, hi, rfl, rfl, k, rfl, ?_⟩
    rcases hk with ⟨hk, -⟩ | ⟨rfl, -⟩
    · exact Over.newestKey (hd ▸ hdb) hk
    · exact hs
  | unread => exact ⟨hdb, hs, hi, hcall⟩
  | merge s₀ i₀ fields =>
    obtain ⟨-, -, k, hfields, hk⟩ := hcall
    refine ⟨?_, hs, hi, trivial⟩
    rw [hfields, setMerge_one]
    exact hdb.insert hk hi
  | unmerged => exact ⟨hdb, hs, hi, hcall.1, hcall.2.1⟩
  | replace =>
    obtain ⟨rfl, rfl⟩ := hcall
    exact ⟨over_none.insert hs hi, hs, hi, trivial⟩
  | thrown => exact ⟨hdb, hs, hi, trivial⟩

end

/-! ## Calls that return -/

/-- The document exists with readable keys, those of `d` among them. -/
def Extends (d : Document ℤ) (db : RecordDoc) : Prop :=
  ∃ d', db = some d' ∧ Readable d' ∧ ∀ k ∈ d, k ∈ d'

/-- What is known of a call none of whose requests has failed. -/
def Recording.Sure (db : RecordDoc) (r : Recording) : Prop :=
  match r.call with
  | .reading s _ => s = r.s ∧ (keyDay r.s).isSome
  | .merging _ _ writes => ∃ k v, writes = [(k, v)] ∧ (keyDay k).isSome ∧
      (k = r.s ∨ Recorded (fields db) r.s)
  | .replacing _ _ => False
  | .returned => Recorded (fields db) r.s
  | .threw => True

theorem sure_start (db : RecordDoc) (s : Timestamp) (i : ℤ) : (Recording.start s i).Sure db :=
  ⟨rfl, s.readable⟩

theorem Recorded.insert {d : Document ℤ} {s : String} (h : Recorded d s) (k : String) (v : ℤ) :
    Recorded (d.insert k v) s :=
  recorded_insert.mpr (Or.inr h)

/-- What is known of a call stays so when a field is written. -/
theorem Recording.Sure.insert {d : Document ℤ} {r : Recording} (h : r.Sure (some d)) (k : String)
    (v : ℤ) : r.Sure (some (d.insert k v)) := by
  obtain ⟨s, i, call⟩ := r
  cases call with
  | reading | replacing | threw => exact h
  | merging s₀ i₀ writes =>
    obtain ⟨j, w, hwrites, hj, hor⟩ := h
    exact ⟨j, w, hwrites, hj, hor.imp_right fun hr => hr.insert k v⟩
  | returned => exact Recorded.insert h k v

/-- **As long as no request fails, keys stay, and a call that returns is in the
document.** -/
theorem keeps_sure {d : Document ℤ} {reply : Reply} (hreply : reply.fails = false)
    {db db' : RecordDoc} {r r' : Recording} (h : r.answer reply db = some (db', r')) :
    Pool.Keeps (Extends d) Recording.Sure db r db' r' := by
  intro hdb hr
  obtain ⟨s, i, call⟩ := r
  obtain ⟨hanswer, hr'⟩ := answer_eq_some h
  obtain ⟨s', i', call'⟩ := r'
  cases hr'
  rw [hreply] at hanswer
  obtain ⟨d', rfl, hread, hkeys⟩ := id hdb
  cases hanswer with
  | read s₀ i₀ d₁ k hfails hd₁ hread₁ hk =>
    obtain ⟨rfl, hs⟩ := hr
    cases hd₁
    refine ⟨hdb, ?_, fun q hq => hq⟩
    rcases hk with ⟨hk, hrec⟩ | ⟨rfl, -⟩
    · exact ⟨k, i₀, rfl, hread k (mem_of_newestKey hk), Or.inr hrec⟩
    · exact ⟨_, i₀, rfl, hs, Or.inl rfl⟩
  | unread s₀ i₀ hun =>
    obtain ⟨rfl, hs⟩ := hr
    rcases hun with hun | hun
    · cases hun
    · exact absurd ⟨hread, hs⟩ (hun d' rfl)
  | merge s₀ i₀ writes =>
    obtain ⟨k, v, rfl, hk, hor⟩ := hr
    rw [setMerge_one, fields_some]
    refine ⟨⟨d'.insert k v, rfl, hread.insert hk v, ?_⟩, ?_, fun q hq => hq.insert k v⟩
    · intro j hj
      exact (Document.mem_insert d').mpr (Or.inr (hkeys j hj))
    · rcases hor with rfl | hrec
      · exact recorded_insert.mpr (Or.inl rfl)
      · exact Recorded.insert hrec k v
  | unmerged s₀ i₀ writes hfails => cases hfails
  | replace => exact absurd hr id
  | thrown => exact ⟨hdb, trivial, fun q hq => hq⟩

end Record
end FlutterSugar
