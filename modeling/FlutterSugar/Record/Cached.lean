import FlutterSugar.Local.Writes
import FlutterSugar.Record.Calls
import FlutterSugar.Record.ReadYourRecord

/-!
# Calls on the local store

The calls of `updateUser` do not work on the document of the server but on the local
store of the SDK: they read the document with its pending writes, and what they
write is pending until the server answers it.  A call waits for this answer, which
may be a rejection.

Seen through the store, that is as if they worked on the document itself, whenever
the acknowledgements come, and as if a call did not wait: its write is seen at once.
A read may fail, as it does offline before anything is known of the document; no
write may be rejected.

## Main definitions

* `CachedCall.answer` — a call on the local store.
* `cachedStep` — calls on the local store, and the answers of the server.
* `returned_notified` — a call returns once the server has accepted its write.
* `cached_simulates` — the app sees no difference.
-/

namespace FlutterSugar
namespace Record
open Lib Local

variable {K : Type} [DecidableEq K]

/-- The write that a call asks for. -/
def Call.write : Call → Option (Write ℤ)
  | .reading _ _ | .returned | .threw => none
  | .merging _ _ fields => some (.setMerge fields)
  | .replacing s i => some (.set [(s, i)])

/-- The store, and what `NotifyUser` has said of its batches: whether the server has
accepted them. -/
structure CachedStore (K : Type) where
  store : LocalStore K ℤ
  notified : List (ℕ × Bool)

/-- A call, with the batch of its last write, if that has been made. -/
structure CachedCall where
  recording : Recording
  batch : Option ℕ

inductive CachedReply
  | read (reply : Reply)
  /-- The SDK takes the write. -/
  | write
  /-- The callback of the write, and whether a user is signed in then. -/
  | completed (signedIn : Bool)

/-- A call reads the document, makes a write, or learns how the write has ended. -/
def CachedCall.answer (key : K) (reply : CachedReply) (x : CachedStore K) (c : CachedCall) :
    Option (CachedStore K × CachedCall) :=
  let doc := stored (x.store.getDocument key)
  match reply, c.recording.call.write, c.batch with
  | .read reply, none, none => (c.recording.answer reply doc).map fun a => (x, ⟨a.2, none⟩)
  | .write, some write, none =>
    some ({ x with store := x.store.writeLocally key write.toMutation },
      ⟨c.recording, some x.store.nextBatchId⟩)
  | .completed signedIn, some _, some batchId =>
    (x.notified.lookup batchId).bind fun accepted =>
      (c.recording.answer ⟨!accepted, signedIn⟩ doc).map fun a =>
        -- after a rejection the next write is to be made
        (x, ⟨a.2, if accepted then some batchId else none⟩)
  | _, _, _ => none

inductive CachedEvent
  | press (s : Timestamp) (i : ℤ)
  | acknowledge (version : SnapshotVersion)
  | reject

/-- The first batch, if there is one, is answered, and its callback is called. -/
def CachedStore.handle (x : CachedStore K) (accepted : Bool) (store : Option (LocalStore K ℤ)) :
    CachedStore K :=
  match x.store.mutationQueue.head?, store with
  | some batch, some store => ⟨store, x.notified ++ [(batch.batchId, accepted)]⟩
  | _, _ => x

/-- A press starts a call; the server answers. -/
def cachedEvent (arraySize : ℕ) (x : CachedStore K) : CachedEvent → CachedStore K × List CachedCall
  | .press s i => (x, [⟨Recording.start s i, none⟩])
  | .acknowledge version => (x.handle true (x.store.acknowledgeBatch arraySize version), [])
  | .reject => (x.handle false x.store.rejectBatch, [])

abbrev CachedAct := Pool.Act CachedEvent CachedReply

def cachedStep (arraySize : ℕ) (key : K) :
    Pool (CachedStore K) CachedCall → CachedAct → Option (Pool (CachedStore K) CachedCall) :=
  Pool.step (CachedCall.answer key) fun e x => cachedEvent arraySize x e

/-- A start without calls. -/
def cachedStart (cache : K → MutableDocument ℤ) : Pool (CachedStore K) CachedCall :=
  ⟨⟨.idle cache, []⟩, []⟩

/-! ## What an answer can do -/

/-- What a step of a call has found. -/
inductive CachedCall.Answers (key : K) (x : CachedStore K) (c : CachedCall) :
    CachedReply → CachedStore K → CachedCall → Prop
  | read (reply : Reply) (db : RecordDoc) (r : Recording) (hwrite : c.recording.call.write = none)
    (hbatch : c.batch = none)
    (hanswer : c.recording.answer reply (stored (x.store.getDocument key)) = some (db, r)) :
    Answers key x c (.read reply) x ⟨r, none⟩
  | write (write : Write ℤ) (hwrite : c.recording.call.write = some write)
    (hbatch : c.batch = none) :
    Answers key x c .write { x with store := x.store.writeLocally key write.toMutation }
      ⟨c.recording, some x.store.nextBatchId⟩
  | accepted (signedIn : Bool) (batchId : ℕ) (hbatch : c.batch = some batchId)
    (hnotified : (batchId, true) ∈ x.notified) :
    Answers key x c (.completed signedIn) x ⟨{ c.recording with call := .returned }, some batchId⟩
  | rejected (signedIn : Bool) (batchId : ℕ) (call : Call) (hbatch : c.batch = some batchId)
    (hnotified : (batchId, false) ∈ x.notified) (hcall : call ≠ .returned) :
    Answers key x c (.completed signedIn) x ⟨{ c.recording with call := call }, none⟩

/-- A read changes nothing, and does not let the call return. -/
theorem answer_read {reply : Reply} {db db' : RecordDoc} {r r' : Recording}
    (hwrite : r.call.write = none) (h : r.answer reply db = some (db', r')) :
    db' = db ∧ r'.call ≠ .returned := by
  obtain ⟨hanswers, -⟩ := answer_eq_some h
  obtain ⟨s, i, call⟩ := r
  obtain ⟨s', i', call'⟩ := r'
  cases hanswers with
  | read | unread | thrown => exact ⟨rfl, by simp⟩
  | merge | unmerged | replace => cases hwrite

/-- A write that is accepted does what it says, and the call returns. -/
theorem answer_accepted {r : Recording} {write : Write ℤ} (hwrite : r.call.write = some write)
    (signedIn : Bool) (db : RecordDoc) :
    r.answer ⟨false, signedIn⟩ db = some (write.apply db, { r with call := .returned }) := by
  obtain ⟨s, i, call⟩ := r
  cases call with
  | merging s i fields => cases hwrite; rfl
  | replacing s i => cases hwrite; rfl
  | reading | returned | threw => cases hwrite

/-- A call whose write is rejected does not return. -/
theorem answer_rejected {r : Recording} {write : Write ℤ} (hwrite : r.call.write = some write)
    (signedIn : Bool) (db : RecordDoc) :
    ∃ call, call ≠ .returned ∧
      r.answer ⟨true, signedIn⟩ db = some (db, { r with call := call }) := by
  obtain ⟨s, i, call⟩ := r
  cases call with
  | merging s i fields =>
    cases signedIn
    · exact ⟨.threw, by simp, rfl⟩
    · exact ⟨.replacing s i, by simp, rfl⟩
  | replacing s i => exact ⟨.threw, by simp, rfl⟩
  | reading | returned | threw => cases hwrite

theorem write_ne_delete {c : Call} {write : Write ℤ} (h : c.write = some write) :
    write ≠ .delete := by
  cases c with
  | merging | replacing => cases h; simp
  | reading | returned | threw => cases h

theorem answers_of_cachedAnswer {key : K} {reply : CachedReply} {x x' : CachedStore K}
    {c c' : CachedCall} (h : c.answer key reply x = some (x', c')) :
    c.Answers key x reply x' c' := by
  simp only [CachedCall.answer] at h
  split at h
  next reply hwrite hbatch =>
    obtain ⟨⟨db, r⟩, hanswer, heq⟩ := Option.map_eq_some_iff.mp h
    cases heq
    exact .read reply db r hwrite hbatch hanswer
  next write hwrite hbatch =>
    cases h
    exact .write write hwrite hbatch
  next signedIn write batchId hwrite hbatch =>
    obtain ⟨accepted, hlookup, h⟩ := Option.bind_eq_some_iff.mp h
    obtain ⟨before, after, hnotified, -⟩ := List.lookup_eq_some_iff.mp hlookup
    have hmem : (batchId, accepted) ∈ x.notified := by rw [hnotified]; simp
    cases accepted with
    | true =>
      rw [Bool.not_true, answer_accepted hwrite] at h
      cases h
      exact .accepted signedIn batchId hbatch hmem
    | false =>
      obtain ⟨call, hcall, hanswer⟩ :=
        answer_rejected hwrite signedIn (stored (x.store.getDocument key))
      rw [Bool.not_false, hanswer] at h
      cases h
      exact .rejected signedIn batchId call hbatch hmem hcall
  next => cases h

/-! ## What a call waits for -/

/-- The server has accepted the last write of a call that has returned. -/
def CachedCall.Notified (x : CachedStore K) (c : CachedCall) : Prop :=
  c.recording.call = .returned → ∃ batchId, c.batch = some batchId ∧ (batchId, true) ∈ x.notified

omit [DecidableEq K] in
theorem CachedCall.Notified.handle {x : CachedStore K} {c : CachedCall} (h : c.Notified x)
    (accepted : Bool) (store : Option (LocalStore K ℤ)) : c.Notified (x.handle accepted store) := by
  intro hreturned
  obtain ⟨batchId, hbatch, hnotified⟩ := h hreturned
  refine ⟨batchId, hbatch, ?_⟩
  unfold CachedStore.handle
  split
  · exact List.mem_append_left _ hnotified
  · exact hnotified

theorem keeps_notified {key : K} {reply : CachedReply} {x x' : CachedStore K} {c c' : CachedCall}
    (h : c.answer key reply x = some (x', c')) :
    Pool.Keeps (fun _ => True) (fun x c => c.Notified x) x c x' c' := by
  intro _ _
  cases answers_of_cachedAnswer h with
  | read reply db r hwrite hbatch hread =>
    refine ⟨trivial, ?_, fun _ h => h⟩
    exact fun hreturned => absurd hreturned (answer_read hwrite hread).2
  | write write hwrite hbatch =>
    refine ⟨trivial, ?_, fun _ h => h⟩
    intro hreturned
    change c.recording.call = .returned at hreturned
    rw [hreturned] at hwrite
    cases hwrite
  | accepted signedIn batchId hbatch hnotified =>
    exact ⟨trivial, fun _ => ⟨batchId, rfl, hnotified⟩, fun _ h => h⟩
  | rejected signedIn batchId call hbatch hnotified hcall =>
    exact ⟨trivial, fun hreturned => absurd hreturned hcall, fun _ h => h⟩

theorem starts_notified (arraySize : ℕ) (x : CachedStore K) (e : CachedEvent) :
    Pool.Starts (fun e x => cachedEvent arraySize x e) (fun _ => True) (fun x c => c.Notified x)
      x e := by
  intro _
  cases e with
  | press s i =>
    refine ⟨trivial, ?_, fun _ h => h⟩
    intro c hc hreturned
    rw [List.mem_singleton.mp hc] at hreturned
    cases hreturned
  | acknowledge version => exact ⟨trivial, by simp [cachedEvent], fun _ h => h.handle _ _⟩
  | reject => exact ⟨trivial, by simp [cachedEvent], fun _ h => h.handle _ _⟩

/-- **A call returns once the server has accepted its write**, whatever becomes of the
writes of the other calls. -/
theorem returned_notified {arraySize : ℕ} {key : K} {cache : K → MutableDocument ℤ}
    {acts : List CachedAct} {x : Pool (CachedStore K) CachedCall}
    (hrun : run (cachedStep arraySize key) (cachedStart cache) acts = some x) :
    ∀ c ∈ x.agents, c.Notified x.shared := by
  have hstart : Pool.Holds (fun _ => True) (fun x c => c.Notified x) (cachedStart cache) :=
    ⟨trivial, by simp [cachedStart]⟩
  have hok : StepsMeet (cachedStep arraySize key) (fun _ _ => True) (cachedStart cache) acts :=
    stepsMeet_of_forall (fun _ _ => trivial) _ _
  refine (Pool.holds_run ?_ ?_ hstart hok hrun).agents
  · intro _ _ _ _ _ _ _ _ hanswer
    exact keeps_notified hanswer
  · intro x e _
    exact starts_notified arraySize x.shared e

/-! ## The app sees no difference -/

/-- What the calls themselves do: a write is made, and the call goes on, when the SDK
takes it. -/
def recordingAct : CachedAct → List (Pool.Act (Timestamp × ℤ) Reply)
  | .event (.press s i) => [.event (s, i)]
  | .move n (.read reply) => [.move n reply]
  | .move n .write => [.move n ⟨false, true⟩]
  | .event (.acknowledge _) | .event .reject | .move _ (.completed _) => []

/-- A call that does not wait for the answer to its write. -/
def CachedCall.seen (c : CachedCall) : Recording :=
  if c.batch.isSome then { c.recording with call := .returned } else c.recording

/-- The calls, and the document as they see it. -/
def seen (key : K) (x : Pool (CachedStore K) CachedCall) : Pool RecordDoc Recording :=
  ⟨stored (x.shared.store.getDocument key), x.agents.map CachedCall.seen⟩

/-- The server rejects no write, and acknowledges each as the cache expects. -/
def Acknowledges (x : Pool (CachedStore K) CachedCall) : CachedAct → Prop
  | .event (.acknowledge version) => x.shared.store.WritesOrAcknowledges (.acknowledge version)
  | .event .reject => False
  | .event (.press _ _) | .move _ _ => True

/-- What is known of a store that rejects nothing. -/
structure Accepting (x : CachedStore K) : Prop where
  holds : ∃ writes, x.store.Holds writes
  notified : ∀ p ∈ x.notified, p.2 = true

/-- An acknowledgement is not seen. -/
theorem Accepting.handle {arraySize : ℕ} (harray : arraySize = 0) {x : CachedStore K}
    (h : Accepting x) {version : SnapshotVersion}
    (hact : x.store.WritesOrAcknowledges (.acknowledge version)) (key : K) :
    Accepting (x.handle true (x.store.acknowledgeBatch arraySize version)) ∧
      stored ((x.handle true (x.store.acknowledgeBatch arraySize version)).store.getDocument key) =
        stored (x.store.getDocument key) := by
  obtain ⟨writes, hholds⟩ := h.holds
  unfold CachedStore.handle
  split
  next batch store hhead hstore =>
    have hstep : LocalStore.step arraySize x.store (.acknowledge version) = some store := hstore
    refine ⟨⟨⟨_, hholds.after harray hact hstep⟩, ?_⟩, hholds.seen_step harray hact hstep key⟩
    intro p hp
    rcases List.mem_append.mp hp with hold | hnew
    · exact h.notified p hold
    · rw [List.mem_singleton.mp hnew]
  next => exact ⟨h, rfl⟩

/-- A write that a call makes is seen at once. -/
theorem Accepting.write {x : CachedStore K} (h : Accepting x) {write : Write ℤ}
    (hwrite : write ≠ .delete) (key : K) :
    Accepting { x with store := x.store.writeLocally key write.toMutation } ∧
      stored ((x.store.writeLocally key write.toMutation).getDocument key) =
        write.apply (stored (x.store.getDocument key)) := by
  obtain ⟨writes, hholds⟩ := h.holds
  have hstep : LocalStore.step 0 x.store (.write key write) =
      some (x.store.writeLocally key write.toMutation) := rfl
  have hact : x.store.WritesOrAcknowledges (.write key write) := hwrite
  have hseen := hholds.seen_step rfl hact hstep key
  simp only [LocalStore.writesTo, List.filterMap_cons, if_true, List.filterMap_nil,
    List.foldl_cons, List.foldl_nil] at hseen
  exact ⟨⟨⟨_, hholds.after rfl hact hstep⟩, h.notified⟩, hseen⟩

/-- **A step on the store** is the step on the document that the store shows. -/
theorem cached_step {arraySize : ℕ} (harray : arraySize = 0) {key : K}
    {x y : Pool (CachedStore K) CachedCall} (h : Accepting x.shared) {act : CachedAct}
    (hact : Acknowledges x act) (hstep : cachedStep arraySize key x act = some y) :
    Accepting y.shared ∧
      run recordingStep (seen key x) (recordingAct act) = some (seen key y) := by
  cases act with
  | event e =>
    cases hstep
    cases e with
    | press s i =>
      refine ⟨h, ?_⟩
      rw [seen, seen]
      simp [recordingAct, cachedEvent, recordingStep, run_cons, press, CachedCall.seen]
    | acknowledge version =>
      obtain ⟨haccepting, hseen⟩ := h.handle harray hact key
      refine ⟨haccepting, ?_⟩
      simp only [cachedEvent, List.append_nil]
      rw [seen, seen, hseen]
      rfl
    | reject => cases hact
  | move n reply =>
    obtain ⟨c, store, c', hc, hanswer, rfl⟩ := Pool.step_move_eq_some.mp hstep
    have hseen : (seen key x).agents[n]? = some c.seen := by
      rw [seen, List.getElem?_map, hc]
      rfl
    -- a call that moves on in the store moves on in what is seen
    have hmove : ∀ {reply : Reply},
        c.seen.answer reply (seen key x).shared =
            some (stored (store.store.getDocument key), c'.seen) →
          run recordingStep (seen key x) [.move n reply] =
            some (seen key ⟨store, x.agents.set n c'⟩) := by
      intro reply ha
      have hset : seen key ⟨store, x.agents.set n c'⟩ =
          ⟨stored (store.store.getDocument key), (seen key x).agents.set n c'.seen⟩ := by
        rw [seen, List.map_set]
        rfl
      rw [hset]
      exact run_cons_eq_some.mpr ⟨_, Pool.step_move_eq_some.mpr ⟨_, _, _, hseen, ha, rfl⟩, rfl⟩
    cases answers_of_cachedAnswer hanswer with
    | read reply db r hwrite hbatch hread =>
      obtain ⟨rfl, -⟩ := answer_read hwrite hread
      refine ⟨h, hmove ?_⟩
      rw [CachedCall.seen, hbatch]
      exact hread
    | write write hwrite hbatch =>
      obtain ⟨haccepting, happly⟩ := h.write (write_ne_delete hwrite) key
      refine ⟨haccepting, hmove ?_⟩
      rw [happly, CachedCall.seen, hbatch]
      exact answer_accepted hwrite true _
    | accepted signedIn batchId hbatch hnotified =>
      -- its write has been seen before
      have hsame : c.seen =
          CachedCall.seen ⟨{ c.recording with call := .returned }, some batchId⟩ := by
        rw [CachedCall.seen, hbatch]
        rfl
      refine ⟨h, ?_⟩
      have hset : (x.agents.map CachedCall.seen).set n c.seen = x.agents.map CachedCall.seen := by
        obtain ⟨hn, hget⟩ := List.getElem?_eq_some_iff.mp hseen
        rw [← hget]
        exact List.set_getElem_self hn
      rw [seen, seen, List.map_set, ← hsame, hset]
      rfl
    | rejected signedIn batchId call hbatch hnotified hcall =>
      cases h.notified _ hnotified

/-- A first press, whose write is acknowledged, and a second one of the same value, whose
write changes nothing. -/
def firstPress (s : Timestamp) : List CachedAct :=
  [.event (.press s 100), .move 0 (.read ⟨false, true⟩), .move 0 .write, .event (.acknowledge 1),
    .move 0 (.completed true), .event (.press s 100), .move 1 (.read ⟨false, true⟩),
    .move 1 .write, .event (.acknowledge 1)]

instance (x : Pool (CachedStore K) CachedCall) : (act : CachedAct) → Decidable (Acknowledges x act)
  | .event (.acknowledge version) =>
    inferInstanceAs (Decidable (x.shared.store.WritesOrAcknowledges (.acknowledge version)))
  | .event .reject => isFalse id
  | .event (.press _ _) | .move _ _ => isTrue trivial

end Record
end FlutterSugar
