import FlutterSugar.Listen.Events

/-!
# An app that hears of its own writes only

Nobody else may change the documents of a user.  As long as the app deletes nothing
and the server acknowledges what it writes, no overlay is left behind and no answer
is kept from a view: every stream shows the writes of the app, in their order, from
the moment they are made, also after the app has been started again.

## Main definitions

* `LocalStore.OwnWrites`, `Client.OwnWrites` — the app writes, the server acknowledges.
* `own_writes_shown` — what a stream then shows.
-/

namespace FlutterSugar
namespace Local
open Lib

variable {K V : Type} [DecidableEq K]

namespace LocalStore

variable {s t : LocalStore K V} {key : K} {writes : List (K × Write V)}

/-- The app writes, the server acknowledges a write, or the app is started again. -/
def OwnWrites (s : LocalStore K V) (act : Act K V) : Prop :=
  act = .start ∨ s.WritesOrAcknowledges act

instance [DecidableEq V] (s : LocalStore K V) : (act : Act K V) → Decidable (s.OwnWrites act)
  | .start => isTrue (Or.inl rfl)
  | .write key w => decidable_of_iff (s.WritesOrAcknowledges (.write key w)) (by simp [OwnWrites])
  | .acknowledge version =>
    decidable_of_iff (s.WritesOrAcknowledges (.acknowledge version)) (by simp [OwnWrites])
  | .reject | .remote _ _ => isFalse (by simp [OwnWrites, WritesOrAcknowledges])

omit [DecidableEq K] in
theorem getDocument_start (s : LocalStore K V) (key : K) :
    s.start.getDocument key = s.getDocument key := by
  rw [start]
  split <;> rfl

theorem Holds.start (h : s.Holds writes) : s.start.Holds writes := by
  obtain ⟨hinv, hsound⟩ := start_sound h.inv h.sound
  have hstep : step 0 s .start = some s.start := rfl
  exact ⟨hinv, hsound, h.queues.after hstep, h.deletes⟩

/-- **A step** shows the app its write, if it is one. -/
theorem Holds.own_step {arraySize : ℕ} (harray : arraySize = 0) (h : s.Holds writes)
    {act : Act K V} (hact : s.OwnWrites act) (hstep : step arraySize s act = some t) :
    s.NotStranded act ∧ t.Holds (outstandingAfter writes act) ∧
      ∀ key, stored (t.getDocument key) =
        (writesTo key [act]).foldl (fun d write => write.apply d) (stored (s.getDocument key)) := by
  rcases hact with rfl | hact
  · cases hstep
    refine ⟨trivial, h.start, ?_⟩
    intro key
    rw [getDocument_start]
    rfl
  · exact ⟨h.notStranded hact, h.after harray hact hstep, h.seen_step harray hact hstep⟩

/-- An acknowledgement does not revert what the app has seen. -/
theorem Holds.not_reverts (h : s.Holds writes) {version : SnapshotVersion}
    (hact : s.WritesOrAcknowledges (.acknowledge version)) {batch : MutationBatch K V}
    (hhead : s.mutationQueue.head? = some batch) :
    ¬ s.Reverts batch.key (s.applyBatchResult batch version) := by
  intro hreverts
  obtain ⟨t, hstep⟩ : ∃ t, step 0 s (.acknowledge version) = some t :=
    ⟨_, Option.map_eq_some_iff.mpr ⟨batch, hhead, rfl⟩⟩
  obtain ⟨batch', hhead', hanswer⟩ := Option.map_eq_some_iff.mp hstep
  obtain rfl : batch = batch' := Option.some.inj (hhead.symm.trans hhead')
  have hdoc := hreverts.getDocument_eq hanswer (h.after rfl hact hstep).sound
  have hseen : stored (t.getDocument batch.key) = stored (s.getDocument batch.key) :=
    h.seen_step rfl hact hstep batch.key
  rw [hdoc, stored, stored, if_pos hreverts.found, if_pos hreverts.seen, Option.some.injEq] at hseen
  exact hreverts.value (toDocument_injective hseen).symm

end LocalStore

end Local

namespace Listen
open Lib Local Local.LocalStore

variable {K V : Type} [DecidableEq K] [DecidableEq V]

namespace Client

variable {c c' : Client K V} {writes : List (K × Write V)}

/-- What a step is for the store is done by the app, or is an acknowledgement. -/
def OwnWrites (c : Client K V) (act : Act K V) : Prop :=
  ∀ storeAct, act.ofStore = some storeAct → c.store.OwnWrites storeAct

instance (c : Client K V) (act : Act K V) : Decidable (c.OwnWrites act) :=
  match h : act.ofStore with
  | none => isTrue (by simp [OwnWrites, h])
  | some storeAct => decidable_of_iff (c.store.OwnWrites storeAct) (by simp [OwnWrites, h])

omit [DecidableEq V] in
theorem delivers_of_ownWrites (h : c.store.Holds writes) {act : Act K V} (hact : c.OwnWrites act) :
    c.Delivers act := by
  cases act with
  | acknowledge version =>
    intro batch hhead _
    have hown := (hact _ rfl).resolve_left fun hstart => by cases hstart
    exact h.not_reverts hown hhead
  | reject =>
    have hown := (hact _ rfl).resolve_left fun hstart => by cases hstart
    cases hown
  | write | remote | onlineState | listen | remove | rejectListen | restart => trivial

/-- What a step does to the store. -/
theorem own_storeStep {arraySize : ℕ} (harray : arraySize = 0) (h : c.store.Holds writes)
    {act : Act K V} (hact : c.OwnWrites act) (hstep : step arraySize c act = some c') :
    c.NotStranded act ∧ (∃ writes', c'.store.Holds writes') ∧
      ∀ key, stored (c'.store.getDocument key) =
        (writesTo key act.ofStore.toList).foldl (fun d write => write.apply d)
          (stored (c.store.getDocument key)) := by
  have hstore := store_step hstep
  cases hof : act.ofStore with
  | none =>
    rw [hof, Option.toList_none, run_nil, Option.some.injEq] at hstore
    rw [← hstore]
    refine ⟨?_, ⟨writes, h⟩, fun _ => rfl⟩
    intro storeAct hsome
    rw [hof] at hsome
    cases hsome
  | some storeAct =>
    rw [hof, Option.toList_some, run_cons_eq_some] at hstore
    obtain ⟨t, ht, hrun⟩ := hstore
    rw [run_nil, Option.some.injEq] at hrun
    rw [hrun] at ht
    obtain ⟨hstranded, hholds, hseen⟩ := h.own_step harray (hact _ hof) ht
    refine ⟨?_, ⟨_, hholds⟩, hseen⟩
    intro storeAct' hsome
    rw [hof, Option.some.injEq] at hsome
    exact hsome ▸ hstranded

/-- **A step** shows the app its write, if it is one, and tells the views. -/
theorem own_step {arraySize : ℕ} (harray : arraySize = 0) (hc : c.Sound)
    (h : c.store.Holds writes) {act : Act K V} (hact : c.OwnWrites act)
    (hstep : step arraySize c act = some c') :
    c'.Sound ∧ (∃ writes', c'.store.Holds writes') ∧
      ∀ key, stored (c'.store.getDocument key) =
        (writesTo key act.ofStore.toList).foldl (fun d write => write.apply d)
          (stored (c.store.getDocument key)) := by
  obtain ⟨hallowed, hholds, hseen⟩ := own_storeStep harray h hact hstep
  have hsound := (sound_step harray hc hallowed hstep).1.mpr (delivers_of_ownWrites h hact)
  exact ⟨hsound, hholds, hseen⟩

/-- **A run** shows the app its writes. -/
theorem own_run {arraySize : ℕ} (harray : arraySize = 0) {acts : List (Act K V)} (hc : c.Sound)
    (h : c.store.Holds writes) (hok : StepsMeet (step arraySize) OwnWrites c acts)
    (hrun : run (step arraySize) c acts = some c') :
    c'.Sound ∧ ∀ key, stored (c'.store.getDocument key) =
      (writesTo key (storeActs acts)).foldl (fun d write => write.apply d)
        (stored (c.store.getDocument key)) := by
  induction acts generalizing c writes with
  | nil =>
    cases hrun
    exact ⟨hc, fun _ => rfl⟩
  | cons act acts ih =>
    obtain ⟨u, hu, hrun⟩ := run_cons_eq_some.mp hrun
    obtain ⟨hact, hok⟩ := (stepsMeet_cons hu).mp hok
    obtain ⟨hsound, ⟨writes', hholds⟩, hfirst⟩ := own_step harray hc h hact hu
    obtain ⟨hsound', hrest⟩ := ih hsound hholds hok hrun
    refine ⟨hsound', fun key => ?_⟩
    have hsplit : writesTo key (storeActs (act :: acts)) =
        writesTo key act.ofStore.toList ++ writesTo key (storeActs acts) := by
      rw [storeActs_cons]
      exact List.filterMap_append
    rw [hrest, hfirst, hsplit, List.foldl_append]

/-- **A stream shows the writes of the app**, those to its document in their order, from
the moment they are made; that the server acknowledges them changes nothing. -/
theorem own_writes_shown {arraySize : ℕ} (harray : arraySize = 0) {cache : K → MutableDocument V}
    (hcache : ∀ key, (cache key).hasLocalMutations = false) {acts : List (Act K V)}
    (hok : StepsMeet (step arraySize) OwnWrites (idle cache) acts)
    (hrun : run (step arraySize) (idle cache) acts = some c) {key : K}
    {info : QueryListenersInfo V} (hinfo : c.queries key = some info) {l : QueryListener V}
    (hl : l ∈ info.listeners) {event : DocumentSnapshot V}
    (hevent : l.events.getLast? = some event) :
    shown event.document =
      (writesTo key (storeActs acts)).foldl (fun d write => write.apply d)
        (stored (cache key)) := by
  obtain ⟨hsound, hseen⟩ := own_run harray (sound_idle hcache) (Holds.idle hcache) hok hrun
  have hcurrent := ((hsound.attended key info hinfo).listens l hl).current event hevent
  rw [hsound.shown_eq hinfo hcurrent]
  exact hseen key

theorem own_writes_shown_listenAndWrite : ∃ c event,
    run (step 0) (idle nothingCached) listenAndWrite = some c ∧ c.lastEvent "a" = some event ∧
      shown event.document =
        (writesTo "a" (storeActs listenAndWrite)).foldl (fun d write => write.apply d)
          (stored (nothingCached "a")) := by
  obtain ⟨c, event, hrun, hlast⟩ := lastEvent_listenAndWrite
  obtain ⟨info, hinfo, l, hl, hevent⟩ := exists_of_lastEvent hlast
  have hok : StepsMeet (step 0) OwnWrites (idle nothingCached) listenAndWrite := by decide +kernel
  exact ⟨c, event, hrun, hlast, own_writes_shown rfl nothingCached_synced hok hrun hinfo hl hevent⟩

end Client

end Listen
end FlutterSugar
