import FlutterSugar.Listen.Streams

/-!
# What the app is told

The app listens to a document, or reads it once.  A read is a listener as well, one
that waits for the server as long as the client takes itself to be online, and that
is removed after its first event.

Both are told what the local store has: the document of the server with the writes
on it that the server has not answered.

## Main definitions

* `shown` — the data of an event.
* `Client.storeActs` — what a run of the client is for its store.
* `stream_shows` — what the last event of a stream shows.
* `get_answers` — what a read answers.
-/

namespace FlutterSugar.Listen
open Lib Local Local.LocalStore

variable {K V : Type} [DecidableEq K] [DecidableEq V]

/-- `snapshot.data()` of a document. -/
def shown (document : Option (MutableDocument V)) : Stored V := (fieldsOf document).map toDocument

omit [DecidableEq V] in
theorem stored_eq (doc : MutableDocument V) :
    stored doc = (fieldsOf (matching doc)).map toDocument := by
  rw [stored, matching]
  split <;> rfl

namespace Client

variable {c c' : Client K V}

def storeActs (acts : List (Act K V)) : List (LocalStore.Act K V) := acts.filterMap Act.ofStore

omit [DecidableEq K] [DecidableEq V] in
theorem storeActs_cons (act : Act K V) (acts : List (Act K V)) :
    storeActs (act :: acts) = act.ofStore.toList ++ storeActs acts := by
  cases hact : act.ofStore <;> simp [storeActs, hact]

/-- A step of the client is a step of its store, or leaves it alone. -/
theorem store_step {arraySize : ℕ} {act : Act K V} (hstep : step arraySize c act = some c') :
    run (LocalStore.step arraySize) c.store act.ofStore.toList = some c'.store := by
  have hstore : ∀ {storeAct : LocalStore.Act K V} {targets : K → Option TargetChange},
      c.storeStep arraySize storeAct targets = some c' →
        run (LocalStore.step arraySize) c.store [storeAct] = some c'.store := by
    intro storeAct targets hstep
    obtain ⟨store, hstore, rfl⟩ := storeStep_eq_some.mp hstep
    exact run_cons_eq_some.mpr ⟨store, hstore, rfl⟩
  cases act with
  | write key write => exact hstore hstep
  | acknowledge version => exact hstore hstep
  | reject => exact hstore hstep
  | remote update targets =>
    cases update with
    | some update => exact hstore hstep
    | none =>
      cases hstep
      rfl
  | onlineState state =>
    cases hstep
    rfl
  | listen key options target =>
    cases hstep
    rfl
  | remove key n =>
    cases hstep
    rfl
  | rejectListen key =>
    cases hstep
    rfl
  | restart =>
    cases hstep
    rfl

/-- **A run of the client** is a run of its store. -/
theorem store_run {arraySize : ℕ} {acts : List (Act K V)}
    (hrun : run (step arraySize) c acts = some c') :
    run (LocalStore.step arraySize) c.store (storeActs acts) = some c'.store := by
  induction acts generalizing c with
  | nil =>
    cases hrun
    rfl
  | cons act acts ih =>
    obtain ⟨u, hu, hrun⟩ := run_cons_eq_some.mp hrun
    rw [storeActs_cons]
    exact run_append_eq_some (store_step hu) (ih hrun)

/-- After steps that are delivered the views have the documents of the store. -/
theorem sound_run {arraySize : ℕ} (harray : arraySize = 0) {cache : K → MutableDocument V}
    (hcache : ∀ key, (cache key).hasLocalMutations = false) {acts : List (Act K V)}
    (hallowed : StepsMeet (step arraySize) NotStranded (idle cache) acts)
    (hok : StepsMeet (step arraySize) Delivers (idle cache) acts)
    (hrun : run (step arraySize) (idle cache) acts = some c) : c.Sound := by
  refine run_invariant (P := Sound) ?_ (sound_idle hcache) (stepsMeet_and hallowed hok) hrun
  intro c act c' hc hact hstep
  exact (sound_step harray hc hact.1 hstep).1.mpr hact.2

omit [DecidableEq V] in
/-- The data of an event that shows a view which has the document of the store. -/
theorem Sound.shown_eq (h : c.Sound) {key : K}
    {info : QueryListenersInfo V} (hinfo : c.queries key = some info) {options : ListenOptions}
    {event : DocumentSnapshot V} (hcurrent : Current options info.view event) :
    shown event.document = stored (c.store.getDocument key) := by
  rw [shown, hcurrent.fields, (h.follows key info hinfo).fields, stored_eq]

/-- **What a stream shows.**  The last event of each listener has the document of the
server with the writes on it that the server has not answered, as long as no overlay
is left behind and no answer is kept from its view. -/
theorem stream_shows {arraySize : ℕ} (harray : arraySize = 0) {cache : K → MutableDocument V}
    (hcache : ∀ key, (cache key).hasLocalMutations = false) {acts : List (Act K V)}
    (hallowed : StepsMeet (step arraySize) NotStranded (idle cache) acts)
    (hok : StepsMeet (step arraySize) Delivers (idle cache) acts)
    (hrun : run (step arraySize) (idle cache) acts = some c) {key : K}
    {info : QueryListenersInfo V} (hinfo : c.queries key = some info) {l : QueryListener V}
    (hl : l ∈ info.listeners) {event : DocumentSnapshot V}
    (hevent : l.events.getLast? = some event) :
    shown event.document =
      (outstandingTo key (storeActs acts)).foldl (fun d write => write.apply d)
        (stored (c.store.remoteDocumentCache key)) := by
  have hc := sound_run harray hcache hallowed hok hrun
  have hcurrent := ((hc.attended key info hinfo).listens l hl).current event hevent
  rw [hc.shown_eq hinfo hcurrent]
  exact hc.store.2.stored_getDocument hc.store.1 ((queues_run (store_run hrun)).pending key)

/-- The acknowledged write is what the app has seen. -/
theorem delivers_listenAndWrite :
    StepsMeet (step 0) Delivers (idle nothingCached) listenAndWrite := by
  refine ⟨trivial, fun c hc => ?_⟩
  cases hc
  refine ⟨trivial, fun c hc => ?_⟩
  cases hc
  refine ⟨?_, fun _ _ => trivial⟩
  rintro batch hhead - hreverts
  cases hhead
  refine hreverts.value ?_
  decide +kernel

theorem stream_shows_listenAndWrite : ∃ c event,
    run (step 0) (idle nothingCached) listenAndWrite = some c ∧ c.lastEvent "a" = some event ∧
      shown event.document =
        (outstandingTo "a" (storeActs listenAndWrite)).foldl (fun d write => write.apply d)
          (stored (c.store.remoteDocumentCache "a")) := by
  obtain ⟨c, event, hrun, hlast⟩ := lastEvent_listenAndWrite
  obtain ⟨info, hinfo, l, hl, hevent⟩ := exists_of_lastEvent hlast
  exact ⟨c, event, hrun, hlast, stream_shows rfl nothingCached_synced notStranded_listenAndWrite
    delivers_listenAndWrite hrun hinfo hl hevent⟩

/-- **What a read answers.**  It fails if the app sees no document and the view is not
in sync with the server; if it does not, it answers with what the app sees. -/
theorem get_answers {arraySize : ℕ} (harray : arraySize = 0) {cache : K → MutableDocument V}
    (hcache : ∀ key, (cache key).hasLocalMutations = false) {acts : List (Act K V)}
    (hallowed : StepsMeet (step arraySize) NotStranded (idle cache) acts)
    (hok : StepsMeet (step arraySize) Delivers (idle cache) acts)
    (hrun : run (step arraySize) (idle cache) acts = some c) {key : K}
    {info : QueryListenersInfo V} (hinfo : c.queries key = some info) {l : QueryListener V}
    (hl : l ∈ info.listeners) (hget : l.options = .ofGet) {event : DocumentSnapshot V}
    (hevent : l.events = [event]) :
    (listenOnce event).map (fun answer => shown answer.document) =
      if stored (c.store.getDocument key) = none ∧ info.view.syncState = .local then none
      else some (stored (c.store.getDocument key)) := by
  have hc := sound_run harray hcache hallowed hok hrun
  have hcurrent := ((hc.attended key info hinfo).listens l hl).current event (by simp [hevent])
  have hshown := hc.shown_eq hinfo hcurrent
  have hfromCache : event.fromCache = decide (info.view.syncState = .local) :=
    hcurrent.fromCache (by rw [hget]; rfl)
  have hmissing : event.document = none ↔ stored (c.store.getDocument key) = none := by
    rw [← hshown, shown, fieldsOf, Option.map_map, Option.map_eq_none_iff]
  have hfails : event.document.isNone ∧ event.fromCache ↔
      stored (c.store.getDocument key) = none ∧ info.view.syncState = .local := by
    rw [Option.isNone_iff_eq_none, hmissing, hfromCache, decide_eq_true_iff]
  rw [listenOnce]
  by_cases hfail : stored (c.store.getDocument key) = none ∧ info.view.syncState = .local
  · rw [if_pos (hfails.mpr hfail), if_pos hfail, Option.map_none]
  · rw [if_neg (mt hfails.mp hfail), if_neg hfail, Option.map_some, hshown]

/-- The app writes a document, and reads it while it is offline. -/
def writeAndGet : List (Act String ℤ) :=
  [.write "a" (.setMerge [("b", 1)]), .listen "a" .ofGet ⟨false, false⟩, .onlineState .offline]

theorem get_answers_writeAndGet : ∃ c info event,
    run (step 0) (idle nothingCached) writeAndGet = some c ∧ c.queries "a" = some info ∧
      (listenOnce event).map (fun answer => shown answer.document) =
        if stored (c.store.getDocument "a") = none ∧ info.view.syncState = .local then none
        else some (stored (c.store.getDocument "a")) := by
  obtain ⟨c, hrun, info, hinfo, l, hl, hget, event, hevent⟩ : ∃ c,
      run (step 0) (idle nothingCached) writeAndGet = some c ∧
        ∃ info, c.queries "a" = some info ∧ ∃ l ∈ info.listeners, l.options = .ofGet ∧
          ∃ event, l.events = [event] :=
    ⟨_, rfl, _, rfl, _, List.mem_singleton.mpr rfl, rfl, _, rfl⟩
  refine ⟨c, info, event, hrun, hinfo,
    get_answers rfl nothingCached_synced ?_ ?_ hrun hinfo hl hget hevent⟩
  · refine ⟨by rintro _ ⟨⟩; trivial, fun c hc => ?_⟩
    cases hc
    refine ⟨by rintro _ ⟨⟩, fun c hc => ?_⟩
    cases hc
    exact ⟨by rintro _ ⟨⟩, fun _ _ => trivial⟩
  · exact ⟨trivial, fun _ _ => ⟨trivial, fun _ _ => ⟨trivial, fun _ _ => trivial⟩⟩⟩

end Client

end FlutterSugar.Listen
