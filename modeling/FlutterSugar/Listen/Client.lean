import FlutterSugar.Listen.QueryListener
import FlutterSugar.Local.Writes

/-!
# The client

The client has a local store, and a view for each document that is listened to.
Whatever changes the store is told to every view at once; a remote event may also
say something about the targets of the views.

## Main definitions

* `QueryListenersInfo V` — a view and its listeners.
* `Client K V`, `Client.step` — the client.
* `Client.Attended` — what is known of every client.
-/

namespace FlutterSugar
namespace Listen
open Lib Local

variable {K V : Type} [DecidableEq K] [DecidableEq V]

/-- A view with its last snapshot, and those who listen to it. -/
structure QueryListenersInfo (V : Type) where
  view : View V
  viewSnapshot : ViewSnapshot V
  listeners : List (QueryListener V)

namespace QueryListenersInfo

/-- `OnViewSnapshots`: the view has made a step. -/
def onViewSnapshot (info : QueryListenersInfo V) (change : View V × Option (ViewSnapshot V)) :
    QueryListenersInfo V :=
  match change.2 with
  | none => { info with view := change.1 }
  | some snapshot =>
    ⟨change.1, snapshot, info.listeners.map fun l => l.onViewSnapshot snapshot⟩

/-- `EmitNewSnapshots` for one view. -/
def emit (info : QueryListenersInfo V) (docChange : Option (MutableDocument V))
    (target : Option TargetChange) : QueryListenersInfo V :=
  info.onViewSnapshot (info.view.applyChanges (info.view.computeDocumentChanges docChange) target)

/-- `HandleOnlineStateChange`: first the view, then the listeners. -/
def onOnlineStateChanged (info : QueryListenersInfo V) (state : OnlineState) :
    QueryListenersInfo V :=
  let told := info.onViewSnapshot (info.view.applyOnlineStateChange state)
  { told with listeners := told.listeners.map fun l => l.onOnlineStateChanged state }

/-- `AddQueryListener` to a view that is there. -/
def addListener (info : QueryListenersInfo V) (options : ListenOptions) (state : OnlineState) :
    QueryListenersInfo V :=
  let l := ((QueryListener.create options).onOnlineStateChanged state).onViewSnapshot
    info.viewSnapshot
  { info with listeners := info.listeners ++ [l] }

end QueryListenersInfo

/-- What the target cache has for the target of a new view. -/
structure CachedTarget where
  remoteKey : Bool
  /-- Whether the resume token is not empty. -/
  resumeToken : Bool

/-- `InitializeViewAndComputeSnapshot`: the document is read from the store, and the
target is not current yet. -/
def initializeView (doc : MutableDocument V) (target : CachedTarget) :
    View V × Option (ViewSnapshot V) :=
  let view := View.create target.remoteKey
  view.applyChanges (view.computeDocumentChanges (matching doc))
    (some ⟨target.resumeToken, false, false, false⟩)

structure Client (K V : Type) where
  store : LocalStore K V
  onlineState : OnlineState
  queries : K → Option (QueryListenersInfo V)

namespace Client

inductive Act (K V : Type)
  | write (key : K) (write : Write V)
  | acknowledge (version : SnapshotVersion)
  | reject
  | remote (update : Option (K × DocumentUpdate V)) (targets : K → Option TargetChange)
  | onlineState (state : OnlineState)
  | listen (key : K) (options : ListenOptions) (target : CachedTarget)
  | remove (key : K) (n : ℕ)
  | rejectListen (key : K)
  | restart

/-- `EmitNewSnapshotsAndNotifyLocalStore`: the document that the store has changed,
and what is said about the targets. -/
def emitNewSnapshots (c : Client K V) (store : LocalStore K V)
    (change : Option (K × MutableDocument V)) (targets : K → Option TargetChange) : Client K V :=
  { c with
    store := store
    queries := fun key => (c.queries key).map fun info =>
      info.emit ((change.filter fun entry => entry.1 = key).map Prod.snd) (targets key) }

/-- The store makes a step. -/
def storeStep (arraySize : ℕ) (c : Client K V) (act : LocalStore.Act K V)
    (targets : K → Option TargetChange) : Option (Client K V) :=
  (LocalStore.step arraySize c.store act).map fun store =>
    c.emitNewSnapshots store (c.store.changes arraySize act) targets

/-- `AddQueryListener`. -/
def listen (c : Client K V) (key : K) (options : ListenOptions) (target : CachedTarget) :
    Client K V :=
  let info :=
    match c.queries key with
    | some info => some info
    | none =>
      match initializeView (c.store.getDocument key) target with
      | (view, some snapshot) => some ⟨view, snapshot, []⟩
      -- a new view always makes a snapshot, see `exists_initializeView`
      | (_, none) => none
  { c with
    queries := Function.update c.queries key
      (info.map fun info => info.addListener options c.onlineState) }

/-- `RemoveQueryListener`: with the last listener the view is gone. -/
def removeListener (c : Client K V) (key : K) (n : ℕ) : Client K V :=
  { c with
    queries := Function.update c.queries key
      ((c.queries key).bind fun info =>
        if (info.listeners.eraseIdx n).isEmpty then none
        else some { info with listeners := info.listeners.eraseIdx n }) }

def step (arraySize : ℕ) (c : Client K V) : Act K V → Option (Client K V)
  | .write key write => c.storeStep arraySize (.write key write) fun _ => none
  | .acknowledge version => c.storeStep arraySize (.acknowledge version) fun _ => none
  | .reject => c.storeStep arraySize .reject fun _ => none
  | .remote (some update) targets => c.storeStep arraySize (.remote update.1 update.2) targets
  | .remote none targets => some (c.emitNewSnapshots c.store none targets)
  | .onlineState state =>
    some { c with
      onlineState := state
      queries := fun key => (c.queries key).map fun info => info.onOnlineStateChanged state }
  | .listen key options target => some (c.listen key options target)
  | .remove key n => some (c.removeListener key n)
  -- `HandleRejectedListen`: the listeners are told of the error and forgotten
  | .rejectListen key => some { c with queries := Function.update c.queries key none }
  -- the store is on the disk
  | .restart => some ⟨c.store.start, .unknown, fun _ => none⟩

/-- A client without writes that nobody listens to. -/
def idle (cache : K → MutableDocument V) : Client K V :=
  ⟨.idle cache, .unknown, fun _ => none⟩

end Client

/-! ## What is known of a view and its listeners -/

namespace QueryListenersInfo

/-- What is known of every view and its listeners. -/
structure Attended (info : QueryListenersInfo V) (state : OnlineState) : Prop where
  marked : info.view.Marked
  known : info.view.syncState ≠ .none
  shows : info.view.Shows info.viewSnapshot
  listens : ∀ l ∈ info.listeners, l.Listens info.view state

variable {info : QueryListenersInfo V} {state : OnlineState}

omit [DecidableEq V] in
/-- **A step of the view** keeps all of its listeners up to date. -/
theorem Attended.onViewSnapshot (h : info.Attended state)
    {change : View V × Option (ViewSnapshot V)} (hsteps : info.view.Steps change.1 change.2)
    (hmarked : change.1.Marked) (hknown : change.1.syncState ≠ .none) :
    (info.onViewSnapshot change).Attended state := by
  obtain ⟨view, snapshot⟩ := change
  have hlistens : ∀ l ∈ info.listeners, (snapshot.elim l l.onViewSnapshot).Listens view state :=
    fun l hl => QueryListener.listens_of_steps (h.listens l hl) hsteps hmarked h.known hknown
  cases hsteps with
  | silent hdoes hsync =>
    refine ⟨hmarked, hknown, ?_, hlistens⟩
    exact ⟨h.shows.documents.trans hdoes.1.symm, h.shows.mutated.trans hdoes.2.symm,
      h.shows.fromCache.trans (congrArg (fun sync => decide (sync = .local)) hsync.symm)⟩
  | told snapshot hdoes hshows hsync =>
    refine ⟨hmarked, hknown, hshows, ?_⟩
    intro l hl
    obtain ⟨l₀, hl₀, rfl⟩ := List.mem_map.mp hl
    exact hlistens l₀ hl₀

theorem Attended.emit (h : info.Attended state) (docChange : Option (MutableDocument V))
    (target : Option TargetChange) : (info.emit docChange target).Attended state := by
  obtain ⟨hdoc, hmutated⟩ := View.documentSet_applyChanges info.view
    (info.view.computeDocumentChanges docChange) target
  refine h.onViewSnapshot (View.steps_applyChanges info.view _ _ ?_) ?_
    (View.syncState_applyChanges _ _ _)
  · exact fun _ hdoc hmutated => View.does_computeDocumentChanges docChange hdoc hmutated
  · rw [View.Marked, hdoc, hmutated]
    exact View.marked_computeDocumentChanges h.marked docChange

omit [DecidableEq V] in
theorem Attended.onOnlineStateChanged (h : info.Attended state) (state' : OnlineState) :
    (info.onOnlineStateChanged state').Attended state' := by
  obtain ⟨hdoc, hmutated⟩ := View.documentSet_applyOnlineStateChange info.view state'
  have htold : (info.onViewSnapshot (info.view.applyOnlineStateChange state')).Attended state := by
    refine h.onViewSnapshot (View.steps_applyOnlineStateChange info.view state') ?_ ?_
    · rw [View.Marked, hdoc, hmutated]
      exact h.marked
    · rw [View.applyOnlineStateChange]
      split
      · exact View.syncState_applyChanges _ _ _
      · exact h.known
  refine ⟨htold.marked, htold.known, htold.shows, ?_⟩
  intro l hl
  obtain ⟨l₀, hl₀, rfl⟩ := List.mem_map.mp hl
  exact (htold.listens l₀ hl₀).onOnlineStateChanged htold.marked state'

omit [DecidableEq V] in
theorem Attended.addListener (h : info.Attended state) (options : ListenOptions) :
    (info.addListener options state).Attended state := by
  refine ⟨h.marked, h.known, h.shows, ?_⟩
  intro l hl
  rcases List.mem_append.mp hl with hold | hnew
  · exact h.listens l hold
  · rw [List.mem_singleton.mp hnew]
    exact QueryListener.listens_first
      (l := (QueryListener.create options).onOnlineStateChanged state) h.marked rfl rfl h.shows

omit [DecidableEq V] in
theorem Attended.of_subset (h : info.Attended state) {listeners : List (QueryListener V)}
    (hsub : ∀ l ∈ listeners, l ∈ info.listeners) :
    { info with listeners := listeners }.Attended state :=
  ⟨h.marked, h.known, h.shows, fun l hl => h.listens l (hsub l hl)⟩

end QueryListenersInfo

/-- **A new view** makes a snapshot, has the document of the store, and is attended
by nobody. -/
theorem exists_initializeView (doc : MutableDocument V) (target : CachedTarget) :
    ∃ view snapshot, initializeView doc target = (view, some snapshot) ∧ view.Follows doc ∧
      ∀ state, QueryListenersInfo.Attended ⟨view, snapshot, []⟩ state := by
  have hcreated : (View.create target.remoteKey : View V).Marked := rfl
  have hsteps := View.steps_applyChanges (View.create target.remoteKey : View V)
    ((View.create target.remoteKey).computeDocumentChanges (matching doc))
    (some ⟨target.resumeToken, false, false, false⟩)
    fun _ hdoc hmutated => View.does_computeDocumentChanges (matching doc) hdoc hmutated
  obtain ⟨hdoc, hmutated⟩ := View.documentSet_applyChanges (View.create target.remoteKey)
    ((View.create target.remoteKey).computeDocumentChanges (matching doc))
    (some ⟨target.resumeToken, false, false, false⟩)
  have hknown := View.syncState_applyChanges (View.create target.remoteKey)
    ((View.create target.remoteKey).computeDocumentChanges (matching doc))
    (some ⟨target.resumeToken, false, false, false⟩)
  have hinit : initializeView doc target = (View.create target.remoteKey).applyChanges
      ((View.create target.remoteKey).computeDocumentChanges (matching doc))
      (some ⟨target.resumeToken, false, false, false⟩) := rfl
  rw [← hinit] at hsteps hdoc hmutated hknown
  cases hview : initializeView doc target with | mk view made => ?_
  rw [hview] at hsteps hdoc hmutated hknown
  cases hsteps with
  | silent hdoes hsync => exact absurd hsync hknown
  | told snapshot hdoes hshows hsync =>
    refine ⟨view, snapshot, rfl, ?_, fun state => ⟨?_, hknown, hshows, by simp⟩⟩
    · exact View.follows_created hdoc hmutated
    · rw [View.Marked, hdoc, hmutated]
      exact View.marked_computeDocumentChanges hcreated _

namespace Client

/-- What is known of every client. -/
def Attended (c : Client K V) : Prop :=
  ∀ key info, c.queries key = some info → info.Attended c.onlineState

variable {c c' : Client K V}

theorem storeStep_eq_some {arraySize : ℕ} {act : LocalStore.Act K V}
    {targets : K → Option TargetChange} :
    c.storeStep arraySize act targets = some c' ↔
      ∃ store, LocalStore.step arraySize c.store act = some store ∧
        c.emitNewSnapshots store (c.store.changes arraySize act) targets = c' :=
  Option.map_eq_some_iff

omit [DecidableEq K] [DecidableEq V] in
theorem attended_of_forall_eq_none (h : ∀ key, c.queries key = none) : c.Attended := by
  intro key info hinfo
  rw [h key] at hinfo
  cases hinfo

theorem attended_emitNewSnapshots (h : c.Attended) (store : LocalStore K V)
    (change : Option (K × MutableDocument V)) (targets : K → Option TargetChange) :
    (c.emitNewSnapshots store change targets).Attended := by
  intro key info hinfo
  obtain ⟨info₀, hinfo₀, rfl⟩ := Option.map_eq_some_iff.mp hinfo
  exact (h key info₀ hinfo₀).emit _ _

omit [DecidableEq V] in
theorem attended_update (h : c.Attended) {key : K} {info : Option (QueryListenersInfo V)}
    (hinfo : ∀ i, info = some i → i.Attended c.onlineState) :
    Client.Attended { c with queries := Function.update c.queries key info } := by
  intro k i hi
  by_cases hk : k = key
  · subst hk
    exact hinfo i (by simpa using hi)
  · exact h k i (by simpa [Function.update_of_ne hk] using hi)

/-- **Every step keeps all listeners up to date.** -/
theorem attended_step {arraySize : ℕ} (h : c.Attended) {act : Act K V}
    (hstep : step arraySize c act = some c') : c'.Attended := by
  cases act with
  | write key write =>
    obtain ⟨store, -, rfl⟩ := storeStep_eq_some.mp hstep
    exact attended_emitNewSnapshots h _ _ _
  | acknowledge version =>
    obtain ⟨store, -, rfl⟩ := storeStep_eq_some.mp hstep
    exact attended_emitNewSnapshots h _ _ _
  | reject =>
    obtain ⟨store, -, rfl⟩ := storeStep_eq_some.mp hstep
    exact attended_emitNewSnapshots h _ _ _
  | remote update targets =>
    cases update with
    | none =>
      cases hstep
      exact attended_emitNewSnapshots h _ _ _
    | some update =>
      obtain ⟨store, -, rfl⟩ := storeStep_eq_some.mp hstep
      exact attended_emitNewSnapshots h _ _ _
  | onlineState state =>
    cases hstep
    intro key info hinfo
    obtain ⟨info₀, hinfo₀, rfl⟩ := Option.map_eq_some_iff.mp hinfo
    exact (h key info₀ hinfo₀).onOnlineStateChanged state
  | listen key options target =>
    cases hstep
    refine attended_update h ?_
    intro i hi
    obtain ⟨info, hinfo, rfl⟩ := Option.map_eq_some_iff.mp hi
    refine QueryListenersInfo.Attended.addListener ?_ options
    cases hquery : c.queries key with
    | some info₀ =>
      simp only [hquery, Option.some.injEq] at hinfo
      exact hinfo ▸ h key info₀ hquery
    | none =>
      obtain ⟨view, snapshot, hinit, -, hattended⟩ :=
        exists_initializeView (c.store.getDocument key) target
      simp only [hquery, hinit, Option.some.injEq] at hinfo
      exact hinfo ▸ hattended c.onlineState
  | remove key n =>
    cases hstep
    refine attended_update h ?_
    intro i hi
    obtain ⟨info, hinfo, hi⟩ := Option.bind_eq_some_iff.mp hi
    split at hi
    · cases hi
    · cases hi
      exact (h key info hinfo).of_subset fun l hl => List.mem_of_mem_eraseIdx hl
  | rejectListen key =>
    cases hstep
    exact attended_update h (by simp)
  | restart =>
    cases hstep
    exact attended_of_forall_eq_none fun _ => rfl

theorem attended_run {arraySize : ℕ} {cache : K → MutableDocument V} {acts : List (Act K V)}
    (hrun : run (step arraySize) (idle cache) acts = some c) : c.Attended :=
  run_invariant_of_step (fun _ _ _ h hstep => attended_step h hstep)
    (attended_of_forall_eq_none fun _ => rfl) hrun

/-- **What a listener tells the app.**  In every state of a run the last event of each
listener shows the view of its document, with the metadata that it asks for, and no
event repeats the one before it. -/
theorem listeners_current {arraySize : ℕ} {cache : K → MutableDocument V} {acts : List (Act K V)}
    (hrun : run (step arraySize) (idle cache) acts = some c) {key : K}
    {info : QueryListenersInfo V} (hinfo : c.queries key = some info) {l : QueryListener V}
    (hl : l ∈ info.listeners) :
    (∀ event, l.events.getLast? = some event → Current l.options info.view event) ∧
      l.events.IsChain (Differ l.options) := by
  have hlistens := (attended_run hrun key info hinfo).listens l hl
  exact ⟨hlistens.current, hlistens.news⟩

/-- The last event of the first listener to a document. -/
def lastEvent (c : Client K V) (key : K) : Option (DocumentSnapshot V) :=
  (c.queries key).bind fun info => info.listeners.head?.bind fun l => l.events.getLast?

omit [DecidableEq K] [DecidableEq V] in
theorem exists_of_lastEvent {key : K} {event : DocumentSnapshot V}
    (h : c.lastEvent key = some event) : ∃ info, c.queries key = some info ∧
      ∃ l ∈ info.listeners, l.events.getLast? = some event := by
  obtain ⟨info, hinfo, h⟩ := Option.bind_eq_some_iff.mp h
  obtain ⟨l, hl, hevent⟩ := Option.bind_eq_some_iff.mp h
  exact ⟨info, hinfo, l, List.mem_of_head? hl, hevent⟩

/-- The app listens to a document and writes it. -/
def listenAndWrite : List (Act String ℤ) :=
  [.listen "a" (.fromIncludeMetadataChanges false) ⟨false, false⟩,
    .write "a" (.setMerge [("b", 1)]), .acknowledge 1]

theorem lastEvent_listenAndWrite : ∃ c event,
    run (step 0) (idle LocalStore.nothingCached) listenAndWrite = some c ∧ c.lastEvent "a" = some event := by
  have hevent : ((run (step 0) (idle LocalStore.nothingCached) listenAndWrite).bind
      fun c => c.lastEvent "a").isSome := by decide +kernel
  obtain ⟨event, hevent⟩ := Option.isSome_iff_exists.mp hevent
  obtain ⟨c, hrun, hevent⟩ := Option.bind_eq_some_iff.mp hevent
  exact ⟨c, event, hrun, hevent⟩

theorem listeners_current_listenAndWrite : ∃ c event,
    run (step 0) (idle LocalStore.nothingCached) listenAndWrite = some c ∧ c.lastEvent "a" = some event ∧
      ∃ info, ∃ l : QueryListener ℤ, c.queries "a" = some info ∧ Current l.options info.view event ∧
        l.events.IsChain (Differ l.options) := by
  obtain ⟨c, event, hrun, hlast⟩ := lastEvent_listenAndWrite
  obtain ⟨info, hinfo, l, hl, hevent⟩ := exists_of_lastEvent hlast
  obtain ⟨hcurrent, hnews⟩ := listeners_current hrun hinfo hl
  exact ⟨c, event, hrun, hlast, info, l, hinfo, hcurrent event hevent, hnews⟩

/-- **When a listener is silent.**  In every state of a run a listener that has raised
no event listens to a view that is not in sync, while the client takes itself to be
online, and has asked to wait for the server or has no document to show. -/
theorem listeners_wait {arraySize : ℕ} {cache : K → MutableDocument V} {acts : List (Act K V)}
    (hrun : run (step arraySize) (idle cache) acts = some c) {key : K}
    {info : QueryListenersInfo V} (hinfo : c.queries key = some info) {l : QueryListener V}
    (hl : l ∈ info.listeners) (hnone : l.events = []) :
    info.view.syncState ≠ .synced ∧ c.onlineState ≠ .offline ∧
      (l.options.waitForSyncWhenOnline ∨ info.view.documentSet = none) := by
  have hlistens := (attended_run hrun key info hinfo).listens l hl
  obtain ⟨snapshot, hsnapshot, hshows⟩ := hlistens.snapshot
  have hwaits := hlistens.waits hnone snapshot hsnapshot
  rw [QueryListener.shouldRaiseInitialEvent, hshows.fromCache, hshows.documents] at hwaits
  split at hwaits
  next => cases hwaits
  next hlocal =>
    have hlocal : info.view.syncState = .local := by simpa using hlocal
    have hsync : info.view.syncState ≠ .synced := by simp [hlocal]
    split at hwaits
    next hwait => exact ⟨hsync, hwait.2, Or.inl hwait.1⟩
    next =>
      simp only [Bool.or_eq_false_iff, decide_eq_false_iff_not] at hwaits
      exact ⟨hsync, hwaits.2, Or.inr (Option.not_isSome_iff_eq_none.mp (by simp [hwaits.1.1]))⟩

/-- A read of a document that is not in the cache. -/
def listenOnly : List (Act String ℤ) := [.listen "a" .ofGet ⟨false, false⟩]

theorem listeners_wait_listenOnly : ∃ c info, ∃ l : QueryListener ℤ,
    run (step 0) (idle LocalStore.nothingCached) listenOnly = some c ∧
      c.queries "a" = some info ∧ l ∈ info.listeners ∧ l.events = [] ∧
        info.view.syncState ≠ .synced ∧ c.onlineState ≠ .offline ∧
          (l.options.waitForSyncWhenOnline ∨ info.view.documentSet = none) := by
  obtain ⟨c, hrun, info, hinfo, l, hl, hnone⟩ : ∃ c,
      run (step 0) (idle LocalStore.nothingCached) listenOnly = some c ∧
        ∃ info, c.queries "a" = some info ∧ ∃ l ∈ info.listeners, l.events = [] :=
    ⟨_, rfl, _, rfl, _, List.mem_singleton.mpr rfl, rfl⟩
  exact ⟨c, info, l, hrun, hinfo, hl, hnone, listeners_wait hrun hinfo hl hnone⟩

end Client

end Listen
end FlutterSugar
