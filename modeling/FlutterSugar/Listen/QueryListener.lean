import FlutterSugar.Listen.View
import Mathlib.Data.List.Chain

/-!
# Listeners

A listener turns the snapshots of a view into the events of an app.  It holds the
first event back until there is something to tell, and leaves out changes of the
metadata that the app has not asked for.

## Main definitions

* `ListenOptions`, `QueryListener V` — a listener, with the events that it has raised.
* `QueryListener.onViewSnapshot`, `onOnlineStateChanged` — what it is told.
* `listenOnce` — what a single read makes of the first event.
* `QueryListener.Listens` — what is known of every listener.
* `listens_of_steps` — a step of the view keeps it.
-/

namespace FlutterSugar
namespace Listen
open Local

variable {V : Type}

structure ListenOptions where
  includeQueryMetadataChanges : Bool
  includeDocumentMetadataChanges : Bool
  waitForSyncWhenOnline : Bool
  deriving DecidableEq

namespace ListenOptions

/-- The options of `snapshots`. -/
def fromIncludeMetadataChanges (includeMetadataChanges : Bool) : ListenOptions :=
  ⟨includeMetadataChanges, includeMetadataChanges, false⟩

/-- The options of `GetDocument`. -/
def ofGet : ListenOptions := ⟨true, true, true⟩

end ListenOptions

structure DocumentSnapshot (V : Type) where
  document : Option (MutableDocument V)
  hasPendingWrites : Bool
  fromCache : Bool

/-- The converter of `AddSnapshotListener`; a deleted document has no pending writes. -/
def ViewSnapshot.toDocumentSnapshot (snapshot : ViewSnapshot V) : DocumentSnapshot V where
  document := snapshot.documents
  hasPendingWrites := snapshot.documents.isSome && snapshot.mutated
  fromCache := snapshot.fromCache

structure QueryListener (V : Type) where
  options : ListenOptions
  raisedInitialEvent : Bool
  onlineState : OnlineState
  snapshot : Option (ViewSnapshot V)
  /-- What the app has been told. -/
  events : List (DocumentSnapshot V)

namespace QueryListener

def create (options : ListenOptions) : QueryListener V := ⟨options, false, .unknown, none, []⟩

def shouldRaiseInitialEvent (options : ListenOptions) (snapshot : ViewSnapshot V)
    (onlineState : OnlineState) : Bool :=
  if ¬ snapshot.fromCache then true
  -- a client that does not know counts as online
  else if options.waitForSyncWhenOnline ∧ onlineState ≠ .offline then false
  else snapshot.documents.isSome || snapshot.hasCachedResults || onlineState = .offline

def shouldRaiseEvent (l : QueryListener V) (snapshot : ViewSnapshot V) : Bool :=
  if snapshot.change ≠ none then true
  else
    let hasPendingWritesChanged := l.snapshot.any fun last => last.mutated ≠ snapshot.mutated
    if snapshot.syncStateChanged ∨ hasPendingWritesChanged then
      l.options.includeQueryMetadataChanges
    else false

def onEvent (l : QueryListener V) (snapshot : ViewSnapshot V) : QueryListener V :=
  { l with events := l.events ++ [snapshot.toDocumentSnapshot] }

def raiseInitialEvent (l : QueryListener V) (snapshot : ViewSnapshot V) : QueryListener V :=
  { l.onEvent snapshot with raisedInitialEvent := true }

/-- Without the changes of the metadata alone. -/
def strip (options : ListenOptions) (snapshot : ViewSnapshot V) : ViewSnapshot V :=
  if options.includeDocumentMetadataChanges then snapshot
  else { snapshot with change := snapshot.change.filter fun change => change ≠ .metadata }

def onViewSnapshot (l : QueryListener V) (snapshot : ViewSnapshot V) : QueryListener V :=
  let snapshot := strip l.options snapshot
  let raised :=
    if ¬ l.raisedInitialEvent then
      if shouldRaiseInitialEvent l.options snapshot l.onlineState then l.raiseInitialEvent snapshot
      else l
    else if l.shouldRaiseEvent snapshot then l.onEvent snapshot
    else l
  { raised with snapshot := some snapshot }

def onOnlineStateChanged (l : QueryListener V) (onlineState : OnlineState) : QueryListener V :=
  let known := { l with onlineState := onlineState }
  match l.snapshot with
  | none => known
  | some snapshot =>
    if ¬ l.raisedInitialEvent ∧ shouldRaiseInitialEvent l.options snapshot onlineState then
      known.raiseInitialEvent snapshot
    else known

end QueryListener

/-- `ListenOnce::OnEvent` of a default read: a document that is not there, as far as
the cache knows, is an error. -/
def listenOnce (event : DocumentSnapshot V) : Option (DocumentSnapshot V) :=
  if event.document.isNone ∧ event.fromCache then none else some event

/-! ## What is known of a listener -/

/-- The event shows the view, with the metadata that was asked for. -/
structure Current (options : ListenOptions) (view : View V) (event : DocumentSnapshot V) : Prop where
  fields : fieldsOf event.document = fieldsOf view.documentSet
  hasPendingWrites : options.includeDocumentMetadataChanges ∨ options.includeQueryMetadataChanges →
    event.hasPendingWrites = view.mutated
  fromCache : options.includeQueryMetadataChanges →
    event.fromCache = decide (view.syncState = .local)

/-- Events that tell the app something new. -/
def Differ (options : ListenOptions) (event event' : DocumentSnapshot V) : Prop :=
  fieldsOf event.document ≠ fieldsOf event'.document ∨
    (options.includeDocumentMetadataChanges ∨ options.includeQueryMetadataChanges) ∧
      event.hasPendingWrites ≠ event'.hasPendingWrites ∨
    options.includeQueryMetadataChanges ∧ event.fromCache ≠ event'.fromCache

namespace QueryListener

/-- What is known of every listener to a view. -/
structure Listens (view : View V) (state : OnlineState) (l : QueryListener V) : Prop where
  onlineState : l.onlineState = state
  snapshot : ∃ snapshot, l.snapshot = some snapshot ∧ view.Shows snapshot
  raised : l.raisedInitialEvent = true ↔ l.events ≠ []
  /-- The first event is held back for a reason. -/
  waits : l.events = [] → ∀ snapshot, l.snapshot = some snapshot →
    shouldRaiseInitialEvent l.options snapshot state = false
  /-- **The last event shows the view.** -/
  current : ∀ event, l.events.getLast? = some event → Current l.options view event
  /-- **No event repeats the one before it.** -/
  news : l.events.IsChain (Differ l.options)

variable {view view' : View V} {state : OnlineState} {l : QueryListener V}
  {snapshot : ViewSnapshot V}

theorem shows_strip (h : view.Shows snapshot) (options : ListenOptions) :
    view.Shows (strip options snapshot) := by
  rw [strip]
  split
  · exact h
  · exact ⟨h.documents, h.mutated, h.fromCache⟩

@[simp] theorem syncStateChanged_strip (options : ListenOptions) (snapshot : ViewSnapshot V) :
    (strip options snapshot).syncStateChanged = snapshot.syncStateChanged := by
  rw [strip]
  split <;> rfl

/-- An event that is raised shows the view. -/
theorem current_toDocumentSnapshot (hview : view.Marked) (hshows : view.Shows snapshot)
    (options : ListenOptions) : Current options view snapshot.toDocumentSnapshot where
  fields := by rw [ViewSnapshot.toDocumentSnapshot, hshows.documents]
  hasPendingWrites := by
    intro _
    rw [ViewSnapshot.toDocumentSnapshot, hshows.documents, hshows.mutated, hview]
    cases view.documentSet <;> simp
  fromCache := fun _ => hshows.fromCache

/-- The first event shows the view. -/
theorem listens_raiseInitialEvent (hview : view.Marked) (hnone : l.events = [])
    (hshows : view.Shows snapshot) :
    Listens view l.onlineState { l.raiseInitialEvent snapshot with snapshot := some snapshot } where
  onlineState := rfl
  snapshot := ⟨snapshot, rfl, hshows⟩
  raised := by simp [raiseInitialEvent, onEvent]
  waits := by simp [raiseInitialEvent, onEvent]
  current := by
    intro event hevent
    have hlast : snapshot.toDocumentSnapshot = event := by
      simpa [raiseInitialEvent, onEvent, hnone] using hevent
    exact hlast ▸ current_toDocumentSnapshot hview hshows l.options
  news := by
    rw [raiseInitialEvent, onEvent, hnone]
    exact .singleton _

/-- A listener that has raised no event is told of a snapshot. -/
theorem listens_first (hview : view.Marked) (hraised : l.raisedInitialEvent = false)
    (hnone : l.events = []) (hshows : view.Shows snapshot) :
    Listens view l.onlineState (l.onViewSnapshot snapshot) := by
  have hstrip := shows_strip hshows l.options
  simp only [onViewSnapshot, hraised, Bool.false_eq_true, not_false_eq_true, if_true]
  split
  next => exact listens_raiseInitialEvent hview hnone hstrip
  next hwaits =>
    refine ⟨rfl, ⟨_, rfl, hstrip⟩, by simp [hraised, hnone], ?_, by simp [hnone], by simp [hnone]⟩
    intro _ last hlast
    cases hlast
    simpa using hwaits

/-- **A step of the view** that makes no snapshot changes nothing that an event shows. -/
theorem Listens.of_silent (h : l.Listens view state) (hdoes : view.Does view' none)
    (hsync : view'.syncState = view.syncState) : l.Listens view' state where
  onlineState := h.onlineState
  snapshot := by
    obtain ⟨snapshot, hsnapshot, hshows⟩ := h.snapshot
    refine ⟨snapshot, hsnapshot, ?_⟩
    exact ⟨hshows.documents.trans hdoes.1.symm, hshows.mutated.trans hdoes.2.symm,
      hsync ▸ hshows.fromCache⟩
  raised := h.raised
  waits := h.waits
  current := by
    intro event hevent
    have hcurrent := h.current event hevent
    refine ⟨?_, ?_, hsync ▸ hcurrent.fromCache⟩
    · rw [hdoes.1]
      exact hcurrent.fields
    · rw [hdoes.2]
      exact hcurrent.hasPendingWrites
  news := h.news

/-! ## A snapshot -/

/-- What a listener that has raised an event raises the next one for. -/
theorem shouldRaiseEvent_iff (h : l.Listens view state) :
    l.shouldRaiseEvent snapshot ↔ snapshot.change ≠ none ∨
      l.options.includeQueryMetadataChanges ∧
        (snapshot.syncStateChanged ∨ view.mutated ≠ snapshot.mutated) := by
  obtain ⟨last, hlast, hshows⟩ := h.snapshot
  rw [shouldRaiseEvent, hlast, Option.any_some, hshows.mutated]
  by_cases hchange : snapshot.change = none
  · cases l.options.includeQueryMetadataChanges <;> simp [hchange]
  · simp [hchange]

theorem change_strip_eq_none {options : ListenOptions}
    (h : (strip options snapshot).change = none) : snapshot.change = none ∨
      snapshot.change = some .metadata ∧ options.includeDocumentMetadataChanges = false := by
  rw [strip] at h
  split at h
  next => exact Or.inl h
  next hinclude =>
    cases hchange : snapshot.change with
    | none => exact Or.inl rfl
    | some change =>
      refine Or.inr ⟨?_, by simpa using hinclude⟩
      rw [hchange, Option.filter_eq_none_iff] at h
      simpa using h change

theorem change_strip_eq_some {options : ListenOptions} {change : ChangeType}
    (h : (strip options snapshot).change = some change) : snapshot.change = some change ∧
      (change = .metadata → options.includeDocumentMetadataChanges) := by
  rw [strip] at h
  split at h
  next hinclude => exact ⟨h, fun _ => hinclude⟩
  next =>
    obtain ⟨hchange, hne⟩ := Option.filter_eq_some_iff.mp h
    exact ⟨hchange, fun hmetadata => by simp [hmetadata] at hne⟩

section
variable (h : l.Listens view state) (hdoes : view.Does view' snapshot.change)
  (hshows : view'.Shows snapshot)
  (hsync : snapshot.syncStateChanged = decide (view'.syncState ≠ view.syncState))
  {event : DocumentSnapshot V} (hcurrent : Current l.options view event)

include h hdoes hshows hsync hcurrent

/-- An event that is raised after another one tells something new. -/
theorem differ_of_raised (hview' : view'.Marked) (hknown : view.syncState ≠ .none)
    (hknown' : view'.syncState ≠ .none) (hraise : l.shouldRaiseEvent (strip l.options snapshot)) :
    Differ l.options event (strip l.options snapshot).toDocumentSnapshot := by
  have hstrip := shows_strip hshows l.options
  have hnew := current_toDocumentSnapshot hview' hstrip l.options
  rcases (shouldRaiseEvent_iff h).mp hraise with hchange | ⟨hquery, hchanged | hmutated⟩
  · obtain ⟨change, hsome⟩ := Option.ne_none_iff_exists'.mp hchange
    obtain ⟨hsome, hinclude⟩ := change_strip_eq_some hsome
    rw [hsome] at hdoes
    cases change with
    | metadata =>
      refine Or.inr (Or.inl ⟨Or.inl (hinclude rfl), ?_⟩)
      rw [hcurrent.hasPendingWrites (Or.inl (hinclude rfl)),
        hnew.hasPendingWrites (Or.inl (hinclude rfl)), hdoes.2]
      cases view.mutated <;> simp
    | removed => exact Or.inl (by rw [hcurrent.fields, hnew.fields]; exact Ne.symm hdoes)
    | added => exact Or.inl (by rw [hcurrent.fields, hnew.fields]; exact Ne.symm hdoes)
    | modified => exact Or.inl (by rw [hcurrent.fields, hnew.fields]; exact Ne.symm hdoes)
  · refine Or.inr (Or.inr ⟨hquery, ?_⟩)
    have hne : view'.syncState ≠ view.syncState := by
      simpa [hsync] using hchanged
    rw [hcurrent.fromCache hquery, hnew.fromCache hquery]
    cases hs : view.syncState <;> cases hs' : view'.syncState <;> simp_all
  · refine Or.inr (Or.inl ⟨Or.inr hquery, ?_⟩)
    rw [hcurrent.hasPendingWrites (Or.inr hquery), hnew.hasPendingWrites (Or.inr hquery)]
    rwa [hstrip.mutated] at hmutated

/-- An event still shows the view if none is raised. -/
theorem current_of_not_raised (hraise : ¬ l.shouldRaiseEvent (strip l.options snapshot)) :
    Current l.options view' event := by
  rw [shouldRaiseEvent_iff h, not_or, not_not] at hraise
  obtain ⟨hchange, hquery⟩ := hraise
  have hstrip := shows_strip hshows l.options
  have hsame : l.options.includeQueryMetadataChanges →
      view'.syncState = view.syncState ∧ view'.mutated = view.mutated := by
    intro hinc
    obtain ⟨hsame, hmutated⟩ := not_or.mp fun hchanged => hquery ⟨hinc, hchanged⟩
    rw [hstrip.mutated, not_not] at hmutated
    exact ⟨by simpa [hsync] using hsame, hmutated.symm⟩
  rcases change_strip_eq_none hchange with hnone | ⟨hmetadata, hinclude⟩
  · rw [hnone] at hdoes
    refine ⟨hcurrent.fields.trans (congrArg fieldsOf hdoes.1).symm, ?_, ?_⟩
    · intro hinc
      rw [hcurrent.hasPendingWrites hinc, hdoes.2]
    · intro hinc
      rw [hcurrent.fromCache hinc, (hsame hinc).1]
  · rw [hmetadata] at hdoes
    refine ⟨hcurrent.fields.trans hdoes.1.symm, ?_, ?_⟩
    · intro hinc
      have hinc' := hinc.resolve_left (by simp [hinclude])
      rw [hcurrent.hasPendingWrites hinc, (hsame hinc').2]
    · intro hinc
      rw [hcurrent.fromCache hinc, (hsame hinc).1]

end

/-- **A snapshot keeps the events up to date.** -/
theorem Listens.of_told (h : l.Listens view state) (hdoes : view.Does view' snapshot.change)
    (hshows : view'.Shows snapshot)
    (hsync : snapshot.syncStateChanged = decide (view'.syncState ≠ view.syncState))
    (hview' : view'.Marked) (hknown : view.syncState ≠ .none) (hknown' : view'.syncState ≠ .none) :
    (l.onViewSnapshot snapshot).Listens view' state := by
  have hstrip := shows_strip hshows l.options
  cases hraised : l.raisedInitialEvent with
  | false =>
    have hnone : l.events = [] := by simpa [hraised] using h.raised
    exact h.onlineState ▸ listens_first hview' hraised hnone hshows
  | true =>
    have hsome : l.events ≠ [] := h.raised.mp hraised
    simp only [onViewSnapshot, hraised, not_true_eq_false, if_false]
    split
    next hraise =>
      refine ⟨h.onlineState, ⟨_, rfl, hstrip⟩, by simp [onEvent, hraised], by simp [onEvent], ?_, ?_⟩
      · intro event hevent
        have hlast : (strip l.options snapshot).toDocumentSnapshot = event := by
          simpa [onEvent] using hevent
        exact hlast ▸ current_toDocumentSnapshot hview' hstrip l.options
      · refine List.isChain_append.mpr ⟨h.news, .singleton _, ?_⟩
        intro event hevent event' hevent'
        cases hevent'
        exact differ_of_raised h hdoes hshows hsync (h.current event hevent) hview' hknown hknown'
          hraise
    next hraise =>
      refine ⟨h.onlineState, ⟨_, rfl, hstrip⟩, h.raised, fun hnone => absurd hnone hsome, ?_, h.news⟩
      intro event hevent
      exact current_of_not_raised h hdoes hshows hsync (h.current event hevent) hraise

/-- **A step of the view** keeps its listeners up to date. -/
theorem listens_of_steps (h : l.Listens view state) {snapshot : Option (ViewSnapshot V)}
    (hsteps : view.Steps view' snapshot) (hview' : view'.Marked) (hknown : view.syncState ≠ .none)
    (hknown' : view'.syncState ≠ .none) :
    (snapshot.elim l l.onViewSnapshot).Listens view' state := by
  cases hsteps with
  | silent hdoes hsync => exact h.of_silent hdoes hsync
  | told snapshot hdoes hshows hsync => exact h.of_told hdoes hshows hsync hview' hknown hknown'

/-- **Being online or not** may raise the first event. -/
theorem Listens.onOnlineStateChanged (h : l.Listens view state) (hview : view.Marked)
    (state' : OnlineState) : (l.onOnlineStateChanged state').Listens view state' := by
  obtain ⟨snapshot, hsnapshot, hshows⟩ := h.snapshot
  simp only [QueryListener.onOnlineStateChanged, hsnapshot]
  split
  next hraise =>
    have hnone : l.events = [] := by simpa [hraise.1] using h.raised
    exact listens_raiseInitialEvent
      (l := { l with onlineState := state', snapshot := some snapshot }) hview hnone hshows
  next hraise =>
    refine ⟨rfl, ⟨snapshot, rfl, hshows⟩, h.raised, ?_, h.current, h.news⟩
    intro hnone last hlast
    cases hlast
    have hraised : l.raisedInitialEvent = false := by
      rw [← Bool.not_eq_true, h.raised]
      exact not_not.mpr hnone
    simpa [hraised] using hraise

end QueryListener

end Listen
end FlutterSugar
