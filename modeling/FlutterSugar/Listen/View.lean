import FlutterSugar.Local.Changes

/-!
# The view of a document

Whoever listens to a document has a view of it.  The view is told what the local
store has changed and what the server says about the document, and makes a snapshot
of every change.

A view of one document is modelled: it has at most one document, and a snapshot at
most one change.

## Main definitions

* `View V`, `View.computeDocumentChanges`, `View.applyChanges` — the view.
* `ViewSnapshot V` — what it tells its listeners.
* `View.Steps` — what a step of a view can do.
* `View.Follows`, `follows_iff` — when the view has the document of the local store.
-/

namespace FlutterSugar

/-- Whether the server has accepted changes that it has not sent yet. -/
def Local.MutableDocument.hasCommittedMutations {V : Type} (doc : Local.MutableDocument V) : Bool :=
  doc.state = .hasCommittedMutations

namespace Listen
open Local

variable {V : Type}

/-- The type of a `DocumentViewChange`. -/
inductive ChangeType
  | removed
  | added
  | modified
  | metadata
  deriving DecidableEq

inductive SyncState
  | none
  | local
  | synced
  deriving DecidableEq

/-- What a remote event says about the target of a view. -/
structure TargetChange where
  /-- Whether the resume token is not empty. -/
  resumeToken : Bool
  current : Bool
  /-- Whether the document is one of those that were added, or removed. -/
  added : Bool
  removed : Bool

structure View (V : Type) where
  documentSet : Option (MutableDocument V)
  /-- The server says that the document exists. -/
  synced : Bool
  /-- The document is here, but not where the server is. -/
  limbo : Bool
  /-- The document has local mutations. -/
  mutated : Bool
  syncState : SyncState
  current : Bool

structure ViewDocumentChanges (V : Type) where
  documentSet : Option (MutableDocument V)
  change : Option ChangeType
  mutated : Bool

structure ViewSnapshot (V : Type) where
  documents : Option (MutableDocument V)
  change : Option ChangeType
  mutated : Bool
  fromCache : Bool
  syncStateChanged : Bool
  hasCachedResults : Bool

/-- `Query::Matches` for the query of a document. -/
def matching (doc : MutableDocument V) : Option (MutableDocument V) :=
  if doc.isFoundDocument then some doc else none

/-- Watch will send the document again. -/
def shouldWaitForSyncedDocument (newDoc oldDoc : MutableDocument V) : Bool :=
  oldDoc.hasLocalMutations && newDoc.hasCommittedMutations && !newDoc.hasLocalMutations

namespace View

/-- A view whose target has the document, or has not. -/
def create (remoteKey : Bool) : View V := ⟨none, remoteKey, false, false, .none, false⟩

/-- The change from the document of the view to `newDoc`. -/
def changeTo [DecidableEq V] (view : View V) (newDoc : Option (MutableDocument V)) :
    Option ChangeType :=
  match view.documentSet, newDoc with
  | some oldDoc, some newDoc =>
    if oldDoc.value ≠ newDoc.value then
      if shouldWaitForSyncedDocument newDoc oldDoc then none else some .modified
    -- committed mutations count only if the document was mutated in the view
    else if view.mutated ≠
        (newDoc.hasLocalMutations || view.mutated && newDoc.hasCommittedMutations) then
      some .metadata
    else none
  | none, some _ => some .added
  | some _, none => some .removed
  | none, none => none

/-- `ComputeDocumentChanges`, with the document among those that have changed or not. -/
def computeDocumentChanges [DecidableEq V] (view : View V) (docChange : Option (MutableDocument V)) :
    ViewDocumentChanges V :=
  match docChange with
  | none => ⟨view.documentSet, none, view.mutated⟩
  | some doc =>
    match view.changeTo (matching doc) with
    | none => ⟨view.documentSet, none, view.mutated⟩
    | some change =>
      ⟨matching doc, some change, (matching doc).any fun newDoc => newDoc.hasLocalMutations⟩

def applyTargetChange (view : View V) : Option TargetChange → View V
  | none => view
  | some change =>
    { view with
      synced := (view.synced || change.added) && !change.removed
      current := change.current }

/-- Local mutations may be why the server does not know the document. -/
def shouldBeInLimbo (view : View V) : Bool :=
  !view.synced && view.documentSet.any fun doc => !doc.hasLocalMutations

def updateLimboDocuments (view : View V) : View V :=
  if view.current then { view with limbo := view.shouldBeInLimbo } else view

/-- `ApplyChanges`: the view, and a snapshot if anything has changed. -/
def applyChanges (view : View V) (changes : ViewDocumentChanges V)
    (targetChange : Option TargetChange) : View V × Option (ViewSnapshot V) :=
  let changed := { view with documentSet := changes.documentSet, mutated := changes.mutated }
  let updated := (changed.applyTargetChange targetChange).updateLimboDocuments
  let newSyncState := if updated.current && !updated.limbo then SyncState.synced else .local
  let syncStateChanged : Bool := newSyncState ≠ view.syncState
  ({ updated with syncState := newSyncState },
    if changes.change = none ∧ ¬ syncStateChanged then none
    else some {
      documents := changes.documentSet
      change := changes.change
      mutated := changes.mutated
      fromCache := newSyncState = .local
      syncStateChanged := syncStateChanged
      hasCachedResults := targetChange.any fun change => change.resumeToken })

end View

inductive OnlineState
  | unknown
  | online
  | offline
  deriving DecidableEq

/-- `ApplyOnlineStateChange`: offline, the view is not in sync. -/
def View.applyOnlineStateChange (view : View V) (onlineState : OnlineState) :
    View V × Option (ViewSnapshot V) :=
  if view.current ∧ onlineState = .offline then
    { view with current := false }.applyChanges ⟨view.documentSet, none, view.mutated⟩ none
  else (view, none)

/-! ## Steps of a view -/

def fieldsOf (documents : Option (MutableDocument V)) : Option (ObjectValue V) :=
  documents.map fun doc => doc.value

namespace View

/-- The view knows whether its document has local mutations. -/
def Marked (view : View V) : Prop :=
  view.mutated = view.documentSet.any fun doc => doc.hasLocalMutations

/-- What a change of this type does to the document of a view. -/
def Does (view view' : View V) : Option ChangeType → Prop
  | none => view'.documentSet = view.documentSet ∧ view'.mutated = view.mutated
  | some .metadata =>
    fieldsOf view'.documentSet = fieldsOf view.documentSet ∧ view'.mutated = !view.mutated
  | some .removed | some .added | some .modified =>
    fieldsOf view'.documentSet ≠ fieldsOf view.documentSet

/-- The snapshot is of this view. -/
structure Shows (view : View V) (snapshot : ViewSnapshot V) : Prop where
  documents : snapshot.documents = view.documentSet
  mutated : snapshot.mutated = view.mutated
  fromCache : snapshot.fromCache = decide (view.syncState = .local)

/-- A step of a view makes a snapshot if anything has changed. -/
inductive Steps (view view' : View V) : Option (ViewSnapshot V) → Prop
  | silent (hdoes : view.Does view' none) (hsync : view'.syncState = view.syncState) :
    Steps view view' none
  | told (snapshot : ViewSnapshot V) (hdoes : view.Does view' snapshot.change)
    (hshows : view'.Shows snapshot)
    (hsync : snapshot.syncStateChanged = decide (view'.syncState ≠ view.syncState)) :
    Steps view view' (some snapshot)

theorem documentSet_applyTargetChange (view : View V) (target : Option TargetChange) :
    (view.applyTargetChange target).documentSet = view.documentSet ∧
      (view.applyTargetChange target).mutated = view.mutated ∧
        (view.applyTargetChange target).syncState = view.syncState := by
  cases target <;> exact ⟨rfl, rfl, rfl⟩

theorem documentSet_updateLimboDocuments (view : View V) :
    view.updateLimboDocuments.documentSet = view.documentSet ∧
      view.updateLimboDocuments.mutated = view.mutated := by
  rw [updateLimboDocuments]
  split <;> exact ⟨rfl, rfl⟩

theorem documentSet_applyChanges (view : View V) (changes : ViewDocumentChanges V)
    (target : Option TargetChange) :
    (view.applyChanges changes target).1.documentSet = changes.documentSet ∧
      (view.applyChanges changes target).1.mutated = changes.mutated := by
  have htarget := documentSet_applyTargetChange
    { view with documentSet := changes.documentSet, mutated := changes.mutated } target
  have hlimbo := documentSet_updateLimboDocuments
    ({ view with documentSet := changes.documentSet, mutated := changes.mutated }.applyTargetChange
      target)
  exact ⟨hlimbo.1.trans htarget.1, hlimbo.2.trans htarget.2.1⟩

theorem syncState_applyChanges (view : View V) (changes : ViewDocumentChanges V)
    (target : Option TargetChange) : (view.applyChanges changes target).1.syncState ≠ .none := by
  simp only [applyChanges]
  split <;> simp

/-- **Changes that are applied** make a step. -/
theorem steps_applyChanges (view : View V) (changes : ViewDocumentChanges V)
    (target : Option TargetChange)
    (hdoes : ∀ view' : View V, view'.documentSet = changes.documentSet →
      view'.mutated = changes.mutated → view.Does view' changes.change) :
    view.Steps (view.applyChanges changes target).1 (view.applyChanges changes target).2 := by
  obtain ⟨hdoc, hmutated⟩ := documentSet_applyChanges view changes target
  have hdid := hdoes _ hdoc hmutated
  have hsnapshot : (view.applyChanges changes target).2 =
      if changes.change = none ∧ (view.applyChanges changes target).1.syncState = view.syncState
        then none
      else some {
        documents := changes.documentSet
        change := changes.change
        mutated := changes.mutated
        fromCache := (view.applyChanges changes target).1.syncState = .local
        syncStateChanged := (view.applyChanges changes target).1.syncState ≠ view.syncState
        hasCachedResults := target.any fun change => change.resumeToken } := by
    simp [applyChanges]
  rw [hsnapshot]
  split
  next hnone => exact .silent (hnone.1 ▸ hdid) hnone.2
  next => exact .told _ hdid ⟨hdoc.symm, hmutated.symm, rfl⟩ rfl

/-- A step is one of the document, its mark and the sync state alone. -/
theorem Steps.of_eq {view₀ view view' : View V} {snapshot : Option (ViewSnapshot V)}
    (h : view₀.Steps view' snapshot) (hdoc : view₀.documentSet = view.documentSet)
    (hmutated : view₀.mutated = view.mutated) (hsync : view₀.syncState = view.syncState) :
    view.Steps view' snapshot := by
  have hdoes : ∀ change, view₀.Does view' change → view.Does view' change := by
    intro change hdid
    rw [Does.eq_def, hdoc, hmutated] at hdid
    exact hdid
  cases h with
  | silent hdid hsame => exact .silent (hdoes _ hdid) (hsame.trans hsync)
  | told snapshot hdid hshows hchanged =>
    exact .told snapshot (hdoes _ hdid) hshows (hsync ▸ hchanged)

theorem steps_applyOnlineStateChange (view : View V) (onlineState : OnlineState) :
    view.Steps (view.applyOnlineStateChange onlineState).1
      (view.applyOnlineStateChange onlineState).2 := by
  rw [applyOnlineStateChange]
  split
  · refine (steps_applyChanges { view with current := false } _ _ ?_).of_eq rfl rfl rfl
    exact fun _ hdoc hmutated => ⟨hdoc, hmutated⟩
  · exact .silent ⟨rfl, rfl⟩ rfl

theorem documentSet_applyOnlineStateChange (view : View V) (onlineState : OnlineState) :
    (view.applyOnlineStateChange onlineState).1.documentSet = view.documentSet ∧
      (view.applyOnlineStateChange onlineState).1.mutated = view.mutated := by
  rw [applyOnlineStateChange]
  split
  · exact documentSet_applyChanges _ _ _
  · exact ⟨rfl, rfl⟩

/-! ## Changes of the document -/

section
variable [DecidableEq V] {view : View V}

/-- A change of the document is of the type that it says. -/
theorem does_changeTo {newDoc : Option (MutableDocument V)} {change : ChangeType}
    (hchange : view.changeTo newDoc = some change) {view' : View V}
    (hdoc : view'.documentSet = newDoc)
    (hmutated : view'.mutated = newDoc.any fun doc => doc.hasLocalMutations) :
    view.Does view' change := by
  rw [changeTo.eq_def] at hchange
  split at hchange
  next oldDoc newDoc hold =>
    split at hchange
    next hne =>
      split at hchange
      · cases hchange
      · cases hchange
        simpa [Does, hdoc, hold, fieldsOf] using Ne.symm hne
    next heq =>
      split at hchange
      next hpending =>
        cases hchange
        have hsame : oldDoc.value = newDoc.value := by simpa using heq
        refine ⟨by simp [hdoc, hold, fieldsOf, hsame], ?_⟩
        rw [hmutated, Option.any_some]
        -- if they count as pending, it is for the local mutations
        cases hm : view.mutated <;> cases hl : newDoc.hasLocalMutations <;> simp_all
      next => cases hchange
  next hold =>
    cases hchange
    simp [Does, hdoc, hold, fieldsOf]
  next hold =>
    cases hchange
    simp [Does, hdoc, hold, fieldsOf]
  next => cases hchange

/-- **What is computed** is a change of the type that it says. -/
theorem does_computeDocumentChanges (docChange : Option (MutableDocument V)) {view' : View V}
    (hdoc : view'.documentSet = (view.computeDocumentChanges docChange).documentSet)
    (hmutated : view'.mutated = (view.computeDocumentChanges docChange).mutated) :
    view.Does view' (view.computeDocumentChanges docChange).change := by
  cases docChange with
  | none => exact ⟨hdoc, hmutated⟩
  | some doc =>
    rw [computeDocumentChanges] at hdoc hmutated ⊢
    cases hchange : view.changeTo (matching doc) with
    | none =>
      rw [hchange] at hdoc hmutated
      exact ⟨hdoc, hmutated⟩
    | some change =>
      rw [hchange] at hdoc hmutated
      exact does_changeTo hchange hdoc hmutated

theorem marked_computeDocumentChanges (hview : view.Marked)
    (docChange : Option (MutableDocument V)) :
    (view.computeDocumentChanges docChange).mutated =
      (view.computeDocumentChanges docChange).documentSet.any fun doc => doc.hasLocalMutations := by
  cases docChange with
  | none => exact hview
  | some doc =>
    rw [computeDocumentChanges]
    split
    · exact hview
    · rfl

end

/-! ## Following the local store -/

/-- The view has the document that the local store has. -/
structure Follows (view : View V) (doc : MutableDocument V) : Prop where
  fields : fieldsOf view.documentSet = fieldsOf (matching doc)
  mutated : doc.isFoundDocument → doc.hasLocalMutations → view.mutated

theorem Follows.of_eq {view view' : View V} {doc : MutableDocument V} (h : view.Follows doc)
    (hdoc : view'.documentSet = view.documentSet) (hmutated : view'.mutated = view.mutated) :
    view'.Follows doc :=
  ⟨(congrArg fieldsOf hdoc).trans h.fields,
    fun hfound hlocal => hmutated.trans (h.mutated hfound hlocal)⟩

/-- The view keeps its document and waits. -/
def Withholds (view : View V) (doc : MutableDocument V) : Prop :=
  doc.isFoundDocument ∧ ∃ oldDoc, view.documentSet = some oldDoc ∧ oldDoc.value ≠ doc.value ∧
    shouldWaitForSyncedDocument doc oldDoc

theorem fieldsOf_matching {doc doc' : MutableDocument V} (h : doc.Alike doc') :
    fieldsOf (matching doc) = fieldsOf (matching doc') := by
  rw [matching, matching, ← h.found]
  split
  next hfound => exact congrArg some (h.value hfound)
  next => rfl

section
variable [DecidableEq V] {view view' : View V} {doc doc' : MutableDocument V}

/-- A view that has been told of a document has its fields, or keeps its own. -/
theorem fields_computeDocumentChanges
    (hdoc : view'.documentSet = (view.computeDocumentChanges (some doc)).documentSet)
    (hwithholds : ¬ view.Withholds doc) :
    fieldsOf view'.documentSet = fieldsOf (matching doc) := by
  rw [hdoc, computeDocumentChanges]
  cases hchange : view.changeTo (matching doc) with
  | some change => rfl
  | none =>
    dsimp only
    rw [changeTo.eq_def] at hchange
    split at hchange
    next oldDoc newDoc hold hnew =>
      rw [hold, hnew]
      split at hchange
      next hne =>
        have hfound : doc.isFoundDocument ∧ doc = newDoc := by
          rw [matching] at hnew
          split at hnew
          next hfound => exact ⟨hfound, Option.some.inj hnew⟩
          next => cases hnew
        obtain ⟨hfound, rfl⟩ := hfound
        split at hchange
        next hwait => exact absurd ⟨hfound, oldDoc, hold, hne, hwait⟩ hwithholds
        next => cases hchange
      next heq =>
        have hsame : oldDoc.value = newDoc.value := by simpa using heq
        simp [fieldsOf, hsame]
    next => cases hchange
    next => cases hchange
    next hold hnew => rw [hold, hnew]

theorem mutated_computeDocumentChanges
    (hmutated : view'.mutated = (view.computeDocumentChanges (some doc)).mutated)
    (hfound : doc.isFoundDocument) (hlocal : doc.hasLocalMutations) : view'.mutated := by
  have hmatching : matching doc = some doc := if_pos hfound
  rw [hmutated, computeDocumentChanges]
  cases hchange : view.changeTo (matching doc) with
  | some change => simpa [hmatching] using hlocal
  | none =>
    rw [hmatching] at hchange
    cases hold : view.documentSet with
    | none => simp [changeTo, hold] at hchange
    | some oldDoc =>
      by_cases hvalue : oldDoc.value = doc.value
      · simpa [changeTo, hold, hvalue, hlocal] using hchange
      · simp [changeTo, hold, hvalue, shouldWaitForSyncedDocument, hlocal] at hchange

/-- A view that waits keeps other fields. -/
theorem fields_of_withholds (hwithholds : view.Withholds doc)
    (hdoc : view'.documentSet = (view.computeDocumentChanges (some doc)).documentSet) :
    fieldsOf view'.documentSet ≠ fieldsOf (matching doc) := by
  obtain ⟨hfound, oldDoc, hold, hvalue, hwait⟩ := hwithholds
  have hmatching : matching doc = some doc := if_pos hfound
  have hchange : view.changeTo (matching doc) = none := by
    simp [changeTo, hold, hmatching, hvalue, hwait]
  rw [hdoc, computeDocumentChanges, hchange, hold, hmatching]
  simpa [fieldsOf] using hvalue

/-- **The view follows the store** unless it waits. -/
theorem follows_iff (hdoc : view'.documentSet = (view.computeDocumentChanges (some doc)).documentSet)
    (hmutated : view'.mutated = (view.computeDocumentChanges (some doc)).mutated)
    (halike : doc.Alike doc') :
    (view'.Follows doc' ↔ ¬ view.Withholds doc) ∧
      (fieldsOf view'.documentSet = fieldsOf (matching doc') → ¬ view.Withholds doc) := by
  have hlost : fieldsOf view'.documentSet = fieldsOf (matching doc') → ¬ view.Withholds doc := by
    intro hfields hwithholds
    exact fields_of_withholds hwithholds hdoc (hfields.trans (fieldsOf_matching halike).symm)
  refine ⟨⟨fun hfollows => hlost hfollows.fields, fun hwithholds => ⟨?_, ?_⟩⟩, hlost⟩
  · exact (fields_computeDocumentChanges hdoc hwithholds).trans (fieldsOf_matching halike)
  · intro hfound hlocal
    have hfound₀ : doc.isFoundDocument := halike.found.trans hfound
    refine mutated_computeDocumentChanges hmutated hfound₀ ?_
    rwa [MutableDocument.hasLocalMutations, halike.state hfound₀]

/-- A new view has the document that it is made for. -/
theorem follows_created {remoteKey : Bool}
    (hdoc : view'.documentSet =
      ((create remoteKey).computeDocumentChanges (matching doc)).documentSet)
    (hmutated : view'.mutated =
      ((create remoteKey).computeDocumentChanges (matching doc)).mutated) :
    view'.Follows doc := by
  by_cases hfound : doc.isFoundDocument
  · have hmatching : matching doc = some doc := if_pos hfound
    rw [hmatching] at hdoc hmutated
    refine (follows_iff hdoc hmutated (.refl doc)).1.mpr ?_
    intro hwithholds
    obtain ⟨-, oldDoc, hold, -⟩ := hwithholds
    cases hold
  · have hmatching : matching doc = none := if_neg hfound
    refine ⟨?_, fun hfound' => absurd hfound' hfound⟩
    rw [hdoc, hmatching]
    rfl

end

end View

end Listen
end FlutterSugar
