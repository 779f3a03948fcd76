import FlutterSugar.Local.Effect
import FlutterSugar.Lib.Run
import Mathlib.Logic.Function.Basic

/-!
# The local store

The SDK keeps the documents as the server has them, the queue of writes that the
server has not answered, and an overlay for each document with pending writes, so
that reading it need not apply them one by one.

A batch of the queue has one mutation, as every write of the app does, and a remote
event changes one document; the documents of an event are handled one after the
other.

## Main definitions

* `LocalStore K V` — the three tables.
* `getDocument` — a document as the app sees it, read through its overlay.
* `getDocumentOfBatches` — the same by applying the pending writes.
* `writeLocally`, `acknowledgeBatch`, `rejectBatch`, `applyRemoteEvent` — what
  changes the store.
* `step` — any of them.
-/

namespace FlutterSugar.Local
open Lib

variable {K V : Type} [DecidableEq K]

structure MutationBatch (K V : Type) where
  batchId : ℕ
  key : K
  mutation : Mutation V

structure Overlay (V : Type) where
  largestBatchId : ℕ
  mutation : Mutation V

/-- The tables of the store, for the keys `K` of documents. -/
structure LocalStore (K V : Type) where
  /-- `remote_document_cache_->Get(key)`, an invalid document if there is none. -/
  remoteDocumentCache : K → MutableDocument V
  mutationQueue : List (MutationBatch K V)
  nextBatchId : ℕ
  documentOverlayCache : K → Option (Overlay V)

namespace LocalStore

/-- `AllMutationBatchesAffectingDocumentKey(key)`. -/
def batchesAffecting (s : LocalStore K V) (key : K) : List (MutationBatch K V) :=
  s.mutationQueue.filter fun batch => batch.key = key

/-! ## Reading -/

/-- `GetBaseDocument`: only a patch needs the document as the server has it. -/
def getBaseDocument (s : LocalStore K V) (key : K) : Option (Overlay V) → MutableDocument V
  | none => s.remoteDocumentCache key
  | some overlay =>
    if overlay.mutation.isPatch then s.remoteDocumentCache key else .invalidDocument

/-- `GetDocument(key)`. -/
def getDocument (s : LocalStore K V) (key : K) : MutableDocument V :=
  match s.documentOverlayCache key with
  | none => s.getBaseDocument key none
  | some overlay =>
    (overlay.mutation.applyToLocalView (s.getBaseDocument key (some overlay)) (some ∅)).1

/-- `GetDocument(key, batches)`, which does without the overlay. -/
def getDocumentOfBatches (s : LocalStore K V) (key : K) (batches : List (MutationBatch K V)) :
    MutableDocument V :=
  batches.foldl (fun doc batch => (batch.mutation.applyToLocalView doc (some ∅)).1)
    (s.remoteDocumentCache key)

/-! ## The overlays -/

def saveOverlay (s : LocalStore K V) (key : K) (overlay : Overlay V) : LocalStore K V :=
  { s with documentOverlayCache := Function.update s.documentOverlayCache key (some overlay) }

@[simp] theorem documentOverlayCache_saveOverlay_self (s : LocalStore K V) (key : K)
    (overlay : Overlay V) : (s.saveOverlay key overlay).documentOverlayCache key = some overlay :=
  Function.update_self ..

@[simp] theorem documentOverlayCache_saveOverlay_of_ne (s : LocalStore K V) {key k : K}
    (h : k ≠ key) (overlay : Overlay V) :
    (s.saveOverlay key overlay).documentOverlayCache k = s.documentOverlayCache k :=
  Function.update_of_ne h ..

def removeOverlaysForBatchId (s : LocalStore K V) (batchId : ℕ) : LocalStore K V :=
  { s with
    documentOverlayCache := fun key =>
      (s.documentOverlayCache key).filter fun overlay => overlay.largestBatchId ≠ batchId }

/-- `RecalculateAndSaveOverlays` for one document.  The overlay is saved under the
last batch that affects the document; an overlay that is not to be there is not
removed. -/
def recalculateAndSaveOverlays (s : LocalStore K V) (key : K) (doc : MutableDocument V) :
    LocalStore K V :=
  let batches := s.batchesAffecting key
  let after := applyAll doc (some ∅) (batches.map fun batch => batch.mutation)
  match batches.getLast?, Mutation.calculateOverlayMutation after.1 after.2 with
  | some last, some mutation => s.saveOverlay key ⟨last.batchId, mutation⟩
  | _, _ => s

@[simp] theorem mutationQueue_recalculateAndSaveOverlays (s : LocalStore K V) (key : K)
    (doc : MutableDocument V) :
    (s.recalculateAndSaveOverlays key doc).mutationQueue = s.mutationQueue := by
  simp only [recalculateAndSaveOverlays]
  split <;> rfl

@[simp] theorem remoteDocumentCache_recalculateAndSaveOverlays (s : LocalStore K V) (key : K)
    (doc : MutableDocument V) :
    (s.recalculateAndSaveOverlays key doc).remoteDocumentCache = s.remoteDocumentCache := by
  simp only [recalculateAndSaveOverlays]
  split <;> rfl

/-- `GetOverlayedDocuments`: the document as the app sees it, with its mask. -/
def getOverlayedDocument (s : LocalStore K V) (key : K) :
    MutableDocument V × Option FieldMask :=
  match s.documentOverlayCache key with
  | none => (s.remoteDocumentCache key, some ∅)
  | some overlay =>
    ((overlay.mutation.applyToLocalView (s.remoteDocumentCache key) none).1,
      overlay.mutation.fieldMask)

/-! ## Writes and their answers -/

def addMutationBatch (s : LocalStore K V) (key : K) (mutation : Mutation V) : LocalStore K V :=
  { s with
    mutationQueue := s.mutationQueue ++ [⟨s.nextBatchId, key, mutation⟩]
    nextBatchId := s.nextBatchId + 1 }

/-- `WriteLocally`. -/
def writeLocally (s : LocalStore K V) (key : K) (mutation : Mutation V) : LocalStore K V :=
  let before := s.getOverlayedDocument key
  let after := mutation.applyToLocalView before.1 before.2
  match Mutation.calculateOverlayMutation after.1 after.2 with
  | none => s.addMutationBatch key mutation
  | some overlay => (s.addMutationBatch key mutation).saveOverlay key ⟨s.nextBatchId, overlay⟩

@[simp] theorem mutationQueue_writeLocally (s : LocalStore K V) (key : K) (m : Mutation V) :
    (s.writeLocally key m).mutationQueue = s.mutationQueue ++ [⟨s.nextBatchId, key, m⟩] := by
  simp only [writeLocally]
  split <;> rfl

@[simp] theorem remoteDocumentCache_writeLocally (s : LocalStore K V) (key : K)
    (m : Mutation V) : (s.writeLocally key m).remoteDocumentCache = s.remoteDocumentCache := by
  simp only [writeLocally]
  split <;> rfl

/-- `ApplyBatchResult`: the document that the cache has for an accepted batch. -/
def applyBatchResult (s : LocalStore K V) (batch : MutationBatch K V)
    (version : SnapshotVersion) : MutableDocument V :=
  let doc := s.remoteDocumentCache batch.key
  if doc.version < version then batch.mutation.applyToRemoteDocument doc version else doc

/-- `remote_document_cache_->Add(doc)`. -/
def addRemoteDocument (s : LocalStore K V) (key : K) (doc : MutableDocument V) :
    LocalStore K V :=
  { s with remoteDocumentCache := Function.update s.remoteDocumentCache key doc }

@[simp] theorem remoteDocumentCache_addRemoteDocument_self (s : LocalStore K V) (key : K)
    (doc : MutableDocument V) : (s.addRemoteDocument key doc).remoteDocumentCache key = doc :=
  Function.update_self ..

@[simp] theorem remoteDocumentCache_addRemoteDocument_of_ne (s : LocalStore K V) {key k : K}
    (h : k ≠ key) (doc : MutableDocument V) :
    (s.addRemoteDocument key doc).remoteDocumentCache k = s.remoteDocumentCache k :=
  Function.update_of_ne h ..

/-- `RemoveMutationBatch`, which can only remove the first batch. -/
def removeMutationBatch (s : LocalStore K V) : LocalStore K V :=
  { s with mutationQueue := s.mutationQueue.tail }

/-- The store once the first batch is answered, with the document it has then. -/
def answered (s : LocalStore K V) (batch : MutationBatch K V) (doc : MutableDocument V) :
    LocalStore K V :=
  ((s.addRemoteDocument batch.key doc).removeMutationBatch).removeOverlaysForBatchId batch.batchId

@[simp] theorem remoteDocumentCache_answered_self (s : LocalStore K V)
    (batch : MutationBatch K V) (doc : MutableDocument V) :
    (s.answered batch doc).remoteDocumentCache batch.key = doc :=
  remoteDocumentCache_addRemoteDocument_self s batch.key doc

@[simp] theorem remoteDocumentCache_answered_of_ne (s : LocalStore K V)
    {batch : MutationBatch K V} {k : K} (h : k ≠ batch.key) (doc : MutableDocument V) :
    (s.answered batch doc).remoteDocumentCache k = s.remoteDocumentCache k :=
  remoteDocumentCache_addRemoteDocument_of_ne s h doc

/-- `AcknowledgeBatch` for the first batch.  Whether its document is recalculated
depends on `arraySize`, the `array_size` of the descriptor of an array value. -/
def acknowledgeBatch (arraySize : ℕ) (s : LocalStore K V) (version : SnapshotVersion) :
    Option (LocalStore K V) :=
  s.mutationQueue.head?.map fun batch =>
    let doc := s.applyBatchResult batch version
    if arraySize = 0 then (s.answered batch doc).recalculateAndSaveOverlays batch.key doc
    else s.answered batch doc

/-- `RejectBatch` for the first batch. -/
def rejectBatch (s : LocalStore K V) : Option (LocalStore K V) :=
  s.mutationQueue.head?.map fun batch =>
    let doc := s.remoteDocumentCache batch.key
    (s.answered batch doc).recalculateAndSaveOverlays batch.key doc

/-! ## Remote events -/

end LocalStore

/-- What a remote event says about a document. -/
inductive DocumentUpdate (V : Type)
  | found (version : SnapshotVersion) (fields : ObjectValue V)
  | deleted (version : SnapshotVersion)

def DocumentUpdate.doc : DocumentUpdate V → MutableDocument V
  | .found version fields => .foundDocument version fields
  | .deleted version => .noDocument version

namespace LocalStore

/-- `PopulateDocumentChanges`: what the cache has after it, unless it ignores `doc`. -/
def populateDocumentChanges (s : LocalStore K V) (key : K) (doc : MutableDocument V) :
    Option (MutableDocument V) :=
  let existing := s.remoteDocumentCache key
  -- made up when access is lost
  if doc.isNoDocument ∧ doc.version = 0 then some .invalidDocument
  else if ¬ existing.isValidDocument ∨ existing.version < doc.version ∨
      (doc.version = existing.version ∧ existing.hasPendingWrites) then some doc
  else none

/-- `ComputeViews` recalculates the overlay if the existence of the document has
changed, unless the overlay replaces the document. -/
def recalculates (s : LocalStore K V) (key : K) : Bool :=
  match s.documentOverlayCache key with
  | none => true
  | some overlay => overlay.mutation.isPatch

/-- `ApplyRemoteEvent` for one document. -/
def applyRemoteEvent (s : LocalStore K V) (key : K) (doc : MutableDocument V) :
    LocalStore K V :=
  match s.populateDocumentChanges key doc with
  | none => s
  | some cached =>
    let updated := s.addRemoteDocument key cached
    if doc.isFoundDocument ≠ (s.remoteDocumentCache key).isFoundDocument ∧ s.recalculates key then
      updated.recalculateAndSaveOverlays key doc
    else updated

@[simp] theorem mutationQueue_applyRemoteEvent (s : LocalStore K V) (key : K)
    (doc : MutableDocument V) : (s.applyRemoteEvent key doc).mutationQueue = s.mutationQueue := by
  rw [applyRemoteEvent]
  cases s.populateDocumentChanges key doc with
  | none => rfl
  | some cached =>
    dsimp only
    split
    · rw [mutationQueue_recalculateAndSaveOverlays]
      rfl
    · rfl

/-! ## Runs -/

/-- `Start` of the queue: batches are numbered from 1 again once it is empty. -/
def start (s : LocalStore K V) : LocalStore K V :=
  if s.mutationQueue = [] then { s with nextBatchId := 1 } else s

inductive Act (K V : Type)
  | write (key : K) (write : Write V)
  | acknowledge (version : SnapshotVersion)
  | reject
  | remote (key : K) (update : DocumentUpdate V)
  | start

def step (arraySize : ℕ) (s : LocalStore K V) : Act K V → Option (LocalStore K V)
  | .write key write => some (s.writeLocally key write.toMutation)
  | .acknowledge version => s.acknowledgeBatch arraySize version
  | .reject => s.rejectBatch
  | .remote key update => some (s.applyRemoteEvent key update.doc)
  | .start => some s.start

/-- A store without writes, for the documents in the cache. -/
def idle (remoteDocumentCache : K → MutableDocument V) : LocalStore K V :=
  ⟨remoteDocumentCache, [], 1, fun _ => none⟩

end LocalStore

end FlutterSugar.Local
