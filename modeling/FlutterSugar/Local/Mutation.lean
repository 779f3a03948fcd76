import FlutterSugar.Local.ObjectValue
import Mathlib.Data.Finset.Lattice.Basic

/-!
# Mutations of a document

A write becomes a mutation with a precondition.  It is applied in two ways: to the
document as the server has it, once the server has accepted the write, and to the
document as the app is to see it until then.  Several pending mutations are summed
up in one, the overlay.

Fields of fields and transforms (`FieldValue.increment` and its like) are left out:
the app writes neither.

## Main definitions

* `MutableDocument V` — a document, or what is known in place of one.
* `Mutation V` — `SetMutation`, `PatchMutation` and `DeleteMutation`.
* `applyToLocalView`, `applyToRemoteDocument` — the two ways to apply one.
* `calculateOverlayMutation` — the overlay.
* `Write V`, `Write.toMutation` — the writes of a document reference.
-/

namespace FlutterSugar.Local
open Lib

variable {V : Type}

/-! ## Documents -/

/-- A time; `SnapshotVersion::None()` is zero. -/
abbrev SnapshotVersion := ℤ

inductive DocumentType
  | invalid
  | foundDocument
  | noDocument
  /-- It has been changed by the server, but not as far as it is known here. -/
  | unknownDocument
  deriving DecidableEq

inductive DocumentState
  | hasLocalMutations
  | hasCommittedMutations
  | synced
  deriving DecidableEq

/-- A document of the cache; it has fields only if it was found. -/
@[ext] structure MutableDocument (V : Type) where
  type : DocumentType
  version : SnapshotVersion
  value : ObjectValue V
  state : DocumentState
  value_empty : type ≠ .foundDocument → value = ∅

namespace MutableDocument

/-- Nothing is known. -/
def invalidDocument : MutableDocument V := ⟨.invalid, 0, ∅, .synced, fun _ => rfl⟩

def foundDocument (version : SnapshotVersion) (value : ObjectValue V) : MutableDocument V :=
  ⟨.foundDocument, version, value, .synced, fun h => absurd rfl h⟩

def noDocument (version : SnapshotVersion) : MutableDocument V :=
  ⟨.noDocument, version, ∅, .synced, fun _ => rfl⟩

def unknownDocument (version : SnapshotVersion) : MutableDocument V :=
  ⟨.unknownDocument, version, ∅, .hasCommittedMutations, fun _ => rfl⟩

def setHasCommittedMutations (doc : MutableDocument V) : MutableDocument V :=
  { doc with state := .hasCommittedMutations }

def setHasLocalMutations (doc : MutableDocument V) : MutableDocument V :=
  { doc with state := .hasLocalMutations, version := 0 }

def isValidDocument (doc : MutableDocument V) : Bool := doc.type ≠ .invalid

def isFoundDocument (doc : MutableDocument V) : Bool := doc.type = .foundDocument

def isNoDocument (doc : MutableDocument V) : Bool := doc.type = .noDocument

def hasLocalMutations (doc : MutableDocument V) : Bool := doc.state = .hasLocalMutations

def hasPendingWrites (doc : MutableDocument V) : Bool :=
  doc.hasLocalMutations || doc.state = .hasCommittedMutations

end MutableDocument

/-! ## Mutations -/

inductive Precondition
  | none
  | documentExists (b : Bool)
  | updateTime (version : SnapshotVersion)
  deriving DecidableEq

def Precondition.isValidFor (doc : MutableDocument V) : Precondition → Bool
  | .none => true
  | .documentExists b => b = doc.isFoundDocument
  | .updateTime version => doc.isFoundDocument && doc.version = version

inductive Mutation (V : Type)
  | set (value : ObjectValue V) (precondition : Precondition)
  | patch (value : ObjectValue V) (mask : FieldMask) (precondition : Precondition)
  | delete (precondition : Precondition)

namespace Mutation

def fieldMask : Mutation V → Option FieldMask
  | .patch _ mask _ => some mask
  | .set _ _ | .delete _ => none

def precondition : Mutation V → Precondition
  | .set _ precondition | .patch _ _ precondition | .delete precondition => precondition

def isPatch : Mutation V → Bool
  | .patch _ _ _ => true
  | .set _ _ | .delete _ => false

/-- `GetPatch`: a field of the mask without a value is deleted. -/
def getPatch (value : ObjectValue V) (mask : FieldMask) : TransformMap V := .ofFinset mask value.get

/-- `ApplyToRemoteDocument`: the server has accepted the mutation at `version`. -/
def applyToRemoteDocument (doc : MutableDocument V) (version : SnapshotVersion) :
    Mutation V → MutableDocument V
  | .set value _ => (MutableDocument.foundDocument version value).setHasCommittedMutations
  | .patch value mask precondition =>
    -- the server knew a document that is not the one in the cache
    if ¬ precondition.isValidFor doc then .unknownDocument version
    else
      (MutableDocument.foundDocument version
        (doc.value.setAll (getPatch value mask))).setHasCommittedMutations
  | .delete _ => (MutableDocument.noDocument version).setHasCommittedMutations

/-- `ApplyToLocalView`: the document with the mutation, and the fields that have
been changed so far, or `nullopt` if the document has been replaced. -/
def applyToLocalView (doc : MutableDocument V) (previousMask : Option FieldMask) :
    Mutation V → MutableDocument V × Option FieldMask
  | .set value precondition =>
    if ¬ precondition.isValidFor doc then (doc, previousMask)
    else ((MutableDocument.foundDocument doc.version value).setHasLocalMutations, none)
  | .patch value mask precondition =>
    if ¬ precondition.isValidFor doc then (doc, previousMask)
    else
      ((MutableDocument.foundDocument doc.version
        (doc.value.setAll (getPatch value mask))).setHasLocalMutations,
        previousMask.map fun previous => previous ∪ mask)
  | .delete precondition =>
    if precondition.isValidFor doc then
      ((MutableDocument.noDocument 0).setHasLocalMutations, none)
    else (doc, previousMask)

/-- A field of the overlay is as the document has it now. -/
def copyField (doc patch : ObjectValue V) (path : String) : ObjectValue V :=
  match doc.get path with
  | some value => patch.set path value
  | none => patch.delete path

/-- The fields of the overlay. -/
def overlayValue (doc : ObjectValue V) (mask : FieldMask) : ObjectValue V :=
  mask.paths.foldl (copyField doc) ∅

/-- `CalculateOverlayMutation`: one mutation that does what has been done to `doc`. -/
def calculateOverlayMutation (doc : MutableDocument V) (mask : Option FieldMask) :
    Option (Mutation V) :=
  if ¬ doc.hasLocalMutations then none
  else
    match mask with
    | none =>
      if doc.isNoDocument then some (.delete .none) else some (.set doc.value .none)
    | some mask => some (.patch (overlayValue doc.value mask) mask .none)

theorem get_copyField (doc patch : ObjectValue V) (path k : String) :
    (copyField doc patch path).get k = if k = path then doc.get k else patch.get k := by
  rw [copyField]
  cases h : doc.get path with
  | none =>
    rw [ObjectValue.get_delete]
    split
    next hk => rw [hk, h]
    next => rfl
  | some value =>
    rw [ObjectValue.get_set]
    split
    next hk => rw [hk, h]
    next => rfl

theorem get_overlayValue (doc : ObjectValue V) (mask : FieldMask) (k : String) :
    (overlayValue doc mask).get k = if k ∈ mask then doc.get k else none := by
  have hfold : ∀ (l : List String) (patch : ObjectValue V),
      (l.foldl (copyField doc) patch).get k = if k ∈ l then doc.get k else patch.get k := by
    intro l
    induction l with
    | nil => simp
    | cons path l ih =>
      intro patch
      rw [List.foldl_cons, ih, get_copyField]
      by_cases hl : k ∈ l <;> simp [hl]
  rw [overlayValue, hfold, SortedMap.get_empty]
  simp only [FieldMask.paths, Finset.mem_sort]

end Mutation

/-! ## The writes of a document reference -/

/-- A write as the app makes it. -/
inductive Write (V : Type)
  | set (fields : List (String × V))
  | setMerge (fields : List (String × V))
  | update (fields : List (String × V))
  | delete

/-- The fields of the data that is written. -/
def parseData (fields : List (String × V)) : ObjectValue V :=
  fields.foldl (fun data field => data.set field.1 field.2) ∅

/-- `SetData`, `UpdateData` and `DeleteDocument` of a document reference. -/
def Write.toMutation : Write V → Mutation V
  | .set fields => .set (parseData fields) .none
  | .setMerge fields => .patch (parseData fields) (parseData fields).keys .none
  | .update fields => .patch (parseData fields) (parseData fields).keys (.documentExists true)
  | .delete => .delete .none

end FlutterSugar.Local
