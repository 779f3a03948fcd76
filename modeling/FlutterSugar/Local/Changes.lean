import FlutterSugar.Local.Coherence

/-!
# What the local store has changed

Each operation of the local store returns the documents that it has changed, as the
app is to see them.  They are computed on the way, and not read from the store
afterwards; still, they are what reading the store gives, unless an overlay has been
left behind.

## Main definitions

* `LocalStore.changes` — the document that a step has changed, if there is one.
* `changes_alike`, `getDocument_of_ne_changes` — it is what the store then has, and
  nothing else has changed.
-/

namespace FlutterSugar.Local
open Lib

variable {K V : Type} [DecidableEq K]

/-- Documents that look the same to the app, if they are found. -/
structure MutableDocument.Alike (doc doc' : MutableDocument V) : Prop where
  found : doc.isFoundDocument = doc'.isFoundDocument
  value : doc.isFoundDocument → doc.value = doc'.value
  state : doc.isFoundDocument → doc.state = doc'.state

theorem MutableDocument.Alike.refl (doc : MutableDocument V) : doc.Alike doc :=
  ⟨rfl, fun _ => rfl, fun _ => rfl⟩

theorem MutableDocument.value_of_not_found {doc : MutableDocument V}
    (h : doc.isFoundDocument = false) : doc.value = ∅ :=
  doc.value_empty (by simpa [isFoundDocument] using h)

theorem MutableDocument.not_found_of_invalid {doc : MutableDocument V}
    (h : ¬ doc.isValidDocument) : doc.isFoundDocument = false := by
  have htype : doc.type = .invalid := by simpa [isValidDocument] using h
  simp [isFoundDocument, htype]

namespace LocalStore

/-- The document that `WriteLocally` returns. -/
def localWriteResult (s : LocalStore K V) (key : K) (mutation : Mutation V) :
    MutableDocument V :=
  let before := s.getOverlayedDocument key
  let after := (mutation.applyToLocalView before.1 before.2).1
  if after.isValidDocument then after else .noDocument 0

/-- `GetLocalViewOfDocuments` for the document of a remote event. -/
def localViewOfDocument (s : LocalStore K V) (key : K) (doc : MutableDocument V) :
    MutableDocument V :=
  if doc.isFoundDocument ≠ (s.remoteDocumentCache key).isFoundDocument ∧ s.recalculates key then
    (applyAll doc (some ∅) ((s.batchesAffecting key).map fun batch => batch.mutation)).1
  else
    match s.documentOverlayCache key with
    | none => doc
    | some overlay => (overlay.mutation.applyToLocalView doc none).1

/-- What a step returns. -/
def changes (arraySize : ℕ) (s : LocalStore K V) : Act K V → Option (K × MutableDocument V)
  | .write key write => some (key, s.localWriteResult key write.toMutation)
  | .acknowledge version =>
    s.mutationQueue.head?.bind fun batch => (s.acknowledgeBatch arraySize version).map fun t =>
      (batch.key, (t.getOverlayedDocument batch.key).1)
  | .reject =>
    s.mutationQueue.head?.bind fun batch => s.rejectBatch.map fun t =>
      (batch.key, (t.getOverlayedDocument batch.key).1)
  | .remote key update =>
    (s.populateDocumentChanges key update.doc).map fun _ =>
      (key, s.localViewOfDocument key update.doc)
  | .start => none

variable {s t : LocalStore K V} {key : K}

theorem changes_acknowledge {arraySize : ℕ} {version : SnapshotVersion}
    {batch : MutationBatch K V} (hhead : s.mutationQueue.head? = some batch)
    (hstep : step arraySize s (.acknowledge version) = some t) :
    changes arraySize s (.acknowledge version) =
      some (batch.key, (t.getOverlayedDocument batch.key).1) := by
  have hstore : s.acknowledgeBatch arraySize version = some t := hstep
  rw [changes, hhead, Option.bind_some, hstore, Option.map_some]

theorem changes_reject {arraySize : ℕ} {batch : MutationBatch K V}
    (hhead : s.mutationQueue.head? = some batch) (hstep : step arraySize s .reject = some t) :
    changes arraySize s .reject = some (batch.key, (t.getOverlayedDocument batch.key).1) := by
  have hstore : s.rejectBatch = some t := hstep
  rw [changes, hhead, Option.bind_some, hstore, Option.map_some]

/-! ## The other documents -/

theorem effect_writeLocally (s : LocalStore K V) (key k : K) (m : Mutation V) :
    (s.writeLocally key m).effect k = (s.addMutationBatch key m).effect k := by
  simp only [writeLocally]
  split <;> rfl

/-- A document that a step does not return has the pending writes and the version of
the server that it had. -/
theorem effect_of_ne_changes {arraySize : ℕ} {act : Act K V}
    (hstep : step arraySize s act = some t) (hkey : ∀ doc, changes arraySize s act ≠ some (key, doc)) :
    t.effect key = s.effect key ∧ t.remoteDocumentCache key = s.remoteDocumentCache key := by
  cases act with
  | write k write =>
    cases hstep
    have hk : key ≠ k := by
      rintro rfl
      exact hkey _ rfl
    rw [effect_writeLocally, effect_addMutationBatch_of_ne s hk, remoteDocumentCache_writeLocally]
    exact ⟨rfl, rfl⟩
  | acknowledge version =>
    obtain ⟨batch, hhead, hstore⟩ := Option.map_eq_some_iff.mp hstep
    have hk : key ≠ batch.key := by
      rintro rfl
      exact hkey _ (changes_acknowledge hhead hstep)
    subst hstore
    dsimp only
    split
    · rw [effect_recalculateAndSaveOverlays, remoteDocumentCache_recalculateAndSaveOverlays]
      exact ⟨effect_answered_of_ne hhead hk, remoteDocumentCache_answered_of_ne s hk _⟩
    · exact ⟨effect_answered_of_ne hhead hk, remoteDocumentCache_answered_of_ne s hk _⟩
  | reject =>
    obtain ⟨batch, hhead, hstore⟩ := Option.map_eq_some_iff.mp hstep
    have hk : key ≠ batch.key := by
      rintro rfl
      exact hkey _ (changes_reject hhead hstep)
    subst hstore
    rw [effect_recalculateAndSaveOverlays, remoteDocumentCache_recalculateAndSaveOverlays]
    exact ⟨effect_answered_of_ne hhead hk, remoteDocumentCache_answered_of_ne s hk _⟩
  | remote k update =>
    cases hstep
    rw [applyRemoteEvent]
    cases hcached : s.populateDocumentChanges k update.doc with
    | none => exact ⟨rfl, rfl⟩
    | some cached =>
      have hk : key ≠ k := by
        rintro rfl
        exact hkey (s.localViewOfDocument key update.doc) (by simp [changes, hcached])
      dsimp only
      split
      · rw [effect_recalculateAndSaveOverlays, remoteDocumentCache_recalculateAndSaveOverlays]
        exact ⟨effect_addRemoteDocument_of_ne s hk cached,
          remoteDocumentCache_addRemoteDocument_of_ne s hk cached⟩
      · exact ⟨effect_addRemoteDocument_of_ne s hk cached,
          remoteDocumentCache_addRemoteDocument_of_ne s hk cached⟩
  | start =>
    cases hstep
    rw [start]
    split <;> exact ⟨rfl, rfl⟩

/-- **Nothing else has changed.** -/
theorem getDocument_of_ne_changes {arraySize : ℕ} (hs : s.Sound) (ht : t.Sound) {act : Act K V}
    (hstep : step arraySize s act = some t)
    (hkey : ∀ doc, changes arraySize s act ≠ some (key, doc)) :
    t.getDocument key = s.getDocument key := by
  obtain ⟨heffect, hremote⟩ := effect_of_ne_changes hstep hkey
  rw [hs.getDocument_eq, ht.getDocument_eq, heffect, hremote]

/-! ## The document that is returned -/

/-- What is written into documents that look the same makes them look the same. -/
theorem alike_doc {doc doc' : MutableDocument V} (h : doc.Alike doc') (e : Effect V) :
    (e.doc doc).Alike (e.doc doc') := by
  have hvalue : doc.value = doc'.value := by
    cases hfound : doc.isFoundDocument with
    | true => exact h.value hfound
    | false =>
      rw [MutableDocument.value_of_not_found hfound,
        MutableDocument.value_of_not_found (h.found.symm.trans hfound)]
  cases e with
  | unchanged => exact h
  | patched fields =>
    have hsame : (Effect.patched fields).doc doc = (Effect.patched fields).doc doc' := by
      rw [Effect.doc, Effect.doc, hvalue]
    exact hsame ▸ .refl _
  | replaced fields => exact .refl _
  | deleted => exact .refl _

theorem localWriteResult_alike (h : s.Inv) (hs : s.Sound) (key : K) {m : Mutation V}
    (hm : m.Submitted) :
    (s.localWriteResult key m).Alike ((s.writeLocally key m).getDocument key) := by
  obtain ⟨-, ht⟩ := writeLocally_sound h hs key hm
  rw [localWriteResult, getOverlayedDocument_eq hs, Effect.applyToLocalView_doc hm,
    ht.getDocument_eq, effect_writeLocally, effect_addMutationBatch_self,
    remoteDocumentCache_writeLocally]
  dsimp only
  split
  next => exact .refl _
  next hinvalid =>
    refine ⟨(MutableDocument.not_found_of_invalid hinvalid).symm, fun hfound => ?_, fun hfound => ?_⟩
    · cases hfound
    · cases hfound

/-- A remote event that is not ignored. -/
theorem effect_applyRemoteEvent {doc cached : MutableDocument V}
    (hcached : s.populateDocumentChanges key doc = some cached) :
    (s.applyRemoteEvent key doc).effect key = (s.addRemoteDocument key cached).effect key ∧
      (s.applyRemoteEvent key doc).remoteDocumentCache key = cached := by
  rw [applyRemoteEvent, hcached]
  dsimp only
  split
  · rw [effect_recalculateAndSaveOverlays, remoteDocumentCache_recalculateAndSaveOverlays]
    exact ⟨rfl, remoteDocumentCache_addRemoteDocument_self s key cached⟩
  · exact ⟨rfl, remoteDocumentCache_addRemoteDocument_self s key cached⟩

theorem localViewOfDocument_alike (h : s.Inv) (hs : s.Sound) (key : K) {update : DocumentUpdate V}
    (ht : (s.applyRemoteEvent key update.doc).Sound) {cached : MutableDocument V}
    (hcached : s.populateDocumentChanges key update.doc = some cached) :
    (s.localViewOfDocument key update.doc).Alike
      ((s.applyRemoteEvent key update.doc).getDocument key) := by
  have halike : update.doc.Alike cached := by
    rcases populateDocumentChanges_eq_some hcached with rfl | ⟨hgone, rfl⟩
    · exact .refl _
    · exact ⟨hgone, fun hfound => absurd hfound (by simp [hgone]),
        fun hfound => absurd hfound (by simp [hgone])⟩
  obtain ⟨heffect, hremote⟩ := effect_applyRemoteEvent hcached
  have hview : s.localViewOfDocument key update.doc =
      ((s.addRemoteDocument key cached).effect key).doc update.doc := by
    rw [localViewOfDocument]
    split
    next =>
      rw [effect_addRemoteDocument_self, ← halike.found]
      exact congrArg Prod.fst (applyAll_eq (h.pending key) _)
    next hcond =>
      rw [effect_addRemoteDocument h hs (halike.found ▸ hcond)]
      have hkey := hs key
      cases ho : s.documentOverlayCache key with
      | none =>
        have he : s.effect key = .unchanged := by
          rw [← Effect.overlay_eq_none_iff, ← hkey, ho]
          rfl
        rw [he]
        rfl
      | some overlay =>
        rw [ho] at hkey
        exact Effect.overlay_apply hkey.symm update.doc none
  rw [hview, ht.getDocument_eq, heffect, hremote]
  exact alike_doc halike _

/-- **What a step returns** is what the store then has. -/
theorem changes_alike {arraySize : ℕ} (h : s.Inv) (hs : s.Sound) (ht : t.Sound) {act : Act K V}
    (hstep : step arraySize s act = some t) {doc : MutableDocument V}
    (hdoc : changes arraySize s act = some (key, doc)) : doc.Alike (t.getDocument key) := by
  cases act with
  | write k write =>
    cases hstep
    cases hdoc
    exact localWriteResult_alike h hs key ⟨write, rfl⟩
  | acknowledge version =>
    obtain ⟨batch, hhead, -⟩ := Option.map_eq_some_iff.mp hstep
    rw [changes_acknowledge hhead hstep] at hdoc
    cases hdoc
    rw [getOverlayedDocument_eq ht, ht.getDocument_eq]
    exact .refl _
  | reject =>
    obtain ⟨batch, hhead, -⟩ := Option.map_eq_some_iff.mp hstep
    rw [changes_reject hhead hstep] at hdoc
    cases hdoc
    rw [getOverlayedDocument_eq ht, ht.getDocument_eq]
    exact .refl _
  | remote k update =>
    cases hstep
    obtain ⟨cached, hcached, hdoc⟩ := Option.map_eq_some_iff.mp hdoc
    cases hdoc
    exact localViewOfDocument_alike h hs key ht hcached
  | start => cases hdoc

end LocalStore

end FlutterSugar.Local
