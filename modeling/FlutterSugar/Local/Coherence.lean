import FlutterSugar.Local.LocalStore

/-!
# The overlays against the pending writes

Reading a document through its overlay is to give what applying its pending writes
gives.  It does as long as each overlay is what the pending writes do.

The store never removes an overlay but with the batch that it was saved under.  If
the pending writes no longer do anything, since all of them are updates and the
document does not exist any more, an overlay of before stays: the app goes on seeing
a document that is not there.

## Main definitions

* `LocalStore.Inv`, `LocalStore.Sound` — what is known of every store, and what
  makes an overlay right.
* `NotStranded` — the condition on a step.
* `agrees_iff` — every state of a run agrees exactly if no step strands an overlay.
-/

namespace FlutterSugar.Local
open Lib

variable {K V : Type} [DecidableEq K]

namespace LocalStore

/-- The pending mutations of a document. -/
def pending (s : LocalStore K V) (key : K) : List (Mutation V) :=
  (s.batchesAffecting key).map fun batch => batch.mutation

/-- What they do. -/
def effect (s : LocalStore K V) (key : K) : Effect V :=
  net (s.remoteDocumentCache key).isFoundDocument (s.pending key)

/-- What is known of every store. -/
structure Inv (s : LocalStore K V) : Prop where
  submitted : ∀ batch ∈ s.mutationQueue, batch.mutation.Submitted
  ids : s.mutationQueue.Pairwise fun b b' => b.batchId < b'.batchId
  next : ∀ batch ∈ s.mutationQueue, batch.batchId < s.nextBatchId
  remote : ∀ key, (s.remoteDocumentCache key).hasLocalMutations = false
  /-- An overlay is saved under the last batch of its document. -/
  largest : ∀ key overlay, s.documentOverlayCache key = some overlay →
    ∃ last, (s.batchesAffecting key).getLast? = some last ∧ last.batchId = overlay.largestBatchId

/-- Each overlay is what the pending writes do. -/
def Sound (s : LocalStore K V) : Prop :=
  ∀ key, (s.documentOverlayCache key).map Overlay.mutation = (s.effect key).overlay

/-- The app sees each document with its pending writes applied. -/
def Agrees (s : LocalStore K V) : Prop :=
  ∀ key, s.getDocument key = s.getDocumentOfBatches key (s.batchesAffecting key)

variable {s t u : LocalStore K V} {key : K}

theorem Inv.pending (h : s.Inv) (key : K) : ∀ m ∈ s.pending key, m.Submitted := by
  intro m hm
  obtain ⟨batch, hbatch, rfl⟩ := List.mem_map.mp hm
  exact h.submitted batch (List.mem_filter.mp hbatch).1

/-! ## Reading -/

/-- The mask does not matter for the document. -/
theorem fst_applyToLocalView (m : Mutation V) (doc : MutableDocument V)
    (mask mask' : Option FieldMask) :
    (m.applyToLocalView doc mask).1 = (m.applyToLocalView doc mask').1 := by
  cases m <;> simp only [Mutation.applyToLocalView] <;> split <;> rfl

theorem getDocumentOfBatches_eq (h : s.Inv) (key : K) :
    s.getDocumentOfBatches key (s.batchesAffecting key) =
      (s.effect key).doc (s.remoteDocumentCache key) := by
  have hfold : ∀ (batches : List (MutationBatch K V)) (doc : MutableDocument V)
      (mask : Option FieldMask),
      batches.foldl (fun doc batch => (batch.mutation.applyToLocalView doc (some ∅)).1) doc =
        (applyAll doc mask (batches.map fun batch => batch.mutation)).1 := by
    intro batches
    induction batches with
    | nil => exact fun _ _ => rfl
    | cons batch batches ih =>
      intro doc mask
      rw [List.foldl_cons, ih _ (batch.mutation.applyToLocalView doc mask).2,
        fst_applyToLocalView _ _ _ mask]
      rfl
  rw [getDocumentOfBatches, hfold _ _ (some ∅)]
  exact congrArg Prod.fst (applyAll_eq (h.pending key) _)

omit [DecidableEq K] in
/-- Reading through an overlay that an effect has. -/
theorem getDocument_of_overlay {overlay : Overlay V} {e : Effect V}
    (ho : s.documentOverlayCache key = some overlay) (he : e.overlay = some overlay.mutation) :
    s.getDocument key = e.doc (s.remoteDocumentCache key) := by
  rw [getDocument, ho]
  cases hpatch : overlay.mutation.isPatch with
  | true => simpa [getBaseDocument, hpatch] using Effect.overlay_apply he _ _
  | false =>
    rw [← Effect.doc_eq_of_not_isPatch he hpatch .invalidDocument]
    simpa [getBaseDocument, hpatch] using Effect.overlay_apply he .invalidDocument _

/-- Reading through sound overlays. -/
theorem Sound.getDocument_eq (hs : s.Sound) (key : K) :
    s.getDocument key = (s.effect key).doc (s.remoteDocumentCache key) := by
  have hkey := hs key
  cases ho : s.documentOverlayCache key with
  | none =>
    have he : s.effect key = .unchanged := by
      rw [← Effect.overlay_eq_none_iff, ← hkey, ho]
      rfl
    simp [getDocument, ho, getBaseDocument, he, Effect.doc]
  | some overlay =>
    rw [ho] at hkey
    exact getDocument_of_overlay ho hkey.symm

/-- **Sound overlays are right.** -/
theorem Sound.agrees (h : s.Inv) (hs : s.Sound) : s.Agrees := by
  intro key
  rw [getDocumentOfBatches_eq h, hs.getDocument_eq]

/-- **An overlay that should not be there is seen.** -/
theorem not_agrees_of_stale (h : s.Inv) {overlay : Overlay V} {e : Effect V}
    (ho : s.documentOverlayCache key = some overlay) (he : e.overlay = some overlay.mutation)
    (hnet : s.effect key = .unchanged) : ¬ s.Agrees := by
  intro hagrees
  have hkey := hagrees key
  rw [getDocument_of_overlay ho he, getDocumentOfBatches_eq h, hnet] at hkey
  have hlocal : (e.doc (s.remoteDocumentCache key)).hasLocalMutations = true := by
    refine Effect.hasLocalMutations_doc ?_ _
    rintro rfl
    cases he
  rw [hkey] at hlocal
  exact absurd hlocal (by simpa [Effect.doc] using h.remote key)

/-! ## Recalculating an overlay -/

@[simp] theorem effect_saveOverlay (s : LocalStore K V) (key k : K) (overlay : Overlay V) :
    (s.saveOverlay key overlay).effect k = s.effect k := rfl

@[simp] theorem effect_recalculateAndSaveOverlays (s : LocalStore K V) (key k : K)
    (doc : MutableDocument V) : (s.recalculateAndSaveOverlays key doc).effect k = s.effect k := by
  simp only [recalculateAndSaveOverlays]
  split <;> rfl

/-- The overlay is what the pending writes do; if they do nothing, it is left alone. -/
theorem recalculated (hms : ∀ m ∈ u.pending key, m.Submitted) {doc : MutableDocument V}
    (hdoc : doc.hasLocalMutations = false)
    (hfound : doc.isFoundDocument = (u.remoteDocumentCache key).isFoundDocument) :
    (u.effect key = .unchanged ∧ u.recalculateAndSaveOverlays key doc = u) ∨
      ∃ last m, (u.batchesAffecting key).getLast? = some last ∧
        (u.effect key).overlay = some m ∧
        u.recalculateAndSaveOverlays key doc = u.saveOverlay key ⟨last.batchId, m⟩ := by
  have hoverlay : Mutation.calculateOverlayMutation
      (applyAll doc (some ∅) (u.pending key)).1 (applyAll doc (some ∅) (u.pending key)).2 =
        (u.effect key).overlay := by
    rw [applyAll_eq hms, Effect.calculateOverlayMutation_doc _ hdoc, effect, hfound]
  cases hm : (u.effect key).overlay with
  | none =>
    refine Or.inl ⟨Effect.overlay_eq_none_iff.mp hm, ?_⟩
    simp only [recalculateAndSaveOverlays]
    split
    next last m hlast hcalculated => cases (hm.symm.trans hoverlay.symm).trans hcalculated
    next => rfl
  | some m =>
    cases hlast : (u.batchesAffecting key).getLast? with
    | some last =>
      refine Or.inr ⟨last, m, rfl, rfl, ?_⟩
      have hcalculated := hoverlay.trans hm
      rw [pending] at hcalculated
      rw [recalculateAndSaveOverlays, hlast, hcalculated]
    | none =>
      -- without pending writes there is no effect
      have hnil : u.batchesAffecting key = [] := List.getLast?_eq_none_iff.mp hlast
      rw [effect, pending, hnil] at hm
      cases hm

/-- A store in which the overlays of all other documents are right. -/
def SoundBut (s : LocalStore K V) (key : K) : Prop :=
  ∀ k, k ≠ key → (s.documentOverlayCache k).map Overlay.mutation = (s.effect k).overlay

theorem inv_saveOverlay (h : s.Inv) {last : MutationBatch K V}
    (hlast : (s.batchesAffecting key).getLast? = some last) (m : Mutation V) :
    (s.saveOverlay key ⟨last.batchId, m⟩).Inv where
  submitted := h.submitted
  ids := h.ids
  next := h.next
  remote := h.remote
  largest := by
    intro k overlay ho
    by_cases hk : k = key
    · subst hk
      rw [documentOverlayCache_saveOverlay_self, Option.some.injEq] at ho
      exact ⟨last, hlast, by rw [← ho]⟩
    · rw [documentOverlayCache_saveOverlay_of_ne s hk] at ho
      exact h.largest k overlay ho

/-- **After recalculating** the overlays are right, unless one should not be there. -/
theorem sound_recalculated (h : u.Inv) (hbut : u.SoundBut key) {doc : MutableDocument V}
    (hdoc : doc.hasLocalMutations = false)
    (hfound : doc.isFoundDocument = (u.remoteDocumentCache key).isFoundDocument) :
    (u.recalculateAndSaveOverlays key doc).Inv ∧
      ((u.recalculateAndSaveOverlays key doc).Sound ↔
        (u.effect key = .unchanged → u.documentOverlayCache key = none)) := by
  rcases recalculated (h.pending key) hdoc hfound with ⟨hnet, hresult⟩ | ⟨last, m, hlast, hm, hresult⟩
  · rw [hresult]
    refine ⟨h, ?_⟩
    constructor
    · intro hsound _
      simpa [hnet, Effect.overlay] using hsound key
    · intro hnone k
      by_cases hk : k = key
      · subst hk
        rw [hnone hnet, hnet]
        rfl
      · exact hbut k hk
  · rw [hresult]
    refine ⟨inv_saveOverlay h hlast m, iff_of_true ?_ ?_⟩
    · intro k
      rw [effect_saveOverlay]
      by_cases hk : k = key
      · subst hk
        rw [documentOverlayCache_saveOverlay_self, hm]
        rfl
      · rw [documentOverlayCache_saveOverlay_of_ne u hk]
        exact hbut k hk
    · intro hnet
      rw [hnet] at hm
      cases hm

/-! ## Stranded overlays -/

/-- All that is pending are updates of a document that is to exist. -/
def OnlyUpdates (ms : List (Mutation V)) : Prop :=
  ms ≠ [] ∧ ∀ m ∈ ms, m.precondition = .documentExists true

/-- With `doc` for the document and `ms` pending, its overlay stays and has no
effect to stand for. -/
def Strands (s : LocalStore K V) (key : K) (doc : MutableDocument V) (ms : List (Mutation V)) :
    Prop :=
  s.documentOverlayCache key ≠ none ∧ doc.isFoundDocument = false ∧ OnlyUpdates ms

/-- The step leaves no overlay behind. -/
def NotStranded (s : LocalStore K V) : Act K V → Prop
  | .write _ _ | .start => True
  | .acknowledge version => ∀ batch, s.mutationQueue.head? = some batch →
      ¬ s.Strands batch.key (s.applyBatchResult batch version)
        (s.removeMutationBatch.pending batch.key)
  | .reject => ∀ batch, s.mutationQueue.head? = some batch →
      ¬ s.Strands batch.key (s.remoteDocumentCache batch.key)
        (s.removeMutationBatch.pending batch.key)
  | .remote key update => ∀ cached, s.populateDocumentChanges key update.doc = some cached →
      ¬ s.Strands key cached (s.pending key)

/-- **One document has changed**, in `u`, and its overlay is calculated again. -/
theorem sound_iff_not_strands (hs : s.Sound) (h : u.Inv) (hbut : u.SoundBut key)
    (hnil : u.pending key = [] → u.documentOverlayCache key = none)
    (hkept : u.pending key ≠ [] → u.documentOverlayCache key = s.documentOverlayCache key)
    {doc : MutableDocument V} (hdoc : doc.hasLocalMutations = false)
    (hfound : doc.isFoundDocument = (u.remoteDocumentCache key).isFoundDocument) :
    ((u.recalculateAndSaveOverlays key doc).Sound ↔
      ¬ s.Strands key (u.remoteDocumentCache key) (u.pending key)) ∧
    ((u.recalculateAndSaveOverlays key doc).Agrees →
      (u.recalculateAndSaveOverlays key doc).Sound) := by
  obtain ⟨-, hsound⟩ := sound_recalculated h hbut hdoc hfound
  constructor
  · rw [hsound, effect, net_eq_unchanged_iff (h.pending key)]
    constructor
    · intro hnone hstrands
      obtain ⟨ho, hgone, hms, hupdates⟩ := hstrands
      exact ho (hkept hms ▸ hnone (Or.inr ⟨hgone, hupdates⟩))
    · rintro hnot (hms | ⟨hgone, hupdates⟩)
      · exact hnil hms
      · by_cases hms : u.pending key = []
        · exact hnil hms
        · rw [hkept hms]
          by_contra ho
          exact hnot ⟨ho, hgone, hms, hupdates⟩
  · intro hagrees
    rw [hsound]
    intro hnet
    by_contra hstale
    have hresult : u.recalculateAndSaveOverlays key doc = u := by
      rcases recalculated (h.pending key) hdoc hfound with ⟨-, hresult⟩ | ⟨last, m, -, hm, -⟩
      · exact hresult
      · rw [hnet] at hm
        cases hm
    rw [hresult] at hagrees
    have hms : u.pending key ≠ [] := fun hms => hstale (hnil hms)
    obtain ⟨overlay, ho⟩ := Option.ne_none_iff_exists'.mp hstale
    have he : (s.effect key).overlay = some overlay.mutation := by
      rw [← hs key, ← hkept hms, ho]
      rfl
    exact not_agrees_of_stale h ho he hnet hagrees

/-! ## The first batch is answered -/

section
variable {batch : MutationBatch K V} {doc : MutableDocument V}

theorem batchesAffecting_of_head (hhead : s.mutationQueue.head? = some batch) (k : K) :
    s.batchesAffecting k =
      if batch.key = k then batch :: s.removeMutationBatch.batchesAffecting k
      else s.removeMutationBatch.batchesAffecting k := by
  obtain ⟨rest, hrest⟩ := List.head?_eq_some_iff.mp hhead
  rw [batchesAffecting, hrest, List.filter_cons]
  simp [batchesAffecting, removeMutationBatch, hrest]

/-- The batches after the first have greater numbers. -/
theorem lt_of_mem_rest (h : s.Inv) (hhead : s.mutationQueue.head? = some batch) {k : K}
    {later : MutationBatch K V} (hlater : later ∈ s.removeMutationBatch.batchesAffecting k) :
    batch.batchId < later.batchId := by
  obtain ⟨rest, hrest⟩ := List.head?_eq_some_iff.mp hhead
  have hids := h.ids
  rw [hrest] at hids
  refine List.rel_of_pairwise_cons hids ?_
  simpa [removeMutationBatch, hrest] using (List.mem_filter.mp hlater).1

/-- The overlay of a document is removed with its last batch, and stays until then. -/
theorem documentOverlayCache_answered (h : s.Inv)
    (hhead : s.mutationQueue.head? = some batch) (k : K) :
    (s.answered batch doc).documentOverlayCache k =
      if s.removeMutationBatch.batchesAffecting k = [] then none else s.documentOverlayCache k := by
  have hfilter : (s.answered batch doc).documentOverlayCache k =
      (s.documentOverlayCache k).filter fun overlay => overlay.largestBatchId ≠ batch.batchId := rfl
  rw [hfilter]
  cases ho : s.documentOverlayCache k with
  | none => simp
  | some overlay =>
    obtain ⟨last, hlast, hid⟩ := h.largest k overlay ho
    rw [batchesAffecting_of_head hhead] at hlast
    split
    next hnil =>
      rw [hnil] at hlast
      split at hlast
      · have hbatch : batch = last := by simpa using hlast
        simp [hbatch, hid]
      · cases hlast
    next hne =>
      have hmem : last ∈ s.removeMutationBatch.batchesAffecting k := by
        split at hlast
        · rw [List.getLast?_cons_of_ne_nil hne] at hlast
          exact List.mem_of_getLast? hlast
        · exact List.mem_of_getLast? hlast
      have hlt : batch.batchId < overlay.largestBatchId := hid ▸ lt_of_mem_rest h hhead hmem
      simp [hlt.ne']

theorem inv_answered (h : s.Inv) (hhead : s.mutationQueue.head? = some batch)
    (hdoc : doc.hasLocalMutations = false) : (s.answered batch doc).Inv where
  submitted := fun later hlater => h.submitted later (List.mem_of_mem_tail hlater)
  ids := h.ids.sublist (List.tail_sublist _)
  next := fun later hlater => h.next later (List.mem_of_mem_tail hlater)
  remote := by
    intro k
    by_cases hk : k = batch.key
    · subst hk
      simpa using hdoc
    · simpa [hk] using h.remote k
  largest := by
    intro k overlay ho
    rw [documentOverlayCache_answered h hhead] at ho
    split at ho
    · cases ho
    next hne =>
      obtain ⟨last, hlast, hid⟩ := h.largest k overlay ho
      refine ⟨last, ?_, hid⟩
      rw [batchesAffecting_of_head hhead] at hlast
      split at hlast
      · rwa [List.getLast?_cons_of_ne_nil hne] at hlast
      · exact hlast

theorem effect_answered_of_ne (hhead : s.mutationQueue.head? = some batch) {k : K}
    (hk : k ≠ batch.key) : (s.answered batch doc).effect k = s.effect k := by
  have hbatches : s.batchesAffecting k = s.removeMutationBatch.batchesAffecting k := by
    rw [batchesAffecting_of_head hhead, if_neg (Ne.symm hk)]
  rw [effect, effect, remoteDocumentCache_answered_of_ne s hk, pending, pending, hbatches]
  rfl

theorem soundBut_answered (h : s.Inv) (hs : s.Sound) (hhead : s.mutationQueue.head? = some batch) :
    (s.answered batch doc).SoundBut batch.key := by
  intro k hk
  have hbatches : s.batchesAffecting k = s.removeMutationBatch.batchesAffecting k := by
    rw [batchesAffecting_of_head hhead, if_neg (Ne.symm hk)]
  have heffect : (s.answered batch doc).effect k = s.effect k := effect_answered_of_ne hhead hk
  rw [heffect, documentOverlayCache_answered h hhead]
  split
  next hnil =>
    rw [effect, pending, hbatches, hnil]
    rfl
  next => exact hs k

/-- **The answer to the first batch keeps the overlays right** unless it strands
one. -/
theorem answered_sound (h : s.Inv) (hs : s.Sound) (hhead : s.mutationQueue.head? = some batch)
    (hdoc : doc.hasLocalMutations = false) :
    ((s.answered batch doc).recalculateAndSaveOverlays batch.key doc).Inv ∧
      (((s.answered batch doc).recalculateAndSaveOverlays batch.key doc).Sound ↔
        ¬ s.Strands batch.key doc (s.removeMutationBatch.pending batch.key)) ∧
      (((s.answered batch doc).recalculateAndSaveOverlays batch.key doc).Agrees →
        ((s.answered batch doc).recalculateAndSaveOverlays batch.key doc).Sound) := by
  have hinv : (s.answered batch doc).Inv := inv_answered h hhead hdoc
  have hbut : (s.answered batch doc).SoundBut batch.key := soundBut_answered h hs hhead
  have hremote := remoteDocumentCache_answered_self s batch doc
  have hfound : doc.isFoundDocument =
      ((s.answered batch doc).remoteDocumentCache batch.key).isFoundDocument := by rw [hremote]
  have hoverlay : (s.answered batch doc).documentOverlayCache batch.key = _ :=
    documentOverlayCache_answered h hhead batch.key
  have hpending : (s.answered batch doc).pending batch.key =
      s.removeMutationBatch.pending batch.key := rfl
  have hnil : s.removeMutationBatch.pending batch.key = [] ↔
      s.removeMutationBatch.batchesAffecting batch.key = [] := List.map_eq_nil_iff
  have hiff := sound_iff_not_strands hs hinv hbut
    (fun hms => by rw [hoverlay, if_pos (hnil.mp hms)])
    (fun hms => by rw [hoverlay, if_neg (mt hnil.mpr hms)]) hdoc hfound
  rw [hremote, hpending] at hiff
  exact ⟨(sound_recalculated hinv hbut hdoc hfound).1, hiff⟩

end

/-! ## A write -/

theorem batchesAffecting_addMutationBatch (s : LocalStore K V) (key k : K) (m : Mutation V) :
    (s.addMutationBatch key m).batchesAffecting k =
      if key = k then s.batchesAffecting k ++ [⟨s.nextBatchId, key, m⟩]
      else s.batchesAffecting k := by
  rw [batchesAffecting, addMutationBatch, List.filter_append]
  by_cases hk : key = k <;> simp [batchesAffecting, hk]

theorem effect_addMutationBatch_self (s : LocalStore K V) (key : K) (m : Mutation V) :
    (s.addMutationBatch key m).effect key =
      (s.effect key).after (s.remoteDocumentCache key).isFoundDocument m := by
  rw [effect, pending, batchesAffecting_addMutationBatch, if_pos rfl, List.map_append,
    List.map_singleton, net_concat]
  rfl

theorem effect_addMutationBatch_of_ne (s : LocalStore K V) {key k : K} (hk : k ≠ key)
    (m : Mutation V) : (s.addMutationBatch key m).effect k = s.effect k := by
  rw [effect, pending, batchesAffecting_addMutationBatch, if_neg (Ne.symm hk)]
  rfl

/-- The document and the mask that a write starts from are those after the pending
writes. -/
theorem getOverlayedDocument_eq (hs : s.Sound) (key : K) :
    s.getOverlayedDocument key =
      ((s.effect key).doc (s.remoteDocumentCache key), (s.effect key).mask) := by
  have hkey := hs key
  rw [getOverlayedDocument]
  cases ho : s.documentOverlayCache key with
  | none =>
    have he : s.effect key = .unchanged := by
      rw [← Effect.overlay_eq_none_iff, ← hkey, ho]
      rfl
    rw [he]
    rfl
  | some overlay =>
    rw [ho] at hkey
    have hmask : overlay.mutation.fieldMask = (s.effect key).mask :=
      Effect.fieldMask_overlay hkey.symm
    simp [Effect.overlay_apply hkey.symm, hmask]

/-- A new batch has the greatest number, and the overlay of its document has it too. -/
theorem inv_of_addMutationBatch (h : s.Inv) {m : Mutation V} (hm : m.Submitted)
    {overlays : K → Option (Overlay V)}
    (hself : ∀ overlay, overlays key = some overlay → overlay.largestBatchId = s.nextBatchId)
    (hother : ∀ k, k ≠ key → overlays k = s.documentOverlayCache k) :
    ({ s.addMutationBatch key m with documentOverlayCache := overlays } : LocalStore K V).Inv where
  submitted := by
    intro batch hbatch
    rcases List.mem_append.mp hbatch with hold | hnew
    · exact h.submitted batch hold
    · rw [List.mem_singleton.mp hnew]
      exact hm
  ids := by
    refine List.pairwise_append.mpr ⟨h.ids, List.pairwise_singleton _ _, ?_⟩
    intro batch hbatch new hnew
    rw [List.mem_singleton.mp hnew]
    exact h.next batch hbatch
  next := by
    intro batch hbatch
    rcases List.mem_append.mp hbatch with hold | hnew
    · exact Nat.lt_succ_of_lt (h.next batch hold)
    · rw [List.mem_singleton.mp hnew]
      exact Nat.lt_succ_self _
  remote := h.remote
  largest := by
    intro k overlay ho
    have hbatches := batchesAffecting_addMutationBatch s key k m
    by_cases hk : k = key
    · subst hk
      rw [if_pos rfl] at hbatches
      exact ⟨⟨s.nextBatchId, k, m⟩, (congrArg List.getLast? hbatches).trans List.getLast?_concat,
        (hself overlay ho).symm⟩
    · rw [if_neg (Ne.symm hk)] at hbatches
      obtain ⟨last, hlast, hid⟩ := h.largest k overlay (hother k hk ▸ ho)
      exact ⟨last, (congrArg List.getLast? hbatches).trans hlast, hid⟩

/-- **A write keeps the overlays right.** -/
theorem writeLocally_sound (h : s.Inv) (hs : s.Sound) (key : K) {m : Mutation V}
    (hm : m.Submitted) : (s.writeLocally key m).Inv ∧ (s.writeLocally key m).Sound := by
  have hoverlay : Mutation.calculateOverlayMutation
      (m.applyToLocalView (s.getOverlayedDocument key).1 (s.getOverlayedDocument key).2).1
      (m.applyToLocalView (s.getOverlayedDocument key).1 (s.getOverlayedDocument key).2).2 =
        ((s.addMutationBatch key m).effect key).overlay := by
    rw [getOverlayedDocument_eq hs, Effect.applyToLocalView_doc hm,
      Effect.calculateOverlayMutation_doc _ (h.remote key), effect_addMutationBatch_self]
  have hothers : ∀ k, k ≠ key → (s.documentOverlayCache k).map Overlay.mutation =
      ((s.addMutationBatch key m).effect k).overlay := by
    intro k hk
    rw [effect_addMutationBatch_of_ne s hk, hs k]
  simp only [writeLocally, hoverlay]
  cases hafter : ((s.addMutationBatch key m).effect key).overlay with
  | none =>
    -- an update that finds no document, as those before it
    have hunchanged : s.effect key = .unchanged := by
      rw [Effect.overlay_eq_none_iff, effect_addMutationBatch_self,
        Effect.after_eq_unchanged hm] at hafter
      exact hafter.1
    have hnone : s.documentOverlayCache key = none := by
      have hkey := hs key
      rw [hunchanged] at hkey
      exact Option.map_eq_none_iff.mp hkey
    refine ⟨inv_of_addMutationBatch h hm (by simp [hnone]) fun _ _ => rfl, ?_⟩
    intro k
    by_cases hk : k = key
    · subst hk
      rw [hafter]
      exact congrArg (Option.map Overlay.mutation) hnone
    · exact hothers k hk
  | some overlay =>
    constructor
    · refine inv_of_addMutationBatch h hm ?_ fun k hk => Function.update_of_ne hk ..
      intro o ho
      rw [Function.update_self, Option.some.injEq] at ho
      rw [← ho]
    · intro k
      rw [effect_saveOverlay]
      by_cases hk : k = key
      · subst hk
        rw [documentOverlayCache_saveOverlay_self, hafter]
        rfl
      · rw [documentOverlayCache_saveOverlay_of_ne _ hk]
        exact hothers k hk

/-! ## A remote event -/

theorem hasLocalMutations_update (update : DocumentUpdate V) :
    update.doc.hasLocalMutations = false := by
  cases update <;> rfl

omit [DecidableEq K] in
/-- What the cache has for a document is what the event says, or nothing is known. -/
theorem populateDocumentChanges_eq_some {doc cached : MutableDocument V}
    (h : s.populateDocumentChanges key doc = some cached) :
    cached = doc ∨ doc.isFoundDocument = false ∧ cached = .invalidDocument := by
  rw [populateDocumentChanges] at h
  split at h
  next hmade =>
    refine Or.inr ⟨?_, (Option.some.inj h).symm⟩
    have htype : doc.type = .noDocument := by simpa [MutableDocument.isNoDocument] using hmade.1
    simp [MutableDocument.isFoundDocument, htype]
  next =>
    split at h
    · exact Or.inl (Option.some.inj h).symm
    · cases h

theorem effect_addRemoteDocument_of_ne (s : LocalStore K V) {key k : K} (hk : k ≠ key)
    (doc : MutableDocument V) : (s.addRemoteDocument key doc).effect k = s.effect k := by
  rw [effect, remoteDocumentCache_addRemoteDocument_of_ne s hk]
  rfl

theorem effect_addRemoteDocument_self (s : LocalStore K V) (key : K) (doc : MutableDocument V) :
    (s.addRemoteDocument key doc).effect key = net doc.isFoundDocument (s.pending key) := by
  rw [effect, remoteDocumentCache_addRemoteDocument_self]
  rfl

theorem inv_addRemoteDocument (h : s.Inv) {doc : MutableDocument V}
    (hdoc : doc.hasLocalMutations = false) : (s.addRemoteDocument key doc).Inv where
  submitted := h.submitted
  ids := h.ids
  next := h.next
  remote := by
    intro k
    by_cases hk : k = key
    · subst hk
      simpa using hdoc
    · simpa [hk] using h.remote k
  largest := h.largest

/-- Without pending writes there is no overlay. -/
theorem Inv.documentOverlayCache_eq_none (h : s.Inv) (hnil : s.pending key = []) :
    s.documentOverlayCache key = none := by
  cases ho : s.documentOverlayCache key with
  | none => rfl
  | some overlay =>
    obtain ⟨last, hlast, -⟩ := h.largest key overlay ho
    rw [List.map_eq_nil_iff.mp hnil] at hlast
    cases hlast

/-- The overlay need not be calculated again if the existence of the document has
not changed, or if the overlay replaces the document. -/
theorem effect_addRemoteDocument (h : s.Inv) (hs : s.Sound) {cached : MutableDocument V}
    (hcond : ¬ (cached.isFoundDocument ≠ (s.remoteDocumentCache key).isFoundDocument ∧
      s.recalculates key)) :
    (s.addRemoteDocument key cached).effect key = s.effect key := by
  rw [effect_addRemoteDocument_self]
  by_cases hfound : cached.isFoundDocument = (s.remoteDocumentCache key).isFoundDocument
  · rw [hfound]
    rfl
  · have hreplaces : ¬ s.recalculates key := fun hrec => hcond ⟨hfound, hrec⟩
    refine net_of_mask_eq_none (h.pending key) ?_ _
    cases ho : s.documentOverlayCache key with
    | none => simp [recalculates, ho] at hreplaces
    | some overlay =>
      have he : (s.effect key).overlay = some overlay.mutation := by
        rw [← hs key, ho]
        rfl
      have hmask : (s.effect key).mask = none := by
        rw [← Effect.fieldMask_overlay he]
        simp only [recalculates, ho] at hreplaces
        cases hm : overlay.mutation with
        | patch value mask precondition => simp [hm, Mutation.isPatch] at hreplaces
        | set value precondition => rfl
        | delete precondition => rfl
      exact hmask

/-- **A remote event keeps the overlays right** unless it strands one. -/
theorem applyRemoteEvent_sound (h : s.Inv) (hs : s.Sound) (key : K)
    (update : DocumentUpdate V) :
    (s.applyRemoteEvent key update.doc).Inv ∧
      ((s.applyRemoteEvent key update.doc).Sound ↔ s.NotStranded (.remote key update)) ∧
      ((s.applyRemoteEvent key update.doc).Agrees → (s.applyRemoteEvent key update.doc).Sound) := by
  have hdoc := hasLocalMutations_update update
  rw [applyRemoteEvent, NotStranded]
  cases hcached : s.populateDocumentChanges key update.doc with
  | none => exact ⟨h, iff_of_true hs (by simp), fun _ => hs⟩
  | some cached =>
    have hknown := populateDocumentChanges_eq_some hcached
    have hfound : update.doc.isFoundDocument = cached.isFoundDocument := by
      rcases hknown with rfl | ⟨hgone, rfl⟩
      · rfl
      · exact hgone
    have hlocal : cached.hasLocalMutations = false := by
      rcases hknown with rfl | ⟨-, rfl⟩
      · exact hdoc
      · rfl
    have hinv : (s.addRemoteDocument key cached).Inv := inv_addRemoteDocument h hlocal
    have hbut : (s.addRemoteDocument key cached).SoundBut key := by
      intro k hk
      rw [effect_addRemoteDocument_of_ne s hk]
      exact hs k
    have hok : (∀ c, some cached = some c → ¬ s.Strands key c (s.pending key)) ↔
        ¬ s.Strands key cached (s.pending key) := by simp
    rw [hok]
    dsimp only
    split
    next hcond =>
      have hfound' : update.doc.isFoundDocument =
          ((s.addRemoteDocument key cached).remoteDocumentCache key).isFoundDocument := by
        rw [remoteDocumentCache_addRemoteDocument_self, hfound]
      have hiff := sound_iff_not_strands hs hinv hbut
        (fun hnil => h.documentOverlayCache_eq_none hnil) (fun _ => rfl) hdoc hfound'
      rw [remoteDocumentCache_addRemoteDocument_self] at hiff
      exact ⟨(sound_recalculated hinv hbut hdoc hfound').1, hiff⟩
    next hcond =>
      rw [hfound] at hcond
      have heffect := effect_addRemoteDocument h hs hcond
      have hsound : (s.addRemoteDocument key cached).Sound := by
        intro k
        by_cases hk : k = key
        · subst hk
          rw [heffect]
          exact hs k
        · exact hbut k hk
      refine ⟨hinv, iff_of_true hsound ?_, fun _ => hsound⟩
      -- the pending updates would do nothing, so that there is no overlay
      intro hstrands
      obtain ⟨ho, hgone, -, hupdates⟩ := hstrands
      have hunchanged : (s.addRemoteDocument key cached).effect key = .unchanged := by
        rw [effect_addRemoteDocument_self]
        exact (net_eq_unchanged_iff (h.pending key) _).mpr (Or.inr ⟨hgone, hupdates⟩)
      have hkey := hsound key
      rw [hunchanged] at hkey
      exact ho (Option.map_eq_none_iff.mp hkey)

/-! ## Runs -/

theorem hasLocalMutations_applyBatchResult (h : s.Inv) (batch : MutationBatch K V)
    (version : SnapshotVersion) : (s.applyBatchResult batch version).hasLocalMutations = false := by
  simp only [applyBatchResult]
  split
  · cases batch.mutation with
    | set value precondition => rfl
    | delete precondition => rfl
    | patch value mask precondition =>
      simp only [Mutation.applyToRemoteDocument]
      split <;> rfl
  · exact h.remote batch.key

theorem start_sound (h : s.Inv) (hs : s.Sound) : s.start.Inv ∧ s.start.Sound := by
  rw [start]
  split
  next hempty =>
    refine ⟨⟨h.submitted, h.ids, ?_, h.remote, h.largest⟩, hs⟩
    intro batch hbatch
    rw [hempty] at hbatch
    cases hbatch
  next => exact ⟨h, hs⟩

/-- **Every step keeps the overlays right** unless it strands one, and then the app
sees it. -/
theorem step_sound {arraySize : ℕ} (harray : arraySize = 0) (h : s.Inv) (hs : s.Sound)
    {act : Act K V} (hstep : step arraySize s act = some t) :
    t.Inv ∧ (t.Sound ↔ s.NotStranded act) ∧ (t.Agrees → t.Sound) := by
  cases act with
  | write key write =>
    cases hstep
    obtain ⟨hinv, hsound⟩ := writeLocally_sound h hs key ⟨write, rfl⟩
    exact ⟨hinv, iff_of_true hsound trivial, fun _ => hsound⟩
  | acknowledge version =>
    obtain ⟨batch, hhead, rfl⟩ := Option.map_eq_some_iff.mp hstep
    simp only [harray, if_true]
    have hspec := answered_sound h hs hhead (hasLocalMutations_applyBatchResult h batch version)
    simpa [NotStranded, hhead] using hspec
  | reject =>
    obtain ⟨batch, hhead, rfl⟩ := Option.map_eq_some_iff.mp hstep
    have hspec := answered_sound h hs hhead (h.remote batch.key)
    simpa [NotStranded, hhead] using hspec
  | remote key update =>
    cases hstep
    exact applyRemoteEvent_sound h hs key update
  | start =>
    cases hstep
    obtain ⟨hinv, hsound⟩ := start_sound h hs
    exact ⟨hinv, iff_of_true hsound trivial, fun _ => hsound⟩

theorem inv_idle {cache : K → MutableDocument V}
    (hcache : ∀ key, (cache key).hasLocalMutations = false) : (idle cache).Inv where
  submitted := by simp [idle]
  ids := List.Pairwise.nil
  next := by simp [idle]
  remote := hcache
  largest := by simp [idle]

theorem sound_idle (cache : K → MutableDocument V) : (idle cache).Sound := fun _ => rfl

/-- **When the app sees its pending writes.**  In every state of a run each document
read through its overlay is the document with the pending writes applied to it one
by one, exactly if no step leaves behind an overlay of updates whose document does
not exist any more. -/
theorem agrees_iff {arraySize : ℕ} (harray : arraySize = 0) {cache : K → MutableDocument V}
    (hcache : ∀ key, (cache key).hasLocalMutations = false) {acts : List (Act K V)}
    (hrun : run (step arraySize) (idle cache) acts = some t) :
    Always (step arraySize) Agrees (idle cache) acts ↔
      StepsMeet (step arraySize) NotStranded (idle cache) acts := by
  refine always_iff_stepsMeet_of_stronger (Q := fun s => s.Inv ∧ s.Sound)
    (fun s hs => Sound.agrees hs.1 hs.2) ?_ ⟨inv_idle hcache, sound_idle cache⟩ hrun
  intro s act t hs hstep
  obtain ⟨hinv, hsound, hlost⟩ := step_sound harray hs.1 hs.2 hstep
  exact ⟨by rw [and_iff_right hinv, hsound], fun hagrees => ⟨hinv, hlost hagrees⟩⟩

/-- Nothing is known of any document. -/
def nothingCached : K → MutableDocument V := fun _ => .invalidDocument

omit [DecidableEq K] in
theorem nothingCached_synced (key : K) :
    (nothingCached key : MutableDocument V).hasLocalMutations = false := rfl

/-- A document is deleted elsewhere while an update of it is pending. -/
def deletedElsewhere : List (Act String ℤ) :=
  [.remote "a" (.found 1 ∅), .write "a" (.update [("b", 1)]), .remote "a" (.deleted 2)]

theorem agrees_iff_deletedElsewhere :
    ∃ t, run (step 0) (idle nothingCached) deletedElsewhere = some t ∧
      (Always (step 0) Agrees (idle nothingCached) deletedElsewhere ↔
        StepsMeet (step 0) NotStranded (idle nothingCached) deletedElsewhere) :=
  ⟨_, rfl, agrees_iff rfl nothingCached_synced rfl⟩

end LocalStore

end FlutterSugar.Local
