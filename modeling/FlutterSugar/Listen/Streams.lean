import FlutterSugar.Listen.Client

/-!
# What the streams of the app show

The app shows documents as streams of snapshots.  A stream is to show what reading
the document would give.

A view does not show a document that the server has accepted but not sent yet, as
long as it has one with local mutations, so as not to show it twice.  If the write
that made those is rejected, it goes on showing it.

## Main definitions

* `LocalStore.Reverts`, `Client.Delivers` — the condition on a step.
* `Client.Streams`, `Client.Sound` — every view shows the document of the store, and
  what is known of a client in which it does.
* `withholds_iff_reverts` — when a view is kept from an answer.
* `sound_step`, `streams_iff` — every view shows the document of the store exactly if
  no step is kept from it.
-/

namespace FlutterSugar
namespace Local.LocalStore
open Lib

variable {K V : Type} [DecidableEq K] {s t : LocalStore K V} {key : K}

/-- Only local mutations are pending in a document that pending writes have changed. -/
theorem eq_unchanged_of_hasCommittedMutations {e : Effect V} {doc : MutableDocument V}
    (h : (e.doc doc).hasCommittedMutations) : e = .unchanged := by
  cases e with
  | unchanged => rfl
  | patched fields => cases h
  | replaced fields => cases h
  | deleted => cases h

/-- Without pending writes a document is what the server has of it. -/
theorem getDocument_of_pending_eq_nil (hs : s.Sound) (hnil : s.pending key = []) :
    s.getDocument key = s.remoteDocumentCache key := by
  rw [hs.getDocument_eq, effect, hnil]
  rfl

/-- Writes that leave a document as it is, and there, are none. -/
theorem pending_eq_nil_of_unchanged (h : s.Inv) (hs : s.Sound)
    (hunchanged : s.effect key = .unchanged) (hfound : (s.getDocument key).isFoundDocument) :
    s.pending key = [] := by
  rw [hs.getDocument_eq, hunchanged] at hfound
  have hexists : (s.remoteDocumentCache key).isFoundDocument = true := hfound
  rw [effect, hexists, net_eq_unchanged_iff (h.pending key)] at hunchanged
  exact hunchanged.resolve_right fun hgone => Bool.noConfusion hgone.1

/-- A document that the server has accepted but not sent has no pending writes. -/
theorem pending_eq_nil_of_hasCommittedMutations (h : s.Inv) (hs : s.Sound)
    (hfound : (s.getDocument key).isFoundDocument)
    (hcommitted : (s.getDocument key).hasCommittedMutations) : s.pending key = [] := by
  refine pending_eq_nil_of_unchanged h hs ?_ hfound
  rw [hs.getDocument_eq] at hcommitted
  exact eq_unchanged_of_hasCommittedMutations hcommitted

/-- A document that is found while writes are pending shows them. -/
theorem hasLocalMutations_getDocument (h : s.Inv) (hs : s.Sound) (hpending : s.pending key ≠ [])
    (hfound : (s.getDocument key).isFoundDocument) : (s.getDocument key).hasLocalMutations := by
  have hchanged : s.effect key ≠ .unchanged := fun hunchanged =>
    hpending (pending_eq_nil_of_unchanged h hs hunchanged hfound)
  rw [hs.getDocument_eq]
  exact Effect.hasLocalMutations_doc hchanged _

/-- The answer leaves a document that the server has accepted, but not sent, and that
differs from what the app sees. -/
structure Reverts (s : LocalStore K V) (key : K) (doc : MutableDocument V) : Prop where
  pending : s.removeMutationBatch.pending key = []
  found : doc.isFoundDocument
  committed : doc.hasCommittedMutations
  seen : (s.getDocument key).isFoundDocument
  value : (s.getDocument key).value ≠ doc.value

section
variable {batch : MutationBatch K V} {answer : MutableDocument V}
  (hanswer : (s.answered batch answer).recalculateAndSaveOverlays batch.key answer = t)

include hanswer

theorem remoteDocumentCache_of_answer : t.remoteDocumentCache batch.key = answer := by
  rw [← hanswer, remoteDocumentCache_recalculateAndSaveOverlays, remoteDocumentCache_answered_self]

theorem pending_of_answer : t.pending batch.key = s.removeMutationBatch.pending batch.key := by
  rw [← hanswer, pending, batchesAffecting, mutationQueue_recalculateAndSaveOverlays]
  rfl

/-- The app sees what the answer leaves. -/
theorem Reverts.getDocument_eq (h : s.Reverts batch.key answer) (ht : t.Sound) :
    t.getDocument batch.key = answer := by
  rw [getDocument_of_pending_eq_nil ht ((pending_of_answer hanswer).trans h.pending),
    remoteDocumentCache_of_answer hanswer]

end

end Local.LocalStore

namespace Listen
open Lib Local Local.LocalStore

variable {K V : Type} [DecidableEq K] [DecidableEq V]

namespace Client

/-- What a step is for the store. -/
def Act.ofStore : Act K V → Option (LocalStore.Act K V)
  | .write k w => some (LocalStore.Act.write k w)
  | .acknowledge version => some (LocalStore.Act.acknowledge version)
  | .reject => some LocalStore.Act.reject
  | .remote update _ => update.map fun update => LocalStore.Act.remote update.1 update.2
  | .restart => some LocalStore.Act.start
  | .onlineState _ | .listen _ _ _ | .remove _ _ | .rejectListen _ => none

/-- The step leaves no overlay behind. -/
def NotStranded (c : Client K V) (act : Act K V) : Prop :=
  ∀ storeAct, act.ofStore = some storeAct → c.store.NotStranded storeAct

/-- The view of a document is not kept from the answer to its first batch, after
which the server has `doc`. -/
def DeliversAnswer (c : Client K V) (doc : MutationBatch K V → MutableDocument V) : Prop :=
  ∀ batch, c.store.mutationQueue.head? = some batch → (c.queries batch.key).isSome →
    ¬ c.store.Reverts batch.key (doc batch)

/-- The step is not kept from the view of its document. -/
def Delivers (c : Client K V) : Act K V → Prop
  | .acknowledge version => c.DeliversAnswer fun batch => c.store.applyBatchResult batch version
  | .reject => c.DeliversAnswer fun batch => c.store.remoteDocumentCache batch.key
  | .write _ _ | .remote _ _ | .onlineState _ | .listen _ _ _ | .remove _ _ | .rejectListen _
  | .restart => True

/-- Every view has the document of the store. -/
def Follows (c : Client K V) : Prop :=
  ∀ key info, c.queries key = some info → info.view.Follows (c.store.getDocument key)

/-- Every view shows the document of the store. -/
def Streams (c : Client K V) : Prop :=
  ∀ key info, c.queries key = some info →
    fieldsOf info.view.documentSet = fieldsOf (matching (c.store.getDocument key))

omit [DecidableEq K] [DecidableEq V] in
/-- A view that has the document shows it. -/
theorem Follows.streams {c : Client K V} (h : c.Follows) : c.Streams :=
  fun key info hinfo => (h key info hinfo).fields

/-! ## One view -/

end Client

namespace QueryListenersInfo

variable {info : QueryListenersInfo V} {doc doc' : MutableDocument V}

omit [DecidableEq V] in
theorem view_onViewSnapshot (info : QueryListenersInfo V)
    (change : View V × Option (ViewSnapshot V)) : (info.onViewSnapshot change).view = change.1 := by
  rw [onViewSnapshot]
  split <;> rfl

/-- A view that is told of a document has it, unless it waits. -/
theorem follows_emit_some (target : Option TargetChange) (halike : doc.Alike doc') :
    ((info.emit (some doc) target).view.Follows doc' ↔ ¬ info.view.Withholds doc) ∧
      (fieldsOf (info.emit (some doc) target).view.documentSet = fieldsOf (matching doc') →
        ¬ info.view.Withholds doc) := by
  obtain ⟨hdoc, hmutated⟩ := View.documentSet_applyChanges info.view
    (info.view.computeDocumentChanges (some doc)) target
  rw [emit, view_onViewSnapshot]
  exact View.follows_iff hdoc hmutated halike

/-- A view that is told of no document has what it had. -/
theorem follows_emit_none (target : Option TargetChange) (h : info.view.Follows doc) :
    (info.emit none target).view.Follows doc := by
  obtain ⟨hdoc, hmutated⟩ := View.documentSet_applyChanges info.view
    (info.view.computeDocumentChanges none) target
  rw [emit, view_onViewSnapshot]
  exact h.of_eq hdoc hmutated

omit [DecidableEq V] in
theorem follows_onOnlineStateChanged (state : OnlineState) (h : info.view.Follows doc) :
    (info.onOnlineStateChanged state).view.Follows doc := by
  obtain ⟨hdoc, hmutated⟩ := View.documentSet_applyOnlineStateChange info.view state
  have hview : (info.onOnlineStateChanged state).view =
      (info.view.applyOnlineStateChange state).1 := view_onViewSnapshot _ _
  rw [hview]
  exact h.of_eq hdoc hmutated

end QueryListenersInfo

section
variable {view : View V} {doc oldDoc : MutableDocument V}

omit [DecidableEq V] in
theorem fieldsOf_matching_eq_some {fields : ObjectValue V} :
    fieldsOf (matching doc) = some fields ↔ doc.isFoundDocument ∧ doc.value = fields := by
  by_cases hfound : doc.isFoundDocument <;> simp [matching, fieldsOf, hfound]

omit [DecidableEq V] in
/-- The document of a view that has `doc`. -/
theorem View.Follows.value (h : view.Follows doc) (hold : view.documentSet = some oldDoc) :
    doc.isFoundDocument ∧ doc.value = oldDoc.value := by
  rw [← fieldsOf_matching_eq_some, ← h.fields, hold]
  rfl

omit [DecidableEq V] in
theorem View.Follows.exists_of_found (h : view.Follows doc) (hfound : doc.isFoundDocument) :
    ∃ oldDoc, view.documentSet = some oldDoc ∧ doc.value = oldDoc.value := by
  have hfields : fieldsOf view.documentSet = some doc.value := by
    rw [h.fields, fieldsOf_matching_eq_some]
    exact ⟨hfound, rfl⟩
  obtain ⟨oldDoc, hold, hvalue⟩ := Option.map_eq_some_iff.mp hfields
  exact ⟨oldDoc, hold, hvalue.symm⟩

end

section
variable {s t : LocalStore K V} {key : K} {view : View V} {doc : MutableDocument V}

omit [DecidableEq V] in
/-- A view waits only for a document that the server has accepted but not sent. -/
theorem committed_of_withholds (ht : t.Inv ∧ t.Sound) (halike : doc.Alike (t.getDocument key))
    (h : view.Withholds doc) : t.pending key = [] ∧
      (t.remoteDocumentCache key).isFoundDocument ∧
        (t.remoteDocumentCache key).hasCommittedMutations := by
  obtain ⟨hfound, oldDoc, -, -, hwait⟩ := h
  have hfound' : (t.getDocument key).isFoundDocument := halike.found ▸ hfound
  have hcommitted : (t.getDocument key).hasCommittedMutations := by
    rw [MutableDocument.hasCommittedMutations, ← halike.state hfound]
    simp only [shouldWaitForSyncedDocument, Bool.and_eq_true] at hwait
    exact hwait.1.2
  have hnil := pending_eq_nil_of_hasCommittedMutations ht.1 ht.2 hfound' hcommitted
  rw [getDocument_of_pending_eq_nil ht.2 hnil] at hfound' hcommitted
  exact ⟨hnil, hfound', hcommitted⟩

omit [DecidableEq V] in
/-- **A view waits after the answer to the first batch** exactly if that reverts what
the app has seen. -/
theorem withholds_iff_reverts (hs : s.Inv ∧ s.Sound) (ht : t.Inv ∧ t.Sound)
    {batch : MutationBatch K V} (hhead : s.mutationQueue.head? = some batch)
    {answer : MutableDocument V}
    (hanswer : (s.answered batch answer).recalculateAndSaveOverlays batch.key answer = t)
    (hmarked : view.Marked) (hfollows : view.Follows (s.getDocument batch.key))
    (halike : doc.Alike (t.getDocument batch.key)) :
    view.Withholds doc ↔ s.Reverts batch.key answer := by
  have hremote := remoteDocumentCache_of_answer hanswer
  constructor
  · intro h
    obtain ⟨hnil, hfound, hcommitted⟩ := committed_of_withholds ht halike h
    obtain ⟨hfound', oldDoc, hold, hne, -⟩ := h
    obtain ⟨hseen, hvalue⟩ := hfollows.value hold
    rw [halike.value hfound', getDocument_of_pending_eq_nil ht.2 hnil, hremote, ← hvalue] at hne
    rw [hremote] at hfound hcommitted
    exact ⟨pending_of_answer hanswer ▸ hnil, hfound, hcommitted, hseen, hne⟩
  · intro h
    rw [h.getDocument_eq hanswer ht.2] at halike
    have hfound : doc.isFoundDocument := halike.found.trans h.found
    have hstate : doc.state = .hasCommittedMutations := by
      rw [halike.state hfound]
      simpa [MutableDocument.hasCommittedMutations] using h.committed
    obtain ⟨oldDoc, hold, hvalue⟩ := hfollows.exists_of_found h.seen
    have hlocal : oldDoc.hasLocalMutations := by
      have hpending : s.pending batch.key ≠ [] := by
        rw [pending, batchesAffecting_of_head hhead, if_pos rfl]
        simp
      have hmutated := hfollows.mutated h.seen
        (hasLocalMutations_getDocument hs.1 hs.2 hpending h.seen)
      rwa [hmarked, hold, Option.any_some] at hmutated
    refine ⟨hfound, oldDoc, hold, ?_, ?_⟩
    · rw [← hvalue, halike.value hfound]
      exact h.value
    · rw [shouldWaitForSyncedDocument, hlocal]
      simp [MutableDocument.hasCommittedMutations, MutableDocument.hasLocalMutations, hstate]

end

namespace Client

variable {c c' : Client K V} {store : LocalStore K V}
  {change : Option (K × MutableDocument V)} {targets : K → Option TargetChange}

omit [DecidableEq V] in
/-- The view of the document that has changed is told of it. -/
theorem docChange_self {key : K} {doc : MutableDocument V} (h : change = some (key, doc)) :
    (change.filter fun entry => entry.1 = key).map Prod.snd = some doc := by
  subst h
  simp [Option.filter]

omit [DecidableEq V] in
theorem docChange_of_ne {key : K} (h : ∀ doc, change ≠ some (key, doc)) :
    (change.filter fun entry => entry.1 = key).map Prod.snd = none := by
  rw [Option.map_eq_none_iff, Option.filter_eq_none_iff]
  intro entry hentry hkey
  exact h entry.2 (by rw [hentry, ← of_decide_eq_true hkey])

variable (targets) in
/-- **The views are told** of the only document that has changed. -/
theorem follows_emitNewSnapshots (hfollows : c.Follows)
    (hsame : ∀ key, (∀ doc, change ≠ some (key, doc)) →
      store.getDocument key = c.store.getDocument key)
    (halike : ∀ key doc, change = some (key, doc) → doc.Alike (store.getDocument key)) :
    ((c.emitNewSnapshots store change targets).Follows ↔
      ∀ key doc, change = some (key, doc) → ∀ info, c.queries key = some info →
        ¬ info.view.Withholds doc) ∧
    ((c.emitNewSnapshots store change targets).Streams →
      (c.emitNewSnapshots store change targets).Follows) := by
  have hdelivered : (∀ key doc, change = some (key, doc) → ∀ info, c.queries key = some info →
      ¬ info.view.Withholds doc) → (c.emitNewSnapshots store change targets).Follows := by
    intro hwithholds key info' hinfo'
    obtain ⟨info, hinfo, rfl⟩ := Option.map_eq_some_iff.mp hinfo'
    by_cases hne : ∀ doc, change ≠ some (key, doc)
    · rw [docChange_of_ne hne]
      have hkept := info.follows_emit_none (targets key) (hfollows key info hinfo)
      rwa [← hsame key hne] at hkept
    · obtain ⟨doc, hdoc⟩ := not_forall_not.mp hne
      rw [docChange_self hdoc]
      exact (info.follows_emit_some _ (halike key doc hdoc)).1.mpr (hwithholds key doc hdoc info hinfo)
  have hlost : (c.emitNewSnapshots store change targets).Streams →
      ∀ key doc, change = some (key, doc) → ∀ info, c.queries key = some info →
        ¬ info.view.Withholds doc := by
    intro hstreams key doc hdoc info hinfo
    have hfields := hstreams key _ (Option.map_eq_some_iff.mpr ⟨info, hinfo, rfl⟩)
    rw [docChange_self hdoc] at hfields
    exact (info.follows_emit_some _ (halike key doc hdoc)).2 hfields
  exact ⟨⟨fun h => hlost h.streams, hdelivered⟩, fun h => hdelivered (hlost h)⟩

/-- What is known of a client whose views have the documents of the store. -/
structure Sound (c : Client K V) : Prop where
  store : c.store.Inv ∧ c.store.Sound
  attended : c.Attended
  follows : c.Follows

omit [DecidableEq V] in
/-- A document that is written has pending writes. -/
theorem pending_writeLocally (s : LocalStore K V) (key : K) (m : Mutation V) :
    (s.writeLocally key m).pending key ≠ [] := by
  simp [pending, batchesAffecting]

omit [DecidableEq V] in
/-- The answer to the first batch is delivered unless it reverts what the app has
seen. -/
theorem deliversAnswer_iff (h : c.Sound) (hstore : store.Inv ∧ store.Sound)
    {answer : MutationBatch K V → MutableDocument V} {batch : MutationBatch K V}
    (hhead : c.store.mutationQueue.head? = some batch)
    (hanswer : (c.store.answered batch (answer batch)).recalculateAndSaveOverlays batch.key
      (answer batch) = store)
    (hchange : change = some (batch.key, (store.getOverlayedDocument batch.key).1)) :
    (∀ key doc, change = some (key, doc) → ∀ info, c.queries key = some info →
      ¬ info.view.Withholds doc) ↔ c.DeliversAnswer answer := by
  have halike : (store.getOverlayedDocument batch.key).1.Alike (store.getDocument batch.key) := by
    rw [getOverlayedDocument_eq hstore.2, hstore.2.getDocument_eq]
    exact .refl _
  have hwaits : ∀ info, c.queries batch.key = some info →
      (info.view.Withholds (store.getOverlayedDocument batch.key).1 ↔
        c.store.Reverts batch.key (answer batch)) := fun info hinfo =>
    withholds_iff_reverts h.store hstore hhead hanswer (h.attended _ _ hinfo).marked
      (h.follows _ _ hinfo) halike
  subst hchange
  constructor
  · intro hdelivered first hfirst hlistened
    obtain rfl : batch = first := Option.some.inj (hhead.symm.trans hfirst)
    obtain ⟨info, hinfo⟩ := Option.isSome_iff_exists.mp hlistened
    rw [← hwaits info hinfo]
    exact hdelivered _ _ rfl info hinfo
  · rintro hdelivers key doc ⟨⟩ info hinfo
    rw [hwaits info hinfo]
    exact hdelivers batch hhead (Option.isSome_iff_exists.mpr ⟨info, hinfo⟩)

omit [DecidableEq V] in
/-- **What the store has changed is delivered** unless it reverts what the app has
seen. -/
theorem delivers_iff {arraySize : ℕ} (harray : arraySize = 0) (h : c.Sound)
    {act : Act K V} {storeAct : LocalStore.Act K V} (hact : act.ofStore = some storeAct)
    (hstep : LocalStore.step arraySize c.store storeAct = some store)
    (hstore : store.Inv ∧ store.Sound) :
    (∀ key doc, c.store.changes arraySize storeAct = some (key, doc) →
      ∀ info, c.queries key = some info → ¬ info.view.Withholds doc) ↔ c.Delivers act := by
  have halike : ∀ key doc, c.store.changes arraySize storeAct = some (key, doc) →
      doc.Alike (store.getDocument key) := fun key doc hdoc =>
    changes_alike h.store.1 h.store.2 hstore.2 hstep hdoc
  cases act with
  | write k w =>
    cases hact
    refine iff_of_true ?_ trivial
    intro key doc hdoc info hinfo hwithholds
    obtain ⟨hnil, -⟩ := committed_of_withholds hstore (halike key doc hdoc) hwithholds
    cases hstep
    cases hdoc
    exact pending_writeLocally _ _ _ hnil
  | acknowledge version =>
    cases hact
    obtain ⟨batch, hhead, hanswer⟩ := Option.map_eq_some_iff.mp hstep
    simp only [harray, if_true] at hanswer
    exact deliversAnswer_iff h hstore hhead hanswer (changes_acknowledge hhead hstep)
  | reject =>
    cases hact
    obtain ⟨batch, hhead, hanswer⟩ := Option.map_eq_some_iff.mp hstep
    exact deliversAnswer_iff h hstore hhead hanswer (changes_reject hhead hstep)
  | remote update targets =>
    obtain ⟨⟨k, update⟩, rfl, rfl⟩ := Option.map_eq_some_iff.mp hact
    refine iff_of_true ?_ trivial
    intro key doc hdoc info hinfo hwithholds
    obtain ⟨-, hfound, hcommitted⟩ := committed_of_withholds hstore (halike key doc hdoc) hwithholds
    cases hstep
    obtain ⟨cached, hcached, hchange⟩ := Option.map_eq_some_iff.mp hdoc
    cases hchange
    -- what the server sends is synced
    rw [(effect_applyRemoteEvent hcached).2] at hfound hcommitted
    rcases populateDocumentChanges_eq_some hcached with rfl | ⟨-, rfl⟩
    · cases update <;> cases hcommitted
    · cases hfound
  | onlineState state => cases hact
  | listen key options target => cases hact
  | remove key n => cases hact
  | rejectListen key => cases hact
  | restart =>
    cases hact
    exact iff_of_true (by simp [changes]) trivial

/-! ## Runs -/

theorem sound_storeStep {arraySize : ℕ} (harray : arraySize = 0) (h : c.Sound) {act : Act K V}
    {storeAct : LocalStore.Act K V} (hact : act.ofStore = some storeAct)
    (hallowed : c.store.NotStranded storeAct)
    (hstep : c.storeStep arraySize storeAct targets = some c') :
    (c'.Sound ↔ c.Delivers act) ∧ (c'.Streams → c'.Sound) := by
  obtain ⟨store, hstore, rfl⟩ := storeStep_eq_some.mp hstep
  obtain ⟨hinv, hsound, -⟩ := step_sound harray h.store.1 h.store.2 hstore
  have hkept : store.Inv ∧ store.Sound := ⟨hinv, hsound.mpr hallowed⟩
  obtain ⟨hfollows, hlost⟩ := follows_emitNewSnapshots targets h.follows
    (fun _ hkey => getDocument_of_ne_changes h.store.2 hkept.2 hstore hkey)
    (fun _ _ hdoc => changes_alike h.store.1 h.store.2 hkept.2 hstore hdoc)
  have hattended := attended_emitNewSnapshots h.attended store
    (c.store.changes arraySize storeAct) targets
  rw [delivers_iff harray h hact hstore hkept] at hfollows
  refine ⟨⟨fun hc' => hfollows.mp hc'.follows, fun hdelivers => ?_⟩, fun hstreams => ?_⟩
  · exact ⟨hkept, hattended, hfollows.mpr hdelivers⟩
  · exact ⟨hkept, hattended, hlost hstreams⟩

omit [DecidableEq K] [DecidableEq V] in
theorem follows_of_forall_eq_none (h : ∀ key, c.queries key = none) : c.Follows := by
  intro key info hinfo
  rw [h key] at hinfo
  cases hinfo

omit [DecidableEq V] in
/-- A change of one view. -/
theorem follows_update (h : c.Follows) {key : K} {info : Option (QueryListenersInfo V)}
    (hinfo : ∀ i, info = some i → i.view.Follows (c.store.getDocument key)) :
    Follows { c with queries := Function.update c.queries key info } := by
  intro k i hi
  by_cases hk : k = key
  · subst hk
    exact hinfo i (by simpa using hi)
  · exact h k i (by simpa [Function.update_of_ne hk] using hi)

theorem follows_listen (h : c.Follows) (key : K) (options : ListenOptions)
    (target : CachedTarget) : (c.listen key options target).Follows := by
  refine follows_update h ?_
  intro i hi
  obtain ⟨info, hinfo, rfl⟩ := Option.map_eq_some_iff.mp hi
  cases hquery : c.queries key with
  | some info₀ =>
    simp only [hquery, Option.some.injEq] at hinfo
    exact hinfo ▸ h key info₀ hquery
  | none =>
    obtain ⟨view, snapshot, hinit, hfollows, -⟩ :=
      exists_initializeView (c.store.getDocument key) target
    simp only [hquery, hinit, Option.some.injEq] at hinfo
    exact hinfo ▸ hfollows

omit [DecidableEq V] in
theorem follows_removeListener (h : c.Follows) (key : K) (n : ℕ) :
    (c.removeListener key n).Follows := by
  refine follows_update h ?_
  intro i hi
  obtain ⟨info, hinfo, hi⟩ := Option.bind_eq_some_iff.mp hi
  split at hi
  · cases hi
  · cases hi
    exact h key info hinfo

/-- **Every step leaves the views with the documents of the store** unless it is kept
from one, and then that view shows another document. -/
theorem sound_step {arraySize : ℕ} (harray : arraySize = 0) (h : c.Sound) {act : Act K V}
    (hallowed : c.NotStranded act) (hstep : step arraySize c act = some c') :
    (c'.Sound ↔ c.Delivers act) ∧ (c'.Streams → c'.Sound) := by
  -- a step that tells the views of no document
  have hquiet : c'.store.Inv ∧ c'.store.Sound → c'.Follows → c.Delivers act →
      (c'.Sound ↔ c.Delivers act) ∧ (c'.Streams → c'.Sound) := by
    intro hstore hfollows hdelivers
    have hsound : c'.Sound := ⟨hstore, attended_step h.attended hstep, hfollows⟩
    exact ⟨iff_of_true hsound hdelivers, fun _ => hsound⟩
  cases act with
  | write key write => exact sound_storeStep harray h rfl (hallowed _ rfl) hstep
  | acknowledge version => exact sound_storeStep harray h rfl (hallowed _ rfl) hstep
  | reject => exact sound_storeStep harray h rfl (hallowed _ rfl) hstep
  | remote update targets =>
    cases update with
    | some update => exact sound_storeStep harray h rfl (hallowed _ rfl) hstep
    | none =>
      cases hstep
      refine hquiet h.store ?_ trivial
      exact (follows_emitNewSnapshots _ h.follows (fun _ _ => rfl) (by simp)).1.mpr (by simp)
  | onlineState state =>
    cases hstep
    refine hquiet h.store ?_ trivial
    intro key info' hinfo'
    obtain ⟨info, hinfo, rfl⟩ := Option.map_eq_some_iff.mp hinfo'
    exact info.follows_onOnlineStateChanged state (h.follows key info hinfo)
  | listen key options target =>
    cases hstep
    exact hquiet h.store (follows_listen h.follows key options target) trivial
  | remove key n =>
    cases hstep
    exact hquiet h.store (follows_removeListener h.follows key n) trivial
  | rejectListen key =>
    cases hstep
    exact hquiet h.store (follows_update h.follows (by simp)) trivial
  | restart =>
    cases hstep
    exact hquiet (start_sound h.store.1 h.store.2) (follows_of_forall_eq_none fun _ => rfl) trivial

omit [DecidableEq V] in
theorem sound_idle {cache : K → MutableDocument V}
    (hcache : ∀ key, (cache key).hasLocalMutations = false) : (idle cache).Sound where
  store := ⟨inv_idle hcache, LocalStore.sound_idle cache⟩
  attended := attended_of_forall_eq_none fun _ => rfl
  follows := follows_of_forall_eq_none fun _ => rfl

/-- **When the app is shown what it would read.**  In every state of a run in which no
overlay is left behind, every view shows the document of the store, exactly if no
answer to a write reverts what the app has seen to a document that the server has
accepted and not sent. -/
theorem streams_iff {arraySize : ℕ} (harray : arraySize = 0) {cache : K → MutableDocument V}
    (hcache : ∀ key, (cache key).hasLocalMutations = false) {acts : List (Act K V)}
    (hallowed : StepsMeet (step arraySize) NotStranded (idle cache) acts)
    (hrun : run (step arraySize) (idle cache) acts = some c) :
    Always (step arraySize) Streams (idle cache) acts ↔
      StepsMeet (step arraySize) Delivers (idle cache) acts :=
  always_iff_stepsMeet_of_allowed (fun _ h => h.follows.streams)
    (fun _ _ _ h hallowed hstep => sound_step harray h hallowed hstep) (sound_idle hcache)
    hallowed hrun

theorem notStranded_listenAndWrite :
    StepsMeet (step 0) NotStranded (idle nothingCached) listenAndWrite := by
  refine ⟨by rintro _ ⟨⟩, fun c hc => ?_⟩
  cases hc
  refine ⟨by rintro _ ⟨⟩; trivial, fun c hc => ?_⟩
  cases hc
  refine ⟨?_, fun _ _ => trivial⟩
  rintro _ ⟨⟩ batch hhead hstrands
  cases hhead
  exact hstrands.2.2.1 rfl

theorem streams_iff_listenAndWrite :
    ∃ c, run (step 0) (idle nothingCached) listenAndWrite = some c ∧
      (Always (step 0) Streams (idle nothingCached) listenAndWrite ↔
        StepsMeet (step 0) Delivers (idle nothingCached) listenAndWrite) :=
  ⟨_, rfl, streams_iff rfl nothingCached_synced notStranded_listenAndWrite rfl⟩

end Client

end Listen
end FlutterSugar
