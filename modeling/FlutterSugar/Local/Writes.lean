import FlutterSugar.Local.Coherence
import FlutterSugar.Firestore

/-!
# What the app sees of its writes

A document of the app is either there, with its fields, or not.  A write that is
pending, and later accepted, does to it what the write does to a document of
Cloud Firestore.  So the app sees the document of the server with the outstanding
writes on it, in their order; it sees a write at once, and sees no difference when
the server acknowledges it.

## Main definitions

* `stored` — a document of the cache as the app sees it.
* `Write.apply` — what a write does to a document.
* `outstanding` — the writes of a run that the server has not answered.
* `seen_eq`, `writes_seen` — what the app sees.
-/

namespace FlutterSugar.Local
open Lib Std

variable {K V : Type} [DecidableEq K]

/-- The fields as a map. -/
def toDocument (x : ObjectValue V) : Document V :=
  .ofList (x.entries.map fun e => (e.1, e.2)) compareTo

/-- `snapshot.data()`. -/
def stored (doc : MutableDocument V) : Stored V :=
  if doc.isFoundDocument then some (toDocument doc.value) else none

/-- What a write does to a document; an update that finds none does nothing. -/
def Write.apply : Write V → Stored V → Stored V
  | .set fields, _ => Firestore.set fields
  | .setMerge fields, old => Firestore.setMerge old fields
  | .update fields, old =>
    match Firestore.update old fields with
    | .ok new => new
    | .error _ => old
  | .delete, _ => none

/-! ## Fields -/

@[simp] theorem getElem?_toDocument (x : ObjectValue V) (k : String) :
    (toDocument x)[k]? = x.get k := by
  have hdistinct : (x.entries.map fun e => (e.1, e.2)).Pairwise
      fun a b => ¬ compareTo a.1 b.1 = .eq := by
    refine List.pairwise_map.mpr (x.ascending.imp ?_)
    intro e f hlt heq
    exact hlt.ne (Document.compareTo_eq_iff.mp heq)
  cases h : x.get k with
  | some v =>
    refine ExtTreeMap.getElem?_ofList_of_mem (Document.compareTo_eq_iff.mpr rfl) hdistinct ?_
    exact List.mem_map.mpr ⟨⟨k, v⟩, SortedMap.get_eq_some_iff.mp h, rfl⟩
  | none =>
    refine ExtTreeMap.getElem?_ofList_of_contains_eq_false ?_
    have hk : k ∉ x.entries.keys := SortedMap.get_eq_none_iff.mp h
    rw [List.map_map, List.contains_eq_mem, decide_eq_false_iff_not]
    exact hk

theorem toDocument_injective {x y : ObjectValue V} (h : toDocument x = toDocument y) : x = y := by
  ext k : 1
  rw [← getElem?_toDocument, h, getElem?_toDocument]

/-- The parsed data has the last value of each field. -/
theorem getElem?_insertMany (d : Document V) (fields : List (String × V)) (k : String) :
    (d.insertMany fields)[k]? = ((parseData fields).get k).or d[k]? := by
  induction fields using List.reverseRecOn with
  | nil => simp [parseData]
  | append_singleton fields e ih =>
    have hparse : parseData (fields ++ [e]) = (parseData fields).set e.1 e.2 := by
      simp [parseData]
    rw [ExtTreeMap.insertMany_append, ExtTreeMap.insertMany_list_singleton, Document.getElem?_insert, ih, hparse,
      ObjectValue.get_set]
    by_cases hk : e.1 = k
    · simp [hk]
    · simp [hk, Ne.symm hk]

theorem toDocument_parseData (fields : List (String × V)) :
    toDocument (parseData fields) = .ofList fields compareTo := by
  ext k : 1
  rw [getElem?_toDocument, ExtTreeMap.ofList_eq_insertMany_empty, getElem?_insertMany]
  simp

theorem toDocument_override_parseData (x : ObjectValue V) (fields : List (String × V)) :
    toDocument (x.override (parseData fields)) = (toDocument x).insertMany fields := by
  ext k : 1
  rw [getElem?_insertMany, getElem?_toDocument, getElem?_toDocument, SortedMap.get_override]

/-! ## Documents -/

theorem stored_found (version : SnapshotVersion) (x : ObjectValue V) :
    stored (.foundDocument version x) = some (toDocument x) := rfl

@[simp] theorem stored_setHasLocalMutations (doc : MutableDocument V) :
    stored doc.setHasLocalMutations = stored doc := rfl

@[simp] theorem stored_setHasCommittedMutations (doc : MutableDocument V) :
    stored doc.setHasCommittedMutations = stored doc := rfl

theorem isFoundDocument_eq_isSome (doc : MutableDocument V) :
    doc.isFoundDocument = (stored doc).isSome := by
  rw [stored]
  cases doc.isFoundDocument <;> rfl

/-- Two documents are the same to the app if it finds the same fields in them. -/
theorem stored_eq_iff {doc doc' : MutableDocument V} : stored doc = stored doc' ↔
    doc.isFoundDocument = doc'.isFoundDocument ∧
      (doc.isFoundDocument = true → doc.value = doc'.value) := by
  have hfields : toDocument doc.value = toDocument doc'.value ↔ doc.value = doc'.value :=
    ⟨fun h => toDocument_injective h, congrArg toDocument⟩
  rw [stored, stored]
  cases doc.isFoundDocument <;> cases doc'.isFoundDocument <;> simp [hfields]

instance [DecidableEq V] (doc doc' : MutableDocument V) : Decidable (stored doc = stored doc') :=
  decidable_of_iff _ stored_eq_iff.symm

/-- A document that was not found has no fields. -/
theorem toDocument_value (doc : MutableDocument V) :
    toDocument doc.value = (stored doc).getD ∅ := by
  rw [stored]
  by_cases hfound : doc.isFoundDocument
  · simp [hfound]
  · have hempty : doc.value = ∅ :=
      doc.value_empty (by simpa [MutableDocument.isFoundDocument] using hfound)
    simp [hfound, hempty]
    rfl

/-- A patch of submitted fields, in a document that is found afterwards. -/
theorem stored_patched (doc : MutableDocument V) (version : SnapshotVersion)
    (fields : List (String × V)) :
    stored (.foundDocument version
      (doc.value.setAll (Mutation.getPatch (parseData fields) (parseData fields).keys))) =
        Firestore.setMerge (stored doc) fields := by
  rw [stored_found, setAll_getPatch, toDocument_override_parseData, toDocument_value]
  rfl

/-- An update does what a merge does, to a document that is there. -/
theorem apply_update (fields : List (String × V)) (doc : MutableDocument V) :
    (Write.update fields).apply (stored doc) =
      if doc.isFoundDocument then Firestore.setMerge (stored doc) fields else stored doc := by
  rw [Write.apply]
  by_cases hfound : doc.isFoundDocument
  · simp [stored, hfound, Firestore.update, Firestore.setMerge]
  · simp [stored, hfound, Firestore.update]

/-- **A pending write** does what the write does. -/
theorem stored_applyToLocalView (write : Write V) (doc : MutableDocument V)
    (mask : Option FieldMask) :
    stored (write.toMutation.applyToLocalView doc mask).1 = write.apply (stored doc) := by
  cases write with
  | set fields => exact congrArg some (toDocument_parseData fields)
  | delete => rfl
  | setMerge fields => exact stored_patched doc doc.version fields
  | update fields =>
    rw [apply_update, Write.toMutation, Mutation.applyToLocalView]
    cases hfound : doc.isFoundDocument with
    | false => simp [Precondition.isValidFor, hfound]
    | true => simpa [Precondition.isValidFor, hfound] using stored_patched doc doc.version fields

/-- **An accepted write** does what the write does. -/
theorem stored_applyToRemoteDocument (write : Write V) (doc : MutableDocument V)
    (version : SnapshotVersion) :
    stored (write.toMutation.applyToRemoteDocument doc version) = write.apply (stored doc) := by
  cases write with
  | set fields => exact congrArg some (toDocument_parseData fields)
  | delete => rfl
  | setMerge fields => exact stored_patched doc version fields
  | update fields =>
    rw [apply_update, Write.toMutation, Mutation.applyToRemoteDocument]
    cases hfound : doc.isFoundDocument with
    | false =>
      have hnone : stored doc = none := by simp [stored, hfound]
      simp [Precondition.isValidFor, hfound, hnone]
      rfl
    | true => simpa [Precondition.isValidFor, hfound] using stored_patched doc version fields

/-- Pending writes, one after the other. -/
theorem stored_applyAll (writes : List (Write V)) (doc : MutableDocument V)
    (mask : Option FieldMask) :
    stored (applyAll doc mask (writes.map Write.toMutation)).1 =
      writes.foldl (fun d write => write.apply d) (stored doc) := by
  induction writes generalizing doc mask with
  | nil => rfl
  | cons write writes ih =>
    rw [List.foldl_cons, ← stored_applyToLocalView write doc mask]
    exact ih _ _

namespace LocalStore

variable {s t : LocalStore K V} {key : K}

/-- What the app sees of a document whose pending mutations are those of `writes`. -/
theorem Sound.stored_getDocument (h : s.Inv) (hs : s.Sound) {writes : List (Write V)}
    (hpending : s.pending key = writes.map Write.toMutation) :
    stored (s.getDocument key) =
      writes.foldl (fun d write => write.apply d) (stored (s.remoteDocumentCache key)) := by
  have hall : s.getDocument key =
      (applyAll (s.remoteDocumentCache key) (some ∅) (s.pending key)).1 := by
    rw [hs.getDocument_eq, applyAll_eq (h.pending key)]
    rfl
  rw [hall, hpending, stored_applyAll]

/-! ## The outstanding writes of a run -/

/-- A write is outstanding until its batch, the first one then, is answered. -/
def outstandingAfter (writes : List (K × Write V)) : Act K V → List (K × Write V)
  | .write key write => writes ++ [(key, write)]
  | .acknowledge _ | .reject => writes.tail
  | .remote _ _ | .start => writes

/-- The writes that the server has not answered. -/
def outstanding (acts : List (Act K V)) : List (K × Write V) := acts.foldl outstandingAfter []

/-- The outstanding writes to one document. -/
def outstandingTo (key : K) (acts : List (Act K V)) : List (Write V) :=
  ((outstanding acts).filter fun w => w.1 = key).map Prod.snd

/-- The queue holds these writes. -/
def Queues (s : LocalStore K V) (writes : List (K × Write V)) : Prop :=
  s.mutationQueue.map (fun batch => (batch.key, batch.mutation)) =
    writes.map fun w => (w.1, w.2.toMutation)

theorem Queues.pending {writes : List (K × Write V)} (h : s.Queues writes) (key : K) :
    s.pending key = ((writes.filter fun w => w.1 = key).map Prod.snd).map Write.toMutation := by
  have hfst : s.pending key =
      ((s.mutationQueue.map fun batch => (batch.key, batch.mutation)).filter
        fun p => p.1 = key).map Prod.snd := by
    rw [List.filter_map, List.map_map]
    rfl
  rw [hfst, h, List.filter_map, List.map_map, List.map_map]
  rfl

theorem Queues.after {arraySize : ℕ} {act : Act K V} {writes : List (K × Write V)}
    (h : s.Queues writes) (hstep : step arraySize s act = some t) :
    t.Queues (outstandingAfter writes act) := by
  rw [Queues] at h ⊢
  cases act with
  | write key write =>
    cases hstep
    rw [mutationQueue_writeLocally, outstandingAfter, List.map_append, h, List.map_append]
    rfl
  | acknowledge version =>
    obtain ⟨batch, hhead, rfl⟩ := Option.map_eq_some_iff.mp hstep
    rw [outstandingAfter, List.map_tail, ← h, ← List.map_tail]
    dsimp only
    split
    · rw [mutationQueue_recalculateAndSaveOverlays]
      rfl
    · rfl
  | reject =>
    obtain ⟨batch, hhead, rfl⟩ := Option.map_eq_some_iff.mp hstep
    rw [outstandingAfter, List.map_tail, ← h, ← List.map_tail,
      mutationQueue_recalculateAndSaveOverlays]
    rfl
  | remote key update =>
    cases hstep
    rw [mutationQueue_applyRemoteEvent, outstandingAfter, h]
  | start =>
    cases hstep
    rw [start]
    split
    · exact h
    · exact h

theorem queues_run {arraySize : ℕ} {cache : K → MutableDocument V} {acts : List (Act K V)}
    (hrun : run (step arraySize) (idle cache) acts = some t) : t.Queues (outstanding acts) := by
  induction acts using List.reverseRecOn generalizing t with
  | nil =>
    rw [run_nil, Option.some.injEq] at hrun
    rw [← hrun]
    rfl
  | append_singleton acts act ih =>
    obtain ⟨s, hs, hstep⟩ := run_concat_eq_some.mp hrun
    rw [outstanding, List.foldl_append]
    exact (ih hs).after hstep

/-- **What the app sees** of each document is what the server has, with the writes on
it that the server has not answered, as long as no overlay is left behind. -/
theorem seen_eq {arraySize : ℕ} (harray : arraySize = 0) {cache : K → MutableDocument V}
    (hcache : ∀ key, (cache key).hasLocalMutations = false) {acts : List (Act K V)}
    (hok : StepsMeet (step arraySize) NotStranded (idle cache) acts)
    (hrun : run (step arraySize) (idle cache) acts = some t) (key : K) :
    stored (t.getDocument key) =
      (outstandingTo key acts).foldl (fun d write => write.apply d)
        (stored (t.remoteDocumentCache key)) := by
  have ht : t.Inv ∧ t.Sound := by
    refine run_invariant (P := fun s => s.Inv ∧ s.Sound) ?_ ⟨inv_idle hcache, sound_idle cache⟩
      hok hrun
    intro s act t hs hact hstep
    obtain ⟨hinv, hsound, -⟩ := step_sound harray hs.1 hs.2 hstep
    exact ⟨hinv, hsound.mpr hact⟩
  exact ht.2.stored_getDocument ht.1 ((queues_run hrun).pending key)

/-- A write that the server acknowledges. -/
def oneWrite : List (Act String ℤ) := [.write "a" (.setMerge [("b", 1)]), .acknowledge 1]

theorem seen_eq_oneWrite :
    ∃ t, run (step 0) (idle nothingCached) oneWrite = some t ∧
      stored (t.getDocument "a") =
        (outstandingTo "a" oneWrite).foldl (fun d write => write.apply d)
          (stored (t.remoteDocumentCache "a")) := by
  refine ⟨_, rfl, seen_eq rfl nothingCached_synced ?_ rfl "a"⟩
  refine ⟨trivial, fun t ht => ⟨?_, fun _ _ => trivial⟩⟩
  cases ht
  intro batch hhead hstrands
  cases hhead
  exact hstrands.2.2.1 rfl

/-! ## Writes and acknowledgements -/

/-- An acknowledged write has a newer version than the cache, or the document already is
what the write makes of it: the server leaves the version as it is then. -/
def Expects (s : LocalStore K V) (batch : MutationBatch K V) (version : SnapshotVersion) : Prop :=
  let doc := s.remoteDocumentCache batch.key
  doc.version < version ∨ stored (batch.mutation.applyToRemoteDocument doc version) = stored doc

/-- The app writes, but deletes nothing, or the server acknowledges a write and the cache
has not learnt of it in another way. -/
def WritesOrAcknowledges (s : LocalStore K V) : Act K V → Prop
  | .write _ write => write ≠ .delete
  | .acknowledge version => ∀ batch, s.mutationQueue.head? = some batch → s.Expects batch version
  | .reject | .remote _ _ | .start => False

instance [DecidableEq V] (s : LocalStore K V) :
    (act : Act K V) → Decidable (s.WritesOrAcknowledges act)
  | .write _ write =>
    match write with
    | .delete => isFalse fun h => h rfl
    | .set _ | .setMerge _ | .update _ => isTrue (by simp [WritesOrAcknowledges])
  | .acknowledge version =>
    have (batch : MutationBatch K V) : Decidable (s.Expects batch version) :=
      inferInstanceAs (Decidable (_ ∨ _))
    inferInstanceAs (Decidable (∀ batch ∈ s.mutationQueue.head?, s.Expects batch version))
  | .reject | .remote _ _ | .start => isFalse id

omit [DecidableEq K] in
/-- The cache then has what the write makes of the document. -/
theorem Expects.stored_applyBatchResult {batch : MutationBatch K V} {version : SnapshotVersion}
    (h : s.Expects batch version) : stored (s.applyBatchResult batch version) =
      stored (batch.mutation.applyToRemoteDocument (s.remoteDocumentCache batch.key) version) := by
  rw [applyBatchResult]
  split
  next => rfl
  next hold => exact (h.resolve_left hold).symm

/-- The writes of a run to one document. -/
def writesTo (key : K) (acts : List (Act K V)) : List (Write V) :=
  acts.filterMap fun act =>
    match act with
    | .write k write => if k = key then some write else none
    | _ => none

/-- A sound store whose queue holds writes that delete nothing. -/
structure Holds (s : LocalStore K V) (writes : List (K × Write V)) : Prop where
  inv : s.Inv
  sound : s.Sound
  queues : s.Queues writes
  deletes : ∀ w ∈ writes, w.2 ≠ .delete

theorem Holds.idle {cache : K → MutableDocument V}
    (hcache : ∀ key, (cache key).hasLocalMutations = false) : (idle cache).Holds [] :=
  ⟨inv_idle hcache, sound_idle cache, rfl, by simp⟩

theorem Holds.stored_getDocument {writes : List (K × Write V)} (h : s.Holds writes) (key : K) :
    stored (s.getDocument key) =
      ((writes.filter fun w => w.1 = key).map Prod.snd).foldl (fun d write => write.apply d)
        (stored (s.remoteDocumentCache key)) :=
  h.sound.stored_getDocument h.inv (h.queues.pending key)

omit [DecidableEq K] in
/-- The first batch is the first write. -/
theorem Queues.head {writes : List (K × Write V)} {batch : MutationBatch K V}
    (h : s.Queues writes) (hhead : s.mutationQueue.head? = some batch) :
    ∃ write, writes = (batch.key, write) :: writes.tail ∧ batch.mutation = write.toMutation := by
  obtain ⟨rest, hrest⟩ := List.head?_eq_some_iff.mp hhead
  rw [Queues, hrest] at h
  cases writes with
  | nil => cases h
  | cons w writes =>
    obtain ⟨hw, -⟩ := List.cons.inj h
    obtain ⟨hkey, hmutation⟩ := Prod.mk.inj hw
    exact ⟨w.2, by rw [hkey]; rfl, hmutation⟩

/-- Only an update that finds no document leaves none. -/
theorem isFoundDocument_applyToRemoteDocument {write : Write V} (hwrite : write ≠ .delete)
    {doc : MutableDocument V} {version : SnapshotVersion}
    (h : (write.toMutation.applyToRemoteDocument doc version).isFoundDocument = false) :
    doc.isFoundDocument = false ∧ write.toMutation.precondition = .documentExists true := by
  cases write with
  | delete => exact absurd rfl hwrite
  | set fields => cases h
  | setMerge fields => cases h
  | update fields =>
    refine ⟨?_, rfl⟩
    cases hfound : doc.isFoundDocument with
    | false => rfl
    | true =>
      simp [Write.toMutation, Mutation.applyToRemoteDocument, Precondition.isValidFor, hfound] at h
      cases h

/-- An acknowledged write leaves no overlay behind unless it is a deletion. -/
theorem Holds.notStranded {writes : List (K × Write V)} (h : s.Holds writes) {act : Act K V}
    (hact : s.WritesOrAcknowledges act) : s.NotStranded act := by
  cases act with
  | write key write => trivial
  | reject => cases hact
  | remote key update => cases hact
  | start => cases hact
  | acknowledge version =>
    intro batch hhead hstrands
    obtain ⟨ho, hgone, -, hupdates⟩ := hstrands
    obtain ⟨write, hwrites, hmutation⟩ := h.queues.head hhead
    have hdelete : write ≠ .delete := h.deletes (batch.key, write) (by rw [hwrites]; simp)
    rw [isFoundDocument_eq_isSome, (hact batch hhead).stored_applyBatchResult,
      ← isFoundDocument_eq_isSome, hmutation] at hgone
    obtain ⟨hmissing, hupdate⟩ := isFoundDocument_applyToRemoteDocument hdelete hgone
    -- all pending writes are updates that find no document, so there is no overlay
    have hunchanged : s.effect batch.key = .unchanged := by
      rw [effect, hmissing]
      refine (net_eq_unchanged_iff (h.inv.pending batch.key) false).mpr (Or.inr ⟨rfl, ?_⟩)
      intro m hm
      rw [pending, batchesAffecting_of_head hhead, if_pos rfl, List.map_cons] at hm
      rcases List.mem_cons.mp hm with rfl | hm
      · rw [hmutation, hupdate]
      · exact hupdates m hm
    have hkey := h.sound batch.key
    rw [hunchanged] at hkey
    exact ho (Option.map_eq_none_iff.mp hkey)

theorem Holds.after {arraySize : ℕ} (harray : arraySize = 0) {writes : List (K × Write V)}
    (h : s.Holds writes) {act : Act K V} (hact : s.WritesOrAcknowledges act)
    (hstep : step arraySize s act = some t) : t.Holds (outstandingAfter writes act) := by
  obtain ⟨hinv, hsound, -⟩ := step_sound harray h.inv h.sound hstep
  refine ⟨hinv, hsound.mpr (h.notStranded hact), h.queues.after hstep, ?_⟩
  cases act with
  | write key write =>
    intro w hw
    rcases List.mem_append.mp hw with hold | hnew
    · exact h.deletes w hold
    · rw [List.mem_singleton.mp hnew]
      exact hact
  | acknowledge version => exact fun w hw => h.deletes w (List.mem_of_mem_tail hw)
  | reject => cases hact
  | remote key update => cases hact
  | start => cases hact

/-- **A write is seen at once, and an acknowledgement is not seen.** -/
theorem Holds.seen_step {arraySize : ℕ} (harray : arraySize = 0) {writes : List (K × Write V)}
    (h : s.Holds writes) {act : Act K V} (hact : s.WritesOrAcknowledges act)
    (hstep : step arraySize s act = some t) (key : K) :
    stored (t.getDocument key) =
      (writesTo key [act]).foldl (fun d write => write.apply d) (stored (s.getDocument key)) := by
  rw [h.stored_getDocument, (h.after harray hact hstep).stored_getDocument]
  cases act with
  | write k write =>
    cases hstep
    rw [remoteDocumentCache_writeLocally, outstandingAfter, List.filter_append]
    by_cases hk : k = key <;> simp [writesTo, hk]
  | acknowledge version =>
    obtain ⟨batch, hhead, rfl⟩ := Option.map_eq_some_iff.mp hstep
    obtain ⟨write, hwrites, hmutation⟩ := h.queues.head hhead
    have haccepted : stored (s.applyBatchResult batch version) =
        write.apply (stored (s.remoteDocumentCache batch.key)) := by
      rw [(hact batch hhead).stored_applyBatchResult, hmutation, stored_applyToRemoteDocument]
    have hnone : writesTo key [(.acknowledge version : Act K V)] = [] := rfl
    simp only [harray, if_true]
    rw [remoteDocumentCache_recalculateAndSaveOverlays, outstandingAfter, hnone, List.foldl_nil,
      hwrites, List.tail_cons]
    by_cases hk : key = batch.key
    · subst hk
      rw [List.filter_cons_of_pos (by simp), List.map_cons, List.foldl_cons, ← haccepted,
        remoteDocumentCache_answered_self]
    · rw [List.filter_cons_of_neg (by simpa using Ne.symm hk),
        remoteDocumentCache_answered_of_ne s hk]
  | reject => cases hact
  | remote k update => cases hact
  | start => cases hact

/-- **The app sees its own writes**, those to each document in their order, from the
moment they are made; that the server acknowledges them changes nothing. -/
theorem writes_seen {arraySize : ℕ} (harray : arraySize = 0) {cache : K → MutableDocument V}
    (hcache : ∀ key, (cache key).hasLocalMutations = false) {acts : List (Act K V)}
    (hok : StepsMeet (step arraySize) WritesOrAcknowledges (idle cache) acts)
    (hrun : run (step arraySize) (idle cache) acts = some t) (key : K) :
    stored (t.getDocument key) =
      (writesTo key acts).foldl (fun d write => write.apply d) (stored (cache key)) := by
  have hgeneral : ∀ (acts : List (Act K V)) (s : LocalStore K V) (writes : List (K × Write V)),
      s.Holds writes → StepsMeet (step arraySize) WritesOrAcknowledges s acts →
        run (step arraySize) s acts = some t →
          stored (t.getDocument key) =
            (writesTo key acts).foldl (fun d write => write.apply d) (stored (s.getDocument key)) := by
    intro acts
    induction acts with
    | nil =>
      intro s writes _ _ hrun
      rw [run_nil, Option.some.injEq] at hrun
      rw [hrun]
      rfl
    | cons act acts ih =>
      intro s writes h hok hrun
      obtain ⟨u, hu, hrun⟩ := run_cons_eq_some.mp hrun
      obtain ⟨hact, hok⟩ := (stepsMeet_cons hu).mp hok
      have hsplit : writesTo key (act :: acts) = writesTo key [act] ++ writesTo key acts :=
        List.filterMap_append (l := [act])
      rw [ih u _ (h.after harray hact hu) hok hrun, h.seen_step harray hact hu, hsplit,
        List.foldl_append]
  exact hgeneral acts (idle cache) [] (Holds.idle hcache) hok hrun

/-- The same write twice: the server acknowledges the second one with the version that the
document has. -/
def sameWrite : List (Act String ℤ) := oneWrite ++ oneWrite

theorem writes_seen_sameWrite :
    ∃ t, run (step 0) (idle nothingCached) sameWrite = some t ∧
      stored (t.getDocument "a") =
        (writesTo "a" sameWrite).foldl (fun d write => write.apply d)
          (stored (nothingCached "a")) := by
  have hok : StepsMeet (step 0) WritesOrAcknowledges (idle nothingCached) sameWrite := by
    decide +kernel
  exact ⟨_, rfl, writes_seen rfl nothingCached_synced hok rfl "a"⟩

end LocalStore

end FlutterSugar.Local
