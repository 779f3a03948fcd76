import FlutterSugar.Local.Mutation

/-!
# What pending writes do

Whatever writes are pending for a document, together they do one of four things:
nothing, since the updates among them found no document; set some fields; replace
the document; or delete it.  Which of these, and with which fields, depends on the
document as the server has it only through whether it exists.

The overlay of a document is what its pending writes do, written as a mutation.

## Main definitions

* `Effect V`, `net` — what writes do, one after the other.
* `Effect.doc`, `Effect.overlay` — the document after it, and the overlay for it.
* `applyAll_eq` — pending writes do what `net` says.
-/

namespace FlutterSugar.Local
open Lib

variable {V : Type}

/-- What pending writes do to a document. -/
inductive Effect (V : Type)
  | unchanged
  | patched (fields : ObjectValue V)
  | replaced (fields : ObjectValue V)
  | deleted

/-- A document with local mutations. -/
def localDocument (fields : ObjectValue V) : MutableDocument V :=
  (MutableDocument.foundDocument 0 fields).setHasLocalMutations

def localNoDocument : MutableDocument V := (MutableDocument.noDocument 0).setHasLocalMutations

/-- A mutation that a write of the app has become. -/
def Mutation.Submitted (m : Mutation V) : Prop := ∃ write : Write V, m = write.toMutation

namespace Effect

/-- The document after the writes. -/
def doc (r : MutableDocument V) : Effect V → MutableDocument V
  | .unchanged => r
  | .patched fields => localDocument (r.value.override fields)
  | .replaced fields => localDocument fields
  | .deleted => localNoDocument

/-- The fields that have been changed, unless the document has been replaced. -/
def mask : Effect V → Option FieldMask
  | .unchanged => some ∅
  | .patched fields => some fields.keys
  | .replaced _ | .deleted => none

def overlay : Effect V → Option (Mutation V)
  | .unchanged => none
  | .patched fields => some (.patch fields fields.keys .none)
  | .replaced fields => some (.set fields .none)
  | .deleted => some (.delete .none)

/-- Whether there is a document after the writes. -/
def found (existed : Bool) : Effect V → Bool
  | .unchanged => existed
  | .patched _ | .replaced _ => true
  | .deleted => false

def patch (fields : ObjectValue V) : Effect V → Effect V
  | .unchanged => .patched fields
  | .patched old => .patched (old.override fields)
  | .replaced old => .replaced (old.override fields)
  | .deleted => .replaced fields

/-- One more write. -/
def after (existed : Bool) (e : Effect V) : Mutation V → Effect V
  | .set fields _ => .replaced fields
  | .patch fields _ precondition =>
    if precondition = .documentExists true ∧ ¬ e.found existed then e else e.patch fields
  | .delete _ => .deleted

end Effect

/-- What writes do, one after the other. -/
def net (existed : Bool) (ms : List (Mutation V)) : Effect V := ms.foldl (Effect.after existed) .unchanged

/-- The document and the mask after the writes. -/
def applyAll (doc : MutableDocument V) (mask : Option FieldMask) (ms : List (Mutation V)) :
    MutableDocument V × Option FieldMask :=
  ms.foldl (fun p m => m.applyToLocalView p.1 p.2) (doc, mask)

/-! ## Patches -/

theorem get_getPatch (fields : ObjectValue V) (k : String) :
    (Mutation.getPatch fields fields.keys).get k = (fields.get k).map some := by
  rw [Mutation.getPatch, SortedMap.get_ofFinset]
  by_cases hk : k ∈ fields
  · obtain ⟨v, hv⟩ := SortedMap.mem_iff_exists.mp hk
    simp [hk, hv]
  · simp [hk, SortedMap.get_eq_none_iff.mpr hk]

/-- A patch of fields that all have values deletes nothing. -/
theorem setAll_getPatch (x fields : ObjectValue V) :
    x.setAll (Mutation.getPatch fields fields.keys) = x.override fields := by
  ext k : 1
  have hsome : ∀ k, (Mutation.getPatch fields fields.keys).get k ≠ some none := by
    intro k
    rw [get_getPatch]
    cases fields.get k <;> simp
  rw [ObjectValue.get_setAll x hsome, get_getPatch, SortedMap.get_override]
  cases fields.get k <;> rfl

/-! ## Applying mutations -/

namespace Effect

theorem isFoundDocument_doc (e : Effect V) (r : MutableDocument V) :
    (e.doc r).isFoundDocument = e.found r.isFoundDocument := by
  cases e <;> rfl

/-- A field that is not there is not overridden. -/
theorem doc_patch (e : Effect V) (r : MutableDocument V) (fields : ObjectValue V) :
    localDocument ((e.doc r).value.override fields) = (e.patch fields).doc r := by
  cases e with
  | unchanged => rfl
  | patched old => exact congrArg localDocument (SortedMap.override_assoc r.value old fields)
  | replaced old => rfl
  | deleted => exact congrArg localDocument (SortedMap.empty_override fields)

theorem mask_patch (e : Effect V) (fields : ObjectValue V) :
    e.mask.map (· ∪ fields.keys) = (e.patch fields).mask := by
  cases e <;> simp [mask, patch, SortedMap.keys_override]

/-- **One write more**, on the document after the writes before it. -/
theorem applyToLocalView_doc {m : Mutation V} (hm : m.Submitted) (e : Effect V)
    (r : MutableDocument V) :
    m.applyToLocalView (e.doc r) e.mask =
      ((e.after r.isFoundDocument m).doc r, (e.after r.isFoundDocument m).mask) := by
  obtain ⟨write, rfl⟩ := hm
  cases write with
  | set fields => rfl
  | delete => rfl
  | setMerge fields =>
    have hpatch : (MutableDocument.foundDocument (e.doc r).version
        ((e.doc r).value.override (parseData fields))).setHasLocalMutations =
          (e.patch (parseData fields)).doc r := doc_patch e r _
    simp [Write.toMutation, Mutation.applyToLocalView, Precondition.isValidFor, after,
      setAll_getPatch, hpatch, mask_patch]
  | update fields =>
    have hpatch : (MutableDocument.foundDocument (e.doc r).version
        ((e.doc r).value.override (parseData fields))).setHasLocalMutations =
          (e.patch (parseData fields)).doc r := doc_patch e r _
    cases hfound : e.found r.isFoundDocument <;>
      simp [Write.toMutation, Mutation.applyToLocalView, Precondition.isValidFor, after,
        setAll_getPatch, hpatch, mask_patch, isFoundDocument_doc, hfound]

end Effect

theorem net_concat (existed : Bool) (ms : List (Mutation V)) (m : Mutation V) :
    net existed (ms ++ [m]) = (net existed ms).after existed m := by
  simp [net]

/-- **Pending writes do what `net` says.** -/
theorem applyAll_eq {ms : List (Mutation V)} (hms : ∀ m ∈ ms, m.Submitted)
    (r : MutableDocument V) :
    applyAll r (some ∅) ms =
      ((net r.isFoundDocument ms).doc r, (net r.isFoundDocument ms).mask) := by
  induction ms using List.reverseRecOn with
  | nil => rfl
  | append_singleton ms m ih =>
    have hbefore := ih fun m hm => hms m (by simp [hm])
    rw [applyAll] at hbefore ⊢
    rw [List.foldl_append, hbefore, net_concat, List.foldl_cons, List.foldl_nil]
    exact Effect.applyToLocalView_doc (hms m (by simp)) _ r

/-! ## The overlay -/

namespace Effect

/-- **The overlay that is calculated is what the writes do.** -/
theorem calculateOverlayMutation_doc (e : Effect V) {r : MutableDocument V}
    (hr : r.hasLocalMutations = false) :
    Mutation.calculateOverlayMutation (e.doc r) e.mask = e.overlay := by
  cases e with
  | unchanged => simp [doc, overlay, Mutation.calculateOverlayMutation, hr]
  | patched fields =>
    have hvalue : Mutation.overlayValue (r.value.override fields) fields.keys = fields := by
      ext k : 1
      rw [Mutation.get_overlayValue, SortedMap.get_override]
      by_cases hk : k ∈ fields
      · obtain ⟨v, hv⟩ := SortedMap.mem_iff_exists.mp hk
        simp [hk, hv]
      · simp [hk, SortedMap.get_eq_none_iff.mpr hk]
    have hoverlay : Mutation.calculateOverlayMutation ((patched fields).doc r)
        (patched fields).mask =
          some (.patch (Mutation.overlayValue (r.value.override fields) fields.keys)
            fields.keys .none) := rfl
    rw [hoverlay, hvalue]
    rfl
  | replaced fields => rfl
  | deleted => rfl

/-- **The overlay does what the writes do**, to the document as the server has it. -/
theorem overlay_apply {e : Effect V} {m : Mutation V} (h : e.overlay = some m)
    (r : MutableDocument V) (previousMask : Option FieldMask) :
    (m.applyToLocalView r previousMask).1 = e.doc r := by
  cases e with
  | unchanged => cases h
  | patched fields =>
    cases h
    simp [Mutation.applyToLocalView, Precondition.isValidFor, setAll_getPatch]
    rfl
  | replaced fields =>
    cases h
    rfl
  | deleted =>
    cases h
    rfl

/-- The mask of an overlay is that of its effect. -/
theorem fieldMask_overlay {e : Effect V} {m : Mutation V} (h : e.overlay = some m) :
    m.fieldMask = e.mask := by
  cases e with
  | unchanged => cases h
  | patched fields =>
    cases h
    rfl
  | replaced fields =>
    cases h
    rfl
  | deleted =>
    cases h
    rfl

theorem overlay_eq_none_iff {e : Effect V} : e.overlay = none ↔ e = .unchanged := by
  cases e <;> simp [overlay]

theorem hasLocalMutations_doc {e : Effect V} (h : e ≠ .unchanged) (r : MutableDocument V) :
    (e.doc r).hasLocalMutations = true := by
  cases e with
  | unchanged => exact absurd rfl h
  | patched fields => rfl
  | replaced fields => rfl
  | deleted => rfl

/-- What replaces the document need not know it. -/
theorem doc_eq_of_not_isPatch {e : Effect V} {m : Mutation V} (h : e.overlay = some m)
    (hm : m.isPatch = false) (r r' : MutableDocument V) : e.doc r = e.doc r' := by
  cases e with
  | unchanged => cases h
  | patched fields =>
    cases h
    cases hm
  | replaced fields => rfl
  | deleted => rfl

end Effect

/-! ## What it depends on -/

namespace Effect

/-- A write leaves things unchanged only as an update that finds no document. -/
theorem after_eq_unchanged {m : Mutation V} (hm : m.Submitted) (existed : Bool) (e : Effect V) :
    e.after existed m = .unchanged ↔
      e = .unchanged ∧ existed = false ∧ m.precondition = .documentExists true := by
  obtain ⟨write, rfl⟩ := hm
  cases write with
  | set fields => simp [Write.toMutation, after, Mutation.precondition]
  | delete => simp [Write.toMutation, after, Mutation.precondition]
  | setMerge fields =>
    cases e <;> simp [Write.toMutation, after, Mutation.precondition, patch]
  | update fields =>
    cases e <;> cases existed <;>
      simp [Write.toMutation, after, Mutation.precondition, patch, found]

/-- What replaces the document does not depend on what was before. -/
theorem after_of_mask_eq_none {m : Mutation V} (hm : m.Submitted) {existed : Bool} {e : Effect V}
    (he : e.mask ≠ none) (h : (e.after existed m).mask = none) (existed' : Bool) (e' : Effect V) :
    e'.after existed' m = e.after existed m := by
  obtain ⟨write, rfl⟩ := hm
  have hpatch : ∀ fields, (e.patch fields).mask ≠ none := by
    intro fields
    rw [← mask_patch]
    simpa using he
  cases write with
  | set fields => rfl
  | delete => rfl
  | setMerge fields =>
    refine absurd h ?_
    simpa [Write.toMutation, after] using hpatch (parseData fields)
  | update fields =>
    refine absurd h ?_
    simp only [Write.toMutation, after]
    split
    · exact he
    · exact hpatch (parseData fields)

end Effect

/-- Pending writes change nothing if all of them are updates of a document that does
not exist, and only then. -/
theorem net_eq_unchanged_iff {ms : List (Mutation V)} (hms : ∀ m ∈ ms, m.Submitted)
    (existed : Bool) :
    net existed ms = .unchanged ↔
      ms = [] ∨ existed = false ∧ ∀ m ∈ ms, m.precondition = .documentExists true := by
  induction ms using List.reverseRecOn with
  | nil => simp [net]
  | append_singleton ms m ih =>
    rw [net_concat, Effect.after_eq_unchanged (hms m (by simp)), ih fun m hm => hms m (by simp [hm])]
    simp only [List.append_eq_nil_iff, List.mem_append, List.mem_singleton]
    constructor
    · intro h
      obtain ⟨hbefore, hexisted, hm⟩ := h
      refine Or.inr ⟨hexisted, ?_⟩
      rcases hbefore with rfl | ⟨-, hall⟩
      · simpa using hm
      · rintro n (hn | rfl)
        · exact hall n hn
        · exact hm
    · intro h
      obtain ⟨hexisted, hall⟩ := h.resolve_left (by simp)
      exact ⟨Or.inr ⟨hexisted, fun n hn => hall n (Or.inl hn)⟩, hexisted, hall m (Or.inr rfl)⟩

/-- Pending writes that replace the document do so whether it exists or not. -/
theorem net_of_mask_eq_none {ms : List (Mutation V)} (hms : ∀ m ∈ ms, m.Submitted)
    {existed : Bool} (h : (net existed ms).mask = none) (existed' : Bool) :
    net existed' ms = net existed ms := by
  induction ms using List.reverseRecOn with
  | nil => cases h
  | append_singleton ms m ih =>
    rw [net_concat] at h
    rw [net_concat, net_concat]
    by_cases hbefore : (net existed ms).mask = none
    · rw [ih (fun m hm => hms m (by simp [hm])) hbefore]
      -- whether it exists matters only before the first write that has an effect
      cases hnet : net existed ms with
      | unchanged =>
        rw [hnet] at hbefore
        cases hbefore
      | patched fields => rfl
      | replaced fields => rfl
      | deleted => rfl
    · exact Effect.after_of_mask_eq_none (hms m (by simp)) hbefore h existed' _

end FlutterSugar.Local
