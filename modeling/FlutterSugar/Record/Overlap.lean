import FlutterSugar.Lib.Transaction
import FlutterSugar.Record.DayMap

/-!
# Overlapping calls

A call is not awaited, so that a second one, of another device or of a second
press of the button, can read the document before the first one has written it.
A call is a transaction: its write is planned on the document it read, and the
four outcomes of two transactions are compared.

Two calls that find the document and do not both add the same new day are
serialisable.  Two that create the document replace each other's.

## Main definitions

* `plan` — the write of a call, planned on what it read.
* `Serialisable` — every interleaving does what the calls do one by one.
* `OverlapSafe` — the calls do not get in each other's way.
* `serialisable_iff` — these are the same.
-/

namespace FlutterSugar
namespace Record
open Lib Std

/-! ## A call as a transaction -/

/-- The write of a call that has read `snapshot`. -/
def plan (s : String) (i : ℤ) (snapshot : RecordDoc) : RecordDoc → RecordDoc :=
  match chooseWrite snapshot s i with
  | .ok fields => fun db => Firestore.setMerge db fields
  | .error _ => fun _ => Firestore.set [(s, i)]

/-- A call, as a transaction. -/
def Call.phase : Call → Phase RecordDoc
  | .reading s i => .reading (plan s i)
  | .merging _ _ fields => .writing fun db => Firestore.setMerge db fields
  | .replacing s i => .writing fun _ => Firestore.set [(s, i)]
  | .returned => .done
  | .threw => .done

/-- The requests of a call are the steps of its transaction. -/
theorem phase_step (db : RecordDoc) (c : Call) :
    Phase.step db c.phase = (c.request db).map (Prod.map id Call.phase) := by
  cases c with
  | reading s i =>
    cases h : chooseWrite db s i <;> simp [Call.request, Call.step, Call.phase, Phase.step, plan, h]
  | merging s i fields => simp [Call.request, Call.step, Call.phase, Phase.step]
  | replacing s i => simp [Call.request, Call.step, Call.phase, Phase.step]
  | returned => simp [Call.request, Call.phase, Phase.step]
  | threw => simp [Call.request, Call.phase, Phase.step]

theorem updateUser_eq_plan (db : RecordDoc) (s : String) (i : ℤ) :
    updateUser noFailures db s i = (plan s i db db, .ok ()) := by
  cases h : chooseWrite db s i <;> simp [updateUser, noFailures, plan, h, bind, Except.bind]

theorem request_ne_threw {db db' : RecordDoc} {c c' : Call} (h : c.request db = some (db', c')) :
    c' ≠ .threw := by
  cases c with
  | reading s i =>
    cases hw : chooseWrite db s i <;> simp only [Call.request, Call.step, hw] at h <;> grind
  | merging s i fields => simp only [Call.request, Call.step] at h; grind
  | replacing s i => simp only [Call.request, Call.step] at h; grind
  | returned => simp [Call.request] at h
  | threw => simp [Call.request] at h

/-- One request of one of two calls. -/
def requestOf : Two RecordDoc Call → Bool → Option (Two RecordDoc Call) := Two.step Call.request

theorem not_threw_step (x : Two RecordDoc Call) (who : Bool) (y : Two RecordDoc Call)
    (hx : x.first ≠ .threw ∧ x.second ≠ .threw) (h : requestOf x who = some y) :
    y.first ≠ .threw ∧ y.second ≠ .threw := by
  cases who with
  | false =>
    obtain ⟨⟨db', c'⟩, hr, rfl⟩ := Option.map_eq_some_iff.mp h
    exact ⟨request_ne_threw hr, hx.2⟩
  | true =>
    obtain ⟨⟨db', c'⟩, hr, rfl⟩ := Option.map_eq_some_iff.mp h
    exact ⟨hx.1, request_ne_threw hr⟩

theorem phase_eq_done_iff {c : Call} (h : c ≠ .threw) : c.phase = .done ↔ c = .returned := by
  cases c <;> simp [Call.phase] at h ⊢

/-- **What holds after all interleavings of two calls** holds of the four
outcomes. -/
theorem forall_interleaving_iff (db : RecordDoc) (s₁ s₂ : String) (i₁ i₂ : ℤ)
    (P : RecordDoc → Prop) :
    (∀ sched db', run requestOf ⟨db, .reading s₁ i₁, .reading s₂ i₂⟩ sched =
        some ⟨db', .returned, .returned⟩ → P db') ↔
      (P (serial (plan s₁ i₁) (plan s₂ i₂) db) ∧ P (serial (plan s₂ i₂) (plan s₁ i₁) db)) ∧
        P (overlapped (plan s₁ i₁) (plan s₂ i₂) db) ∧
        P (overlapped (plan s₂ i₂) (plan s₁ i₁) db) := by
  rw [← forall_run_iff]
  have hmap : ∀ sched, run (Two.step Phase.step) ⟨db, .reading (plan s₁ i₁),
      .reading (plan s₂ i₂)⟩ sched = (run requestOf ⟨db, .reading s₁ i₁, .reading s₂ i₂⟩ sched).map
        (Two.map Call.phase) :=
    Two.run_map phase_step ⟨db, .reading s₁ i₁, .reading s₂ i₂⟩
  refine forall_congr' fun sched => forall_congr' fun db' => ⟨fun h hrun => ?_, fun h hrun => ?_⟩
  · rw [hmap] at hrun
    obtain ⟨⟨db'', c, c'⟩, hx, hxdb⟩ := Option.map_eq_some_iff.mp hrun
    have hne : c ≠ .threw ∧ c' ≠ .threw :=
      run_invariant_of_step not_threw_step ⟨by simp, by simp⟩ hx
    simp only [Two.map, Two.mk.injEq] at hxdb
    obtain ⟨rfl, hc, hc'⟩ := hxdb
    rw [(phase_eq_done_iff hne.1).mp hc, (phase_eq_done_iff hne.2).mp hc'] at hx
    exact h hx
  · exact h (by rw [hmap, hrun]; rfl)

/-! ## The write of a call -/

section
variable {d : Document ℤ} {db : RecordDoc} {s : String} {i : ℤ}

/-- There is no document whose keys can all be parsed. -/
def Unreadable (db : RecordDoc) : Prop := ∀ d, db = some d → ¬ Readable d

theorem plan_unreadable (h : Unreadable db) (s : String) (i : ℤ) (db' : RecordDoc) :
    plan s i db db' = some ((∅ : Document ℤ).insert s i) := by
  cases db with
  | none => rfl
  | some d =>
    obtain ⟨e, he⟩ := chooseWrite_unreadable (i := i) (s := s) (d := d) fun hd => h d rfl hd.1
    simp [plan, he]

theorem plan_recorded (hd : Readable d) (hs : (keyDay s).isSome) (hr : Recorded d s) {k : String}
    (hk : newestKey d = some k) (d' : Document ℤ) :
    plan s i (some d) (some d') = some (d'.insert k i) := by
  simp [plan, chooseWrite_recorded hd hs hr hk]

theorem plan_new (hd : Readable d) (hs : (keyDay s).isSome) (hr : ¬ Recorded d s)
    (d' : Document ℤ) : plan s i (some d) (some d') = some (d'.insert s i) := by
  simp [plan, chooseWrite_new hd hs hr]

/-- On a document of different days a call keeps the keys and their days apart. -/
theorem plan_dayRecord (d : DayRecord) (s : Timestamp) (i : ℤ) :
    ∃ d' : DayRecord, plan s.text i (some d.doc) (some d.doc) = some d'.doc := by
  by_cases hr : Recorded d.doc s.text
  · obtain ⟨j, hj, -⟩ := id hr
    obtain ⟨k, hk⟩ := exists_newestKey hj
    have hmem := mem_of_newestKey hk
    exact ⟨⟨d.doc.insert k i, d.readable.insert (d.readable k hmem) i,
      d.oneEntryPerDay.insert (Or.inl hmem) i⟩, plan_recorded d.readable s.readable hr hk _⟩
  · exact ⟨⟨d.doc.insert s.text i, d.readable.insert s.readable i,
      d.oneEntryPerDay.insert (Or.inr fun j hj => ne_keyDay_of_not_recorded hr hj) i⟩,
      plan_new d.readable s.readable hr _⟩

end

/-! ## Days of the outcomes -/

theorem dayMap_empty : dayMap ∅ = fun _ => none := by
  ext day : 1
  simp [dayMap]

/-- Writing to the key of a day updates the day. -/
theorem dayMap_insert {d : Document ℤ} {k : String} {day : CalendarDay} (hd : OneEntryPerDay d)
    (hday : keyDay k = some day) (hk : k ∈ d ∨ ∀ j ∈ d, keyDay j ≠ keyDay k) (i : ℤ) :
    dayMap (d.insert k i) = Function.update (dayMap d) day (some i) := by
  obtain ⟨s, hs⟩ : ∃ s : Timestamp, s.text = k := ⟨⟨k, by simp [hday]⟩, rfl⟩
  subst hs
  rw [s.keyDay_text, Option.some.injEq] at hday
  rw [dayMap_of_recordsDay hd (recordsDay_insert hd rfl hk), hday]

/-- The document `db'` has one entry of a day, and these are what the two calls
make of `db` when one runs after the other, in one of the two orders. -/
def AsSerial (db : RecordDoc) (s₁ s₂ : Timestamp) (i₁ i₂ : ℤ) (db' : RecordDoc) : Prop :=
  OneEntryPerDay (fields db') ∧
    (dayMap (fields db') = dayMap (fields
        (updateUser noFailures (updateUser noFailures db s₁.text i₁).1 s₂.text i₂).1) ∨
      dayMap (fields db') = dayMap (fields
        (updateUser noFailures (updateUser noFailures db s₂.text i₂).1 s₁.text i₁).1))

theorem AsSerial.swap {db db' : RecordDoc} {s₁ s₂ : Timestamp} {i₁ i₂ : ℤ} :
    AsSerial db s₁ s₂ i₁ i₂ db' ↔ AsSerial db s₂ s₁ i₂ i₁ db' :=
  and_congr_right fun _ => or_comm

variable {db : RecordDoc} {s₁ s₂ : Timestamp} {i₁ i₂ : ℤ}

theorem asSerial_iff {db' : RecordDoc} :
    AsSerial db s₁ s₂ i₁ i₂ db' ↔ OneEntryPerDay (fields db') ∧
      (dayMap (fields db') =
          dayMap (fields (serial (plan s₁.text i₁) (plan s₂.text i₂) db)) ∨
        dayMap (fields db') =
          dayMap (fields (serial (plan s₂.text i₂) (plan s₁.text i₁) db))) := by
  simp only [AsSerial, updateUser_eq_plan, serial]

/-! ## Calls that create the document -/

/-- A document with one field. -/
def single (s : Timestamp) (i : ℤ) : DayRecord where
  doc := (∅ : Document ℤ).insert s.text i
  readable := readable_empty.insert s.readable i
  oneEntryPerDay := oneEntryPerDay_empty.insert (Or.inr fun _ hj => absurd hj (by simp)) i

theorem dayMap_single (s : Timestamp) (i : ℤ) :
    dayMap (single s i).doc = Function.update (fun _ => none) s.day (some i) := by
  rw [single, dayMap_insert oneEntryPerDay_empty s.keyDay_text
    (Or.inr fun _ hj => absurd hj (by simp)), dayMap_empty]

theorem dayMap_single_eq_iff :
    dayMap (single s₁ i₁).doc = dayMap (single s₂ i₂).doc ↔ s₁.day = s₂.day ∧ i₁ = i₂ := by
  rw [dayMap_single, dayMap_single]
  constructor
  · intro h
    have hat := congrFun h s₁.day
    rw [Function.update_self] at hat
    by_cases hday : s₁.day = s₂.day
    · rw [hday, Function.update_self, Option.some.injEq] at hat
      exact ⟨hday, hat⟩
    · rw [Function.update_of_ne hday] at hat
      cases hat
  · rintro ⟨hday, rfl⟩
    rw [hday]

theorem recorded_single :
    Recorded (single s₁ i₁).doc s₂.text ↔ dayText s₁.text = dayText s₂.text := by
  rw [single, recorded_insert, or_iff_left]
  rintro ⟨k, hk, -⟩
  simp at hk

theorem newestKey_single : newestKey (single s₁ i₁).doc = some s₁.text :=
  newestKey_insert_of_newest (fun _ hj => absurd hj (by simp)) i₁

/-- A second call that finds the first one's day replaces its value. -/
theorem serial_unreadable_same (h : Unreadable db) (ht : dayText s₁.text = dayText s₂.text) :
    serial (plan s₁.text i₁) (plan s₂.text i₂) db = some (single s₁ i₂).doc := by
  rw [serial, plan_unreadable h]
  change plan s₂.text i₂ (some (single s₁ i₁).doc) (some (single s₁ i₁).doc) = _
  rw [plan_recorded (single s₁ i₁).readable s₂.readable (recorded_single.mpr ht) newestKey_single]
  simp only [single, Document.insert_insert_self]

/-- A second call of another day adds it. -/
theorem serial_unreadable_new (h : Unreadable db) (ht : dayText s₁.text ≠ dayText s₂.text) :
    serial (plan s₁.text i₁) (plan s₂.text i₂) db =
      some ((single s₁ i₁).doc.insert s₂.text i₂) := by
  rw [serial, plan_unreadable h]
  change plan s₂.text i₂ (some (single s₁ i₁).doc) (some (single s₁ i₁).doc) = _
  rw [plan_new (single s₁ i₁).readable s₂.readable (mt recorded_single.mp ht)]

theorem overlapped_unreadable (h : Unreadable db) :
    overlapped (plan s₁.text i₁) (plan s₂.text i₂) db = some (single s₂ i₂).doc := by
  rw [overlapped, plan_unreadable h]
  rfl

/-- In a document of two days neither is the only one. -/
theorem dayMap_single_ne (ht : dayText s₁.text ≠ dayText s₂.text) (s : Timestamp) (i : ℤ) :
    dayMap (single s i).doc ≠ dayMap ((single s₁ i₁).doc.insert s₂.text i₂) := by
  have hday : s₁.day ≠ s₂.day := fun h => ht (dayText_congr (by simp [h]))
  have hnew : ¬ Recorded (single s₁ i₁).doc s₂.text := mt recorded_single.mp ht
  intro h
  rw [dayMap_insert (single s₁ i₁).oneEntryPerDay s₂.keyDay_text
    (Or.inr fun j hj => ne_keyDay_of_not_recorded hnew hj), dayMap_single, dayMap_single] at h
  have hat₁ := congrFun h s₁.day
  have hat₂ := congrFun h s₂.day
  rw [Function.update_of_ne hday, Function.update_self] at hat₁
  rw [Function.update_self] at hat₂
  have heq₁ : s₁.day = s.day := by
    by_contra hne
    rw [Function.update_of_ne hne] at hat₁
    cases hat₁
  have heq₂ : s₂.day = s.day := by
    by_contra hne
    rw [Function.update_of_ne hne] at hat₂
    cases hat₂
  exact hday (heq₁.trans heq₂.symm)

/-- Two overlapping calls that create the document keep the second one only. -/
theorem asSerial_overlapped_unreadable (h : Unreadable db) :
    AsSerial db s₁ s₂ i₁ i₂ (overlapped (plan s₁.text i₁) (plan s₂.text i₂) db) ↔
      dayText s₁.text = dayText s₂.text ∧ (s₁.day = s₂.day ∨ i₁ = i₂) := by
  rw [asSerial_iff, overlapped_unreadable h, fields_some]
  by_cases ht : dayText s₁.text = dayText s₂.text
  · rw [serial_unreadable_same h ht, serial_unreadable_same h ht.symm, fields_some, fields_some,
      dayMap_single_eq_iff, dayMap_single_eq_iff]
    have hone := (single s₂ i₂).oneEntryPerDay
    grind
  · rw [serial_unreadable_new h ht, serial_unreadable_new h (Ne.symm ht), fields_some, fields_some]
    have hne : dayMap (single s₂ i₂).doc ≠ dayMap ((single s₁ i₁).doc.insert s₂.text i₂) :=
      dayMap_single_ne ht s₂ i₂
    have hne' : dayMap (single s₂ i₂).doc ≠ dayMap ((single s₂ i₂).doc.insert s₁.text i₁) :=
      dayMap_single_ne (Ne.symm ht) s₂ i₂
    simp [ht, hne, hne']

/-! ## Calls that find the document -/

/-- Writing to a stored key does not change what a call does next. -/
theorem plan_insert_of_mem {d : Document ℤ} {k s : String} {i v : ℤ} (hd : Readable d)
    (hs : (keyDay s).isSome) (hk : k ∈ d) (d' : Document ℤ) :
    plan s i (some (d.insert k v)) (some d') = plan s i (some d) (some d') := by
  have hd' := hd.insert (hd k hk) v
  by_cases hr : Recorded d s
  · obtain ⟨j, hj⟩ := exists_newestKey hk
    rw [plan_recorded hd hs hr hj, plan_recorded hd' hs ((recorded_insert_of_mem hk).mpr hr)
      ((newestKey_insert_of_mem hk v).trans hj)]
  · rw [plan_new hd hs hr, plan_new hd' hs (mt (recorded_insert_of_mem hk).mp hr)]

theorem dayMap_eq_none {d : Document ℤ} {day : CalendarDay}
    (h : ∀ k ∈ d, keyDay k ≠ some day) : dayMap d day = none := by
  rw [dayMap, List.find?_eq_none.mpr, Option.map_none]
  intro e he
  have hget := ExtTreeMap.mem_toList_iff_getElem?_eq_some.mp he
  simpa using h e.1 ((Document.mem_iff_exists d).mpr ⟨_, hget⟩)

/-- One call after the other is one of the two orders. -/
theorem asSerial_serial (d : DayRecord) (s₁ s₂ : Timestamp) (i₁ i₂ : ℤ) :
    AsSerial (some d.doc) s₁ s₂ i₁ i₂
      (serial (plan s₁.text i₁) (plan s₂.text i₂) (some d.doc)) := by
  rw [asSerial_iff]
  refine ⟨?_, Or.inl rfl⟩
  obtain ⟨d', hd'⟩ := plan_dayRecord d s₁ i₁
  obtain ⟨d'', hd''⟩ := plan_dayRecord d' s₂ i₂
  rw [serial, hd', hd'']
  exact d''.oneEntryPerDay

section
variable {d : DayRecord}

/-- The write of the first call does not change what the second one does. -/
theorem overlapped_recorded_first (hr : Recorded d.doc s₁.text) :
    overlapped (plan s₁.text i₁) (plan s₂.text i₂) (some d.doc) =
      serial (plan s₁.text i₁) (plan s₂.text i₂) (some d.doc) := by
  obtain ⟨j, hj, -⟩ := id hr
  obtain ⟨k, hk⟩ := exists_newestKey hj
  rw [overlapped, serial, plan_recorded d.readable s₁.readable hr hk,
    plan_insert_of_mem d.readable s₂.readable (mem_of_newestKey hk)]

/-- A new day is added whether the newest value is changed before or after. -/
theorem overlapped_recorded_second (hr : ¬ Recorded d.doc s₁.text)
    (hr' : Recorded d.doc s₂.text) :
    overlapped (plan s₁.text i₁) (plan s₂.text i₂) (some d.doc) =
      serial (plan s₂.text i₂) (plan s₁.text i₁) (some d.doc) := by
  obtain ⟨j, hj, -⟩ := id hr'
  obtain ⟨k, hk⟩ := exists_newestKey hj
  have hne : s₁.text ≠ k := fun h => not_mem_of_not_recorded hr (h ▸ mem_of_newestKey hk)
  simp only [overlapped, serial, plan_new d.readable s₁.readable hr,
    plan_recorded d.readable s₂.readable hr' hk,
    plan_insert_of_mem d.readable s₁.readable (mem_of_newestKey hk)]
  rw [Document.insert_comm d.doc hne]

/-- Two new days are added in either order. -/
theorem overlapped_new (hr : ¬ Recorded d.doc s₁.text) (hr' : ¬ Recorded d.doc s₂.text)
    (ht : dayText s₁.text ≠ dayText s₂.text) :
    overlapped (plan s₁.text i₁) (plan s₂.text i₂) (some d.doc) =
      serial (plan s₁.text i₁) (plan s₂.text i₂) (some d.doc) := by
  have hr'' : ¬ Recorded (d.doc.insert s₁.text i₁) s₂.text := by
    rw [recorded_insert]
    exact not_or.mpr ⟨ht, hr'⟩
  rw [overlapped, serial, plan_new d.readable s₁.readable hr, plan_new d.readable s₂.readable hr',
    plan_new (d.readable.insert s₁.readable i₁) s₂.readable hr'']

/-- The second of two calls that add the same day writes to the newest key. -/
theorem serial_same (hr : ¬ Recorded d.doc s₁.text) (ht : dayText s₁.text = dayText s₂.text)
    {k : String} (hk : newestKey (d.doc.insert s₁.text i₁) = some k) :
    serial (plan s₁.text i₁) (plan s₂.text i₂) (some d.doc) =
      some ((d.doc.insert s₁.text i₁).insert k i₂) := by
  rw [serial, plan_new d.readable s₁.readable hr,
    plan_recorded (d.readable.insert s₁.readable i₁) s₂.readable
      (recorded_insert.mpr (Or.inl ht)) hk]

/-- Both calls that add the same day add their own key. -/
theorem overlapped_same (hr : ¬ Recorded d.doc s₁.text) (hr' : ¬ Recorded d.doc s₂.text) :
    overlapped (plan s₁.text i₁) (plan s₂.text i₂) (some d.doc) =
      some ((d.doc.insert s₁.text i₁).insert s₂.text i₂) := by
  rw [overlapped, plan_new d.readable s₁.readable hr, plan_new d.readable s₂.readable hr']

/-- Each stored key newer than `s` that a second record of the day goes to has
the value already. -/
def NewerKeyHolds (d : Document ℤ) (s : String) (i : ℤ) : Prop :=
  ∀ k, newestKey d = some k → compareTo s k = .lt → d[k]? = some i

theorem oneEntryPerDay_insert_new (hr : ¬ Recorded d.doc s₁.text) (i : ℤ) :
    OneEntryPerDay (d.doc.insert s₁.text i) :=
  d.oneEntryPerDay.insert (Or.inr fun _ hj => ne_keyDay_of_not_recorded hr hj) i

theorem dayMap_insert_new (hr : ¬ Recorded d.doc s₁.text) (i : ℤ) :
    dayMap (d.doc.insert s₁.text i) = Function.update (dayMap d.doc) s₁.day (some i) :=
  dayMap_insert d.oneEntryPerDay s₁.keyDay_text
    (Or.inr fun _ hj => ne_keyDay_of_not_recorded hr hj) i

/-- The map after the same new key was written twice by overlapping calls, and
after the second of them has gone to a newer key. -/
theorem dayMap_serial_newer (hr : ¬ Recorded d.doc s₁.text) {k : String} {day : CalendarDay}
    (hk : newestKey d.doc = some k) (hlt : compareTo s₁.text k = .lt) (hday : keyDay k = some day)
    (i i' : ℤ) :
    dayMap (fields (serial (plan s₁.text i) (plan s₁.text i') (some d.doc))) =
      Function.update (Function.update (dayMap d.doc) s₁.day (some i)) day (some i') := by
  have hks : newestKey (d.doc.insert s₁.text i) = some k :=
    newestKey_insert_of_older hk (by rw [hlt]; rfl) i
  have hmem : k ∈ d.doc.insert s₁.text i :=
    (Document.mem_insert d.doc).mpr (Or.inr (mem_of_newestKey hk))
  rw [serial_same hr rfl hks, fields_some,
    dayMap_insert (oneEntryPerDay_insert_new hr i) hday (Or.inl hmem), dayMap_insert_new hr]

/-- Two calls that add the same key, older than the newest: the one that runs
second goes to the newest. -/
theorem asSerial_same_key_newer (hr : ¬ Recorded d.doc s₁.text) {k : String}
    (hk : newestKey d.doc = some k) (hlt : compareTo s₁.text k = .lt) :
    AsSerial (some d.doc) s₁ s₁ i₁ i₂ (some (d.doc.insert s₁.text i₂)) ↔
      d.doc[k]? = some i₁ := by
  have hmem := mem_of_newestKey hk
  obtain ⟨day, hday⟩ := Option.isSome_iff_exists.mp (d.readable k hmem)
  have hne : day ≠ s₁.day := fun h =>
    ne_keyDay_of_not_recorded hr hmem (by rw [hday, s₁.keyDay_text, h])
  have hat : dayMap d.doc day = some i₁ ↔ d.doc[k]? = some i₁ := by
    rw [dayMap_eq_some_iff d.oneEntryPerDay]
    refine ⟨?_, fun h => ⟨k, hday, h⟩⟩
    rintro ⟨j, hj, hji⟩
    rw [← d.oneEntryPerDay day j ((Document.mem_iff_exists _).mpr ⟨_, hji⟩) k hmem hj hday, hji]
  rw [← hat, asSerial_iff, fields_some, dayMap_insert_new hr,
    dayMap_serial_newer hr hk hlt hday, dayMap_serial_newer hr hk hlt hday]
  constructor
  · rintro ⟨-, h | h⟩
    · -- Both values are the same in this order.
      have hself := congrFun h s₁.day
      have hother := congrFun h day
      rw [Function.update_self, Function.update_of_ne hne.symm, Function.update_self] at hself
      rw [Function.update_of_ne hne, Function.update_self] at hother
      rw [hother, hself]
    · have hother := congrFun h day
      rwa [Function.update_of_ne hne, Function.update_self] at hother
  · intro h
    refine ⟨oneEntryPerDay_insert_new hr i₂, Or.inr ?_⟩
    rw [Function.update_comm hne.symm, ← h, Function.update_eq_self]

/-- Two calls that add the same key, which becomes the newest. -/
theorem asSerial_same_key_newest (hr : ¬ Recorded d.doc s₁.text)
    (hnew : ∀ k, newestKey d.doc = some k → compareTo s₁.text k ≠ .lt) :
    AsSerial (some d.doc) s₁ s₁ i₁ i₂ (some (d.doc.insert s₁.text i₂)) := by
  have hks : newestKey (d.doc.insert s₁.text i₁) = some s₁.text :=
    newestKey_insert_of_not_older hnew i₁
  have hserial : serial (plan s₁.text i₁) (plan s₁.text i₂) (some d.doc) =
      some (d.doc.insert s₁.text i₂) := by
    rw [serial_same hr rfl hks, Document.insert_insert_self]
  rw [asSerial_iff, hserial]
  exact ⟨oneEntryPerDay_insert_new hr i₂, Or.inl rfl⟩

/-- Two calls that add the same key. -/
theorem asSerial_overlapped_same_key (hr : ¬ Recorded d.doc s₁.text) :
    AsSerial (some d.doc) s₁ s₁ i₁ i₂
        (overlapped (plan s₁.text i₁) (plan s₁.text i₂) (some d.doc)) ↔
      NewerKeyHolds d.doc s₁.text i₁ := by
  rw [overlapped_same hr hr, Document.insert_insert_self]
  by_cases hnew : ∃ k, newestKey d.doc = some k ∧ compareTo s₁.text k = .lt
  · obtain ⟨k, hk, hlt⟩ := hnew
    rw [asSerial_same_key_newer hr hk hlt]
    simp [NewerKeyHolds, hk, hlt]
  · have hnot : ∀ k, newestKey d.doc = some k → compareTo s₁.text k ≠ .lt :=
      fun k hk hlt => hnew ⟨k, hk, hlt⟩
    simp only [asSerial_same_key_newest hr hnot, true_iff]
    intro k hk hlt
    exact absurd hlt (hnot k hk)

/-- Two calls that add different keys of one formatted day: both stay, though the
one that runs second would go to a key that is stored. -/
theorem not_asSerial_overlapped (hr : ¬ Recorded d.doc s₁.text)
    (ht : dayText s₁.text = dayText s₂.text) (hs : s₁.text ≠ s₂.text) :
    ¬ AsSerial (some d.doc) s₁ s₂ i₁ i₂
        (overlapped (plan s₁.text i₁) (plan s₂.text i₂) (some d.doc)) := by
  have hr' : ¬ Recorded d.doc s₂.text := by
    rintro ⟨k, hk, hkt⟩
    exact hr ⟨k, hk, hkt.trans ht.symm⟩
  rw [asSerial_iff, overlapped_same hr hr', fields_some]
  rintro ⟨hone, hmap⟩
  have hmem₂ : s₂.text ∈ (d.doc.insert s₁.text i₁).insert s₂.text i₂ :=
    (Document.mem_insert _).mpr (Or.inl rfl)
  have hmem₁ : s₁.text ∈ (d.doc.insert s₁.text i₁).insert s₂.text i₂ :=
    (Document.mem_insert _).mpr (Or.inr ((Document.mem_insert _).mpr (Or.inl rfl)))
  have hday : s₁.day ≠ s₂.day := fun h => hs (hone s₁.day _ hmem₁ _ hmem₂ (by simp) (by simp [h]))
  have hget₁ : dayMap ((d.doc.insert s₁.text i₁).insert s₂.text i₂) s₁.day = some i₁ := by
    rw [dayMap_eq_some_iff hone]
    exact ⟨s₁.text, by simp, by rw [Document.getElem?_insert_ne _ (Ne.symm hs)]; simp⟩
  have hget₂ : dayMap ((d.doc.insert s₁.text i₁).insert s₂.text i₂) s₂.day = some i₂ := by
    rw [dayMap_eq_some_iff hone]
    exact ⟨s₂.text, by simp, by simp⟩
  -- The day of the call that runs second is lost.
  have hlost : ∀ (s s' : Timestamp) (i i' : ℤ), ¬ Recorded d.doc s.text →
      dayText s.text = dayText s'.text → s.day ≠ s'.day →
      dayMap (fields (serial (plan s.text i) (plan s'.text i') (some d.doc))) s'.day = none := by
    intro s s' i i' hr ht hday
    have hnot : ∀ k ∈ d.doc.insert s.text i, keyDay k ≠ some s'.day := by
      intro k hk hkday
      rcases (Document.mem_insert _).mp hk with rfl | hk
      · rw [s.keyDay_text, Option.some.injEq] at hkday
        exact hday hkday
      · have htext : dayText k = dayText s'.text := dayText_congr (by simp [hkday])
        exact hr ⟨k, hk, htext.trans ht.symm⟩
    obtain ⟨k, hk⟩ := exists_newestKey (d := d.doc.insert s.text i) (k := s.text)
      ((Document.mem_insert _).mpr (Or.inl rfl))
    rw [serial_same hr ht hk, fields_some]
    apply dayMap_eq_none
    intro j hj
    rcases (Document.mem_insert _).mp hj with rfl | hj
    · exact hnot _ (mem_of_newestKey hk)
    · exact hnot _ hj
  rcases hmap with hmap | hmap
  · rw [hmap, hlost s₁ s₂ i₁ i₂ hr ht hday] at hget₂
    cases hget₂
  · rw [hmap, hlost s₂ s₁ i₂ i₁ hr' ht.symm hday.symm] at hget₁
    cases hget₁

/-- Two calls that read the document before either writes, unless both add the
same new day: then their keys have to be the same, too. -/
theorem asSerial_overlapped_iff :
    AsSerial (some d.doc) s₁ s₂ i₁ i₂
        (overlapped (plan s₁.text i₁) (plan s₂.text i₂) (some d.doc)) ↔
      Recorded d.doc s₁.text ∨ Recorded d.doc s₂.text ∨ dayText s₁.text ≠ dayText s₂.text ∨
        s₁.text = s₂.text ∧ NewerKeyHolds d.doc s₁.text i₁ := by
  by_cases hr : Recorded d.doc s₁.text
  · simp only [hr, true_or, iff_true, overlapped_recorded_first hr]
    exact asSerial_serial d s₁ s₂ i₁ i₂
  by_cases hr' : Recorded d.doc s₂.text
  · simp only [hr', true_or, or_true, iff_true, overlapped_recorded_second hr hr']
    exact AsSerial.swap.mp (asSerial_serial d s₂ s₁ i₂ i₁)
  by_cases ht : dayText s₁.text = dayText s₂.text
  · simp only [hr, hr', ht, ne_eq, not_true_eq_false, false_or]
    by_cases hs : s₁.text = s₂.text
    · obtain rfl : s₁ = s₂ := by
        cases s₁; cases s₂; cases hs; rfl
      rw [asSerial_overlapped_same_key hr]
      simp
    · simp only [hs, false_and, iff_false]
      exact not_asSerial_overlapped hr ht hs
  · simp only [ne_eq, ht, not_false_eq_true, true_or, or_true, iff_true,
      overlapped_new hr hr' ht]
    exact asSerial_serial d s₁ s₂ i₁ i₂

end

/-! ## Serialisability -/

/-- Every interleaving of the two calls ends as one after the other does. -/
def Serialisable (db : RecordDoc) (s₁ s₂ : Timestamp) (i₁ i₂ : ℤ) : Prop :=
  ∀ sched db', run requestOf ⟨db, .reading s₁.text i₁, .reading s₂.text i₂⟩ sched =
    some ⟨db', .returned, .returned⟩ → AsSerial db s₁ s₂ i₁ i₂ db'

/-- Either one of the calls replaces a value, or they add different days, or they
add the same key and no newer key stands in the way; when there is no document
to start from, both calls have to create the same. -/
def OverlapSafe (db : RecordDoc) (s₁ s₂ : Timestamp) (i₁ i₂ : ℤ) : Prop :=
  (∃ d, db = some d ∧ Readable d ∧ OneEntryPerDay d ∧
    (Recorded d s₁.text ∨ Recorded d s₂.text ∨ dayText s₁.text ≠ dayText s₂.text ∨
      s₁.text = s₂.text ∧ NewerKeyHolds d s₁.text i₁ ∧ NewerKeyHolds d s₁.text i₂)) ∨
  (Unreadable db ∧ dayText s₁.text = dayText s₂.text ∧ (s₁.day = s₂.day ∨ i₁ = i₂))

/-- Calls only add to a document whose keys can be parsed. -/
theorem subset_plan {d : Document ℤ} (hd : Readable d) (s : Timestamp) (i : ℤ) :
    ∃ d', plan s.text i (some d) (some d) = some d' ∧ Readable d' ∧ ∀ k ∈ d, k ∈ d' := by
  obtain ⟨k, hk, hcall⟩ := updateUser_insert hd s i
  rw [updateUser_eq_plan, Prod.mk.injEq] at hcall
  exact ⟨_, hcall.1, hd.insert hk i, fun j hj => (Document.mem_insert d).mpr (Or.inr hj)⟩

/-- Two entries of one day are not merged by any call. -/
theorem oneEntryPerDay_of_serial {d : Document ℤ} (hd : Readable d)
    (h : AsSerial (some d) s₁ s₂ i₁ i₂ (serial (plan s₁.text i₁) (plan s₂.text i₂) (some d))) :
    OneEntryPerDay d := by
  obtain ⟨d', hd', hread, hsub⟩ := subset_plan hd s₁ i₁
  obtain ⟨d'', hd'', -, hsub'⟩ := subset_plan hread s₂ i₂
  rw [serial, hd', hd''] at h
  intro day j hj k hk
  exact h.1 day j (hsub' j (hsub j hj)) k (hsub' k (hsub k hk))

theorem asSerial_serial_unreadable (h : Unreadable db) (s₁ s₂ : Timestamp) (i₁ i₂ : ℤ) :
    AsSerial db s₁ s₂ i₁ i₂ (serial (plan s₁.text i₁) (plan s₂.text i₂) db) := by
  rw [asSerial_iff]
  refine ⟨?_, Or.inl rfl⟩
  obtain ⟨d', hd'⟩ := plan_dayRecord (single s₁ i₁) s₂ i₂
  rw [serial, plan_unreadable h]
  exact hd' ▸ d'.oneEntryPerDay

/-- **When overlapping calls are serialisable.** -/
theorem serialisable_iff (db : RecordDoc) (s₁ s₂ : Timestamp) (i₁ i₂ : ℤ) :
    Serialisable db s₁ s₂ i₁ i₂ ↔ OverlapSafe db s₁ s₂ i₁ i₂ := by
  have hswap : ∀ db', AsSerial db s₁ s₂ i₁ i₂ db' ↔ AsSerial db s₂ s₁ i₂ i₁ db' :=
    fun _ => AsSerial.swap
  rw [Serialisable, forall_interleaving_iff, hswap (serial (plan s₂.text i₂) _ _),
    hswap (overlapped (plan s₂.text i₂) _ _)]
  by_cases hu : Unreadable db
  · have hnot : ¬ ∃ d, db = some d ∧ Readable d ∧ OneEntryPerDay d ∧
        (Recorded d s₁.text ∨ Recorded d s₂.text ∨ dayText s₁.text ≠ dayText s₂.text ∨
          s₁.text = s₂.text ∧ NewerKeyHolds d s₁.text i₁ ∧ NewerKeyHolds d s₁.text i₂) :=
      fun ⟨d, hdb, hd, _⟩ => hu d hdb hd
    rw [asSerial_overlapped_unreadable hu, asSerial_overlapped_unreadable hu, OverlapSafe,
      or_iff_right hnot]
    simp only [asSerial_serial_unreadable hu, true_and, hu]
    grind
  · obtain ⟨d, rfl, hd⟩ : ∃ d, db = some d ∧ Readable d := by
      simpa [Unreadable, Classical.not_forall] using hu
    by_cases hone : OneEntryPerDay d
    · have hover : ∀ (s₁ s₂ : Timestamp) (i₁ i₂ : ℤ), AsSerial (some d) s₁ s₂ i₁ i₂
          (overlapped (plan s₁.text i₁) (plan s₂.text i₂) (some d)) ↔
            Recorded d s₁.text ∨ Recorded d s₂.text ∨ dayText s₁.text ≠ dayText s₂.text ∨
              s₁.text = s₂.text ∧ NewerKeyHolds d s₁.text i₁ :=
        fun _ _ _ _ => asSerial_overlapped_iff (d := ⟨d, hd, hone⟩)
      have hserial := asSerial_serial ⟨d, hd, hone⟩
      simp only [hover, hserial, true_and, OverlapSafe, hu, false_and, or_false,
        Option.some.injEq, exists_eq_left', hd, hone]
      grind
    · constructor
      · intro h
        exact absurd (oneEntryPerDay_of_serial hd h.1.1) hone
      · rintro (⟨d', hdd', -, hone', -⟩ | ⟨hu', -⟩)
        · exact absurd (Option.some.inj hdd' ▸ hone') hone
        · exact absurd hu' hu

/-- Two devices record the first value of two days: one day is lost. -/
theorem not_serialisable :
    ¬ ∀ (db : RecordDoc) (s₁ s₂ : Timestamp) (i₁ i₂ : ℤ), Serialisable db s₁ s₂ i₁ i₂ := by
  intro h
  have hserial := h none ⟨"2024-03-01 23:59:59.000", by decide +kernel⟩
    ⟨"2024-03-02 00:00:01.000", by decide +kernel⟩ 100 110 [false, true, false, true] _ rfl
  have hdays := hserial.2
  rcases hdays with hdays | hdays
  · have hday := congrFun hdays ⟨2024, 3, 1⟩
    revert hday
    decide +kernel
  · have hday := congrFun hdays ⟨2024, 3, 1⟩
    revert hday
    decide +kernel

end Record
end FlutterSugar
