import FlutterSugar.Dart.DateFormat
import FlutterSugar.Firestore

/-!
# `FirebaseService.updateUser`

The record document maps the time of a measurement, as a text, to its value.
`updateUser(s, i)` reads it and then makes one of three writes.  If a key of the
day of `s` is stored, `i` is merged into the newest key; otherwise `i` is merged
under the key `s`; and whatever is thrown on the way, the catch clause replaces
the document by the single field `s`.

The function is given twice: `updateUser` runs it in one go under a pattern of
failures of its three requests, `Call.step` makes one request at a time, so that
calls can be interleaved.  `updateUser_eq_steps` says that these agree.

## Main definitions

* `chooseWrite` — the decision between the read and the merging write.
* `updateUser` — a whole call.
* `Call`, `Call.step` — a call between two of its requests.
* `updateUser_recorded`, `updateUser_new`, `updateUser_caught` — what a call does.
-/

namespace FlutterSugar
open Lib Std

/-- The record document of a user. -/
abbrev RecordDoc := Stored ℤ

namespace Record

/-- The fields of the record document, none if it does not exist. -/
def fields (db : RecordDoc) : Document ℤ := db.getD ∅

@[simp] theorem fields_some (d : Document ℤ) : fields (some d) = d := rfl

/-! ## Days of keys -/

/-- `DateFormat(pattern).format(DateTime.parse(e)).toString()`. -/
def formatDate (pattern e : String) : Except DartError String :=
  match DateTime.parse e with
  | none => .error .formatException
  | some t => .ok (DateFormat.format pattern t)

/-- The text by which two keys are compared. -/
def dayText (e : String) : Except DartError String := formatDate "yyyy年M月dd日" e

/-- The calendar day of a key, if the key is a timestamp. -/
def keyDay (k : String) : Option CalendarDay := (DateTime.parse k).map DateTime.calendarDay

/-- Every key of the document is a timestamp. -/
def Readable (d : Document ℤ) : Prop := ∀ k ∈ d, (keyDay k).isSome

/-- The first of the keys in descending order. -/
def newestKey (d : Document ℤ) : Option String :=
  (SplayTreeMap.from d fun a b => compareTo b a).keys.head?

/-- Some stored key is formatted to the same day as `s`. -/
def Recorded (d : Document ℤ) (s : String) : Prop := ∃ k ∈ d, dayText k = dayText s

/-! ## The function -/

/-- The `try` block after the read: the field that is merged into the document. -/
def chooseWrite (data : RecordDoc) (s : String) (i : ℤ) :
    Except DartError (List (String × ℤ)) := do
  let li ← match data with
    | none => .error .typeError
    | some li => .ok li
  let map := SplayTreeMap.from li fun a b => compareTo b a
  let list := map.keys
  let newList ← list.mapM dayText
  if newList.contains (← dayText s) then
    match list.head? with
    | none => .error .rangeError
    | some k => return [(k, i)]
  else return [(s, i)]

/-- Which of the requests of a call fail. -/
structure Failures where
  /-- The `get`. -/
  read : Bool
  /-- The `set` with `merge` in the `try` block. -/
  merge : Bool
  /-- The `set` in the `catch` clause. -/
  replace : Bool
  deriving DecidableEq, Repr

/-- No request fails. -/
def noFailures : Failures := ⟨false, false, false⟩

/-- `updateUser(s, i)`: the document afterwards, and whether the call returns. -/
def updateUser (f : Failures) (db : RecordDoc) (s : String) (i : ℤ) :
    RecordDoc × Except DartError Unit :=
  let attempt : Except DartError RecordDoc := do
    let data ← if f.read then .error .firebaseException else .ok db
    let fields ← chooseWrite data s i
    if f.merge then .error .firebaseException else .ok (Firestore.setMerge db fields)
  match attempt with
  | .ok db' => (db', .ok ())
  | .error _ =>
    if f.replace then (db, .error .firebaseException) else (Firestore.set [(s, i)], .ok ())

/-- A call of `updateUser`, by the request it makes next. -/
inductive Call
  | reading (s : String) (i : ℤ)
  | merging (s : String) (i : ℤ) (fields : List (String × ℤ))
  | replacing (s : String) (i : ℤ)
  | returned
  | threw
  deriving DecidableEq, Repr

/-- One request of a call, which may fail. -/
def Call.step (fails : Bool) (db : RecordDoc) : Call → RecordDoc × Call
  | .reading s i =>
    if fails then (db, .replacing s i)
    else match chooseWrite db s i with
      | .ok fields => (db, .merging s i fields)
      | .error _ => (db, .replacing s i)
  | .merging s i fields =>
    if fails then (db, .replacing s i) else (Firestore.setMerge db fields, .returned)
  | .replacing s i =>
    if fails then (db, .threw) else (Firestore.set [(s, i)], .returned)
  | .returned => (db, .returned)
  | .threw => (db, .threw)

/-- The next request of a call, which does not fail, unless the call has ended. -/
def Call.request (db : RecordDoc) (c : Call) : Option (RecordDoc × Call) :=
  if c = .returned ∨ c = .threw then none else some (c.step false db)

/-- Does the next request of a call fail? -/
def Call.fails (f : Failures) : Call → Bool
  | .reading _ _ => f.read
  | .merging _ _ _ => f.merge
  | .replacing _ _ => f.replace
  | .returned => false
  | .threw => false

/-- **A call runs as its requests do**, when nothing else writes in between. -/
theorem updateUser_eq_steps (f : Failures) (db : RecordDoc) (s : String) (i : ℤ) :
    (fun σ : RecordDoc × Call => Call.step (σ.2.fails f) σ.1 σ.2)^[3] (db, .reading s i) =
      ((updateUser f db s i).1,
        match (updateUser f db s i).2 with
        | .ok _ => .returned
        | .error _ => .threw) := by
  obtain ⟨read, merge, replace⟩ := f
  cases read <;> cases merge <;> cases replace <;> cases h : chooseWrite db s i <;>
    simp [updateUser, Call.step, Call.fails, h, bind, Except.bind]

/-! ## What a call does -/

theorem formatDate_congr {j k : String} (h : keyDay j = keyDay k) (pattern : String) :
    formatDate pattern j = formatDate pattern k := by
  unfold keyDay at h
  unfold formatDate
  cases hj : DateTime.parse j <;> cases hk : DateTime.parse k <;>
    simp only [hj, hk, Option.map_none, Option.map_some, Option.some.injEq, reduceCtorEq] at h ⊢
  exact congrArg _ (DateFormat.format_congr h _)

theorem dayText_congr {j k : String} (h : keyDay j = keyDay k) : dayText j = dayText k :=
  formatDate_congr h _

theorem formatDate_of_isSome {k : String} (h : (keyDay k).isSome) (pattern : String) :
    ∃ t, DateTime.parse k = some t ∧ formatDate pattern k = .ok (DateFormat.format pattern t) := by
  rw [keyDay] at h
  rw [formatDate]
  cases hk : DateTime.parse k with
  | none => rw [hk] at h; simp at h
  | some t => exact ⟨t, rfl, rfl⟩

theorem dayText_of_isSome {k : String} (h : (keyDay k).isSome) : ∃ x, dayText k = .ok x := by
  obtain ⟨t, -, ht⟩ := formatDate_of_isSome h "yyyy年M月dd日"
  exact ⟨_, ht⟩

theorem dayText_of_not_isSome {k : String} (h : ¬ (keyDay k).isSome) :
    dayText k = .error .formatException := by
  rw [keyDay] at h
  rw [dayText, formatDate]
  cases hk : DateTime.parse k with
  | none => rfl
  | some t => rw [hk] at h; simp at h

/-- The newest key is the greatest key. -/
theorem newestKey_eq_some_iff (d : Document ℤ) (k : String) :
    newestKey d = some k ↔ k ∈ d ∧ ∀ j ∈ d, (compareTo j k).isLE :=
  head?_keys_resort d k

theorem exists_newestKey {d : Document ℤ} {k : String} (hk : k ∈ d) :
    ∃ j, newestKey d = some j :=
  exists_head?_keys_resort d hk

theorem mem_of_newestKey {d : Document ℤ} {k : String} (h : newestKey d = some k) : k ∈ d :=
  ((newestKey_eq_some_iff d k).mp h).1

theorem newestKey_eq_none_iff {d : Document ℤ} : newestKey d = none ↔ ∀ k, k ∉ d := by
  constructor
  · intro h k hk
    obtain ⟨j, hj⟩ := exists_newestKey hk
    rw [h] at hj
    cases hj
  · intro h
    cases hk : newestKey d with
    | none => rfl
    | some k => exact absurd (mem_of_newestKey hk) (h k)

/-- A key that is not older than the stored ones becomes the newest. -/
theorem newestKey_insert_of_newest {d : Document ℤ} {k : String}
    (h : ∀ j ∈ d, (compareTo j k).isLE) (v : ℤ) : newestKey (d.insert k v) = some k := by
  rw [newestKey_eq_some_iff]
  refine ⟨ExtTreeMap.mem_insert_self, ?_⟩
  intro j hj
  rcases (Document.mem_insert d).mp hj with rfl | hj
  · exact ReflCmp.isLE_rfl
  · exact h j hj

/-- A key that is not older than the newest becomes the newest. -/
theorem newestKey_insert_of_not_older {d : Document ℤ} {s : String}
    (h : ∀ k, newestKey d = some k → compareTo s k ≠ .lt) (v : ℤ) :
    newestKey (d.insert s v) = some s := by
  apply newestKey_insert_of_newest
  intro j hj
  obtain ⟨k, hk⟩ := exists_newestKey hj
  have hks : (compareTo k s).isLE := by
    have hne := h k hk
    have hswap : compareTo k s = (compareTo s k).swap := OrientedCmp.eq_swap
    rw [hswap]
    cases hc : compareTo s k <;> simp_all
  exact TransCmp.isLE_trans (((newestKey_eq_some_iff d k).mp hk).2 j hj) hks

/-- A key that is not newer than the newest leaves that the newest. -/
theorem newestKey_insert_of_older {d : Document ℤ} {k j : String} (hj : newestKey d = some j)
    (h : (compareTo k j).isLE) (v : ℤ) : newestKey (d.insert k v) = some j := by
  obtain ⟨hmem, hle⟩ := (newestKey_eq_some_iff d j).mp hj
  rw [newestKey_eq_some_iff]
  refine ⟨(Document.mem_insert d).mpr (Or.inr hmem), ?_⟩
  intro l hl
  rcases (Document.mem_insert d).mp hl with rfl | hl
  · exact h
  · exact hle l hl

theorem newestKey_insert_of_mem {d : Document ℤ} {k : String} (hk : k ∈ d) (v : ℤ) :
    newestKey (d.insert k v) = newestKey d := by
  obtain ⟨j, hj⟩ := exists_newestKey hk
  rw [hj, newestKey_insert_of_older hj (((newestKey_eq_some_iff d j).mp hj).2 k hk)]

theorem recorded_insert {d : Document ℤ} {k s : String} {v : ℤ} :
    Recorded (d.insert k v) s ↔ dayText k = dayText s ∨ Recorded d s := by
  simp only [Recorded, Document.mem_insert]
  grind

theorem recorded_insert_of_mem {d : Document ℤ} {k s : String} {v : ℤ} (hk : k ∈ d) :
    Recorded (d.insert k v) s ↔ Recorded d s := by
  rw [recorded_insert, or_iff_right_of_imp fun h => ⟨k, hk, h⟩]

section
variable {d : Document ℤ} {s : String} {i : ℤ}

/-- The keys that are looked through are the keys of the document. -/
theorem mem_keys_from (d : Document ℤ) (k : String) :
    k ∈ (SplayTreeMap.from d fun a b => compareTo b a).keys ↔ k ∈ d := by
  rw [ExtTreeMap.mem_keys]
  exact mem_resort d k

theorem chooseWrite_none : chooseWrite none s i = .error .typeError := rfl

/-- A key or a date that cannot be parsed ends the `try` block. -/
theorem chooseWrite_unreadable (h : ¬ (Readable d ∧ (keyDay s).isSome)) :
    ∃ e, chooseWrite (some d) s i = .error e := by
  simp only [chooseWrite]
  by_cases hd : Readable d
  · have hs : ¬ (keyDay s).isSome := fun hs => h ⟨hd, hs⟩
    obtain ⟨ts, hts, -⟩ := mapM_ok (f := dayText)
      (l := (SplayTreeMap.from d fun a b => compareTo b a).keys)
      fun k hk => dayText_of_isSome (hd k ((mem_keys_from d k).mp hk))
    exact ⟨_, by simp only [hts, dayText_of_not_isSome hs, bind, Except.bind]; rfl⟩
  · rw [Readable] at hd
    push Not at hd
    obtain ⟨k, hk, hnot⟩ := hd
    obtain ⟨e, he⟩ := mapM_error (f := dayText)
      (l := (SplayTreeMap.from d fun a b => compareTo b a).keys)
      ⟨k, (mem_keys_from d k).mpr hk, _, dayText_of_not_isSome hnot⟩
    exact ⟨e, by simp only [he, bind, Except.bind]⟩

/-- On readable keys the membership test decides between the two merging
writes. -/
theorem chooseWrite_readable (hd : Readable d) (hs : (keyDay s).isSome) :
    ∃ b : Bool, (b = true ↔ Recorded d s) ∧ chooseWrite (some d) s i =
      if b then (match newestKey d with
        | none => .error .rangeError
        | some k => .ok [(k, i)])
      else .ok [(s, i)] := by
  obtain ⟨ts, hts, hmem⟩ := mapM_ok (f := dayText)
    (l := (SplayTreeMap.from d fun a b => compareTo b a).keys)
    fun k hk => dayText_of_isSome (hd k ((mem_keys_from d k).mp hk))
  obtain ⟨x, hx⟩ := dayText_of_isSome hs
  refine ⟨ts.contains x, ?_, ?_⟩
  · rw [List.contains_iff_mem, hmem, Recorded, hx]
    simp only [mem_keys_from]
  · simp only [chooseWrite, hts, hx, bind, Except.bind]
    rfl

theorem chooseWrite_recorded (hd : Readable d) (hs : (keyDay s).isSome) (hr : Recorded d s)
    {k : String} (hk : newestKey d = some k) : chooseWrite (some d) s i = .ok [(k, i)] := by
  obtain ⟨b, hb, h⟩ := chooseWrite_readable (i := i) hd hs
  rw [h, hb.mpr hr, hk]
  rfl

theorem chooseWrite_new (hd : Readable d) (hs : (keyDay s).isSome) (hr : ¬ Recorded d s) :
    chooseWrite (some d) s i = .ok [(s, i)] := by
  obtain ⟨b, hb, h⟩ := chooseWrite_readable (i := i) hd hs
  have hfalse : b = false := by
    cases b
    · rfl
    · exact absurd (hb.mp rfl) hr
  rw [h, hfalse]
  rfl

/-- The `try` block of a call gets through: the document exists, all dates are
timestamps and no request fails. -/
def Attempts (f : Failures) (d : Document ℤ) (s : String) : Prop :=
  f.read = false ∧ f.merge = false ∧ Readable d ∧ (keyDay s).isSome

theorem updateUser_recorded {f : Failures} (h : Attempts f d s) (hr : Recorded d s) {k : String}
    (hk : newestKey d = some k) : updateUser f (some d) s i = (some (d.insert k i), .ok ()) := by
  obtain ⟨hread, hmerge, hd, hs⟩ := h
  simp [updateUser, hread, hmerge, chooseWrite_recorded hd hs hr hk, bind, Except.bind]

theorem updateUser_new {f : Failures} (h : Attempts f d s) (hr : ¬ Recorded d s) :
    updateUser f (some d) s i = (some (d.insert s i), .ok ()) := by
  obtain ⟨hread, hmerge, hd, hs⟩ := h
  simp [updateUser, hread, hmerge, chooseWrite_new hd hs hr, bind, Except.bind]

/-- Whatever goes wrong in the `try` block, the same replacing write follows. -/
theorem updateUser_caught {f : Failures} (h : ¬ Attempts f d s) :
    updateUser f (some d) s i = if f.replace then (some d, .error .firebaseException)
      else (some ((∅ : Document ℤ).insert s i), .ok ()) := by
  obtain ⟨read, merge, replace⟩ := f
  cases read with
  | true => cases replace <;> simp [updateUser, bind, Except.bind]
  | false =>
    by_cases hd : Readable d ∧ (keyDay s).isSome
    · cases merge with
      | true =>
        cases hw : chooseWrite (some d) s i <;> cases replace <;>
          simp [updateUser, hw, bind, Except.bind]
      | false => exact absurd ⟨rfl, rfl, hd⟩ h
    · obtain ⟨e, he⟩ := chooseWrite_unreadable (i := i) hd
      cases replace <;> simp [updateUser, he, bind, Except.bind]

/-- A document that does not exist is created with the one field. -/
theorem updateUser_none (f : Failures) :
    updateUser f none s i = if f.replace then (none, .error .firebaseException)
      else (some ((∅ : Document ℤ).insert s i), .ok ()) := by
  obtain ⟨read, merge, replace⟩ := f
  cases read <;> cases replace <;> simp [updateUser, chooseWrite_none, bind, Except.bind]

end

end Record
end FlutterSugar
