import FlutterSugar.Record.UpdateUser
import Mathlib.Logic.Function.Basic

/-!
# The record as a map from days to values

What the record document is for: a value for each calendar day on which one was
measured.  `dayMap` reads it that way, and a call of `updateUser` is meant to set
the value of one day.

It does so unless a key of that day is stored without being the newest: the
membership test looks through all keys, and the write goes to the first of them.

## Main definitions

* `Timestamp`, `DayRecord` — dates that can be parsed, and documents of such
  dates with one entry of a day.
* `dayMap` — the abstract map of a document.
* `RecordsDay` — the value of one day is set and nothing else is changed.
* `dayMap_of_recordsDay` — this is an update of the abstract map.
* `updateUser_recordsDay_iff` — when a call does this.
-/

namespace FlutterSugar
namespace Record
open Lib Std

/-! ## Days of a document -/

/-- A text that `DateTime.parse` accepts, as `DateTime.now().toString()` is. -/
structure Timestamp where
  text : String
  readable : (keyDay text).isSome

/-- The day of a timestamp. -/
def Timestamp.day (s : Timestamp) : CalendarDay := (keyDay s.text).get s.readable

@[simp] theorem Timestamp.keyDay_text (s : Timestamp) : keyDay s.text = some s.day :=
  (Option.some_get s.readable).symm

/-- The timestamp that is stored for a time on the clock. -/
def Timestamp.now (t : WallClock) : Timestamp where
  text := t.key
  readable := by simp [keyDay, t.parse_key]

/-- No two keys lie on one day. -/
def OneEntryPerDay (d : Document ℤ) : Prop :=
  ∀ day, ∀ j ∈ d, ∀ k ∈ d, keyDay j = some day → keyDay k = some day → j = k

/-- A document whose keys are timestamps of different days. -/
structure DayRecord where
  doc : Document ℤ
  readable : Readable doc
  oneEntryPerDay : OneEntryPerDay doc

/-- The value of a day. -/
def dayMap (d : Document ℤ) (day : CalendarDay) : Option ℤ :=
  (d.toList.find? fun e => keyDay e.1 = some day).map Prod.snd

section
variable {d : Document ℤ} {k : String} {i : ℤ} {day : CalendarDay}

theorem dayMap_eq_some_iff (h : OneEntryPerDay d) (v : ℤ) :
    dayMap d day = some v ↔ ∃ k, keyDay k = some day ∧ d[k]? = some v := by
  simp only [← ExtTreeMap.mem_toList_iff_getElem?_eq_some]
  constructor
  · intro hv
    obtain ⟨e, he, rfl⟩ := Option.map_eq_some_iff.mp hv
    exact ⟨e.1, by simpa using List.find?_some he, List.mem_of_find?_eq_some he⟩
  · rintro ⟨k, hk, hmem⟩
    have hfound : (d.toList.find? fun e => keyDay e.1 = some day).isSome :=
      List.find?_isSome.mpr ⟨(k, v), hmem, by simpa using hk⟩
    obtain ⟨e, he⟩ := Option.isSome_iff_exists.mp hfound
    have hday : keyDay e.1 = some day := by simpa using List.find?_some he
    -- Both entries are of the day, hence the same.
    have hget := ExtTreeMap.mem_toList_iff_getElem?_eq_some.mp (List.mem_of_find?_eq_some he)
    have hgetk := ExtTreeMap.mem_toList_iff_getElem?_eq_some.mp hmem
    have hkey : e.1 = k := h day e.1 ((Document.mem_iff_exists d).mpr ⟨_, hget⟩) k
      ((Document.mem_iff_exists d).mpr ⟨_, hgetk⟩) hday hk
    rw [hkey, hgetk] at hget
    simp [dayMap, he, Option.some.inj hget]

/-- A key of a day that is not stored, or a stored key, can be written. -/
theorem OneEntryPerDay.insert (h : OneEntryPerDay d)
    (hk : k ∈ d ∨ ∀ j ∈ d, keyDay j ≠ keyDay k) (v : ℤ) : OneEntryPerDay (d.insert k v) := by
  intro day j hj l hl hjday hlday
  rcases (Document.mem_insert d).mp hj with rfl | hjd <;>
    rcases (Document.mem_insert d).mp hl with rfl | hld
  · rfl
  · rcases hk with hk | hk
    · exact h day j hk l hld hjday hlday
    · exact absurd (hlday.trans hjday.symm) (hk l hld)
  · rcases hk with hk | hk
    · exact h day j hjd l hk hjday hlday
    · exact absurd (hjday.trans hlday.symm) (hk j hjd)
  · exact h day j hjd l hld hjday hlday

theorem Readable.insert (h : Readable d) (hk : (keyDay k).isSome) (v : ℤ) :
    Readable (d.insert k v) := by
  intro j hj
  rcases (Document.mem_insert d).mp hj with rfl | hj
  · exact hk
  · exact h j hj

theorem readable_empty : Readable ∅ := fun _ hk => absurd hk (by simp)

theorem oneEntryPerDay_empty : OneEntryPerDay ∅ := fun _ _ hj => absurd hj (by simp)

end

/-! ## One record -/

/-- The document `d'` is `d` with the value of the day of `s` set to `i`. -/
structure RecordsDay (d d' : Document ℤ) (s : String) (i : ℤ) : Prop where
  oneEntryPerDay : OneEntryPerDay d'
  of_day : ∃ k, keyDay k = keyDay s ∧ d'[k]? = some i
  of_other_day : ∀ k, keyDay k ≠ keyDay s → d'[k]? = d[k]?

/-- **Setting the value of a day is an update of the abstract map.** -/
theorem dayMap_of_recordsDay {d d' : Document ℤ} {s : Timestamp} {i : ℤ} (hd : OneEntryPerDay d)
    (h : RecordsDay d d' s.text i) : dayMap d' = Function.update (dayMap d) s.day (some i) := by
  ext day v : 2
  rw [dayMap_eq_some_iff h.oneEntryPerDay]
  obtain ⟨k, hk, hki⟩ := h.of_day
  rw [s.keyDay_text] at hk
  by_cases hday : day = s.day
  · subst hday
    rw [Function.update_self, Option.some.injEq]
    constructor
    · rintro ⟨j, hj, hjv⟩
      have hjk : j = k := h.oneEntryPerDay _ j ((Document.mem_iff_exists d').mpr ⟨_, hjv⟩) k
        ((Document.mem_iff_exists d').mpr ⟨_, hki⟩) hj hk
      rw [hjk, hki] at hjv
      exact Option.some.inj hjv
    · rintro rfl
      exact ⟨k, hk, hki⟩
  · rw [Function.update_of_ne hday, dayMap_eq_some_iff hd]
    refine exists_congr fun j => and_congr_right fun hj => ?_
    rw [h.of_other_day j]
    rw [hj, s.keyDay_text]
    simpa using hday

variable {d : Document ℤ} {s : String} {i : ℤ}

/-- Writing to a key of the day of `s` sets the value of the day, if no other key
of that day is stored. -/
theorem recordsDay_insert (hd : OneEntryPerDay d) {k : String} (hday : keyDay k = keyDay s)
    (hk : k ∈ d ∨ ∀ j ∈ d, keyDay j ≠ keyDay k) : RecordsDay d (d.insert k i) s i where
  oneEntryPerDay := hd.insert hk i
  of_day := ⟨k, hday, by simp⟩
  of_other_day j hj := Document.getElem?_insert_ne d (fun h => hj (by rw [← h, hday])) i

/-- If no key is formatted to the day of `s`, none lies on it. -/
theorem ne_keyDay_of_not_recorded (h : ¬ Recorded d s) {j : String} (hj : j ∈ d) :
    keyDay j ≠ keyDay s :=
  fun hday => h ⟨j, hj, dayText_congr hday⟩

theorem not_mem_of_not_recorded (h : ¬ Recorded d s) : s ∉ d := fun hs => h ⟨s, hs, rfl⟩

/-- The newest key is the one that the day of `s` needs to be written, or nothing
has to be written. -/
def WritesDay (d : Document ℤ) (s : String) (i : ℤ) : Prop :=
  ¬ Recorded d s ∨ ∃ k, newestKey d = some k ∧
    (keyDay k = keyDay s ∨ d[k]? = some i ∧ ∃ j, keyDay j = keyDay s ∧ d[j]? = some i)

/-- **When a call sets the value of its day.**  A day that is stored has to be
the newest one, or to have the value already along with the newest one. -/
theorem updateUser_recordsDay_iff (d : DayRecord) (s : Timestamp) (i : ℤ) :
    (∃ d', updateUser noFailures (some d.doc) s.text i = (some d', .ok ()) ∧
      RecordsDay d.doc d' s.text i) ↔ WritesDay d.doc s.text i := by
  have hattempts : Attempts noFailures d.doc s.text := ⟨rfl, rfl, d.readable, s.readable⟩
  by_cases hr : Recorded d.doc s.text
  · obtain ⟨j, hj, -⟩ := id hr
    obtain ⟨k, hk⟩ := exists_newestKey hj
    simp only [updateUser_recorded hattempts hr hk, Prod.mk.injEq, Option.some.injEq, and_true,
      exists_eq_left', WritesDay, hr, not_true_eq_false, false_or, hk]
    constructor
    · intro h
      by_cases hday : keyDay k = keyDay s.text
      · exact Or.inl hday
      · have hki : d.doc[k]? = some i := by
          rw [← h.of_other_day k hday, Document.getElem?_insert, if_pos rfl]
        obtain ⟨j, hj, hji⟩ := h.of_day
        rw [Document.insert_eq_self d.doc hki] at hji
        exact Or.inr ⟨hki, j, hj, hji⟩
    · rintro (hday | ⟨hki, j, hj, hji⟩)
      · exact recordsDay_insert d.oneEntryPerDay hday (Or.inl (mem_of_newestKey hk))
      · rw [Document.insert_eq_self d.doc hki]
        exact ⟨d.oneEntryPerDay, ⟨j, hj, hji⟩, fun _ _ => rfl⟩
  · simp only [updateUser_new hattempts hr, Prod.mk.injEq, Option.some.injEq, and_true,
      exists_eq_left', WritesDay, hr, not_false_eq_true, true_or, iff_true]
    exact recordsDay_insert d.oneEntryPerDay rfl
      (Or.inr fun j hj => ne_keyDay_of_not_recorded hr hj)

/-! ## Calls that succeed -/

/-- The document after calls that succeed, one after the other. -/
def recordAll (db : RecordDoc) (calls : List (Timestamp × ℤ)) : RecordDoc :=
  calls.foldl (fun db call => (updateUser noFailures db call.1.text call.2).1) db

theorem recordAll_cons (db : RecordDoc) (call : Timestamp × ℤ) (calls : List (Timestamp × ℤ)) :
    recordAll db (call :: calls) =
      recordAll (updateUser noFailures db call.1.text call.2).1 calls := rfl

/-- A call sets one field of a document whose keys can be parsed. -/
theorem updateUser_insert {d : Document ℤ} (hd : Readable d) (s : Timestamp) (i : ℤ) :
    ∃ k, (keyDay k).isSome ∧
      updateUser noFailures (some d) s.text i = (some (d.insert k i), .ok ()) := by
  have hattempts : Attempts noFailures d s.text := ⟨rfl, rfl, hd, s.readable⟩
  by_cases hr : Recorded d s.text
  · obtain ⟨j, hj, -⟩ := id hr
    obtain ⟨k, hk⟩ := exists_newestKey hj
    exact ⟨k, hd k (mem_of_newestKey hk), updateUser_recorded hattempts hr hk⟩
  · exact ⟨s.text, s.readable, updateUser_new hattempts hr⟩

/-- A document does not get shorter, and its keys can still be parsed. -/
theorem recordAll_readable {d : Document ℤ} (hd : Readable d) (calls : List (Timestamp × ℤ)) :
    ∃ d', recordAll (some d) calls = some d' ∧ Readable d' ∧ d.size ≤ d'.size := by
  induction calls generalizing d with
  | nil => exact ⟨d, rfl, hd, Nat.le_refl _⟩
  | cons call calls ih =>
    obtain ⟨k, hk, hcall⟩ := updateUser_insert hd call.1 call.2
    obtain ⟨d', hd', hread, hsize⟩ := ih (hd.insert hk call.2)
    refine ⟨d', ?_, hread, Nat.le_trans ExtTreeMap.size_le_size_insert hsize⟩
    rw [recordAll_cons, hcall, hd']

/-- A document that exists is never deleted. -/
theorem exists_recordAll (d : Document ℤ) (calls : List (Timestamp × ℤ)) :
    ∃ d', recordAll (some d) calls = some d' := by
  induction calls generalizing d with
  | nil => exact ⟨d, rfl⟩
  | cons call calls ih =>
    rw [recordAll_cons]
    by_cases hd : Readable d
    · obtain ⟨k, -, hcall⟩ := updateUser_insert hd call.1 call.2
      rw [hcall]
      exact ih _
    · rw [updateUser_caught fun h => hd h.2.2.1]
      exact ih _

/-- Two days of measurements. -/
def twoDays : Document ℤ :=
  .ofList [("2024-03-01 08:00:00.000", 100), ("2024-03-02 08:00:00.000", 110)] compareTo

theorem mem_twoDays {k : String} (h : k ∈ twoDays) :
    k = "2024-03-01 08:00:00.000" ∨ k = "2024-03-02 08:00:00.000" := by
  have hkeys : k ∈ twoDays.keys := ExtTreeMap.mem_keys.mpr h
  rw [show twoDays.keys = ["2024-03-01 08:00:00.000", "2024-03-02 08:00:00.000"] by decide] at hkeys
  simpa using hkeys

/-- On the evening of the 1st of March a value is recorded that has to replace
the one of the morning; it replaces the one of the 2nd. -/
theorem updateUser_not_recordsDay :
    ¬ ∀ (d : DayRecord) (s : Timestamp) (i : ℤ),
      ∃ d', updateUser noFailures (some d.doc) s.text i = (some d', .ok ()) ∧
        RecordsDay d.doc d' s.text i := by
  intro h
  have hreadable : Readable twoDays := by
    intro k hk
    rcases mem_twoDays hk with rfl | rfl <;> decide
  have hone : OneEntryPerDay twoDays := by
    intro day j hj k hk hjd hkd
    rcases mem_twoDays hj with rfl | rfl <;> rcases mem_twoDays hk with rfl | rfl
    · rfl
    · exact absurd (hjd.trans hkd.symm) (by decide +kernel)
    · exact absurd (hjd.trans hkd.symm) (by decide +kernel)
    · rfl
  obtain ⟨d', hd', hrec⟩ := h ⟨twoDays, hreadable, hone⟩ ⟨"2024-03-01 20:00:00.000", by decide⟩ 150
  have hchanged : ((updateUser noFailures (some twoDays) "2024-03-01 20:00:00.000" 150).1.bind
      fun d => d["2024-03-02 08:00:00.000"]?) = some 150 := by decide +kernel
  have hkept := hrec.of_other_day "2024-03-02 08:00:00.000" (by decide +kernel)
  have hold : twoDays["2024-03-02 08:00:00.000"]? = some 110 := by decide
  rw [hd', Option.bind_some, hkept, hold] at hchanged
  exact absurd hchanged (by decide)

end Record
end FlutterSugar
