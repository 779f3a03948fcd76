import FlutterSugar.Lib.Run
import FlutterSugar.Record.Chart

/-!
# A call and the views that are opened after it

The confirm button of `Push3` starts `updateUser` without awaiting it and pushes
a new home screen.  There each view first reads whether the document exists; then
the chart and the badge read it once, and the history list listens to it.  All of
these requests race with the two of the call.

The history list ends up with the last version of the document.  The chart and
the badge keep the version they have read, which is the old one if they were
faster than the write.

## Main definitions

* `Screen`, `Screen.step` — the call and the views, and their next requests.
* `Agree` — all views show the newest value of the document.
* `StepOk` — a view does not read too early.
* `settled_agree_iff` — views that have settled agree exactly if none did.
-/

namespace FlutterSugar
namespace Record
open Lib Std

/-! ## The screen -/

/-- The chart or the badge. -/
inductive View
  /-- Its `recordCheck` is about to read. -/
  | checking
  /-- Its `get` is about to read. -/
  | reading
  | shown (data : RecordDoc)
  /-- `recordCheck` returned `false`. -/
  | absent

/-- The history list. -/
inductive Subscription
  | checking
  | waiting
  /-- The last snapshot that was delivered. -/
  | showing (data : RecordDoc)
  | absent

/-- The document, the call, and the views of the new home screen. -/
structure Screen where
  db : RecordDoc
  call : Call
  chart : View
  badge : View
  history : Subscription

/-- Whose request is answered next. -/
inductive Part
  | call
  | chart
  | badge
  | history
  deriving DecidableEq, Repr

def View.step (db : RecordDoc) : View → Option View
  | .checking => some (if db.isSome then .reading else .absent)
  | .reading => some (.shown db)
  | .shown _ => none
  | .absent => none

def Subscription.step (db : RecordDoc) : Subscription → Option Subscription
  | .checking => some (if db.isSome then .waiting else .absent)
  | .waiting => some (.showing db)
  | .showing _ => some (.showing db)
  | .absent => none

/-- One request is answered, none of them failing. -/
def Screen.step (x : Screen) : Part → Option Screen
  | .call => (x.call.request x.db).map fun r => { x with db := r.1, call := r.2 }
  | .chart => (x.chart.step x.db).map fun v => { x with chart := v }
  | .badge => (x.badge.step x.db).map fun v => { x with badge := v }
  | .history => (x.history.step x.db).map fun v => { x with history := v }

/-- The button has just been pressed. -/
def Screen.init (db : RecordDoc) (s : Timestamp) (i : ℤ) : Screen where
  db := db
  call := .reading s.text i
  chart := .checking
  badge := .checking
  history := .checking

/-! ## What is shown -/

/-- The newest point of the chart. -/
def View.chartValue : View → Option ℤ
  | .shown (some d) =>
    match spots d with
    | .ok points => points.getLast?.map FlSpot.y
    | .error _ => none
  | _ => none

/-- The text of the badge. -/
def View.badgeText : View → Option String
  | .shown (some d) =>
    match badge d with
    | .ok text => some text
    | .error _ => none
  | .absent => some "0"
  | _ => none

/-- The value of the first history row. -/
def Subscription.firstTitle : Subscription → Option String
  | .showing (some d) =>
    match (historyList 8 d).head? with
    | some (.ok (.record _ title)) => some title
    | _ => none
  | _ => none

/-- The value of the newest key. -/
def newestValue (db : RecordDoc) : Option ℤ :=
  (newestKey (fields db)).bind fun k => (fields db)[k]?

def View.Settled : View → Prop
  | .shown _ => True
  | .absent => True
  | _ => False

/-- All requests are answered and the last snapshot is delivered. -/
structure Screen.Settled (x : Screen) : Prop where
  call : x.call = .returned
  chart : x.chart.Settled
  badge : x.badge.Settled
  history : x.history = .showing x.db ∨ x.history = .absent

/-- All views show the newest value of the document. -/
def Screen.Agree (x : Screen) : Prop :=
  ∃ v, newestValue x.db = some v ∧ x.chart.chartValue = some v ∧
    x.badge.badgeText = some (toString v) ∧ x.history.firstTitle = some (toString v)

/-! ## When it is too early to read -/

/-- The value that the call is about to write leaves the newest value as it is:
it is the same one, or it goes to a new key that is older. -/
def KeepsNewest (db : RecordDoc) (s : String) (i : ℤ) : Prop :=
  ∃ d k, db = some d ∧ newestKey d = some k ∧
    (d[k]? = some i ∨ Readable d ∧ ¬ Recorded d s ∧ compareTo s k = .lt)

/-- A view does not read too early.  Its `recordCheck` finds the document, or
`absentOk` holds; and its `get` waits for the call, or the call does not matter. -/
def ViewOk (absentOk : Prop) (s : String) (i : ℤ) (x : Screen) : View → Prop
  | .checking => x.db.isSome ∨ absentOk
  | .reading => x.call = .returned ∨ KeepsNewest x.db s i
  | _ => True

/-- No view reads too early.  A badge that finds no document shows `0`, which may
happen to be the value. -/
def StepOk (s : Timestamp) (i : ℤ) (x : Screen) : Part → Prop
  | .call => True
  | .chart => ViewOk False s.text i x x.chart
  | .badge => ViewOk (i = 0) s.text i x x.badge
  | .history => x.history = .checking → x.db.isSome

/-! ## The newest value -/

section
variable {d : Document ℤ}

theorem newestFirst_zero (d : Document ℤ) :
    (newestFirst d)[0]?.map Prod.snd = newestValue (some d) := by
  rw [newestValue, fields_some]
  cases hk : newestKey d with
  | none =>
    have hempty : newestFirst d = [] := by
      apply List.eq_nil_iff_forall_not_mem.mpr
      intro e he
      exact newestKey_eq_none_iff.mp hk e.1
        ((Document.mem_iff_exists d).mpr ⟨e.2, mem_newestFirst.mp he⟩)
    simp [hempty]
  | some k =>
    obtain ⟨v, hv⟩ := (Document.mem_iff_exists d).mp (mem_of_newestKey hk)
    rw [head?_newestFirst hk hv, Option.bind_some, hv]
    rfl

/-- The newest point of a chart is the newest value of what it has read. -/
theorem chartValue_shown (data : RecordDoc) :
    (View.shown data).chartValue = newestValue data := by
  cases data with
  | none => simp [View.chartValue, newestValue, fields, newestKey_eq_none_iff.mpr]
  | some d =>
    have hlast : (plotted d).getLast? = (newestFirst d)[0]? := by
      rw [plotted, List.getLast?_reverse, List.head?_eq_getElem?,
        List.getElem?_take_of_lt (by omega)]
    rw [View.chartValue, spots_eq]
    change ((flget ((plotted d).map Prod.snd)).getLast?).map FlSpot.y = _
    rw [getLast?_flget, List.getLast?_map, hlast, newestFirst_zero]

/-- So is the text of a badge. -/
theorem badgeText_shown (data : RecordDoc) (v : ℤ) :
    (View.shown data).badgeText = some (toString v) ↔ newestValue data = some v := by
  cases data with
  | none => simp [View.badgeText, newestValue, fields, newestKey_eq_none_iff.mpr]
  | some d =>
    rw [View.badgeText, badge_eq, newestFirst_zero]
    change some (nullableToString (newestValue (some d))) = _ ↔ _
    rw [Option.some.injEq, nullableToString_eq_iff]

/-- The first row shows the newest value, if its date can be parsed. -/
theorem firstTitle_showing {v : ℤ} (hd : Readable d) (hv : newestValue (some d) = some v) :
    (Subscription.showing (some d)).firstTitle = some (toString v) := by
  rw [← newestFirst_zero, Option.map_eq_some_iff] at hv
  obtain ⟨e, he, rfl⟩ := hv
  obtain ⟨leading, hrow⟩ := history_shows_value hd 0 (by omega) he
  rw [← List.head?_eq_getElem?] at hrow
  rw [Subscription.firstTitle, show 8 = 8 + 8 * 0 from rfl, hrow]

theorem newestValue_of_newestKey {k : String} (hk : newestKey d = some k) :
    newestValue (some d) = d[k]? := by
  rw [newestValue, fields_some, hk]
  rfl

theorem exists_newestValue {k : String} (hk : k ∈ d) : ∃ v, newestValue (some d) = some v := by
  obtain ⟨j, hj⟩ := exists_newestKey hk
  rw [newestValue_of_newestKey hj]
  exact (Document.mem_iff_exists d).mp (mem_of_newestKey hj)

end

/-! ## What the call makes of the document -/

/-- The document after the call. -/
def after (db : RecordDoc) (s : Timestamp) (i : ℤ) : RecordDoc :=
  (updateUser noFailures db s.text i).1

section
variable {db : RecordDoc} {s : Timestamp} {i : ℤ}

theorem after_unreadable (h : ∀ d, db = some d → ¬ Readable d) :
    after db s i = some ((∅ : Document ℤ).insert s.text i) := by
  cases db with
  | none =>
    rw [after, updateUser_none]
    rfl
  | some d =>
    rw [after, updateUser_caught fun ha => h d rfl ha.2.2.1]
    rfl

theorem newestValue_single :
    newestValue (some ((∅ : Document ℤ).insert s.text i)) = some i := by
  have hk : newestKey ((∅ : Document ℤ).insert s.text i) = some s.text :=
    newestKey_insert_of_newest (fun j hj => absurd hj (by simp)) i
  rw [newestValue_of_newestKey hk]
  simp

/-- After the call the document exists, its dates can be parsed, and it has an
entry. -/
theorem exists_after (db : RecordDoc) (s : Timestamp) (i : ℤ) :
    ∃ d v, after db s i = some d ∧ Readable d ∧ newestValue (some d) = some v := by
  by_cases h : ∀ d, db = some d → ¬ Readable d
  · exact ⟨_, i, after_unreadable h, readable_empty.insert s.readable i, newestValue_single⟩
  · obtain ⟨d, rfl, hd⟩ : ∃ d, db = some d ∧ Readable d := by
      simpa [Classical.not_forall] using h
    obtain ⟨k, hk, hcall⟩ := updateUser_insert hd s i
    obtain ⟨v, hv⟩ := exists_newestValue (d := d.insert k i) (k := k) ExtTreeMap.mem_insert_self
    exact ⟨d.insert k i, v, by rw [after, hcall], hd.insert hk i, hv⟩

/-- A new key that is not older than the stored ones has the newest value. -/
theorem newestValue_insert_of_not_older {d : Document ℤ}
    (h : ∀ k, newestKey d = some k → compareTo s.text k ≠ .lt) :
    newestValue (some (d.insert s.text i)) = some i := by
  rw [newestValue_of_newestKey (newestKey_insert_of_not_older h i)]
  simp

/-- **When the call leaves the newest value as it is.** -/
theorem newestValue_after_iff (db : RecordDoc) (s : Timestamp) (i : ℤ) :
    newestValue db = newestValue (after db s i) ↔ KeepsNewest db s.text i := by
  by_cases h : ∀ d, db = some d → ¬ Readable d
  · rw [after_unreadable h, newestValue_single]
    cases db with
    | none => simp [newestValue, fields, newestKey_eq_none_iff.mpr, KeepsNewest]
    | some d =>
      have hd := h d rfl
      simp [newestValue, KeepsNewest, hd, Option.bind_eq_some_iff]
  · obtain ⟨d, rfl, hd⟩ : ∃ d, db = some d ∧ Readable d := by
      simpa [Classical.not_forall] using h
    have hattempts : Attempts noFailures d s.text := ⟨rfl, rfl, hd, s.readable⟩
    by_cases hr : Recorded d s.text
    · obtain ⟨j, hj, -⟩ := id hr
      obtain ⟨k, hk⟩ := exists_newestKey hj
      have hk' : newestKey (d.insert k i) = some k := by
        rw [newestKey_insert_of_mem (mem_of_newestKey hk), hk]
      rw [after, updateUser_recorded hattempts hr hk, newestValue_of_newestKey hk,
        newestValue_of_newestKey hk']
      simp [KeepsNewest, hk, hr]
    · rw [after, updateUser_new hattempts hr]
      cases hk : newestKey d with
      | none =>
        rw [newestValue_insert_of_not_older (by simp [hk])]
        simp [newestValue, KeepsNewest, hk]
      | some k =>
        rw [newestValue_of_newestKey hk]
        by_cases hlt : compareTo s.text k = .lt
        · have hk' := newestKey_insert_of_older hk (by rw [hlt]; rfl) i
          have hne : s.text ≠ k := fun h =>
            not_mem_of_not_recorded hr (h ▸ mem_of_newestKey hk)
          rw [newestValue_of_newestKey hk', Document.getElem?_insert_ne d hne]
          simp [KeepsNewest, hk, hd, hr, hlt]
        · rw [newestValue_insert_of_not_older (by simpa [hk] using hlt)]
          simp [KeepsNewest, hk, hlt]

/-- The two requests of a call. -/
theorem request_twice (db : RecordDoc) (s : Timestamp) (i : ℤ) :
    ∃ c, (Call.reading s.text i).request db = some (db, c) ∧
      c.request db = some (after db s i, .returned) := by
  cases h : chooseWrite db s.text i <;>
    simp [Call.request, Call.step, after, updateUser, noFailures, h, bind, Except.bind]

end

/-! ## The invariant -/

/-- Where the call stands, and that a badge without a document had none to find. -/
structure Screen.Inv (db₀ : RecordDoc) (s : Timestamp) (i : ℤ) (x : Screen) : Prop where
  call : x.call = .reading s.text i ∧ x.db = db₀ ∨
    x.call.request db₀ = some (after db₀ s i, .returned) ∧ x.db = db₀ ∨
      x.call = .returned ∧ x.db = after db₀ s i
  badge : x.badge = .absent → db₀ = none

/-- What a view has read has the newest value of the document after the call. -/
def View.Right (db₀ : RecordDoc) (s : Timestamp) (i : ℤ) (absentOk : Prop) : View → Prop
  | .shown data => newestValue data = newestValue (after db₀ s i)
  | .absent => absentOk
  | _ => True

/-- Every view that has read, has read what stays. -/
structure Screen.Right (db₀ : RecordDoc) (s : Timestamp) (i : ℤ) (x : Screen) : Prop where
  chart : x.chart.Right db₀ s i False
  badge : x.badge.Right db₀ s i (i = 0)
  history : x.history ≠ .absent

section
variable {db₀ : RecordDoc} {s : Timestamp} {i : ℤ} {x y : Screen}

theorem inv_init : (Screen.init db₀ s i).Inv db₀ s i where
  call := Or.inl ⟨rfl, rfl⟩
  badge h := by simp [Screen.init] at h

theorem right_init : (Screen.init db₀ s i).Right db₀ s i where
  chart := trivial
  badge := trivial
  history := by simp [Screen.init]

/-- A document that is missing has been missing all along. -/
theorem Screen.Inv.eq_none (hx : x.Inv db₀ s i) (h : x.db = none) : db₀ = none := by
  obtain ⟨d, v, hd, -, -⟩ := exists_after db₀ s i
  rcases hx.call with ⟨-, hdb⟩ | ⟨-, hdb⟩ | ⟨-, hdb⟩
  · rw [← hdb, h]
  · rw [← hdb, h]
  · rw [h, hd] at hdb
    cases hdb

theorem inv_step (x : Screen) (part : Part) (y : Screen) (hx : x.Inv db₀ s i)
    (h : x.step part = some y) : y.Inv db₀ s i := by
  cases part with
  | call =>
    obtain ⟨⟨db', c'⟩, hr, rfl⟩ := Option.map_eq_some_iff.mp h
    refine ⟨?_, hx.badge⟩
    rcases hx.call with ⟨hc, hdb⟩ | ⟨hc, hdb⟩ | ⟨hc, hdb⟩
    · obtain ⟨c, hfirst, hsecond⟩ := request_twice db₀ s i
      rw [hc, hdb, hfirst, Option.some.injEq, Prod.mk.injEq] at hr
      obtain ⟨rfl, rfl⟩ := hr
      exact Or.inr (Or.inl ⟨hsecond, rfl⟩)
    · rw [hdb, hc, Option.some.injEq, Prod.mk.injEq] at hr
      obtain ⟨rfl, rfl⟩ := hr
      exact Or.inr (Or.inr ⟨rfl, rfl⟩)
    · rw [hc] at hr
      simp [Call.request] at hr
  | chart =>
    obtain ⟨v, -, rfl⟩ := Option.map_eq_some_iff.mp h
    exact ⟨hx.call, hx.badge⟩
  | badge =>
    obtain ⟨v, hv, rfl⟩ := Option.map_eq_some_iff.mp h
    refine ⟨hx.call, ?_⟩
    intro habsent
    simp only at habsent
    subst habsent
    -- Only the `recordCheck` of the badge ends this way.
    cases hb : x.badge <;> rw [hb] at hv <;> simp only [View.step, Option.some.injEq,
      reduceCtorEq] at hv
    apply hx.eq_none
    cases hdb : x.db with
    | none => rfl
    | some d => simp [hdb] at hv
  | history =>
    obtain ⟨v, -, rfl⟩ := Option.map_eq_some_iff.mp h
    exact ⟨hx.call, hx.badge⟩

/-- **A view reads what stays exactly if it does not read too early.** -/
theorem View.right_step (hx : x.Inv db₀ s i) {absentOk : Prop} {v v' : View}
    (h : v.step x.db = some v') :
    v'.Right db₀ s i absentOk ↔ v.Right db₀ s i absentOk ∧ ViewOk absentOk s.text i x v := by
  cases v with
  | checking =>
    simp only [View.step, Option.some.injEq] at h
    subst h
    cases hdb : x.db <;> simp [View.Right, ViewOk, hdb]
  | reading =>
    simp only [View.step, Option.some.injEq] at h
    subst h
    simp only [View.Right, ViewOk, true_and]
    rcases hx.call with ⟨hc, hdb⟩ | ⟨hc, hdb⟩ | ⟨hc, hdb⟩
    · rw [hdb, newestValue_after_iff]
      simp [hc]
    · rw [hdb, newestValue_after_iff]
      have hne : x.call ≠ .returned := by
        intro hret
        rw [hret] at hc
        simp [Call.request] at hc
      simp [hne]
    · simp [hc, hdb]
  | shown data => cases h
  | absent => cases h

theorem right_step (x : Screen) (part : Part) (y : Screen) (hx : x.Inv db₀ s i)
    (h : x.step part = some y) :
    y.Right db₀ s i ↔ x.Right db₀ s i ∧ StepOk s i x part := by
  have hright : ∀ z : Screen, z.Right db₀ s i ↔ z.chart.Right db₀ s i False ∧
      z.badge.Right db₀ s i (i = 0) ∧ z.history ≠ .absent :=
    fun z => ⟨fun h => ⟨h.chart, h.badge, h.history⟩, fun h => ⟨h.1, h.2.1, h.2.2⟩⟩
  rw [hright, hright]
  cases part with
  | call =>
    obtain ⟨r, -, rfl⟩ := Option.map_eq_some_iff.mp h
    simp [StepOk]
  | chart =>
    obtain ⟨v, hv, rfl⟩ := Option.map_eq_some_iff.mp h
    rw [View.right_step hx hv, StepOk]
    tauto
  | badge =>
    obtain ⟨v, hv, rfl⟩ := Option.map_eq_some_iff.mp h
    rw [View.right_step hx hv, StepOk]
    tauto
  | history =>
    obtain ⟨v, hv, rfl⟩ := Option.map_eq_some_iff.mp h
    have hiff : v ≠ .absent ↔ x.history ≠ .absent ∧ StepOk s i x .history := by
      cases hh : x.history <;> rw [hh] at hv <;> simp only [Subscription.step,
        Option.some.injEq, reduceCtorEq] at hv <;> subst hv <;> simp [StepOk, hh]
      cases x.db <;> simp
    rw [hiff]
    tauto

/-- Views that have settled agree exactly if each has read what stays. -/
theorem agree_iff_right (hx : x.Inv db₀ s i) (hset : x.Settled) :
    x.Agree ↔ x.Right db₀ s i := by
  obtain ⟨d, v, hd, hread, hv⟩ := exists_after db₀ s i
  have hdb : x.db = some d := by
    rcases hx.call with ⟨hc, -⟩ | ⟨hc, -⟩ | ⟨-, hdb⟩
    · rw [hset.call] at hc
      cases hc
    · rw [hset.call] at hc
      simp [Call.request] at hc
    · rw [hdb, hd]
  have hchart : x.chart.chartValue = some v ↔ x.chart.Right db₀ s i False := by
    have hsettled := hset.chart
    cases hc : x.chart with
    | shown data => rw [chartValue_shown, View.Right, hd, hv]
    | absent => simp [View.chartValue, View.Right]
    | checking => simp [hc, View.Settled] at hsettled
    | reading => simp [hc, View.Settled] at hsettled
  have hbadge : x.badge.badgeText = some (toString v) ↔ x.badge.Right db₀ s i (i = 0) := by
    have hsettled := hset.badge
    cases hb : x.badge with
    | shown data => rw [badgeText_shown, View.Right, hd, hv]
    | absent =>
      -- There was no document, so the new one holds the value of the call.
      have hi : newestValue (after db₀ s i) = some i := by
        rw [after_unreadable (by simp [hx.badge hb]), newestValue_single]
      rw [hd, hv, Option.some.injEq] at hi
      have hzero := nullableToString_eq_iff (some 0) v
      simp only [nullableToString, Option.some.injEq] at hzero
      rw [View.badgeText, View.Right, Option.some.injEq, ← hi, eq_comm (a := v)]
      exact hzero
    | checking => simp [hb, View.Settled] at hsettled
    | reading => simp [hb, View.Settled] at hsettled
  have hhistory : x.history.firstTitle = some (toString v) ↔ x.history ≠ .absent := by
    rcases hset.history with hh | hh
    · rw [hh, hdb, firstTitle_showing hread hv]
      simp
    · simp [hh, Subscription.firstTitle]
  constructor
  · intro h
    obtain ⟨u, hu, hcu, hbu, hhu⟩ := h
    rw [hdb, hv, Option.some.injEq] at hu
    subst hu
    exact ⟨hchart.mp hcu, hbadge.mp hbu, hhistory.mp hhu⟩
  · intro h
    exact ⟨v, by rw [hdb, hv], hchart.mpr h.chart, hbadge.mpr h.badge, hhistory.mpr h.history⟩

/-- **When the views settle on the same value.**  In a run that has answered all
requests, the chart, the badge and the history list show the newest value of the
document exactly if no view has read too early. -/
theorem settled_agree_iff (db₀ : RecordDoc) (s : Timestamp) (i : ℤ) (parts : List Part)
    (x : Screen) (hrun : run Screen.step (Screen.init db₀ s i) parts = some x)
    (hset : x.Settled) :
    x.Agree ↔ StepsMeet Screen.step (StepOk s i) (Screen.init db₀ s i) parts := by
  rw [agree_iff_right (run_invariant_of_step inv_step inv_init hrun) hset,
    run_iff_stepsMeet inv_step right_step inv_init hrun]
  simp [right_init]

/-- A third day of measurements. -/
def thirdDay : Timestamp := ⟨"2024-03-03 08:00:00.000", by decide +kernel⟩

/-- The screen after a first call, all views having waited for it. -/
def firstRecorded : Screen where
  db := some ((∅ : Document ℤ).insert thirdDay.text 150)
  call := .returned
  chart := .shown (some ((∅ : Document ℤ).insert thirdDay.text 150))
  badge := .shown (some ((∅ : Document ℤ).insert thirdDay.text 150))
  history := .showing (some ((∅ : Document ℤ).insert thirdDay.text 150))

theorem settled_agree_iff_firstRecorded :
    firstRecorded.Agree ↔ StepsMeet Screen.step (StepOk thirdDay 150)
      (Screen.init none thirdDay 150)
      [.call, .call, .chart, .chart, .badge, .badge, .history, .history] :=
  settled_agree_iff none thirdDay 150 _ firstRecorded rfl
    ⟨rfl, trivial, trivial, Or.inl rfl⟩

/-- A chart that reads between the press and the write shows the value of the
day before. -/
theorem not_settled_agree :
    ¬ ∀ (db₀ : RecordDoc) (s : Timestamp) (i : ℤ) (parts : List Part) (x : Screen),
      run Screen.step (Screen.init db₀ s i) parts = some x → x.Settled → x.Agree := by
  intro h
  obtain ⟨c, hfirst, hsecond⟩ := request_twice (some twoDays) thirdDay 150
  have hrun : run Screen.step (Screen.init (some twoDays) thirdDay 150)
      [.chart, .chart, .call, .call, .badge, .badge, .history, .history] =
        some ⟨after (some twoDays) thirdDay 150, .returned, .shown (some twoDays),
          .shown (after (some twoDays) thirdDay 150),
          .showing (after (some twoDays) thirdDay 150)⟩ := by
    have hexists : (after (some twoDays) thirdDay 150).isSome := by decide +kernel
    simp [run, Screen.step, Screen.init, View.step, Subscription.step, hfirst, hsecond, hexists]
  obtain ⟨v, hv, hchart, -⟩ := h _ _ _ _ _ hrun ⟨rfl, trivial, trivial, Or.inl rfl⟩
  have hold : newestValue (some twoDays) = some 110 := by decide +kernel
  have hnew : newestValue (after (some twoDays) thirdDay 150) = some 150 := by decide +kernel
  rw [chartValue_shown, hold] at hchart
  rw [hnew, ← hchart] at hv
  exact absurd hv (by decide)

end

end Record
end FlutterSugar
