import FlutterSugar.Listen.OwnWrites
import FlutterSugar.Profile.WellFormed

/-!
# The profile through the SDK

The pages of the profile do not work on the document of the server.  The home screen
reads it once, the tiles show the last snapshot of a stream, and what the wizard and
the edit pages write goes to the local store of the SDK.

Seen through the SDK that is as if every write were delivered at once and every read
were of the document itself, whenever the acknowledgements come.

## Main definitions

* `Streamed` — the pages, and the client of the SDK.
* `Streamed.step` — what can happen.
* `Streamed.app` — the same as an `App`, with the profile as the client has it.
* `Streamed.actions` — what the pages do.
* `App.stepDelivered` — a step whose writes are delivered at once.
* `streamed_simulates` — the runs are those of `App`.
* `streams_readable` — what the streams of the profile show can be read.
-/

namespace FlutterSugar
namespace Profile
open Lib Std Local Local.LocalStore Listen

variable {K : Type} [DecidableEq K]

/-- The call of `cloud_firestore` for a write. -/
def Write.toWrite : Write → Local.Write Dyn
  | .authAdd fields => .setMerge fields
  | .update key data => .update [(key, data)]

theorem apply_toWrite (write : Write) (profile : Stored Dyn) :
    write.toWrite.apply profile = write.deliver profile := by
  cases write with
  | authAdd fields => rfl
  | update key data => cases profile <;> rfl

/-- A step of the app, whose writes are delivered at once, one after the other. -/
def App.stepDelivered (x : App) (a : App.Action) : Option App :=
  (x.step a).bind fun y => run App.step y (y.pending.map fun _ => .deliver 0)

theorem App.inv_stepDelivered {x y : App} {a : App.Action} (h : x.Inv) (hok : x.StepOk a)
    (hstep : x.stepDelivered a = some y) : y.Inv := by
  obtain ⟨z, hz, hrun⟩ := Option.bind_eq_some_iff.mp hstep
  have hdelivers : StepsMeet App.step (fun _ a => a = .deliver 0) z
      (z.pending.map fun _ => .deliver 0) :=
    stepsMeet_of_forall_mem z (by simp)
  refine run_invariant (P := App.Inv) ?_ (App.inv_step h hok hz) hdelivers hrun
  rintro x _ y hx rfl hy
  have hok : x.StepOk (.deliver 0) := trivial
  exact App.inv_step hx hok hy

structure Streamed (K : Type) where
  client : Client K Dyn
  homes : List Home
  wizards : List Wizard
  edits : List Edit

namespace Streamed

/-- The pages, if this is the profile. -/
def pages (x : Streamed K) (profile : Stored Dyn) : App := ⟨profile, x.homes, x.wizards, x.edits, []⟩

/-- The pages, with the profile `key` as the client has it. -/
def app (key : K) (x : Streamed K) : App := x.pages (stored (x.client.store.getDocument key))

inductive Act (K : Type)
  /-- An action of a page that does not read the profile. -/
  | page (a : App.Action)
  /-- The answer to `userCheck`, whose read is the `n`-th listener. -/
  | answer (h n : ℕ)
  /-- The read of `userCheck` fails in another way. -/
  | fails (h : ℕ)
  /-- A tap on a tile of the `n`-th listener. -/
  | openEdit (name : String) (n : ℕ)
  | client (a : Client.Act K Dyn)

/-- Whether an action of a page does without the profile. -/
def Blind : App.Action → Bool
  | .openHome | .rebuild _ | .wizard _ _ | .edit _ _ | .confirm _ => true
  | .answer _ _ | .openEdit _ | .deliver _ | .lose _ => false

/-- A page acts on the profile that it is given; what it writes goes to the client. -/
def act (arraySize : ℕ) (key : K) (x : Streamed K) (profile : Stored Dyn) (a : App.Action) :
    Option (Streamed K) := do
  let y ← (x.pages profile).step a
  let client ← run (Client.step arraySize) x.client
    (y.pending.map fun write => Client.Act.write key write.toWrite)
  return ⟨client, y.homes, y.wizards, y.edits⟩

def listener (key : K) (x : Streamed K) (n : ℕ) : Option (QueryListener Dyn) :=
  (x.client.queries key).bind fun info => info.listeners[n]?

def step (arraySize : ℕ) (key : K) (x : Streamed K) : Act K → Option (Streamed K)
  -- the profile is not looked at
  | .page a => if Blind a then x.act arraySize key (x.app key).profile a else none
  | .answer h n => do
    let l ← x.listener key n
    guard (l.options = .ofGet)
    match l.events with
    -- a read is removed with its first event
    | [event] =>
      match listenOnce event with
      | none => x.act arraySize key (x.app key).profile (.answer h true)
      | some snapshot => x.act arraySize key (shown snapshot.document) (.answer h false)
    | _ => none
  -- nor in a read that fails
  | .fails h => x.act arraySize key (x.app key).profile (.answer h true)
  | .openEdit name n => do
    let l ← x.listener key n
    let event ← l.events.getLast?
    x.act arraySize key (shown event.document) (.openEdit name)
  | .client a => do
    let client ← x.client.step arraySize a
    return { x with client := client }

/-- Whether the read of the `n`-th listener fails. -/
def readFails (key : K) (x : Streamed K) (n : ℕ) : Bool :=
  (((x.listener key n).bind fun l => l.events.getLast?).bind listenOnce).isNone

/-- What a page does in a step, if one does anything. -/
def action (key : K) (x : Streamed K) : Act K → List App.Action
  | .page a => [a]
  | .answer h n => [.answer h (x.readFails key n)]
  | .fails h => [.answer h true]
  | .openEdit name _ => [.openEdit name]
  | .client _ => []

/-- What the pages do in a run. -/
def actions (arraySize : ℕ) (key : K) (x : Streamed K) (acts : List (Act K)) : List App.Action :=
  emitted (step arraySize key) (action key) x acts

/-- A start without writes. -/
def start (cache : K → MutableDocument Dyn) : Streamed K := ⟨.idle cache, [], [], []⟩

/-- Only the pages write the profile, and the app is not closed. -/
def Foreign (key : K) : Client.Act K Dyn → Prop
  | .write k _ => k ≠ key
  | .restart => False
  | .acknowledge _ | .reject | .remote _ _ | .onlineState _ | .listen _ _ _ | .remove _ _
  | .rejectListen _ => True

/-- Nobody else changes a document, nothing is deleted or rejected, and only the pages
write the profile. -/
def Alone (key : K) (x : Streamed K) : Act K → Prop
  | .client a => x.client.OwnWrites a ∧ Foreign key a
  | .page _ | .answer _ _ | .fails _ | .openEdit _ _ => True

/-- What a wizard appends fits the position at which it ends up. -/
def WizardFits (key : K) (x : Streamed K) : Act K → Prop
  | .page a => (x.app key).StepOk a
  | .client _ | .answer _ _ | .fails _ | .openEdit _ _ => True

instance (key : K) : (a : Client.Act K Dyn) → Decidable (Foreign key a)
  | .write k _ => inferInstanceAs (Decidable (k ≠ key))
  | .restart => isFalse id
  | .acknowledge _ | .reject | .remote _ _ | .onlineState _ | .listen _ _ _ | .remove _ _
  | .rejectListen _ => isTrue trivial

instance (key : K) (x : Streamed K) : (a : Act K) → Decidable (Alone key x a)
  | .client a => inferInstanceAs (Decidable (x.client.OwnWrites a ∧ Foreign key a))
  | .page _ | .answer _ _ | .fails _ | .openEdit _ _ => isTrue trivial

instance (key : K) (x : Streamed K) : (a : Act K) → Decidable (WizardFits key x a)
  | .page a => inferInstanceAs (Decidable ((x.app key).StepOk a))
  | .client _ | .answer _ _ | .fails _ | .openEdit _ _ => isTrue trivial

/-! ## A write is delivered at once -/

variable {c c' : Client K Dyn} {key : K} {x y : Streamed K}

/-- What is known of the client. -/
def Sound (c : Client K Dyn) : Prop := c.Sound ∧ ∃ writes, c.store.Holds writes

/-- A write of a page is seen by the app. -/
theorem sound_write {arraySize : ℕ} (harray : arraySize = 0) (hc : Sound c) (write : Write)
    (hstep : c.step arraySize (.write key write.toWrite) = some c') :
    Sound c' ∧ stored (c'.store.getDocument key) =
      write.deliver (stored (c.store.getDocument key)) := by
  obtain ⟨hsound, writes, hholds⟩ := hc
  have hown : c.OwnWrites (.write key write.toWrite) := by
    rintro _ ⟨⟩
    refine Or.inr ?_
    cases write <;> simp [WritesOrAcknowledges, Write.toWrite]
  obtain ⟨hsound', hholds', hseen⟩ := Client.own_step harray hsound hholds hown hstep
  refine ⟨⟨hsound', hholds'⟩, ?_⟩
  rw [hseen key, ← apply_toWrite]
  simp [Client.Act.ofStore, writesTo]

/-- The writes of a page are delivered one after the other. -/
theorem delivered {arraySize : ℕ} (harray : arraySize = 0) (homes : List Home)
    (wizards : List Wizard) (edits : List Edit) {writes : List Write} (hc : Sound c)
    (hrun : run (Client.step arraySize) c
      (writes.map fun write => Client.Act.write key write.toWrite) = some c') :
    Sound c' ∧
      run App.step ⟨stored (c.store.getDocument key), homes, wizards, edits, writes⟩
        (writes.map fun _ => .deliver 0) =
          some ⟨stored (c'.store.getDocument key), homes, wizards, edits, []⟩ := by
  induction writes generalizing c with
  | nil =>
    cases hrun
    exact ⟨hc, rfl⟩
  | cons write writes ih =>
    rw [List.map_cons, run_cons_eq_some] at hrun
    obtain ⟨u, hu, hrun⟩ := hrun
    obtain ⟨hu', hseen⟩ := sound_write harray hc write hu
    obtain ⟨hc', hrest⟩ := ih hu' hrun
    refine ⟨hc', ?_⟩
    rw [List.map_cons, run_cons_eq_some]
    refine ⟨_, rfl, ?_⟩
    rw [hseen] at hrest
    exact hrest

/-- Only a delivery changes the profile. -/
theorem profile_of_step {x y : App} {a : App.Action} (ha : ∀ k, a ≠ .deliver k)
    (hstep : x.step a = some y) : y.profile = x.profile := by
  cases App.moves_of_step hstep with
  | deliver k write => exact absurd rfl (ha k)
  | openHome | rebuild | showApp | pushWizard | wizard | openEdit | edit | write | lose | stay =>
    rfl

/-! ## A step -/

/-- **A page acts** as it does on the document. -/
theorem simulates_act {arraySize : ℕ} (harray : arraySize = 0) (hx : Sound x.client)
    {a : App.Action} (ha : ∀ k, a ≠ .deliver k)
    (hact : x.act arraySize key (x.app key).profile a = some y) :
    Sound y.client ∧ run App.stepDelivered (x.app key) [a] = some (y.app key) := by
  obtain ⟨z, hz, hact⟩ := Option.bind_eq_some_iff.mp hact
  obtain ⟨client, hclient, hy⟩ := Option.bind_eq_some_iff.mp hact
  cases hy
  have hprofile : z.profile = stored (x.client.store.getDocument key) := profile_of_step ha hz
  obtain ⟨hsound, hdelivered⟩ := delivered harray z.homes z.wizards z.edits hx hclient
  rw [← hprofile] at hdelivered
  refine ⟨hsound, run_cons_eq_some.mpr ⟨_, ?_, rfl⟩⟩
  exact Option.bind_eq_some_iff.mpr ⟨z, hz, hdelivered⟩

/-- The last event of a listener shows the profile as the client has it. -/
theorem shown_listener (hx : Sound x.client) {n : ℕ} {l : QueryListener Dyn}
    (hl : x.listener key n = some l) {event : DocumentSnapshot Dyn}
    (hevent : l.events.getLast? = some event) : shown event.document = (x.app key).profile := by
  obtain ⟨info, hinfo, hl⟩ := Option.bind_eq_some_iff.mp hl
  have hlistens := (hx.1.attended key info hinfo).listens l (List.mem_of_getElem? hl)
  exact hx.1.shown_eq hinfo (hlistens.current event hevent)

/-- What is not for the profile leaves it as it is. -/
theorem sound_client {arraySize : ℕ} (harray : arraySize = 0) (hx : Sound x.client)
    {a : Client.Act K Dyn} (hown : x.client.OwnWrites a) (hforeign : Foreign key a)
    (hstep : x.client.step arraySize a = some c') :
    Sound c' ∧ stored (c'.store.getDocument key) = (x.app key).profile := by
  obtain ⟨hsound, writes, hholds⟩ := hx
  obtain ⟨hsound', hholds', hseen⟩ := Client.own_step harray hsound hholds hown hstep
  refine ⟨⟨hsound', hholds'⟩, ?_⟩
  have hnone : writesTo key a.ofStore.toList = [] := by
    cases a with
    | write k write =>
      have hk : k ≠ key := hforeign
      simp [Client.Act.ofStore, writesTo, hk]
    | remote update targets => cases update <;> rfl
    | acknowledge | reject | onlineState | listen | remove | rejectListen | restart => rfl
  rw [hseen key, hnone]
  rfl

/-- **A step through the SDK** is what the page does on the document. -/
theorem simulates_step {arraySize : ℕ} (harray : arraySize = 0) (hx : Sound x.client) {a : Act K}
    (halone : Alone key x a) (hstep : x.step arraySize key a = some y) :
    Sound y.client ∧ run App.stepDelivered (x.app key) (x.action key a) = some (y.app key) := by
  cases a with
  | page a =>
    rw [step] at hstep
    split at hstep
    next hblind =>
      refine simulates_act harray hx ?_ hstep
      rintro k rfl
      cases hblind
    next => cases hstep
  | answer h n =>
    obtain ⟨l, hl, hstep⟩ := Option.bind_eq_some_iff.mp hstep
    obtain ⟨-, -, hstep⟩ := Option.bind_eq_some_iff.mp hstep
    split at hstep
    next event hevents =>
      have hlast : l.events.getLast? = some event := by simp [hevents]
      have hread : x.readFails key n = (listenOnce event).isNone := by
        rw [readFails, hl, Option.bind_some, hlast, Option.bind_some]
      rw [action, hread]
      split at hstep
      next hnone =>
        rw [hnone]
        exact simulates_act harray hx (by simp) hstep
      next snapshot hsnapshot =>
        have hevent : event = snapshot := by
          rw [listenOnce] at hsnapshot
          split at hsnapshot
          next => cases hsnapshot
          next => exact Option.some.inj hsnapshot
        rw [← hevent, shown_listener hx hl hlast] at hstep
        rw [hsnapshot]
        exact simulates_act harray hx (by simp) hstep
    next => cases hstep
  | fails h => exact simulates_act harray hx (by simp) hstep
  | openEdit name n =>
    obtain ⟨l, hl, hstep⟩ := Option.bind_eq_some_iff.mp hstep
    obtain ⟨event, hevent, hstep⟩ := Option.bind_eq_some_iff.mp hstep
    rw [shown_listener hx hl hevent] at hstep
    exact simulates_act harray hx (by simp) hstep
  | client a =>
    obtain ⟨client, hclient, hy⟩ := Option.bind_eq_some_iff.mp hstep
    cases hy
    obtain ⟨hsound, hprofile⟩ := sound_client harray hx halone.1 halone.2 hclient
    exact ⟨hsound, congrArg some (congrArg x.pages hprofile).symm⟩

/-- What a page does keeps the profile good if it fits. -/
theorem inv_step {arraySize : ℕ} (harray : arraySize = 0) (hx : Sound x.client)
    (hinv : (x.app key).Inv) {a : Act K} (halone : Alone key x a) (hfits : WizardFits key x a)
    (hstep : x.step arraySize key a = some y) : Sound y.client ∧ (y.app key).Inv := by
  obtain ⟨hsound, hrun⟩ := simulates_step harray hx halone hstep
  refine ⟨hsound, ?_⟩
  have hok : StepsMeet App.stepDelivered App.StepOk (x.app key) (x.action key a) := by
    cases a with
    | page a => exact ⟨hfits, fun _ _ => trivial⟩
    | answer | fails | openEdit => exact ⟨trivial, fun _ _ => trivial⟩
    | client a => trivial
  exact run_invariant (fun _ _ _ h ha hstep => App.inv_stepDelivered h ha hstep) hinv hok hrun

/-! ## Runs -/

theorem sound_start {cache : K → MutableDocument Dyn}
    (hcache : ∀ key, (cache key).hasLocalMutations = false) : Sound (start cache).client :=
  ⟨Client.sound_idle hcache, [], Holds.idle hcache⟩

end Streamed

/-- **The pages see no difference** between the SDK and the document itself, on which
they do the same, each write being delivered at once. -/
theorem streamed_simulates {arraySize : ℕ} (harray : arraySize = 0) {key : K}
    {cache : K → MutableDocument Dyn} (hcache : ∀ key, (cache key).hasLocalMutations = false)
    {acts : List (Streamed.Act K)} {x : Streamed K}
    (halone : StepsMeet (Streamed.step arraySize key) (Streamed.Alone key) (.start cache) acts)
    (hrun : run (Streamed.step arraySize key) (.start cache) acts = some x) :
    run App.stepDelivered (App.start (stored (cache key)))
      ((Streamed.start cache).actions arraySize key acts) = some (x.app key) :=
  (run_emitted (Streamed.app key) (P := fun x => Streamed.Sound x.client)
    (fun _ _ _ hx halone hstep => Streamed.simulates_step harray hx halone hstep)
    (Streamed.sound_start hcache) halone hrun).2

/-- A registration, offline. -/
def registration : List (Streamed.Act String) :=
  [.page .openHome, .fails 0] ++ (App.register "a" hundred).map .page

/-- A stream of the profile is open meanwhile. -/
def watchedRegistration : List (Streamed.Act String) :=
  .client (.listen "profile" (.fromIncludeMetadataChanges false) ⟨false, false⟩) :: registration

/-- The server acknowledges the registration. -/
theorem streamed_simulates_registration : ∃ x,
    run (Streamed.step 0 "profile") (.start nothingCached)
        (registration ++ [.client (.acknowledge 1)]) = some x ∧
      run App.stepDelivered (App.start (stored (nothingCached "profile")))
        ((Streamed.start nothingCached).actions 0 "profile"
          (registration ++ [.client (.acknowledge 1)])) = some (x.app "profile") := by
  have halone : StepsMeet (Streamed.step 0 "profile") (Streamed.Alone "profile")
      (.start nothingCached) (registration ++ [.client (.acknowledge 1)]) := by decide +kernel
  obtain ⟨x, hrun⟩ := Option.isSome_iff_exists.mp (show (run (Streamed.step 0 "profile")
    (.start nothingCached) (registration ++ [.client (.acknowledge 1)])).isSome by decide +kernel)
  exact ⟨x, hrun, streamed_simulates rfl nothingCached_synced halone hrun⟩

/-- The stream shows a profile in the end. -/
theorem exists_watchedRegistration_run : ∃ x l event d,
    run (Streamed.step 0 "profile") (.start nothingCached) watchedRegistration = some x ∧
      x.listener "profile" 0 = some l ∧ l.events.getLast? = some event ∧
        shown event.document = some d := by
  have hsome : ((run (Streamed.step 0 "profile") (.start nothingCached) watchedRegistration).bind
      fun x => (x.listener "profile" 0).bind fun l =>
        l.events.getLast?.bind fun event => shown event.document).isSome := by decide +kernel
  obtain ⟨d, h⟩ := Option.isSome_iff_exists.mp hsome
  obtain ⟨x, hrun, h⟩ := Option.bind_eq_some_iff.mp h
  obtain ⟨l, hl, h⟩ := Option.bind_eq_some_iff.mp h
  obtain ⟨event, hevent, hd⟩ := Option.bind_eq_some_iff.mp h
  exact ⟨x, l, event, d, hrun, hl, hevent, hd⟩

/-- **What the streams show can be read.**  The profile of a new user that a stream
shows is good, and neither the target nor a tile throws on it, as long as what the
wizard appends fits. -/
theorem streams_readable {arraySize : ℕ} (harray : arraySize = 0) {key : K}
    {cache : K → MutableDocument Dyn} (hcache : ∀ key, (cache key).hasLocalMutations = false)
    (hnew : stored (cache key) = none) {acts : List (Streamed.Act K)} {x : Streamed K}
    (halone : StepsMeet (Streamed.step arraySize key) (Streamed.Alone key) (.start cache) acts)
    (hfits : StepsMeet (Streamed.step arraySize key) (Streamed.WizardFits key) (.start cache) acts)
    (hrun : run (Streamed.step arraySize key) (.start cache) acts = some x) {n : ℕ}
    {l : QueryListener Dyn} (hl : x.listener key n = some l) {event : DocumentSnapshot Dyn}
    (hevent : l.events.getLast? = some event) {d : Document Dyn}
    (hd : shown event.document = some d) :
    ProfileOk d ∧ (∃ target, historyTarget d = .ok target) ∧
      ∀ map : List (String × Dyn), map.Perm d.toList → ∀ index < fieldNames.length,
        ∃ tile, profileTile map index = .ok tile := by
  have hstart : (Streamed.start cache).app key = App.start none := congrArg App.start hnew
  obtain ⟨hsound, hinv⟩ : Streamed.Sound x.client ∧ (x.app key).Inv := by
    refine run_invariant (P := fun x => Streamed.Sound x.client ∧ (x.app key).Inv) ?_
      ⟨Streamed.sound_start hcache, ?_⟩ (stepsMeet_and halone hfits) hrun
    · intro x a y hx hok hstep
      exact Streamed.inv_step harray hx.1 hx.2 hok.1 hok.2 hstep
    · rw [hstart]
      exact App.inv_start
  rw [Streamed.shown_listener hsound hl hevent] at hd
  have hgood := hinv.profile d hd
  exact ⟨hgood, historyTarget_ok hgood,
    fun map hmap index hindex => profileTile_ok hgood hmap hindex⟩

theorem streams_readable_watchedRegistration : ∃ x l event d,
    run (Streamed.step 0 "profile") (.start nothingCached) watchedRegistration = some x ∧
      x.listener "profile" 0 = some l ∧ l.events.getLast? = some event ∧
        shown event.document = some d ∧ ProfileOk d ∧ (∃ target, historyTarget d = .ok target) ∧
          ∀ map : List (String × Dyn), map.Perm d.toList → ∀ index < fieldNames.length,
            ∃ tile, profileTile map index = .ok tile := by
  obtain ⟨x, l, event, d, hrun, hl, hevent, hd⟩ := exists_watchedRegistration_run
  have halone : StepsMeet (Streamed.step 0 "profile") (Streamed.Alone "profile")
      (.start nothingCached) watchedRegistration := by decide +kernel
  have hfits : StepsMeet (Streamed.step 0 "profile") (Streamed.WizardFits "profile")
      (.start nothingCached) watchedRegistration := by decide +kernel
  exact ⟨x, l, event, d, hrun, hl, hevent, hd,
    streams_readable rfl nothingCached_synced rfl halone hfits hrun hl hevent hd⟩

end Profile
end FlutterSugar
