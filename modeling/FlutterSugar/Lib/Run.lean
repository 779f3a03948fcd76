import Mathlib.Data.Option.Basic
import Mathlib.Tactic.Common

/-!
# Runs of a state machine

A machine takes an action in a state or refuses it.  A run takes a list of
actions one after the other, and is refused if one of them is.  Since every
prefix of a run is a run, what holds at the end of every run holds in every
state that is reached.

## Main definitions

* `run step s as` — the state after the actions `as`.
* `StepsMeet step ok s as` — every step of the run meets a condition on the
  state before it.
* `Always step R s as` — every state of the run meets a condition.
* `run_invariant` — what one step preserves, a whole run preserves.
* `run_iff_stepsMeet` — a property that a step destroys for good holds at the end
  exactly if no step destroyed it.
* `isSome_run_iff_stepsMeet` — a run proceeds exactly if each of its steps does.
* `always_iff_stepsMeet` — a property that a step leads to exactly if it meets a
  condition.
* `monotone_iff_stepsMeet` — a run goes up exactly if each of its steps does.
* `run_simulates` — what every step simulates, a run simulates.
* `emitted`, `run_emitted` — what the steps of a run emit, and the same if these are
  the steps that are seen.
-/

namespace FlutterSugar.Lib

variable {σ α : Type*} {step : σ → α → Option σ} {ok : σ → α → Prop}

/-- The state after the actions `as`, unless one of them is refused. -/
def run (step : σ → α → Option σ) (s : σ) : List α → Option σ
  | [] => some s
  | a :: as => (step s a).bind fun t => run step t as

/-- Every step that a run makes meets `ok`, a condition on the state before the
step and on the action. -/
def StepsMeet (step : σ → α → Option σ) (ok : σ → α → Prop) (s : σ) : List α → Prop
  | [] => True
  | a :: as => ok s a ∧ ∀ t, step s a = some t → StepsMeet step ok t as

/-- Every state that a run reaches meets `R`. -/
def Always (step : σ → α → Option σ) (R : σ → Prop) (s : σ) (as : List α) : Prop :=
  ∀ bs t, bs <+: as → run step s bs = some t → R t

@[simp] theorem run_nil (s : σ) : run step s [] = some s := rfl

theorem run_cons (s : σ) (a : α) (as : List α) :
    run step s (a :: as) = (step s a).bind fun t => run step t as := rfl

theorem run_cons_eq_some {s t : σ} {a : α} {as : List α} :
    run step s (a :: as) = some t ↔ ∃ u, step s a = some u ∧ run step u as = some t :=
  Option.bind_eq_some_iff

theorem stepsMeet_cons {s t : σ} {a : α} {as : List α} (h : step s a = some t) :
    StepsMeet step ok s (a :: as) ↔ ok s a ∧ StepsMeet step ok t as := by
  refine and_congr_right fun _ => ⟨fun hall => hall t h, fun ht u hu => ?_⟩
  rw [h, Option.some.injEq] at hu
  exact hu ▸ ht

instance stepsMeetDecidable [∀ s a, Decidable (ok s a)] (s : σ) :
    (as : List α) → Decidable (StepsMeet step ok s as)
  | [] => isTrue trivial
  | a :: as =>
    match h : step s a with
    | none => decidable_of_iff (ok s a) (by simp [StepsMeet, h])
    | some t =>
      have := stepsMeetDecidable t as
      decidable_of_iff (ok s a ∧ StepsMeet step ok t as) (stepsMeet_cons h).symm

theorem run_append (s : σ) (as bs : List α) :
    run step s (as ++ bs) = (run step s as).bind fun t => run step t bs := by
  induction as generalizing s with
  | nil => rfl
  | cons a as ih =>
    cases h : step s a with
    | none => simp [run_cons, h]
    | some t => simp [run_cons, h, ih]

/-- The last step of a run. -/
theorem run_concat_eq_some {s t : σ} {a : α} {as : List α} :
    run step s (as ++ [a]) = some t ↔ ∃ u, run step s as = some u ∧ step u a = some t := by
  rw [run_append, Option.bind_eq_some_iff]
  refine exists_congr fun u => and_congr_right fun _ => ?_
  rw [run_cons_eq_some]
  simp

/-- A condition that holds of every step holds of the steps of every run. -/
theorem stepsMeet_of_forall (h : ∀ s a, ok s a) (s : σ) (as : List α) :
    StepsMeet step ok s as := by
  induction as generalizing s with
  | nil => trivial
  | cons a as ih => exact ⟨h s a, fun t _ => ih t⟩

/-- A condition on the actions alone. -/
theorem stepsMeet_of_forall_mem {p : α → Prop} (s : σ) {as : List α} (h : ∀ a ∈ as, p a) :
    StepsMeet step (fun _ a => p a) s as := by
  induction as generalizing s with
  | nil => trivial
  | cons a as ih =>
    refine ⟨h a (by simp), ?_⟩
    intro t _
    exact ih t fun b hb => h b (by simp [hb])

theorem stepsMeet_and {p q : σ → α → Prop} {s : σ} {as : List α} (hp : StepsMeet step p s as)
    (hq : StepsMeet step q s as) : StepsMeet step (fun s a => p s a ∧ q s a) s as := by
  induction as generalizing s with
  | nil => trivial
  | cons a as ih => exact ⟨⟨hp.1, hq.1⟩, fun t ht => ih (hp.2 t ht) (hq.2 t ht)⟩

/-- **What every step that meets `ok` preserves, a run of such steps
preserves.** -/
theorem run_invariant {P : σ → Prop}
    (hstep : ∀ s a t, P s → ok s a → step s a = some t → P t) {s t : σ} {as : List α}
    (hs : P s) (hok : StepsMeet step ok s as) (hrun : run step s as = some t) : P t := by
  induction as generalizing s with
  | nil =>
    rw [run_nil, Option.some.injEq] at hrun
    exact hrun ▸ hs
  | cons a as ih =>
    obtain ⟨u, hu, hrun⟩ := run_cons_eq_some.mp hrun
    obtain ⟨hoka, hok⟩ := (stepsMeet_cons hu).mp hok
    exact ih (hstep s a u hs hoka hu) hok hrun

/-- What steps that meet `ok` preserve can be used to show that they meet more. -/
theorem stepsMeet_of_invariant {P : σ → Prop} {ok' : σ → α → Prop}
    (hstep : ∀ s a t, P s → ok s a → step s a = some t → P t)
    (hmore : ∀ s a, P s → ok s a → ok' s a) {s : σ} {as : List α} (hs : P s)
    (hok : StepsMeet step ok s as) : StepsMeet step ok' s as := by
  induction as generalizing s with
  | nil => trivial
  | cons a as ih =>
    refine ⟨hmore s a hs hok.1, ?_⟩
    intro t ht
    exact ih (hstep s a t hs hok.1 ht) (hok.2 t ht)

/-- **What every step preserves, every run preserves.** -/
theorem run_invariant_of_step {P : σ → Prop} (hstep : ∀ s a t, P s → step s a = some t → P t)
    {s t : σ} {as : List α} (hs : P s) (hrun : run step s as = some t) : P t := by
  have hok : StepsMeet step (fun _ _ => True) s as := stepsMeet_of_forall (fun _ _ => trivial) s as
  exact run_invariant (fun s a t hs _ h => hstep s a t hs h) hs hok hrun

/-- **A property that a step keeps exactly if it meets `ok`** holds at the end of
a run exactly if all of its steps meet `ok`, provided it held at the start. -/
theorem run_iff_stepsMeet {P Q : σ → Prop}
    (hinv : ∀ s a t, P s → step s a = some t → P t)
    (hstep : ∀ s a t, P s → step s a = some t → (Q t ↔ Q s ∧ ok s a))
    {s t : σ} {as : List α} (hs : P s) (hrun : run step s as = some t) :
    Q t ↔ Q s ∧ StepsMeet step ok s as := by
  induction as generalizing s with
  | nil =>
    rw [run_nil, Option.some.injEq] at hrun
    simp [StepsMeet, hrun]
  | cons a as ih =>
    obtain ⟨u, hu, hrun⟩ := run_cons_eq_some.mp hrun
    rw [ih (hinv s a u hs hu) hrun, hstep s a u hs hu, stepsMeet_cons hu, and_assoc]

/-- **A run proceeds exactly if all of its steps meet `ok`**, where a step is refused
exactly if it does not.  Only steps that meet `allowed` are tried. -/
theorem isSome_run_iff_stepsMeet {P : σ → Prop} {allowed : σ → α → Prop}
    (hstep : ∀ s a, P s → allowed s a → ok s a → ∃ t, step s a = some t ∧ P t)
    (hrefused : ∀ s a, P s → allowed s a → ¬ ok s a → step s a = none) {s : σ} {as : List α}
    (hs : P s) (hallowed : StepsMeet step allowed s as) :
    (run step s as).isSome ↔ StepsMeet step ok s as := by
  induction as generalizing s with
  | nil => exact iff_of_true rfl trivial
  | cons a as ih =>
    by_cases hok : ok s a
    · obtain ⟨t, ht, hPt⟩ := hstep s a hs hallowed.1 hok
      rw [stepsMeet_cons ht, and_iff_right hok, run_cons, ht, Option.bind_some]
      exact ih hPt (hallowed.2 t ht)
    · refine iff_of_false ?_ fun hall => hok hall.1
      rw [run_cons, hrefused s a hs hallowed.1 hok]
      simp

/-! ## Every state of a run -/

variable {R : σ → Prop}

theorem always_nil (s : σ) : Always step R s [] ↔ R s := by
  constructor
  · intro h
    exact h [] s (List.prefix_refl []) rfl
  · intro h bs t hbs hrun
    rw [List.prefix_nil.mp hbs, run_nil, Option.some.injEq] at hrun
    exact hrun ▸ h

theorem always_cons {s t : σ} {a : α} {as : List α} (h : step s a = some t) :
    Always step R s (a :: as) ↔ R s ∧ Always step R t as := by
  constructor
  · intro hall
    refine ⟨hall [] s List.nil_prefix rfl, ?_⟩
    intro bs u hbs hrun
    refine hall (a :: bs) u ((List.prefix_cons_inj a).mpr hbs) ?_
    exact run_cons_eq_some.mpr ⟨t, h, hrun⟩
  · intro hall bs u hbs hrun
    cases bs with
    | nil =>
      rw [run_nil, Option.some.injEq] at hrun
      exact hrun ▸ hall.1
    | cons b bs =>
      obtain ⟨rfl, hrest⟩ := List.cons_prefix_cons.mp hbs
      obtain ⟨v, hv, hrun⟩ := run_cons_eq_some.mp hrun
      rw [h, Option.some.injEq] at hv
      exact hall.2 bs u hrest (hv ▸ hrun)

/-- **A property that a step leads to exactly if it meets `ok`**, where something
is known of every state, holds in every state of a run exactly if all of its steps
meet `ok`. -/
theorem always_iff_stepsMeet_of_invariant {P : σ → Prop}
    (hinv : ∀ s a t, P s → step s a = some t → P t)
    (hstep : ∀ s a t, P s → R s → step s a = some t → (R t ↔ ok s a))
    {s t : σ} {as : List α} (hP : P s) (hs : R s) (hrun : run step s as = some t) :
    Always step R s as ↔ StepsMeet step ok s as := by
  induction as generalizing s with
  | nil => exact iff_of_true ((always_nil s).mpr hs) trivial
  | cons a as ih =>
    obtain ⟨u, hu, hrun⟩ := run_cons_eq_some.mp hrun
    have hPu : P u := hinv s a u hP hu
    rw [always_cons hu, stepsMeet_cons hu, and_iff_right hs, ← hstep s a u hP hs hu]
    constructor
    · intro hall
      have hRu : R u := hall [] u List.nil_prefix rfl
      exact ⟨hRu, (ih hPu hRu hrun).mp hall⟩
    · intro h
      exact (ih hPu h.1 hrun).mpr h.2

/-- The same without anything being known. -/
theorem always_iff_stepsMeet (hstep : ∀ s a t, R s → step s a = some t → (R t ↔ ok s a))
    {s t : σ} {as : List α} (hs : R s) (hrun : run step s as = some t) :
    Always step R s as ↔ StepsMeet step ok s as :=
  always_iff_stepsMeet_of_invariant (P := fun _ => True) (fun _ _ _ _ _ => trivial)
    (fun s a t _ => hstep s a t) trivial hs hrun

/-- **A property that follows from a stronger one** and is lost together with it,
while the stronger one is kept exactly by the steps that meet `ok`, holds in every
state of a run exactly if all of its steps meet `ok`.  Only steps that meet `allowed`
are made. -/
theorem always_iff_stepsMeet_of_allowed {Q : σ → Prop} {allowed : σ → α → Prop}
    (hQR : ∀ s, Q s → R s)
    (hstep : ∀ s a t, Q s → allowed s a → step s a = some t → (Q t ↔ ok s a) ∧ (R t → Q t))
    {s t : σ} {as : List α} (hs : Q s) (hallowed : StepsMeet step allowed s as)
    (hrun : run step s as = some t) : Always step R s as ↔ StepsMeet step ok s as := by
  induction as generalizing s with
  | nil => exact iff_of_true ((always_nil s).mpr (hQR s hs)) trivial
  | cons a as ih =>
    obtain ⟨u, hu, hrun⟩ := run_cons_eq_some.mp hrun
    obtain ⟨hallowed, hrest⟩ := (stepsMeet_cons hu).mp hallowed
    obtain ⟨hkeeps, hlost⟩ := hstep s a u hs hallowed hu
    rw [always_cons hu, stepsMeet_cons hu, and_iff_right (hQR s hs), ← hkeeps]
    constructor
    · intro hall
      have hQu : Q u := hlost (hall [] u List.nil_prefix rfl)
      exact ⟨hQu, (ih hQu hrest hrun).mp hall⟩
    · intro h
      exact (ih h.1 hrest hrun).mpr h.2

/-- The same if every step may be made. -/
theorem always_iff_stepsMeet_of_stronger {Q : σ → Prop} (hQR : ∀ s, Q s → R s)
    (hstep : ∀ s a t, Q s → step s a = some t → (Q t ↔ ok s a) ∧ (R t → Q t))
    {s t : σ} {as : List α} (hs : Q s) (hrun : run step s as = some t) :
    Always step R s as ↔ StepsMeet step ok s as := by
  have hallowed : StepsMeet step (fun _ _ => True) s as := stepsMeet_of_forall (fun _ _ => trivial) s as
  exact always_iff_stepsMeet_of_allowed hQR (fun s a t hQ _ => hstep s a t hQ) hs hallowed hrun

/-! ## Monotone runs -/

/-- From every state of a run to every later one, `r` holds. -/
def MonotoneRun (step : σ → α → Option σ) (r : σ → σ → Prop) (s : σ) (as : List α) : Prop :=
  ∀ bs cs t u, bs ++ cs <+: as → run step s bs = some t → run step t cs = some u → r t u

/-- The first step of a run. -/
theorem MonotoneRun.head {r : σ → σ → Prop} {s t : σ} {a : α} {as : List α}
    (h : MonotoneRun step r s (a :: as)) (ht : step s a = some t) : r s t := by
  refine h [] [a] s t ?_ rfl ?_
  · simp
  · rw [run_cons, ht]
    rfl

theorem monotoneRun_cons {r : σ → σ → Prop} {s t : σ} {a : α} {as : List α}
    (h : MonotoneRun step r s (a :: as)) (ht : step s a = some t) : MonotoneRun step r t as := by
  intro bs cs u v hbs hu hv
  refine h (a :: bs) cs u v ?_ (run_cons_eq_some.mpr ⟨t, ht, hu⟩) hv
  exact (List.prefix_cons_inj a).mpr hbs

/-- Steps that go up make runs that go up. -/
theorem le_of_run {r : σ → σ → Prop} (hrefl : ∀ s, r s s) (htrans : ∀ s t u, r s t → r t u → r s u)
    {s t : σ} {as : List α} (hok : StepsMeet step (fun s a => ∀ t, step s a = some t → r s t) s as)
    (hrun : run step s as = some t) : r s t := by
  induction as generalizing s with
  | nil =>
    rw [run_nil, Option.some.injEq] at hrun
    exact hrun ▸ hrefl s
  | cons a as ih =>
    obtain ⟨u, hu, hrun⟩ := run_cons_eq_some.mp hrun
    obtain ⟨hle, hok⟩ := (stepsMeet_cons hu).mp hok
    exact htrans s u t (hle u hu) (ih hok hrun)

/-- The steps of a part of a run. -/
theorem stepsMeet_middle {s t : σ} {as bs cs : List α} (hok : StepsMeet step ok s as)
    (hpre : bs ++ cs <+: as) (ht : run step s bs = some t) : StepsMeet step ok t cs := by
  induction bs generalizing s as with
  | nil =>
    rw [run_nil, Option.some.injEq] at ht
    subst ht
    induction cs generalizing s as with
    | nil => trivial
    | cons c cs ih =>
      obtain ⟨ds, rfl⟩ := hpre
      refine ⟨hok.1, ?_⟩
      intro u hu
      exact ih (hok.2 u hu) (List.prefix_append _ _)
  | cons b bs ih =>
    obtain ⟨u, hu, ht⟩ := run_cons_eq_some.mp ht
    obtain ⟨ds, rfl⟩ := hpre
    exact ih (hok.2 u hu) (List.prefix_append _ _) ht

/-- **A run goes up exactly if each of its steps does.** -/
theorem monotone_iff_stepsMeet {r : σ → σ → Prop} (hrefl : ∀ s, r s s)
    (htrans : ∀ s t u, r s t → r t u → r s u)
    (hstep : ∀ s a t, step s a = some t → (r s t ↔ ok s a)) {s t : σ} {as : List α}
    (hrun : run step s as = some t) : MonotoneRun step r s as ↔ StepsMeet step ok s as := by
  constructor
  · intro hmono
    induction as generalizing s with
    | nil => trivial
    | cons a as ih =>
      obtain ⟨u, hu, hrun⟩ := run_cons_eq_some.mp hrun
      rw [stepsMeet_cons hu]
      exact ⟨(hstep s a u hu).mp (hmono.head hu), ih hrun (monotoneRun_cons hmono hu)⟩
  · intro hok bs cs t u hpre ht hu
    refine le_of_run hrefl htrans ?_ hu
    refine stepsMeet_of_invariant (P := fun _ => True) (fun _ _ _ _ _ _ => trivial) ?_ trivial
      (stepsMeet_middle hok hpre ht)
    intro s a _ hoka t ht
    exact (hstep s a t ht).mpr hoka

/-! ## Simulation -/

section
variable {τ β : Type*} {step' : τ → β → Option τ} {view : σ → τ} {allowed : β → Prop}

theorem run_append_eq_some {s t u : σ} {as bs : List α} (hs : run step s as = some t)
    (ht : run step t bs = some u) : run step s (as ++ bs) = some u := by
  rw [run_append, hs]
  exact ht

/-- **What every step simulates, a run simulates.**  A step is seen as any number
of steps, none included. -/
theorem run_simulates
    (hstep : ∀ s a t, ok s a → step s a = some t →
      ∃ bs, (∀ b ∈ bs, allowed b) ∧ run step' (view s) bs = some (view t))
    {s t : σ} {as : List α} (hok : StepsMeet step ok s as) (hrun : run step s as = some t) :
    ∃ bs, (∀ b ∈ bs, allowed b) ∧ run step' (view s) bs = some (view t) := by
  induction as generalizing s with
  | nil =>
    rw [run_nil, Option.some.injEq] at hrun
    exact ⟨[], by simp, by rw [hrun]; rfl⟩
  | cons a as ih =>
    obtain ⟨u, hu, hrun⟩ := run_cons_eq_some.mp hrun
    obtain ⟨hoka, hok⟩ := (stepsMeet_cons hu).mp hok
    obtain ⟨bs, hbs, hfirst⟩ := hstep s a u hoka hu
    obtain ⟨cs, hcs, hrest⟩ := ih hok hrun
    refine ⟨bs ++ cs, ?_, run_append_eq_some hfirst hrest⟩
    intro b hb
    rcases List.mem_append.mp hb with hb | hb
    · exact hbs b hb
    · exact hcs b hb

/-! ## What a run emits -/

/-- What the steps of a run emit, one after the other. -/
def emitted (step : σ → α → Option σ) (emit : σ → α → List β) (s : σ) : List α → List β
  | [] => []
  | a :: as => emit s a ++ (step s a).elim [] fun t => emitted step emit t as

theorem emitted_cons {emit : σ → α → List β} {s t : σ} {a : α} (h : step s a = some t)
    (as : List α) : emitted step emit s (a :: as) = emit s a ++ emitted step emit t as := by
  rw [emitted, h, Option.elim_some]

/-- What only depends on the actions. -/
theorem emitted_eq_flatMap {f : α → List β} {s t : σ} {as : List α}
    (hrun : run step s as = some t) : emitted step (fun _ a => f a) s as = as.flatMap f := by
  induction as generalizing s with
  | nil => rfl
  | cons a as ih =>
    obtain ⟨u, hu, hrun⟩ := run_cons_eq_some.mp hrun
    rw [emitted_cons hu, ih hrun, List.flatMap_cons]

variable (view) in
/-- **What every step simulates, a run simulates**, where something is known of every
state, and it is said which steps are seen. -/
theorem run_emitted {P : σ → Prop} {emit : σ → α → List β}
    (hstep : ∀ s a t, P s → ok s a → step s a = some t →
      P t ∧ run step' (view s) (emit s a) = some (view t))
    {s t : σ} {as : List α} (hs : P s) (hok : StepsMeet step ok s as)
    (hrun : run step s as = some t) :
    P t ∧ run step' (view s) (emitted step emit s as) = some (view t) := by
  induction as generalizing s with
  | nil =>
    rw [run_nil, Option.some.injEq] at hrun
    exact ⟨hrun ▸ hs, congrArg (fun u => some (view u)) hrun⟩
  | cons a as ih =>
    obtain ⟨u, hu, hrun⟩ := run_cons_eq_some.mp hrun
    obtain ⟨hoka, hok⟩ := (stepsMeet_cons hu).mp hok
    obtain ⟨hPu, hfirst⟩ := hstep s a u hs hoka hu
    obtain ⟨hPt, hrest⟩ := ih hPu hok hrun
    refine ⟨hPt, ?_⟩
    rw [emitted_cons hu]
    exact run_append_eq_some hfirst hrest

end

end FlutterSugar.Lib
