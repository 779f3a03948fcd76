import FlutterSugar.Lib.Run

/-!
# Any number of agents on one shared state

Agents that work on one shared state take turns, in any order.  An event from
outside may change the shared state and add agents; no agent is ever removed, so
that an agent is named by its position.

## Main definitions

* `Pool`, `Pool.step` — agents, and the step of one of them or an event.
* `Pool.Holds` — an invariant of the shared state and one of each agent.
* `Pool.holds_run` — what each agent keeps for itself and for all others, every
  run keeps.
* `Pool.view` — the part of a pool that concerns some of its agents, as a pool.
-/

namespace FlutterSugar.Lib

/-- Agents with a state each, and the state they share. -/
structure Pool (σ π : Type*) where
  shared : σ
  agents : List π

namespace Pool

variable {σ π κ ι : Type*}

inductive Act (κ ι : Type*)
  | event (e : κ)
  /-- The agent at a position makes a step, with an outcome of it. -/
  | move (n : ℕ) (i : ι)

/-- An agent makes a step unless it refuses; events are never refused. -/
def step (agent : ι → σ → π → Option (σ × π)) (event : κ → σ → σ × List π) (x : Pool σ π) :
    Act κ ι → Option (Pool σ π)
  | .event e => some ⟨(event e x.shared).1, x.agents ++ (event e x.shared).2⟩
  | .move n i => x.agents[n]?.bind fun p =>
    (agent i x.shared p).map fun r => ⟨r.1, x.agents.set n r.2⟩

variable {agent : ι → σ → π → Option (σ × π)} {event : κ → σ → σ × List π}

@[simp] theorem step_event (x : Pool σ π) (e : κ) : step agent event x (.event e) =
    some ⟨(event e x.shared).1, x.agents ++ (event e x.shared).2⟩ := rfl

/-- What the step of an agent has found. -/
theorem step_move_eq_some {x y : Pool σ π} {n : ℕ} {i : ι} :
    step agent event x (.move n i) = some y ↔ ∃ p s' p', x.agents[n]? = some p ∧
      agent i x.shared p = some (s', p') ∧ y = ⟨s', x.agents.set n p'⟩ := by
  simp only [step, Option.bind_eq_some_iff, Option.map_eq_some_iff]
  constructor
  · intro h
    obtain ⟨p, hp, ⟨s', p'⟩, hr, hy⟩ := h
    exact ⟨p, s', p', hp, hr, hy.symm⟩
  · intro h
    obtain ⟨p, s', p', hp, hr, rfl⟩ := h
    exact ⟨p, hp, (s', p'), hr, rfl⟩

/-! ## Invariants -/

section
variable {I : σ → Prop} {J : σ → π → Prop}

/-- An invariant of the shared state, and one of each agent. -/
structure Holds (I : σ → Prop) (J : σ → π → Prop) (x : Pool σ π) : Prop where
  shared : I x.shared
  agents : ∀ p ∈ x.agents, J x.shared p

theorem Holds.of_getElem? {x : Pool σ π} (h : Holds I J x) {n : ℕ} {p : π} (hp : x.agents[n]? = some p) :
    J x.shared p :=
  h.agents p (List.mem_of_getElem? hp)

/-- What a step of an agent has to keep: the invariants of the shared state and
of itself, and that of any other agent. -/
def Keeps (I : σ → Prop) (J : σ → π → Prop) (s : σ) (p : π) (s' : σ) (p' : π) : Prop :=
  I s → J s p → I s' ∧ J s' p' ∧ ∀ q, J s q → J s' q

theorem holds_move {x : Pool σ π} (hx : Holds I J x) {n : ℕ} {p p' : π} {s' : σ}
    (hp : x.agents[n]? = some p) (hkeeps : Keeps I J x.shared p s' p') :
    Holds I J ⟨s', x.agents.set n p'⟩ := by
  obtain ⟨hshared, hp', hothers⟩ := hkeeps hx.shared (hx.of_getElem? hp)
  refine ⟨hshared, ?_⟩
  intro q hq
  rcases List.mem_or_eq_of_mem_set hq with hold | rfl
  · exact hothers q (hx.agents q hold)
  · exact hp'

/-- What an event has to keep: the same, and it adds agents with their
invariant. -/
def Starts (event : κ → σ → σ × List π) (I : σ → Prop) (J : σ → π → Prop) (s : σ) (e : κ) : Prop :=
  I s → I (event e s).1 ∧ (∀ p ∈ (event e s).2, J (event e s).1 p) ∧ ∀ q, J s q → J (event e s).1 q

theorem holds_event {x : Pool σ π} (hx : Holds I J x) {e : κ}
    (hstarts : Starts event I J x.shared e) :
    Holds I J ⟨(event e x.shared).1, x.agents ++ (event e x.shared).2⟩ := by
  obtain ⟨hshared, hnew, hothers⟩ := hstarts hx.shared
  refine ⟨hshared, ?_⟩
  intro q hq
  rcases List.mem_append.mp hq with hold | hq
  · exact hothers q (hx.agents q hold)
  · exact hnew q hq

/-- **What each agent keeps for itself and for all others, every run keeps.**  The
outcomes may be restricted to some. -/
theorem holds_run {ok : Pool σ π → Act κ ι → Prop}
    (hagent : ∀ x n i, ok x (.move n i) → ∀ p s' p', x.agents[n]? = some p →
      agent i x.shared p = some (s', p') → Keeps I J x.shared p s' p')
    (hevent : ∀ x e, ok x (.event e) → Starts event I J x.shared e)
    {x y : Pool σ π} {as : List (Act κ ι)} (hx : Holds I J x)
    (hok : StepsMeet (step agent event) ok x as) (hrun : run (step agent event) x as = some y) :
    Holds I J y := by
  refine run_invariant (P := Holds I J) ?_ hx hok hrun
  intro x a y hx hoka hstep
  cases a with
  | event e =>
    rw [step_event, Option.some.injEq] at hstep
    exact hstep ▸ holds_event hx (hevent x e hoka)
  | move n i =>
    obtain ⟨p, s', p', hp, hr, rfl⟩ := step_move_eq_some.mp hstep
    exact holds_move hx hp (hagent x n i hoka p s' p' hp hr)

end

/-! ## A part of the agents -/

section
variable {σ' π' κ' ι' : Type*} {agent' : ι' → σ' → π' → Option (σ' × π')}
variable {event' : κ' → σ' → σ' × List π'} {g : σ → σ'} {f : π → Option π'}

/-- What concerns the agents on which `f` is defined, seen through `g`. -/
def view (g : σ → σ') (f : π → Option π') (x : Pool σ π) : Pool σ' π' :=
  ⟨g x.shared, x.agents.filterMap f⟩

/-- An agent that is not in the view can be replaced by another one. -/
theorem filterMap_set_none {l : List π} {n : ℕ} {p p' : π} (hp : l[n]? = some p)
    (hf : f p = none) (hf' : f p' = none) : (l.set n p').filterMap f = l.filterMap f := by
  induction l generalizing n with
  | nil => simp at hp
  | cons q l ih =>
    cases n with
    | zero =>
      rw [List.getElem?_cons_zero, Option.some.injEq] at hp
      rw [List.set_cons_zero, List.filterMap_cons_none hf', hp, List.filterMap_cons_none hf]
    | succ n =>
      rw [List.getElem?_cons_succ] at hp
      rw [List.set_cons_succ, List.filterMap_cons, List.filterMap_cons, ih hp]

/-- An agent in the view has a position there. -/
theorem exists_filterMap_set {l : List π} {n : ℕ} {p p' : π} {q q' : π'} (hp : l[n]? = some p)
    (hf : f p = some q) (hf' : f p' = some q') :
    ∃ m, (l.filterMap f)[m]? = some q ∧ (l.set n p').filterMap f = (l.filterMap f).set m q' := by
  induction l generalizing n with
  | nil => simp at hp
  | cons r l ih =>
    cases n with
    | zero =>
      rw [List.getElem?_cons_zero, Option.some.injEq] at hp
      refine ⟨0, ?_, ?_⟩
      · rw [hp, List.filterMap_cons_some hf, List.getElem?_cons_zero]
      · rw [List.set_cons_zero, List.filterMap_cons_some hf', hp, List.filterMap_cons_some hf,
          List.set_cons_zero]
    | succ n =>
      rw [List.getElem?_cons_succ] at hp
      obtain ⟨m, hm, hset⟩ := ih hp
      cases hr : f r with
      | none =>
        refine ⟨m, ?_, ?_⟩
        · rw [List.filterMap_cons_none hr, hm]
        · rw [List.set_cons_succ, List.filterMap_cons_none hr, List.filterMap_cons_none hr, hset]
      | some r' =>
        refine ⟨m + 1, ?_, ?_⟩
        · rw [List.filterMap_cons_some hr, List.getElem?_cons_succ, hm]
        · rw [List.set_cons_succ, List.filterMap_cons_some hr, List.filterMap_cons_some hr,
            List.set_cons_succ, hset]

/-- A step of an agent in the view is a step there. -/
theorem view_move {x : Pool σ π} {n : ℕ} {p p' : π} {s' : σ} {q q' : π'} {i' : ι'}
    (hp : x.agents[n]? = some p) (hf : f p = some q) (hf' : f p' = some q')
    (hstep : agent' i' (g x.shared) q = some (g s', q')) :
    ∃ m, step agent' event' (view g f x) (.move m i') =
      some (view g f ⟨s', x.agents.set n p'⟩) := by
  obtain ⟨m, hm, hset⟩ := exists_filterMap_set hp hf hf'
  refine ⟨m, step_move_eq_some.mpr ⟨q, g s', q', hm, hstep, ?_⟩⟩
  rw [view, hset]
  rfl

/-- A step of another agent is not seen if it does not change what is seen. -/
theorem view_other {x : Pool σ π} {n : ℕ} {p p' : π} {s' : σ} (hp : x.agents[n]? = some p)
    (hf : f p = none) (hf' : f p' = none) (hg : g s' = g x.shared) :
    view g f ⟨s', x.agents.set n p'⟩ = view g f x := by
  rw [view, view, filterMap_set_none hp hf hf', hg]

theorem view_event {x : Pool σ π} {s' : σ} {ps : List π} :
    view g f ⟨s', x.agents ++ ps⟩ = ⟨g s', (view g f x).agents ++ ps.filterMap f⟩ := by
  rw [view, view, List.filterMap_append]

end

end Pool

end FlutterSugar.Lib
