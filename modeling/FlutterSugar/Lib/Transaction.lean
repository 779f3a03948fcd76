import FlutterSugar.Lib.Run

/-!
# Two transactions on one shared state

A transaction reads the shared state once and later writes it once; what it
writes is planned on the snapshot it read, which may be stale by then.  Two of
them can be interleaved in any order, with four outcomes: one after the other in
either order, or both on the snapshot of the initial state, writing in either
order.

## Main definitions

* `Two`, `Two.step` — two agents that take turns on a shared state.
* `Phase`, `Phase.step` — a transaction before its read and before its write.
* `serial`, `overlapped` — the outcomes.
* `forall_run_iff` — what holds after every run holds of these outcomes.
-/

namespace FlutterSugar.Lib

/-! ## Two agents -/

/-- Two agents with a state each, and the state they share. -/
structure Two (σ π : Type*) where
  shared : σ
  first : π
  second : π

namespace Two
variable {σ π ρ : Type*}

/-- One step of one of the agents: of the first for `false`. -/
def step (agent : σ → π → Option (σ × π)) (x : Two σ π) : Bool → Option (Two σ π)
  | false => (agent x.shared x.first).map fun r => { x with shared := r.1, first := r.2 }
  | true => (agent x.shared x.second).map fun r => { x with shared := r.1, second := r.2 }

/-- The agents seen through a map of their states. -/
def map (f : π → ρ) (x : Two σ π) : Two σ ρ := ⟨x.shared, f x.first, f x.second⟩

variable {agent : σ → π → Option (σ × π)} {agent' : σ → ρ → Option (σ × ρ)} {f : π → ρ}

theorem step_map (h : ∀ s p, agent' s (f p) = (agent s p).map (Prod.map id f)) (x : Two σ π)
    (who : Bool) : step agent' (x.map f) who = (step agent x who).map (map f) := by
  cases who <;> simp [step, map, h, Function.comp_def]

/-- **A run of the agents is a run of their images**, if that is so of single
steps. -/
theorem run_map (h : ∀ s p, agent' s (f p) = (agent s p).map (Prod.map id f)) (x : Two σ π)
    (sched : List Bool) :
    run (step agent') (x.map f) sched = (run (step agent) x sched).map (map f) := by
  induction sched generalizing x with
  | nil => rfl
  | cons who sched ih =>
    rw [run_cons, run_cons, step_map h, Option.bind_map, Option.map_bind]
    exact congrArg _ (funext fun y => ih y)

end Two

/-! ## Transactions -/

/-- What a transaction does next. -/
inductive Phase (σ : Type*)
  /-- Read, and plan the write on what is read. -/
  | reading (plan : σ → σ → σ)
  | writing (write : σ → σ)
  | done

variable {σ : Type*}

/-- One step of a transaction, unless it is done. -/
def Phase.step (s : σ) : Phase σ → Option (σ × Phase σ)
  | .reading plan => some (s, .writing (plan s))
  | .writing write => some (write s, .done)
  | .done => none

/-- First `p`, then `q`. -/
def serial (p q : σ → σ → σ) (s : σ) : σ := q (p s s) (p s s)

/-- Both read `s`; then `p` writes, then `q`. -/
def overlapped (p q : σ → σ → σ) (s : σ) : σ := q s (p s s)

/-- What is known while two transactions run from `s`. -/
def TwoInv (p q : σ → σ → σ) (s : σ) (x : Two σ (Phase σ)) : Prop :=
  match x.first, x.second with
  | .reading p', .reading q' => x.shared = s ∧ p' = p ∧ q' = q
  | .writing f, .reading q' => x.shared = s ∧ f = p s ∧ q' = q
  | .reading p', .writing g => x.shared = s ∧ p' = p ∧ g = q s
  | .writing f, .writing g => x.shared = s ∧ f = p s ∧ g = q s
  | .done, .reading q' => x.shared = p s s ∧ q' = q
  | .reading p', .done => x.shared = q s s ∧ p' = p
  | .done, .writing g => x.shared = p s s ∧ (g = q s ∨ g = q (p s s))
  | .writing f, .done => x.shared = q s s ∧ (f = p s ∨ f = p (q s s))
  | .done, .done => x.shared = serial p q s ∨ x.shared = serial q p s ∨
      x.shared = overlapped p q s ∨ x.shared = overlapped q p s

/-- Every step of either transaction keeps what is known. -/
theorem twoInv_step {p q : σ → σ → σ} {s : σ} (x : Two σ (Phase σ)) (who : Bool)
    (y : Two σ (Phase σ)) (hx : TwoInv p q s x) (h : Two.step Phase.step x who = some y) :
    TwoInv p q s y := by
  obtain ⟨shared, first, second⟩ := x
  cases who <;> cases first <;> cases second <;>
    simp only [Two.step, Phase.step, Option.map_some, Option.map_none, Option.some.injEq,
      reduceCtorEq] at h <;> subst h <;> simp only [TwoInv] at hx ⊢
  all_goals grind [serial, overlapped]

/-- **Two transactions have four outcomes**, and what holds after all of their
runs holds of these. -/
theorem forall_run_iff (p q : σ → σ → σ) (s : σ) (P : σ → Prop) :
    (∀ sched t, run (Two.step Phase.step) ⟨s, .reading p, .reading q⟩ sched =
        some ⟨t, .done, .done⟩ → P t) ↔
      (P (serial p q s) ∧ P (serial q p s)) ∧ P (overlapped p q s) ∧ P (overlapped q p s) := by
  constructor
  · intro h
    exact ⟨⟨h [false, false, true, true] _ rfl, h [true, true, false, false] _ rfl⟩,
      h [false, true, false, true] _ rfl, h [false, true, true, false] _ rfl⟩
  · rintro ⟨⟨h₁, h₂⟩, h₃, h₄⟩ sched t hrun
    have hstart : TwoInv p q s ⟨s, .reading p, .reading q⟩ := ⟨rfl, rfl, rfl⟩
    have hend : TwoInv p q s ⟨t, .done, .done⟩ := run_invariant_of_step twoInv_step hstart hrun
    rcases hend with rfl | rfl | rfl | rfl
    · exact h₁
    · exact h₂
    · exact h₃
    · exact h₄

end FlutterSugar.Lib
