import Mathlib.Data.List.Basic

/-!
# Runs of partial step functions

A concurrent component is a type of states with a partial step function: an
action names who moves and how the environment answers, and `none` says that
the move is not possible. A run is a list of actions. Conditions on a run are
guards: they are asked of every action in the state in which it is taken.
-/

namespace Rsloop.Transition

universe u v

variable {State : Type u} {Action : Type v}

/-- The state reached by the listed actions, if each of them is possible. -/
def run (step : State → Action → Option State) : State → List Action → Option State
  | s, [] => some s
  | s, action :: rest =>
    match step s action with
    | none => none
    | some next => run step next rest

/-- Every action of the run is taken in a state that meets the guard. -/
def Guarded (step : State → Action → Option State)
    (guard : State → Action → Prop) : State → List Action → Prop
  | _, [] => True
  | s, action :: rest =>
    guard s action ∧
      match step s action with
      | none => True
      | some next => Guarded step guard next rest

instance decidableGuarded (step : State → Action → Option State) (guard : State → Action → Prop)
    [decideGuard : ∀ s action, Decidable (guard s action)] :
    ∀ (s : State) (actions : List Action), Decidable (Guarded step guard s actions)
  | _, [] => .isTrue trivial
  | s, action :: rest =>
    match decideGuard s action with
    | .isFalse refused => .isFalse fun guarded => refused guarded.1
    | .isTrue met =>
      match equation : step s action with
      | none => .isTrue ⟨met, by rw [equation]; trivial⟩
      | some next =>
        match decidableGuarded step guard next rest with
        | .isTrue later => .isTrue ⟨met, by rw [equation]; exact later⟩
        | .isFalse refused =>
          .isFalse fun guarded => refused (by
            have later := guarded.2
            rw [equation] at later
            exact later)

variable {step : State → Action → Option State} {guard : State → Action → Prop} {s last : State}

theorem run_cons_eq_some {action : Action} {rest : List Action} :
    run step s (action :: rest) = some last ↔ ∃ next, step s action = some next ∧
        run step next rest = some last := by
  cases moved : step s action with
  | none | some next => simp [run, moved]

theorem exists_run_of_any (step : State → Action → Option State) (s : State)
    (actions : List Action) (property : State → Prop) [DecidablePred property]
    (evaluated : (run step s actions).any (fun last => decide (property last))) :
    ∃ last, run step s actions = some last ∧ property last := by
  cases reached : run step s actions with
  | none => simp [reached] at evaluated
  | some last =>
    rw [reached] at evaluated
    exact ⟨last, rfl, of_decide_eq_true evaluated⟩

theorem exists_run_imp {step : State → Action → Option State} {s : State}
    {actions : List Action} {goal : State → Prop} (property : State → Prop)
    [DecidablePred property]
    (evaluated : (run step s actions).any (fun last => decide (property last)))
    (derived : ∀ last, run step s actions = some last → property last → goal last) :
    ∃ last, run step s actions = some last ∧ goal last := by
  obtain ⟨last, reached, met⟩ := exists_run_of_any step s actions property evaluated
  exact ⟨last, reached, derived last reached met⟩

/-- Likewise for a run that goes on behind a state of interest. -/
theorem exists_runs_of_any (step : State → Action → Option State) (s : State)
    (first second : List Action) (property : State → State → Prop)
    [decideProperty : ∀ middle last, Decidable (property middle last)]
    (evaluated : (run step s first).any (fun middle =>
        (run step middle second).any fun last =>
          decide (property middle last))) :
    ∃ middle last, run step s first = some middle ∧
      run step middle second = some last ∧ property middle last := by
  obtain ⟨middle, reached, later⟩ :=
    exists_run_of_any step s first (fun middle => (run step middle second).any (fun last =>
        decide (property middle last))) (by simpa using evaluated)
  obtain ⟨last, continued, met⟩ := exists_run_of_any step middle second (property middle) later
  exact ⟨middle, last, reached, continued, met⟩

theorem run_append (s : State) (first second : List Action) :
    run step s (first ++ second) =
      (run step s first).bind fun middle => run step middle second := by
  induction first generalizing s with
  | nil => rfl
  | cons action _ ih =>
    simp only [List.cons_append, run]
    cases step s action with
    | none => rfl
    | some next => exact ih next

variable {actions : List Action}

/-- Preserved by every guarded step, hence by every guarded run. -/
theorem invariant_of_run (invariant : State → Prop) (preserved : ∀ s action next,
      invariant s → guard s action → step s action = some next → invariant next)
    (initially : invariant s)
    (guarded : Guarded step guard s actions)
    (reached : run step s actions = some last) : invariant last := by
  induction actions generalizing s with
  | nil =>
    cases reached
    exact initially
  | cons action _ ih =>
    obtain ⟨next, moved, later⟩ := run_cons_eq_some.mp reached
    have guardedRest := guarded.2
    rw [moved] at guardedRest
    exact ih (preserved s action next initially guarded.1 moved) guardedRest later

theorem guarded_of_forall
    (always : ∀ action ∈ actions, ∀ current, guard current action) :
    Guarded step guard s actions := by
  induction actions generalizing s with
  | nil => trivial
  | cons action _ ih =>
    refine ⟨always action List.mem_cons_self s, ?_⟩
    cases step s action with
    | none => trivial
    | some =>
      exact ih fun other mem =>
        always other (List.mem_cons_of_mem _ mem)

theorem Guarded.and {other : State → Action → Prop}
    (first : Guarded step guard s actions)
    (second : Guarded step other s actions) :
    Guarded step (fun s action => guard s action ∧ other s action) s actions := by
  induction actions generalizing s with
  | nil => trivial
  | cons action _ ih =>
    refine ⟨⟨first.1, second.1⟩, ?_⟩
    have firstRest := first.2
    have secondRest := second.2
    cases moved : step s action with
    | none => trivial
    | some =>
      rw [moved] at firstRest secondRest
      exact ih firstRest secondRest

theorem Guarded.of_append {middle : State} {first second : List Action}
    (guarded : Guarded step guard s (first ++ second))
    (reached : run step s first = some middle) :
    Guarded step guard middle second := by
  induction first generalizing s with
  | nil =>
    cases reached
    exact guarded
  | cons _ _ ih =>
    obtain ⟨next, moved, later⟩ := run_cons_eq_some.mp reached
    have guardedRest := guarded.2
    rw [moved] at guardedRest
    exact ih guardedRest later

end Rsloop.Transition
