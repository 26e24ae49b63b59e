import Mathlib.Data.List.Count

/-!
# Closing asynchronous generators

`shutdown_asyncgens` closes the live generators one after the other and reports
those that fail. An exception out of an `aclose` call itself, or out of the
exception handler, ends the whole shutdown.
-/

namespace Rsloop.Engine

open List

inductive AcloseOutcome where
  | succeeds
  | raisesWhenCalled
  | raisesWhenAwaited
  deriving DecidableEq

inductive ShutdownEvent (Agen : Type) where
  | aclose (agen : Agen)
  | callExceptionHandler (agen : Agen)
  deriving DecidableEq

variable {Agen : Type} (outcome : Agen → AcloseOutcome) (handlerRaises : Agen → Bool)

/-- What happens, and whether the awaitable ends without an exception. -/
def closeAsyncgens : List Agen → List (ShutdownEvent Agen) × Bool
  | [] => ([], true)
  | agen :: rest =>
    let (events, succeeded) := closeAsyncgens rest
    match outcome agen with
    | .succeeds => (.aclose agen :: events, succeeded)
    | .raisesWhenCalled => ([.aclose agen], false)
    | .raisesWhenAwaited =>
      if handlerRaises agen then
        ([.aclose agen, .callExceptionHandler agen], false)
      else
        (.aclose agen :: .callExceptionHandler agen :: events, succeeded)

/-- `active` are the registered weak references in the order of the snapshot. -/
def shutdownAsyncgens (active : List Agen) (alive : Agen → Bool) :
    List (ShutdownEvent Agen) × Bool :=
  closeAsyncgens outcome handlerRaises (active.filter alive)

/-- The loop over the generators goes on behind this one. -/
def ContainedFailure (agen : Agen) : Prop :=
  outcome agen ≠ .raisesWhenCalled ∧
    (outcome agen = .raisesWhenAwaited → handlerRaises agen = false)

def ClosedAndReported [DecidableEq Agen] (events : List (ShutdownEvent Agen)) (agen : Agen) :
    Prop :=
  events.count (.aclose agen) = 1 ∧ (outcome agen ≠ .succeeds → .callExceptionHandler agen ∈ events)

variable {outcome handlerRaises}

theorem closeAsyncgens_cons {agen : Agen}
    (contained : ContainedFailure outcome handlerRaises agen)
    (rest : List Agen) :
    (closeAsyncgens outcome handlerRaises (agen :: rest)).1 = .aclose agen ::
      ((if outcome agen = .succeeds then [] else [.callExceptionHandler agen]) ++
        (closeAsyncgens outcome handlerRaises rest).1) := by
  obtain ⟨called, reported⟩ := contained
  cases closed : outcome agen with
  | succeeds => simp [closeAsyncgens, closed]
  | raisesWhenCalled => exact absurd closed called
  | raisesWhenAwaited => simp [closeAsyncgens, closed, reported closed]

theorem aclose_mem_closeAsyncgens {agen : Agen} {agens : List Agen}
    (closed : .aclose agen ∈ (closeAsyncgens outcome handlerRaises agens).1) :
    agen ∈ agens := by
  induction agens with
  | nil => cases closed
  | cons first rest ih =>
    simp only [closeAsyncgens] at closed
    grind

section

variable [DecidableEq Agen] {first : Agen} {rest : List Agen} (others : first ∉ rest)

include others

/-- Behind a contained failure the rest of the generators decides. -/
theorem closedAndReported_cons
    (contained : ContainedFailure outcome handlerRaises first) :
    (∀ agen ∈ first :: rest, ClosedAndReported outcome
        (closeAsyncgens outcome handlerRaises (first :: rest)).1 agen) ↔
      ∀ agen ∈ rest, ClosedAndReported outcome
        (closeAsyncgens outcome handlerRaises rest).1 agen := by
  have unclosed : .aclose first ∉ (closeAsyncgens outcome handlerRaises rest).1 :=
    fun closed => others (aclose_mem_closeAsyncgens closed)
  rw [closeAsyncgens_cons contained, forall_mem_cons]
  have firstClosed : ClosedAndReported outcome (.aclose first ::
      ((if outcome first = .succeeds then [] else [.callExceptionHandler first]) ++
        (closeAsyncgens outcome handlerRaises rest).1)) first := by
    refine ⟨?_, fun failed => by simp [failed]⟩
    split <;> simp [count_eq_zero.mpr unclosed]
  refine (and_iff_right firstClosed).trans (forall₂_congr fun agen member => ?_)
  have different : first ≠ agen := fun same => others (same ▸ member)
  unfold ClosedAndReported
  split <;> simp [different, different.symm]

/-- Behind any other one the generators stay open. -/
theorem closedAndReported_cons_of_not_contained
    (escapes : ¬ContainedFailure outcome handlerRaises first) :
    (∀ agen ∈ first :: rest, ClosedAndReported outcome
        (closeAsyncgens outcome handlerRaises (first :: rest)).1 agen) ↔
      outcome first ≠ .raisesWhenCalled ∧ rest = [] := by
  unfold ContainedFailure at escapes
  cases closed : outcome first with
  | succeeds => simp [closed] at escapes
  | raisesWhenCalled => simp [closeAsyncgens, closed, ClosedAndReported]
  | raisesWhenAwaited =>
    simp only [closed, ne_eq, reduceCtorEq, not_false_eq_true, true_and, forall_const,
      Bool.not_eq_false] at escapes ⊢
    cases rest with
    | nil => simp [closeAsyncgens, closed, escapes, ClosedAndReported]
    | cons next =>
      have different : first ≠ next := fun same => others (by simp [same])
      simp [closeAsyncgens, closed, escapes, ClosedAndReported, different]

end

variable (outcome handlerRaises) in
/-- Every live generator is closed once, and reported if it fails, if and only
if no call of `aclose` raises and the handler returns for each failure but that
of the last generator. -/
theorem closedAndReported_iff_contained [DecidableEq Agen] (active : List Agen)
    (alive : Agen → Bool) (distinct : active.Nodup) :
    (∀ agen ∈ active, alive agen → ClosedAndReported outcome
        (shutdownAsyncgens outcome handlerRaises active alive).1 agen) ↔
      (∀ agen ∈ active, alive agen → outcome agen ≠ .raisesWhenCalled) ∧
        ∀ agen ∈ (active.filter alive).dropLast,
          outcome agen = .raisesWhenAwaited → handlerRaises agen = false := by
  have distinct : (active.filter alive).Nodup := distinct.filter _
  have live : ∀ property : Agen → Prop,
      (∀ agen ∈ active, alive agen → property agen) ↔
        ∀ agen ∈ active.filter alive, property agen := by
    simp [mem_filter]
  unfold shutdownAsyncgens
  rw [live, live]
  generalize active.filter alive = agens at distinct ⊢
  induction agens with
  | nil => simp
  | cons first rest ih =>
    obtain ⟨others, distinct⟩ := nodup_cons.mp distinct
    by_cases contained : ContainedFailure outcome handlerRaises first
    · refine (closedAndReported_cons others contained).trans ((ih distinct).trans ?_)
      rw [forall_mem_cons, and_iff_right contained.1]
      refine and_congr_right fun _ => ?_
      cases rest with
      | nil => simp
      | cons => rw [dropLast_cons_cons, forall_mem_cons, and_iff_right contained.2]
    · rw [closedAndReported_cons_of_not_contained others contained, forall_mem_cons]
      cases rest with
      | nil => simp
      | cons =>
        refine iff_of_false nofun fun meets => contained ⟨meets.1.1, meets.2 first ?_⟩
        simp

/-- Both generators fail when their `aclose` is awaited, and the handler raises
when it is given the second failure. -/
theorem closedAndReported_of_failedAwait :
    ClosedAndReported (fun _ => .raisesWhenAwaited)
      [.aclose 1, .callExceptionHandler 1, .aclose 2, .callExceptionHandler 2] 1 ∧
    ClosedAndReported (fun _ => .raisesWhenAwaited)
      [.aclose 1, .callExceptionHandler 1, .aclose 2, .callExceptionHandler 2] 2 := by
  have closed := (closedAndReported_iff_contained (fun _ => .raisesWhenAwaited)
    (fun agen => agen = 2) [1, 2] (fun _ => true) (by decide)).mpr (by decide)
  exact ⟨closed 1 (by decide) rfl, closed 2 (by decide) rfl⟩

/-- The first `aclose` call raises: it is not reported, and the second generator stays open. -/
theorem shutdownAsyncgens_leaves_open :
    ¬ ∀ agen ∈ [1, 2], ClosedAndReported (fun _ => .raisesWhenCalled)
      (shutdownAsyncgens (fun _ => .raisesWhenCalled) (fun _ => false) [1, 2] fun _ => true).1
      agen := by
  unfold ClosedAndReported
  decide

end Rsloop.Engine
