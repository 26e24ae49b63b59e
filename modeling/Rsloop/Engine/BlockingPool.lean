import Mathlib.Data.List.Perm.Basic
import Rsloop.Transition

/-!
# The bounded blocking pool

Jobs of `spawn_bounded` share a limited number of slots. A worker that has run a
job keeps its slot for the next one that waits, and gives it up when none does.
-/

namespace Rsloop.Engine

open Transition List

/-- A call of `run_slot`. The shared pool starts its first job some time after it
was handed over. -/
structure Slot (Job : Type) where
  job : Job
  executing : Bool
  deriving DecidableEq

/-- `running` and `waiting` are behind the lock. The rest is history: `queued` are the
jobs that had to wait, `unqueued` those of them that a worker has taken. -/
structure BoundedState (Job : Type) where
  running : Nat
  waiting : List Job
  slots : List (Slot Job)
  submitted : List Job
  started : List Job
  queued : List Job
  unqueued : List Job
  finished : List Job
  deriving DecidableEq

def BoundedState.new (Job : Type) : BoundedState Job :=
  ⟨0, [], [], [], [], [], [], []⟩

inductive BoundedAction (Job : Type) where
  | submit (job : Job)
  | begin (index : Nat)
  | finish (index : Nat) (panicked : Bool)

variable {Job : Type}

/-- The slots where the one at an index has turned into others. -/
def replaceSlot (slots : List (Slot Job)) (index : Nat) (next : List (Slot Job)) :
    List (Slot Job) :=
  next ++ slots.eraseIdx index

def boundedStep (limit : Nat) (s : BoundedState Job) :
    BoundedAction Job → Option (BoundedState Job)
  | .submit job =>
    let submitted := s.submitted ++ [job]
    if s.running ≥ limit then
      some { s with
        waiting := s.waiting ++ [job]
        submitted := submitted
        queued := s.queued ++ [job] }
    else
      some { s with
        running := s.running + 1
        slots := ⟨job, false⟩ :: s.slots
        submitted := submitted }
  | .begin index =>
    match s.slots[index]? with
    | some ⟨job, false⟩ =>
      some { s with
        slots := replaceSlot s.slots index [⟨job, true⟩]
        started := s.started ++ [job] }
    | some ⟨_, true⟩ | none => none
  | .finish index _ =>
    match s.slots[index]? with
    | some ⟨job, true⟩ =>
      let s := { s with finished := s.finished ++ [job] }
      match s.waiting with
      | next :: rest =>
        some { s with
          waiting := rest
          slots := replaceSlot s.slots index [⟨next, true⟩]
          started := s.started ++ [next]
          unqueued := s.unqueued ++ [next] }
      | [] =>
        some { s with
          running := s.running - 1
          slots := replaceSlot s.slots index [] }
    | some ⟨_, false⟩ | none => none

/-- Jobs with a slot that the shared pool has not started yet. -/
def scheduledJobs (slots : List (Slot Job)) : List Job :=
  (slots.filter fun slot => !slot.executing).map Slot.job

theorem perm_replaceSlot {slots : List (Slot Job)} {index : Nat}
    {slot : Slot Job}
    (isSlot : slots[index]? = some slot) : (replaceSlot slots index [slot]).Perm slots := by
  obtain ⟨inside, rfl⟩ := List.getElem?_eq_some_iff.mp isSlot
  exact getElem_cons_eraseIdx_perm inside

/-- Slots are held by the workers that run, and every job is counted once. -/
structure SlotsBounded [DecidableEq Job] (limit : Nat) (s : BoundedState Job) : Prop where
  held : s.slots.length = s.running
  bounded : s.running ≤ limit
  full : s.waiting ≠ [] → s.running = limit
  jobs : ∀ job, s.submitted.count job =
    s.started.count job + (scheduledJobs s.slots).count job + s.waiting.count job
  order : s.queued = s.unqueued ++ s.waiting
  inOrder : s.queued.Sublist s.submitted
  taken : s.unqueued.Sublist s.started
  finishes : s.submitted.length =
    s.finished.length + s.slots.length + s.waiting.length

variable [DecidableEq Job] {limit : Nat} {s next : BoundedState Job}

theorem count_scheduledJobs {slots others : List (Slot Job)}
    (perm : slots.Perm others)
    (job : Job) : (scheduledJobs slots).count job = (scheduledJobs others).count job :=
  ((perm.filter _).map _).count_eq job

theorem slotsBounded_boundedStep {action : BoundedAction Job}
    (inv : SlotsBounded limit s)
    (moved : boundedStep limit s action = some next) :
    SlotsBounded limit next := by
  obtain ⟨held, bounded, full, jobs, order, inOrder, taken, finishes⟩ := inv
  cases action with
  | submit job =>
    simp only [boundedStep] at moved
    split at moved
    next busy =>
      cases moved
      refine ⟨held, bounded, fun _ => Nat.le_antisymm bounded busy, ?_, ?_,
        inOrder.append_right _, taken, ?_⟩
      · intro other
        simp only [count_append, jobs other]
        omega
      · simp [order]
      · simp [finishes]
        omega
    next free =>
      cases moved
      refine ⟨by simp [held], Nat.lt_of_not_le free, fun waits => absurd (full waits) (by omega),
        ?_, order, inOrder.trans (sublist_append_left _ _), taken, ?_⟩
      · intro other
        simp [scheduledJobs, count_append, count_cons, jobs other]
        omega
      · simp [finishes]
        omega
  | begin index =>
    simp only [boundedStep] at moved
    split at moved
    next job isSlot =>
      cases moved
      have perm := perm_replaceSlot isSlot
      refine ⟨?_, bounded, full, ?_, order, inOrder, taken.trans (sublist_append_left _ _), ?_⟩
      · rw [← held, ← perm.length_eq]
        rfl
      · intro other
        have := count_scheduledJobs perm other
        have := jobs other
        simp [scheduledJobs, replaceSlot, count_append, count_cons] at *
        omega
      · rw [finishes, ← perm.length_eq]
        rfl
    · cases moved
    · cases moved
  | finish index panicked =>
    simp only [boundedStep] at moved
    split at moved
    next job isSlot =>
      have perm := perm_replaceSlot isSlot
      have slots := perm.length_eq
      split at moved
      next first rest waits =>
        cases moved
        rw [waits] at full jobs order finishes
        refine ⟨?_, bounded, fun _ => full (cons_ne_nil _ _), ?_, ?_, inOrder,
          taken.append_right _, ?_⟩
        · rw [← held, ← slots]
          rfl
        · intro other
          have := count_scheduledJobs perm other
          have := jobs other
          simp [scheduledJobs, replaceSlot, count_append, count_cons] at *
          omega
        · simp [order]
        · simp [replaceSlot] at slots finishes ⊢
          omega
      next waits =>
        cases moved
        have fewer : (replaceSlot s.slots index []).length + 1 = s.slots.length := slots
        refine ⟨by simp only; omega, by simp only; omega, fun waiting => absurd waits waiting, ?_,
          by rw [order, waits], inOrder, taken, ?_⟩
        · intro other
          have := count_scheduledJobs perm other
          have := jobs other
          simp [scheduledJobs, replaceSlot, waits] at *
          omega
        · simp [waits] at finishes ⊢
          omega
    · cases moved
    · cases moved

/-- No more than `limit` jobs run at once, every job is in one place, jobs that wait
do so in the order of submission and only while all slots are taken, and no slot is
left when all jobs have ended. -/
theorem boundedPool_slots (limit : Nat) (actions : List (BoundedAction Job))
    (reached : run (boundedStep limit) (.new Job) actions = some s) :
    s.slots.countP Slot.executing ≤ limit ∧
      s.submitted.Perm (s.started ++ (scheduledJobs s.slots ++ s.waiting)) ∧
      (s.queued = s.unqueued ++ s.waiting ∧ s.queued.Sublist s.submitted ∧
        s.unqueued.Sublist s.started) ∧
      (s.waiting ≠ [] → s.running = limit) ∧
      (s.finished.length = s.submitted.length → s.running = 0) := by
  have inv : SlotsBounded limit s := by
    have free : Guarded (boundedStep limit) (fun _ _ => True) (.new Job) actions :=
      guarded_of_forall fun _ _ _ => trivial
    refine invariant_of_run (SlotsBounded limit) ?_ ?_ free reached
    · exact fun _ _ _ inv _ moved => slotsBounded_boundedStep inv moved
    · exact ⟨rfl, Nat.zero_le _, nofun, fun _ => rfl, rfl, .slnil, .slnil, rfl⟩
  have executing := countP_le_length (p := Slot.executing) (l := s.slots)
  have held := inv.held
  have bounded := inv.bounded
  have finishes := inv.finishes
  refine ⟨by omega, ?_, ⟨inv.order, inv.inOrder, inv.taken⟩, inv.full, by omega⟩
  rw [perm_iff_count]
  intro job
  simp only [count_append, inv.jobs job, Nat.add_assoc]

/-- With one slot the second job waits for the first, which panics. -/
theorem boundedPool_slots_handedOver :
    ∃ s, run (boundedStep 1) (.new Nat)
        [.submit 0, .submit 1, .submit 2, .begin 0, .finish 0 true] = some s ∧
      s.unqueued = [1] ∧ s.waiting = [2] ∧ s.running = 1 := by
  refine exists_run_imp (fun s => s.unqueued = [1] ∧ s.waiting = [2]) (by decide) ?_
  rintro s reached ⟨taken, waits⟩
  exact ⟨taken, waits, (boundedPool_slots 1 _ reached).2.2.2.1 (by simp [waits])⟩

end Rsloop.Engine
