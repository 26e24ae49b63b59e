import Mathlib.Algebra.Order.Group.Multiset
import Mathlib.Tactic.Abel
import Rsloop.Timers.TimerQueue
import Rsloop.Transition

/-!
# Collecting due timers

Timers that a run's own thread schedules go to the queue of the run, all others
to a heap behind a lock and a dirty flag. `LocalTimers::collect` imports that heap
if the flag is set, may throw out cancelled timers, reads the clock and moves
what is due to the ready queue; dropping `LocalTimers` at the end of a run gives
the rest back. The other threads cancel, schedule and set the flag between any
two of these steps.
-/

namespace Rsloop.Timers

open Transition List

variable {Time Callback : Type} [LinearOrder Time]

/-! ## The model -/

/-- A call of `collect`: the clock it read, the timers it saw, and those it
moved, each with whether it was cancelled at that moment. -/
structure Collection (Time Callback : Type) where
  time : Time
  visible : List (TimerEntry Time Callback)
  moved : List (TimerEntry Time Callback × Bool)

/-- The next thing `collect` does. -/
inductive CollectPosition (Time Callback : Type) where
  | idle
  | imports
  | counts
  | reads (visible : List (TimerEntry Time Callback))
      (moved : List (TimerEntry Time Callback × Bool))
  | pops (call : Collection Time Callback)

structure LocalTimers (Time Callback : Type) [LinearOrder Time] where
  heap : TimerQueue Time Callback
  pc : CollectPosition Time Callback

/-- `publishing` threads have put timers on the shared heap and still have to set
its flag. `scheduled` and `calls` are the history. -/
structure TimersState (Time Callback : Type) [LinearOrder Time] where
  now : Time
  cancelled : List Callback
  pendingTimers : List (TimerEntry Time Callback)
  pendingTimersDirty : Bool
  publishing : Nat
  active : Option (LocalTimers Time Callback)
  scheduled : List (TimerEntry Time Callback)
  calls : List (Collection Time Callback)

def TimersState.new (now : Time) : TimersState Time Callback where
  now := now
  cancelled := []
  pendingTimers := []
  pendingTimersDirty := false
  publishing := 0
  active := none
  scheduled := []
  calls := []

/-- `scheduleLocal` and `scheduleRemote` are the two ways of `enqueue_timer`. The
count of cancelled timers that `compact` reads is a hint of any value, and the
entries it finds cancelled are some of those that are by then. -/
inductive TimersAction (Time Callback : Type) where
  | tick (time : Time)
  | cancel (cb : Callback)
  | scheduleLocal (entry : TimerEntry Time Callback) (immediate : Bool)
  | scheduleRemote (entry : TimerEntry Time Callback)
  | publish
  | startRun
  | collect
  | importPending
  | compact (observed : Nat) (found : TimerEntry Time Callback → Bool)
  | readClock
  | popDue
  | endRun

section Step

variable [DecidableEq Callback] (s : TimersState Time Callback)

def TimersState.isCancelled (entry : TimerEntry Time Callback) : Bool :=
  s.cancelled.contains entry.callback

def TimersState.setActive (heap : TimerQueue Time Callback)
    (pc : CollectPosition Time Callback) : TimersState Time Callback :=
  { s with active := some ⟨heap, pc⟩ }

def TimersState.returns (heap : TimerQueue Time Callback)
    (call : Collection Time Callback) : TimersState Time Callback :=
  { s with active := some ⟨heap, .idle⟩, calls := s.calls ++ [call] }

/-- One turn of the loop of `collect`: `peek` answers the entry that `pop` takes. -/
def TimersState.popNext (heap : TimerQueue Time Callback)
    (call : Collection Time Callback) : TimersState Time Callback :=
  match heap.pop with
  | none => s.returns heap call
  | some (entry, rest) =>
    if entry.when ≤ call.time ∨ s.isCancelled entry then
      s.setActive rest (.pops { call with
        moved := call.moved ++ [(entry, s.isCancelled entry)] })
    else
      s.returns heap call

def timersStep : TimersAction Time Callback → Option (TimersState Time Callback)
  | .tick time => if s.now ≤ time then some { s with now := time } else none
  | .cancel cb => some { s with cancelled := cb :: s.cancelled }
  | .scheduleLocal entry immediate =>
    match s.active with
    | some ⟨heap, .idle⟩ =>
      some { s with
        active := some ⟨heap.push entry immediate, .idle⟩
        scheduled := s.scheduled ++ [entry] }
    | _ => none
  | .scheduleRemote entry =>
    some { s with
      pendingTimers := entry :: s.pendingTimers
      publishing := s.publishing + 1
      scheduled := s.scheduled ++ [entry] }
  | .publish =>
    if s.publishing = 0 then none
    else
      some { s with pendingTimersDirty := true, publishing := s.publishing - 1 }
  | .startRun =>
    match s.active with
    | none => some (s.setActive .new .idle)
    | some _ => none
  | .collect =>
    match s.active with
    | some ⟨heap, .idle⟩ =>
      some { s with
        pendingTimersDirty := false
        active := some ⟨heap,
          if s.pendingTimersDirty then .imports else .counts⟩ }
    | _ => none
  | .importPending =>
    match s.active with
    | some ⟨heap, .imports⟩ =>
      some { s with
        pendingTimers := []
        active := some ⟨heap.appendHeap s.pendingTimers, .counts⟩ }
    | _ => none
  | .compact observed found =>
    match s.active with
    | some ⟨heap, .counts⟩ =>
      if 100 < observed ∧ heap.len / 2 < observed then
        if ∀ entry ∈ heap.entries, found entry → s.isCancelled entry then
          some (s.setActive (heap.compactCancelled found) (.reads heap.entries
              ((heap.compacted found).map fun entry => (entry, true))))
        else none
      else some (s.setActive heap (.reads heap.entries []))
    | _ => none
  | .readClock =>
    match s.active with
    | some ⟨heap, .reads visible moved⟩ =>
      if heap.isEmpty then
        some (s.returns heap ⟨s.now, visible, moved⟩)
      else
        some (s.setActive heap (.pops ⟨s.now, visible, moved⟩))
    | _ => none
  | .popDue =>
    match s.active with
    | some ⟨heap, .pops call⟩ => some (s.popNext heap call)
    | _ => none
  | .endRun =>
    match s.active with
    | some ⟨heap, .idle⟩ =>
      if heap.isEmpty then some { s with active := none }
      else
        some { s with
          active := none
          pendingTimers := heap.drainInto s.pendingTimers
          publishing := s.publishing + 1 }
    | _ => none

end Step

/-! ## What a call does -/

/-- A call at a time moves all it sees but what is later, moves nothing that is
later unless it is cancelled, and moves the others in their order. -/
structure Collection.Exact (call : Collection Time Callback) : Prop where
  moves : ∃ left, call.visible.Perm (call.moved.map Prod.fst ++ left) ∧
    ∀ entry ∈ left, call.time < entry.when
  due : ∀ entry, (entry, false) ∈ call.moved → entry.when ≤ call.time
  ordered : (call.moved.filter fun moved => !moved.2).Pairwise
    fun earlier later => earlier.1.key ≤ later.1.key

/-- A call in its loop. -/
structure Collection.Underway (call : Collection Time Callback)
    (heap : TimerQueue Time Callback) : Prop where
  visible : call.visible.Perm (call.moved.map Prod.fst ++ heap.entries)
  due : ∀ entry, (entry, false) ∈ call.moved → entry.when ≤ call.time
  ordered : (call.moved.filter fun moved => !moved.2).Pairwise
    fun earlier later => earlier.1.key ≤ later.1.key
  first : ∀ entry, (entry, false) ∈ call.moved → ∀ other ∈ heap.entries, entry.key ≤ other.key

variable {call : Collection Time Callback} {heap rest : TimerQueue Time Callback}
  {entry : TimerEntry Time Callback}

theorem Collection.Underway.exact (underway : call.Underway heap)
    (later : ∀ entry ∈ heap.entries, call.time < entry.when) : call.Exact where
  moves := ⟨heap.entries, underway.visible, later⟩
  due := underway.due
  ordered := underway.ordered

theorem Collection.underway_of_cancelled
    (visible : call.visible.Perm (call.moved.map Prod.fst ++ heap.entries))
    (cancelled : ∀ moved ∈ call.moved, moved.2) : call.Underway heap where
  visible := visible
  due := fun entry mem => Bool.noConfusion (cancelled (entry, false) mem)
  ordered := by
    rw [filter_eq_nil_iff.mpr]
    · exact List.Pairwise.nil
    · intro moved mem
      simp [cancelled moved mem]
  first := fun entry mem => Bool.noConfusion (cancelled (entry, false) mem)

theorem Collection.Underway.pop (underway : call.Underway heap)
    (popped : heap.pop = some (entry, rest)) {cancelled : Bool}
    (moves : entry.when ≤ call.time ∨ cancelled) :
    Collection.Underway { call with moved := call.moved ++ [(entry, cancelled)] } rest := by
  obtain ⟨same, first⟩ := TimerQueue.pop_spec popped
  have inHeap : ∀ other ∈ rest.entries, other ∈ heap.entries :=
    fun other mem => same.mem_iff.mpr (mem_cons_of_mem _ mem)
  refine ⟨?_, ?_, ?_, ?_⟩
  · refine (underway.visible.trans (same.append_left _)).trans ?_
    rw [map_append, append_assoc]
    exact List.Perm.refl _
  · intro other mem
    rcases mem_append.mp mem with old | new
    · exact underway.due other old
    · cases mem_singleton.mp new
      exact moves.resolve_right Bool.false_ne_true
  · rw [filter_append]
    refine pairwise_append.mpr ⟨underway.ordered, ?_, ?_⟩
    · cases cancelled <;> simp
    · intro earlier old later new
      obtain ⟨isMoved, unflagged⟩ := mem_filter.mp old
      have isEntry := mem_singleton.mp (mem_filter.mp new).1
      obtain ⟨other, flag⟩ := earlier
      cases flag with
      | true => cases unflagged
      | false =>
        rw [isEntry]
        exact underway.first other isMoved entry (same.mem_iff.mpr mem_cons_self)
  · intro other mem later isLeft
    rcases mem_append.mp mem with old | new
    · exact underway.first other old later (inHeap later isLeft)
    · cases mem_singleton.mp new
      exact first later (inHeap later isLeft)

/-! ## Runs -/

/-- What the position of `collect` has moved so far. -/
def CollectPosition.moved : CollectPosition Time Callback → List (TimerEntry Time Callback × Bool)
  | .reads _ moved => moved
  | .pops call => call.moved
  | _ => []

def LocalTimers.moved (timers : LocalTimers Time Callback) : List (TimerEntry Time Callback) :=
  timers.pc.moved.map Prod.fst

/-- All timers that have been moved to the ready queue. -/
def TimersState.moved (s : TimersState Time Callback) : List (TimerEntry Time Callback) :=
  (s.calls.flatMap Collection.moved).map Prod.fst ++
    (s.active.map LocalTimers.moved).getD []

/-- The timers in the queue of the run. -/
def TimersState.localEntries (s : TimersState Time Callback) :
    List (TimerEntry Time Callback) :=
  (s.active.map fun timers => timers.heap.entries).getD []

/-- Where `collect` stands fits what it has seen and moved. -/
def LocalTimers.Consistent (timers : LocalTimers Time Callback) : Prop :=
  match timers.pc with
  | .reads visible moved =>
    visible.Perm (moved.map Prod.fst ++ timers.heap.entries) ∧ ∀ entry ∈ moved, entry.2
  | .pops call => call.Underway timers.heap
  | _ => True

/-- Every timer is in one place, and every collection takes what is due. -/
structure Collects (s : TimersState Time Callback) : Prop where
  conserved : (s.scheduled : Multiset (TimerEntry Time Callback)) =
    s.moved + s.localEntries + s.pendingTimers
  consistent : ∀ timers ∈ s.active, timers.Consistent
  exact : ∀ call ∈ s.calls, call.Exact

theorem collects_new (now : Time) :
    Collects (TimersState.new now : TimersState Time Callback) where
  conserved := rfl
  consistent := by rintro _ ⟨⟩
  exact := fun _ impossible => absurd impossible not_mem_nil

variable {s next : TimersState Time Callback} {timers after : LocalTimers Time Callback}

section

variable (collects : Collects s)

include collects

theorem Collects.conserved_active (isActive : s.active = some timers) :
    (s.scheduled : Multiset (TimerEntry Time Callback)) =
      (s.calls.flatMap Collection.moved).map Prod.fst + timers.moved +
        timers.heap.entries + s.pendingTimers := by
  have conserved := collects.conserved
  simp only [TimersState.moved, TimersState.localEntries, isActive,
    Option.map_some, Option.getD_some, ← Multiset.coe_add] at conserved
  exact conserved

theorem Collects.changes (isActive : s.active = some timers)
    (same :
      (timers.moved ++ timers.heap.entries).Perm (after.moved ++ after.heap.entries))
    (consistent : after.Consistent) : Collects { s with active := some after } where
  conserved := by
    have held := Multiset.coe_eq_coe.mpr same
    rw [← Multiset.coe_add, ← Multiset.coe_add] at held
    simp only [TimersState.moved, TimersState.localEntries, Option.map_some,
      Option.getD_some, ← Multiset.coe_add]
    rw [collects.conserved_active isActive, add_assoc (Multiset.ofList _), held, ← add_assoc]
  consistent := by
    rintro _ ⟨⟩
    exact consistent
  exact := collects.exact

theorem Collects.returns {pc : CollectPosition Time Callback}
    (isActive : s.active = some ⟨heap, pc⟩) (moved : pc.moved = call.moved)
    (exact : call.Exact) : Collects (s.returns heap call) where
  conserved := by
    have conserved := collects.conserved_active isActive
    simp only [LocalTimers.moved, moved] at conserved
    simp only [TimersState.returns, TimersState.moved,
      TimersState.localEntries, Option.map_some, Option.getD_some,
      LocalTimers.moved, CollectPosition.moved, flatMap_append,
      flatMap_singleton, map_append, map_nil, append_nil,
      ← Multiset.coe_add]
    exact conserved
  consistent := by
    rintro _ ⟨⟩
    trivial
  exact := by
    intro other mem
    rcases mem_append.mp mem with old | new
    · exact collects.exact other old
    · rwa [mem_singleton.mp new]

theorem collects_compact
    (isActive : s.active = some ⟨heap, .counts⟩)
    (found : TimerEntry Time Callback → Bool) :
    Collects (s.setActive (heap.compactCancelled found) (.reads heap.entries
        ((heap.compacted found).map fun entry => (entry, true)))) := by
  have split := heap.perm_compactCancelled found
  have entries : ((heap.compacted found).map fun entry => (entry, true)).map
      Prod.fst = heap.compacted found := by
    simp [Function.comp_def]
  refine collects.changes isActive ?_ ⟨?_, ?_⟩
  · simp only [LocalTimers.moved, CollectPosition.moved, map_nil, nil_append, entries]
    exact split
  · rwa [entries]
  · intro moved mem
    obtain ⟨entry, -, rfl⟩ := mem_map.mp mem
    rfl

/-- A scheduled timer goes into the queue of the run that is between its steps. -/
theorem Collects.pushes
    (isActive : s.active = some ⟨heap, .idle⟩)
    (entry : TimerEntry Time Callback)
    (immediate : Bool) :
    Collects { s with
      active := some ⟨heap.push entry immediate, .idle⟩
      scheduled := s.scheduled ++ [entry] } where
  conserved := by
    have pushed : (heap.push entry immediate).entries.Perm
        (entry :: heap.entries) := TimerQueue.entries_push immediate
    have held := Multiset.coe_eq_coe.mpr pushed
    rw [← Multiset.cons_coe, ← Multiset.singleton_add] at held
    simp only [TimersState.moved, TimersState.localEntries, Option.map_some,
      Option.getD_some, ← Multiset.coe_add, Multiset.coe_singleton, held]
    rw [collects.conserved_active isActive]
    abel
  consistent := by
    rintro _ ⟨⟩
    trivial
  exact := collects.exact

theorem Collects.schedules (entry : TimerEntry Time Callback) (publishing : Nat) :
    Collects { s with
      pendingTimers := entry :: s.pendingTimers
      publishing := publishing
      scheduled := s.scheduled ++ [entry] } where
  conserved := by
    change ((s.scheduled ++ [entry] : List (TimerEntry Time Callback)) :
        Multiset (TimerEntry Time Callback)) =
      s.moved + s.localEntries + (entry :: s.pendingTimers : List _)
    rw [← Multiset.coe_add, collects.conserved, Multiset.coe_singleton,
      ← Multiset.cons_coe, ← Multiset.singleton_add]
    abel
  consistent := collects.consistent
  exact := collects.exact

theorem Collects.imports (isActive : s.active = some ⟨heap, .imports⟩) :
    Collects { s with
      pendingTimers := []
      active := some ⟨heap.appendHeap s.pendingTimers, .counts⟩ } where
  conserved := by
    simp only [TimersState.moved, TimersState.localEntries, Option.map_some,
      Option.getD_some, TimerQueue.entries_appendHeap, ← Multiset.coe_add]
    rw [collects.conserved_active isActive, Multiset.coe_nil, add_zero, add_assoc]
    rfl
  consistent := by
    rintro _ ⟨⟩
    trivial
  exact := collects.exact

/-- A run that ends gives what is left in its queue back. -/
theorem Collects.ends {pendingTimers : List (TimerEntry Time Callback)}
    (isActive : s.active = some ⟨heap, .idle⟩)
    (given : pendingTimers.Perm (s.pendingTimers ++ heap.entries))
    (publishing : Nat) :
    Collects { s with
      active := none
      pendingTimers := pendingTimers
      publishing := publishing } where
  conserved := by
    have held := Multiset.coe_eq_coe.mpr given
    simp only [TimersState.moved, TimersState.localEntries, Option.map_none,
      Option.getD_none, ← Multiset.coe_add, held]
    rw [collects.conserved_active isActive, LocalTimers.moved]
    abel
  consistent := by rintro _ ⟨⟩
  exact := collects.exact

end

variable [DecidableEq Callback]

theorem collects_popNext (collects : Collects s)
    (isActive : s.active = some ⟨heap, .pops call⟩) :
    Collects (s.popNext heap call) := by
  have underway : call.Underway heap := collects.consistent _ isActive
  unfold TimersState.popNext
  split
  next none =>
    refine collects.returns isActive rfl (underway.exact ?_)
    rw [TimerQueue.pop_eq_none.mp none]
    exact fun _ impossible => absurd impossible not_mem_nil
  next entry rest popped =>
    obtain ⟨same, first⟩ := TimerQueue.pop_spec popped
    split
    next moves =>
      refine collects.changes isActive ?_ (underway.pop popped moves)
      refine (same.append_left _).trans ?_
      simp [LocalTimers.moved, CollectPosition.moved]
    next stays =>
      refine collects.returns isActive rfl (underway.exact ?_)
      intro other mem
      have later : call.time < entry.when := not_le.mp fun due => stays (.inl due)
      exact later.trans_le (TimerEntry.when_le_of_key_le (first other mem))

theorem collects_readClock {visible : List (TimerEntry Time Callback)}
    {moved : List (TimerEntry Time Callback × Bool)} (collects : Collects s)
    (isActive : s.active = some ⟨heap, .reads visible moved⟩)
    (answered : timersStep s .readClock = some next) : Collects next := by
  obtain ⟨seen, cancelled⟩ := collects.consistent _ isActive
  have underway : Collection.Underway ⟨s.now, visible, moved⟩ heap :=
    Collection.underway_of_cancelled seen cancelled
  simp only [timersStep, isActive] at answered
  split at answered
  next empty =>
    cases answered
    refine collects.returns isActive rfl (underway.exact ?_)
    rw [TimerQueue.isEmpty_iff.mp empty]
    exact fun _ impossible => absurd impossible not_mem_nil
  · cases answered
    exact collects.changes isActive (List.Perm.refl _) underway

theorem collects_step {action : TimersAction Time Callback}
    (collects : Collects s) (answered : timersStep s action = some next) :
    Collects next := by
  cases action with
  | tick =>
    simp only [timersStep, Option.ite_none_right_eq_some] at answered
    cases answered.2
    exact ⟨collects.conserved, collects.consistent, collects.exact⟩
  | cancel =>
    cases answered
    exact ⟨collects.conserved, collects.consistent, collects.exact⟩
  | scheduleLocal entry immediate =>
    simp only [timersStep] at answered
    split at answered <;> cases answered
    rename_i heap isActive
    exact collects.pushes isActive entry immediate
  | scheduleRemote entry =>
    cases answered
    exact collects.schedules entry (s.publishing + 1)
  | publish =>
    simp only [timersStep, Option.ite_none_left_eq_some] at answered
    cases answered.2
    exact ⟨collects.conserved, collects.consistent, collects.exact⟩
  | startRun =>
    simp only [timersStep] at answered
    split at answered <;> cases answered
    rename_i isNone
    have conserved := collects.conserved
    simp only [TimersState.moved, TimersState.localEntries, isNone] at conserved
    refine ⟨conserved, ?_, collects.exact⟩
    rintro _ ⟨⟩
    trivial
  | collect =>
    simp only [timersStep] at answered
    split at answered <;> cases answered
    rename_i heap isActive
    have clean : Collects { s with pendingTimersDirty := false } :=
      ⟨collects.conserved, collects.consistent, collects.exact⟩
    cases s.pendingTimersDirty with
    | true | false => exact clean.changes isActive (List.Perm.refl _) trivial
  | importPending =>
    simp only [timersStep] at answered
    split at answered <;> cases answered
    rename_i heap isActive
    exact collects.imports isActive
  | compact _ found =>
    simp only [timersStep] at answered
    split at answered
    next heap isActive =>
      split at answered
      · simp only [Option.ite_none_right_eq_some] at answered
        cases answered.2
        exact collects_compact collects isActive found
      · cases answered
        refine collects.changes isActive (List.Perm.refl _) ⟨List.Perm.refl _, ?_⟩
        exact fun _ impossible => absurd impossible not_mem_nil
    · cases answered
  | readClock =>
    have opened := answered
    simp only [timersStep] at opened
    split at opened
    next heap visible moved isActive =>
      exact collects_readClock collects isActive answered
    · cases opened
  | popDue =>
    simp only [timersStep] at answered
    split at answered <;> cases answered
    rename_i heap call isActive
    exact collects_popNext collects isActive
  | endRun =>
    simp only [timersStep] at answered
    split at answered
    next heap isActive =>
      split at answered
      next empty =>
        cases answered
        refine collects.ends isActive ?_ s.publishing
        rw [TimerQueue.isEmpty_iff.mp empty, append_nil]
      · cases answered
        exact collects.ends isActive (heap.perm_drainInto _) _
    · cases answered

/-- In every run each call of `collect` moves what it has to, and every timer ever
scheduled has been moved, or is in the queue of the run or on the shared heap. -/
theorem collect_exact (now : Time) (actions : List (TimersAction Time Callback))
    (final : TimersState Time Callback)
    (reached : run timersStep (TimersState.new now) actions = some final) :
    (∀ call ∈ final.calls, call.Exact) ∧ final.scheduled.Perm
        (final.moved ++ (final.localEntries ++ final.pendingTimers)) := by
  have collects : Collects final :=
    invariant_of_run Collects (fun _ _ _ collects _ answered => collects_step collects answered)
      (collects_new now)
      (guarded_of_forall fun _ _ _ => trivial)
      reached
  refine ⟨collects.exact, Multiset.coe_eq_coe.mp ?_⟩
  rw [← Multiset.coe_add, ← Multiset.coe_add, ← add_assoc]
  exact collects.conserved

/-- A run collects one of two timers, which another thread has scheduled. -/
def oneDueActions : List (TimersAction Nat Nat) :=
  [.startRun, .scheduleLocal ⟨5, 0, 0⟩ false, .scheduleRemote ⟨3, 1, 1⟩, .publish,
    .tick 4, .collect, .importPending, .compact 0 fun _ => false, .readClock,
    .popDue, .popDue, .endRun]

theorem collect_exact_oneDue :
    ∃ final, run timersStep (TimersState.new 0) oneDueActions = some final ∧
      ((∀ call ∈ final.calls, call.Exact) ∧ final.scheduled.Perm
          (final.moved ++ (final.localEntries ++ final.pendingTimers))) ∧
      final.moved = [⟨3, 1, 1⟩] := by
  refine exists_run_imp (fun final => final.moved = [⟨3, 1, 1⟩]) (by decide) ?_
  rintro final reached moved
  exact ⟨collect_exact 0 oneDueActions final reached, moved⟩

end Rsloop.Timers
