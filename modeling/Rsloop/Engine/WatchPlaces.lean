import Rsloop.Engine.FdWatches

/-!
# The places of a watch

The callback of a registration is armed, queued or executing, and `Placed` says
that it is in one of these places and only once. Commands of a descriptor reach
the dispatcher in the order in which they were sent, so that nothing behind the
start of the current registration takes its wait away.
-/

namespace Rsloop.Engine

open Transition List WatchState

/-! ## Tasks and commands -/

variable {s : WatchState} {cb other : WatchCallback} {tasks : List WatchTask}

theorem count_without {key : Int × Bool} (different : cb.key ≠ key) :
    (without key tasks).count ⟨cb, true⟩ = tasks.count ⟨cb, true⟩ :=
  count_filter (decide_eq_true different)

theorem count_without_le (key : Int × Bool) : (without key tasks).count ⟨cb, true⟩ ≤
      tasks.count ⟨cb, true⟩ :=
  filter_sublist.count_le _

theorem count_startTask_self (none : tasks.count ⟨cb, true⟩ = 0) :
    (startTask cb tasks).count ⟨cb, true⟩ = 1 := by
  have fewer : (without cb.key tasks).count ⟨cb, true⟩ ≤
      tasks.count ⟨cb, true⟩ := count_without_le cb.key
  unfold startTask
  rw [count_cons_self]
  omega

theorem count_startTask_of_ne (different : other ≠ cb) :
    (startTask other tasks).count ⟨cb, true⟩ =
      (without other.key tasks).count ⟨cb, true⟩ := by
  refine count_cons_of_ne ?_
  intro same
  exact different (congrArg WatchTask.callback same)

theorem count_finishWait_self : (finishWait cb tasks).count ⟨cb, true⟩ = 0 := by
  rw [count_eq_zero]
  intro mem
  obtain ⟨task, _, finished⟩ := mem_map.mp mem
  split at finished
  · cases finished
  next different =>
    rw [finished] at different
    exact different rfl

theorem count_finishWait_of_ne (different : other ≠ cb) :
    (finishWait other tasks).count ⟨cb, true⟩ = tasks.count ⟨cb, true⟩ := by
  unfold finishWait
  induction tasks with
  | nil => rfl
  | cons task rest ih =>
    rw [map_cons, count_cons, count_cons, ih]
    by_cases finishes : task.callback = other
    · have before : (task == ⟨cb, true⟩) = false := by
        refine beq_false_of_ne fun same => different ?_
        rw [← finishes, same]
      have after : (({ task with waiting := false } : WatchTask) ==
          ⟨cb, true⟩) = false := by
        refine beq_false_of_ne fun same => ?_
        exact absurd (congrArg WatchTask.waiting same) Bool.false_ne_true
      rw [if_pos finishes, before, after]
    · rw [if_neg finishes]

/-! ## One callback -/

variable {next : WatchState}

/-- The callback of a registration is in one place. No later command for its
descriptor is under way when it is armed at the dispatcher, or behind its start
command. -/
structure Placed (s : WatchState) (cb : WatchCallback) : Prop where
  once : s.armed cb + s.queued cb + s.busy cb = 1
  settled : ⟨cb, true⟩ ∈ s.remoteTasks →
    ∀ cmd ∈ s.commands, cmd.key ≠ cb.key
  last : s.commands.Pairwise fun earlier later =>
    earlier = .start cb → later.key ≠ cb.key

theorem Placed.inOneState (placed : Placed s cb) : InOneState s cb := by
  have once := placed.once
  unfold InOneState
  omega

theorem Placed.setLocal (placed : Placed s cb)
    (same : tasks.count ⟨cb, true⟩ = s.localTasks.count ⟨cb, true⟩) :
    Placed { s with localTasks := tasks } cb := by
  refine { placed with once := ?_ }
  have once := placed.once
  unfold WatchState.armed at once ⊢
  rwa [same]

variable {cmd : WatchCommand}

theorem WatchCommand.ne_start
    (different : cmd.key ≠ cb.key) : cmd ≠ .start cb := by
  intro same
  rw [same] at different
  exact different rfl

theorem Placed.send (placed : Placed s cb) (cmd : WatchCommand)
    (different : cmd.key ≠ cb.key) :
    Placed { s with commands := s.commands ++ [cmd] } cb where
  once := by
    have once := placed.once
    have none : [cmd].count (.start cb) = 0 := by
      rw [count_eq_zero, mem_singleton]
      exact (WatchCommand.ne_start different).symm
    unfold WatchState.armed at once ⊢
    rwa [count_append, none]
  settled := by
    intro waits later mem
    rcases mem_append.mp mem with old | new
    · exact placed.settled waits later old
    · rwa [mem_singleton.mp new]
  last := by
    refine pairwise_append.mpr ⟨placed.last, pairwise_singleton _ _, ?_⟩
    intro earlier _ later new _
    rwa [mem_singleton.mp new]

theorem Placed.start (placed : Placed s cb) (different : cb.key ≠ other.key) :
    Placed (startFdWatch s other) cb := by
  have apart : other ≠ cb := fun same => different (by rw [same])
  unfold startFdWatch
  split
  · refine placed.setLocal ?_
    rw [count_startTask_of_ne apart, count_without different]
  · have sent := placed.send (.start other) different.symm
    exact sent.setLocal (count_without different)

theorem Placed.stop (placed : Placed s cb) {fd : Int} {writable : Bool}
    (different : cb.key ≠ (fd, writable)) :
    Placed (stopFdWatch s fd writable) cb := by
  unfold stopFdWatch
  split
  · exact placed.setLocal (count_without different)
  · exact placed.send (.stop fd writable) different.symm

theorem nowhere_of_armed_eq_zero (none : s.armed cb = 0) :
    s.localTasks.count ⟨cb, true⟩ = 0 ∧ ⟨cb, true⟩ ∉ s.remoteTasks ∧
      .start cb ∉ s.commands := by
  unfold WatchState.armed at none
  exact ⟨by omega, count_eq_zero.mp (by omega), count_eq_zero.mp (by omega)⟩

theorem pairwise_of_not_mem {cmds : List WatchCommand}
    (absent : .start cb ∉ cmds) :
    cmds.Pairwise fun earlier later =>
      earlier = .start cb → later.key ≠ cb.key :=
  pairwise_of_forall_mem_list fun _ mem _ _ same =>
    absurd (same ▸ mem) absent

/-- A callback that is nowhere is armed. -/
theorem placed_startFdWatch (absent : s.armed cb + s.queued cb +
      s.busy cb = 0) :
    Placed (startFdWatch s cb) cb := by
  have armed : s.armed cb = 0 := by omega
  obtain ⟨noLocal, noRemote, noCommand⟩ := nowhere_of_armed_eq_zero armed
  have remote := count_eq_zero.mpr noRemote
  have cmds := count_eq_zero.mpr noCommand
  have unordered := pairwise_of_not_mem noCommand
  unfold startFdWatch
  split
  · refine ⟨?_, fun waits => absurd waits noRemote, unordered⟩
    change (startTask cb s.localTasks).count ⟨cb, true⟩ +
      s.remoteTasks.count ⟨cb, true⟩ +
      s.commands.count (.start cb) + s.queued cb + s.busy cb = 1
    rw [count_startTask_self noLocal]
    omega
  · refine ⟨?_, fun waits => absurd waits noRemote, ?_⟩
    · have fewer : (without cb.key s.localTasks).count
          ⟨cb, true⟩ ≤ s.localTasks.count ⟨cb, true⟩ :=
        count_without_le cb.key
      change (without cb.key s.localTasks).count ⟨cb, true⟩ +
        s.remoteTasks.count ⟨cb, true⟩ +
        (s.commands ++ [WatchCommand.start cb]).count (.start cb) +
          s.queued cb + s.busy cb = 1
      rw [count_append, count_singleton_self]
      omega
    · refine pairwise_append.mpr ⟨unordered, pairwise_singleton _ _, ?_⟩
      intro earlier mem _ _ same
      exact absurd (same ▸ mem) noCommand

variable {rest : List WatchCommand}

/-- The dispatcher serves a command that leaves the callback's wait alone. -/
theorem Placed.serveOther (placed : Placed s cb)
    (cmds : s.commands = cmd :: rest) (different : cmd ≠ .start cb)
    (same : tasks.count ⟨cb, true⟩ = s.remoteTasks.count ⟨cb, true⟩) :
    Placed { s with commands := rest, remoteTasks := tasks } cb where
  once := by
    have once := placed.once
    unfold WatchState.armed at once ⊢
    rw [cmds, count_cons_of_ne different] at once
    rwa [same]
  settled := by
    intro waits later mem
    have waited : ⟨cb, true⟩ ∈ s.remoteTasks := by
      rw [← count_pos_iff] at waits ⊢
      rwa [← same]
    refine placed.settled waited later ?_
    rw [cmds]
    exact mem_cons_of_mem _ mem
  last := by
    have last := placed.last
    rw [cmds] at last
    exact (pairwise_cons.mp last).2

theorem Placed.serveStart (placed : Placed s cb)
    (cmds : s.commands = .start cb :: rest) :
    Placed
      { s with
        commands := rest
        remoteTasks := startTask cb s.remoteTasks } cb := by
  have last := placed.last
  rw [cmds] at last
  obtain ⟨behind, later⟩ := pairwise_cons.mp last
  refine ⟨?_, fun _ cmd mem => behind cmd mem rfl, later⟩
  have once := placed.once
  unfold WatchState.armed at once ⊢
  rw [cmds, count_cons_self] at once
  change s.localTasks.count ⟨cb, true⟩ +
    (startTask cb s.remoteTasks).count ⟨cb, true⟩ +
    rest.count (.start cb) + s.queued cb + s.busy cb = 1
  rw [count_startTask_self (by omega)]
  omega

theorem Placed.serve (placed : Placed s cb)
    (cmds : s.commands = cmd :: rest) :
    Placed ({ s with commands := rest }.serve cmd) cb := by
  -- a command for the descriptor comes while the wait is not at the dispatcher
  have absent : cmd.key = cb.key → s.remoteTasks.count ⟨cb, true⟩ = 0 := by
    intro same
    rw [count_eq_zero]
    intro waits
    refine placed.settled waits cmd ?_ same
    rw [cmds]
    exact mem_cons_self
  have removed {key : Int × Bool} (isKey : cmd.key = key) :
      (without key s.remoteTasks).count ⟨cb, true⟩ =
        s.remoteTasks.count ⟨cb, true⟩ := by
    by_cases same : cb.key = key
    · have fewer : (without key s.remoteTasks).count ⟨cb, true⟩ ≤
          s.remoteTasks.count ⟨cb, true⟩ := count_without_le key
      have none := absent (isKey.trans same.symm)
      omega
    · exact count_without same
  cases cmd with
  | start started =>
    by_cases own : started = cb
    · subst own
      exact placed.serveStart cmds
    · refine placed.serveOther cmds (fun same => own ?_) ?_
      · injection same
      · rw [count_startTask_of_ne own]
        exact removed rfl
  | stop fd writable =>
    refine placed.serveOther cmds (fun same => ?_) (removed rfl)
    cases same

/-! ## The items of watches -/

variable {action : LoopAction} {fired : WatchCallback} {item new : ReadyItem}

/-- The items of watches are callbacks that have been scheduled. -/
def FiresScheduled (s : WatchState) : Prop :=
  ∀ entry ∈ s.fires, entry.1.kind = .callback ∧
    entry.1.stamp < s.loop.queues.scheduled.length

theorem WatchState.mem_of_carried (carried : s.carried item = some cb) :
    (item, cb) ∈ s.fires := by
  obtain ⟨entry, found, isCallback⟩ := Option.map_eq_some_iff.mp carried
  have isItem : entry.1 = item := by simpa using find?_some found
  have member := mem_of_find?_eq_some found
  rwa [← isItem, ← isCallback]

theorem FiresScheduled.carries_eq_false (known : FiresScheduled s)
    (unfit : item.kind ≠ .callback ∨ s.loop.queues.scheduled.length ≤ item.stamp) :
    s.carries cb item = false := by
  refine decide_eq_false fun carried => ?_
  obtain ⟨isCallback, bounded⟩ := known _ (mem_of_carried carried)
  rcases unfit with kind | late
  · exact kind isCallback
  · exact absurd bounded (Nat.not_lt.mpr late)

theorem FiresScheduled.carries_dispatcher (known : FiresScheduled s)
    (kept : item.kind.runsOnDispatcher) : s.carries cb item = false := by
  refine known.carries_eq_false (.inl fun isCallback => ?_)
  rw [isCallback] at kept
  cases kept

theorem WatchState.carries_fire_of_ne
    (fires : next.fires = (new, fired) :: s.fires) (different : new ≠ item) :
    next.carries cb item = s.carries cb item := by
  unfold carries WatchState.carried
  rw [fires, find?_cons_of_neg (by simpa using different)]

theorem WatchState.carries_fire (fires : next.fires = (new, fired) :: s.fires) :
    next.carries cb new = decide (fired = cb) := by
  unfold carries WatchState.carried
  rw [fires, find?_cons_of_pos (by simp)]
  simp

theorem WatchState.count_carried : (s.carried item).toList.count cb =
      [item].countP (s.carries cb) := by
  unfold carries
  cases carried : s.carried item with
  | none => simp [carried]
  | some found =>
    by_cases same : found = cb
    · simp [carried, same]
    · simp [carried, same]

/-- The queues keep the items of a watch until they are taken out. -/
theorem FiresScheduled.countP_loopStep (known : FiresScheduled s)
    (inv : Conserving s.loop) {loop : LoopState} (after : Conserving loop)
    (moved : loopStep s.loop action = some loop) :
    loop.outstanding.countP (s.carries cb) +
        loop.queues.popped.countP (s.carries cb) =
      s.queued cb + s.loop.queues.popped.countP (s.carries cb) := by
  obtain ⟨fresh, dropped, moves⟩ := itemsMove_loopStep moved
  have none : fresh.countP (s.carries cb) = 0 := by
    rw [countP_eq_zero]
    intro item mem selected
    cases (known.carries_eq_false (.inr (moves.numbered item mem).1)).symm.trans selected
  have all := moves.countP (s.carries cb) fun item kept =>
    known.carries_dispatcher kept
  have before := inv.countP_outstanding (s.carries cb)
  have later := after.countP_outstanding (s.carries cb)
  unfold queued
  omega

theorem FiresScheduled.fire (known : FiresScheduled s)
    (fires : next.fires = (new, fired) :: s.fires) (kind : new.kind = .callback)
    (numbered : new.stamp < next.loop.queues.scheduled.length)
    (scheduled : s.loop.queues.scheduled.length ≤
      next.loop.queues.scheduled.length) : FiresScheduled next := by
  intro entry mem
  rw [fires] at mem
  rcases mem_cons.mp mem with first | old
  · rw [first]
    exact ⟨kind, numbered⟩
  · obtain ⟨isCallback, bounded⟩ := known entry old
    exact ⟨isCallback, Nat.lt_of_lt_of_le bounded scheduled⟩

/-- A wait that is over adds one item. -/
theorem FiresScheduled.queued_fire (known : FiresScheduled s)
    (inv : Conserving s.loop) (after : Conserving next.loop)
    (fires : next.fires = (new, fired) :: s.fires) (kind : new.kind = .callback)
    (moves : ItemsMove s.loop next.loop [new] [])
    (popped : next.loop.queues.popped = s.loop.queues.popped) :
    next.queued cb = s.queued cb + if fired = cb then 1 else 0 := by
  obtain ⟨late, numbered⟩ := moves.numbered new (mem_singleton_self new)
  have knownNext := known.fire fires kind numbered moves.scheduled
  have same : ∀ item ∈ s.loop.queues.enqueued ++ s.loop.inHand,
      (next.carries cb item ↔ s.carries cb item) := by
    intro item mem
    have bounded := inv.unique.stamped item mem
    rw [carries_fire_of_ne fires]
    intro isNew
    rw [isNew] at late
    omega
  have entered := countP_congr same
  have executed : s.loop.queues.popped.countP (next.carries cb) =
      s.loop.queues.popped.countP (s.carries cb) :=
    countP_congr fun item mem =>
      same item (mem_append_left _ (inv.popped_subset mem))
  have all := moves.countP (next.carries cb) fun item kept =>
    knownNext.carries_dispatcher kept
  have before := inv.countP_outstanding (s.carries cb)
  have later := after.countP_outstanding (next.carries cb)
  have one : [new].countP (next.carries cb) =
      if fired = cb then 1 else 0 := by
    rw [countP_singleton, carries_fire fires]
    simp
  rw [popped, executed] at later
  unfold queued
  omega

/-! ## Steps of the loop -/

variable {next : LoopState}

theorem WatchState.follow_begins (idle : s.loop.pc.item = none)
    (executing : next.pc.item = some item) :
    s.follow next =
      { s with loop := next, invoked := s.invoked ++ s.executes item } := by
  unfold follow
  rw [idle, executing]

theorem WatchState.follow_ends (executing : s.loop.pc.item = some item)
    (idle : next.pc.item = none) (cleanup : next.pc ≠ .leftEarly) :
    s.follow next =
      { s with
        loop := next
        deferredFdRearms := s.deferredFdRearms ++ (s.carried item).toList } := by
  unfold follow
  rw [executing, idle]
  simp only [if_neg cleanup]

theorem WatchState.follow_stays (same : next.pc.item = s.loop.pc.item) :
    s.follow next = { s with loop := next } := by
  unfold follow
  cases before : s.loop.pc.item with
  | none | some item => rw [same, before]

theorem Placed.follow (placed : Placed s cb)
    (known : FiresScheduled s) (inv : Conserving s.loop)
    (after : Conserving next)
    (moved : loopStep s.loop action = some next) : Placed (s.follow next) cb := by
  have kept : next.outstanding.countP (s.carries cb) +
        next.queues.popped.countP (s.carries cb) =
      s.queued cb + s.loop.queues.popped.countP (s.carries cb) :=
    known.countP_loopStep inv after moved
  have once := placed.once
  unfold busy at once
  cases itemStep_loopStep moved with
  | begins item idle executing popped =>
    rw [follow_begins idle executing]
    refine ⟨?_, placed.settled, placed.last⟩
    change s.armed cb + next.outstanding.countP (s.carries cb) +
      (next.pc.item.toList.countP (s.carries cb) +
        s.deferredFdRearms.count cb) = 1
    rw [popped, countP_append] at kept
    rw [idle, Option.toList_none, countP_nil] at once
    rw [executing, Option.toList_some]
    omega
  | ends item executing idle popped =>
    rw [follow_ends executing idle after.position_ne_leftEarly]
    refine ⟨?_, placed.settled, placed.last⟩
    change s.armed cb + next.outstanding.countP (s.carries cb) +
      (next.pc.item.toList.countP (s.carries cb) +
        (s.deferredFdRearms ++ (s.carried item).toList).count cb) = 1
    rw [popped] at kept
    rw [executing, Option.toList_some] at once
    rw [idle, Option.toList_none, countP_nil, count_append, count_carried]
    omega
  | stays same popped =>
    rw [follow_stays same]
    refine ⟨?_, placed.settled, placed.last⟩
    change s.armed cb + next.outstanding.countP (s.carries cb) +
      (next.pc.item.toList.countP (s.carries cb) +
        s.deferredFdRearms.count cb) = 1
    rw [popped] at kept
    rw [same]
    omega

end Rsloop.Engine
