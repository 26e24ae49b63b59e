import Rsloop.Engine.HeldOrder

/-!
# Conservation of ready items

Whatever the interleaving, an item that has entered a queue is in exactly one
queue until it is taken out for execution, and what a run leaves behind is
executed later in the order in which it was left. This holds for all runs that
reach the cleanup at their end.
-/

namespace Rsloop.Engine

open Transition List

variable {s next : LoopState} {last : Nat}

/-! ## Items are unique -/

def Producer.item : Producer → List ReadyItem
  | .loadChannelHandles item | .tryActive item | .addChannelHandle item | .send item => [item]
  | .idle | .signal => []

def LoopState.inHand (s : LoopState) : List ReadyItem :=
  s.producers.flatMap Producer.item

/-- Every item that has been scheduled is somewhere at most once, and later ones
have larger stamps. -/
structure UniqueItems (s : LoopState) : Prop where
  nodup : (s.queues.enqueued ++ s.inHand).Nodup
  stamped : ∀ item ∈ s.queues.enqueued ++ s.inHand,
    item.stamp < s.queues.scheduled.length

theorem flatMap_set_perm {Entry Value : Type} (f : Entry → List Value)
    {entries : List Entry} {index : Nat} {current : Entry}
    (pos : entries[index]? = some current) :
    ∃ others : List Value, (entries.flatMap f).Perm (f current ++ others) ∧ ∀ changed : Entry,
          ((entries.set index changed).flatMap f).Perm (f changed ++ others) := by
  obtain ⟨inRange, found⟩ := List.getElem?_eq_some_iff.mp pos
  refine ⟨(entries.take index).flatMap f ++ (entries.drop (index + 1)).flatMap f, ?_, ?_⟩
  · have split : entries = entries.take index ++ current :: entries.drop (index + 1) := by
      rw [← found, getElem_cons_drop, take_append_drop]
    nth_rewrite 1 [split]
    rw [flatMap_append, flatMap_cons]
    exact perm_append_comm_assoc _ _ _
  · intro changed
    have split : entries.set index changed =
        entries.take index ++ changed :: entries.drop (index + 1) := by
      rw [set_eq_take_append_cons_drop, if_pos inRange]
    rw [split, flatMap_append, flatMap_cons]
    exact perm_append_comm_assoc _ _ _

theorem inHand_new (threads : Nat) : (LoopState.new threads).inHand = [] := by
  unfold LoopState.inHand LoopState.new
  rw [flatMap_eq_nil_iff]
  intro producer mem
  rw [eq_of_mem_replicate mem]
  rfl

theorem uniqueItems_new (threads : Nat) : UniqueItems (.new threads) where
  nodup := by
    rw [inHand_new]
    exact nodup_nil
  stamped := by
    intro item mem
    rw [inHand_new] at mem
    cases mem

/-- What a step does to the items that have been scheduled: `fresh` ones join
them, and the dispatcher keeps `dropped` ones to itself. -/
structure ItemsMove (s next : LoopState) (fresh dropped : List ReadyItem) : Prop where
  all : (next.queues.enqueued ++ next.inHand ++ dropped).Perm
    (s.queues.enqueued ++ s.inHand ++ fresh)
  distinct : fresh.Nodup
  numbered : ∀ item ∈ fresh, s.queues.scheduled.length ≤ item.stamp ∧
    item.stamp < next.queues.scheduled.length
  scheduled : s.queues.scheduled.length ≤ next.queues.scheduled.length
  served : ∀ item ∈ dropped, item.kind.runsOnDispatcher

variable {dropped : List ReadyItem}

theorem UniqueItems.move (unique : UniqueItems s) {fresh : List ReadyItem}
    (moves : ItemsMove s next fresh dropped) : UniqueItems next where
  nodup := by
    have nodup : (s.queues.enqueued ++ s.inHand ++ fresh).Nodup := by
      refine nodup_append.mpr ⟨unique.nodup, moves.distinct, ?_⟩
      intro item old other new same
      subst same
      have bounded := unique.stamped item old
      have bound := (moves.numbered item new).1
      omega
    exact (nodup_append.mp (moves.all.nodup_iff.mpr nodup)).1
  stamped := by
    intro item mem
    have known := moves.all.subset (mem_append_left dropped mem)
    rcases mem_append.mp known with old | new
    · exact Nat.lt_of_lt_of_le (unique.stamped item old) moves.scheduled
    · exact (moves.numbered item new).2

theorem ItemsMove.of_perm
    (all : (next.queues.enqueued ++ next.inHand ++ dropped).Perm
      (s.queues.enqueued ++ s.inHand))
    (scheduled : next.queues.scheduled.length = s.queues.scheduled.length)
    (served : ∀ item ∈ dropped, item.kind.runsOnDispatcher) :
    ItemsMove s next [] dropped where
  all := by
    rwa [append_nil]
  distinct := nodup_nil
  numbered := nofun
  scheduled := Nat.le_of_eq scheduled.symm
  served := served

theorem ItemsMove.same (enqueued : next.queues.enqueued = s.queues.enqueued)
    (inHand : next.inHand = s.inHand)
    (scheduled : next.queues.scheduled.length = s.queues.scheduled.length) :
    ItemsMove s next [] [] := by
  refine .of_perm ?_ scheduled nofun
  rw [enqueued, inHand, append_nil]

variable {tid : Nat} {kind : ReadyKind}

theorem ItemsMove.add
    (all : (next.queues.enqueued ++ next.inHand).Perm (s.queues.enqueued ++ s.inHand ++
        [s.queues.nextItem kind tid]))
    (scheduled : next.queues.scheduled =
      s.queues.scheduled ++ [s.queues.nextItem kind tid]) :
    ItemsMove s next [s.queues.nextItem kind tid] [] where
  all := by
    rwa [append_nil]
  distinct := by simp
  numbered := by
    intro item mem
    rw [mem_singleton.mp mem, scheduled, length_append]
    exact ⟨Nat.le_refl _, Nat.lt_succ_self _⟩
  scheduled := by
    rw [scheduled, length_append]
    exact Nat.le_add_right _ _
  served := fun _ mem => by cases mem

variable {producer : Producer}

theorem ItemsMove.take (idle : s.producers[tid]? = some .idle)
    (held : producer.item = [s.queues.nextItem kind tid])
    (producers : next.producers = s.producers.set tid producer)
    (q : next.queues = s.queues.schedule (s.queues.nextItem kind tid)) :
    ItemsMove s next [s.queues.nextItem kind tid] [] := by
  obtain ⟨others, before, after⟩ := flatMap_set_perm Producer.item idle
  refine .add ?_ (by rw [q]; rfl)
  have taken := after producer
  rw [held] at taken
  unfold LoopState.inHand
  rw [append_assoc, q, producers]
  refine List.Perm.append_left _ (taken.trans ?_)
  exact perm_append_comm.trans (before.symm.append_right _)

theorem ItemsMove.hold {before after : Producer}
    (pos : s.producers[tid]? = some before)
    (producers : next.producers = s.producers.set tid after)
    (same : after.item = before.item)
    (q : next.queues = s.queues) : ItemsMove s next [] [] := by
  obtain ⟨others, held, changed⟩ := flatMap_set_perm Producer.item pos
  refine .of_perm ?_ (by rw [q]) nofun
  rw [q, append_nil]
  refine List.Perm.append_left _ ?_
  unfold LoopState.inHand
  rw [producers]
  refine (changed after).trans ?_
  rw [same]
  exact held.symm

/-- A thread puts its item into a queue, or hands it to the dispatcher for
good. -/
theorem ItemsMove.put {before after : Producer} {entered : List ReadyItem}
    (pos : s.producers[tid]? = some before) (emptied : after.item = [])
    (parts : before.item = entered ++ dropped)
    (served : ∀ item ∈ dropped, item.kind.runsOnDispatcher)
    (producers : next.producers = s.producers.set tid after)
    (enqueued : next.queues.enqueued = s.queues.enqueued ++ entered)
    (scheduled : next.queues.scheduled = s.queues.scheduled) :
    ItemsMove s next [] dropped := by
  obtain ⟨others, held, changed⟩ := flatMap_set_perm Producer.item pos
  refine .of_perm ?_ (by rw [scheduled]) served
  have rest : next.inHand.Perm others := by
    have left := changed after
    rw [emptied, nil_append] at left
    unfold LoopState.inHand
    rwa [producers]
  have hands : s.inHand.Perm (entered ++ dropped ++ others) := by
    rwa [← parts]
  rw [enqueued, append_assoc, append_assoc]
  refine List.Perm.append_left _ (List.Perm.trans ?_ hands.symm)
  rw [append_assoc]
  exact List.Perm.append_left _ ((rest.append_right _).trans perm_append_comm)

theorem Command.readyItem_ofItem (item : ReadyItem) :
    ∃ dropped, [item] = (Command.ofItem item).readyItem ++ dropped ∧
      ∀ other ∈ dropped, other.kind.runsOnDispatcher := by
  unfold Command.ofItem
  split
  next kept =>
    refine ⟨[item], rfl, ?_⟩
    intro other mem
    rwa [mem_singleton.mp mem]
  · exact ⟨[], rfl, nofun⟩

theorem readyItem_ofItem_sublist (item : ReadyItem) :
    (Command.ofItem item).readyItem.Sublist [item] := by
  obtain ⟨dropped, parts, _⟩ := Command.readyItem_ofItem item
  rw [parts]
  exact sublist_append_left _ _

theorem ProducerStep.itemsMove (step : ProducerStep s tid next) :
    ∃ dropped, ItemsMove s next [] dropped := by
  cases step with
  | routes found route =>
    refine ⟨[], .hold found rfl ?_ rfl⟩
    cases route <;> split <;> rfl
  | pushes found =>
    exact ⟨[], .put found rfl (append_nil _).symm nofun rfl rfl rfl⟩
  | counts found | signals found => exact ⟨[], .hold found rfl rfl rfl⟩
  | @sends item found =>
    obtain ⟨dropped, parts, served⟩ := Command.readyItem_ofItem item
    exact ⟨dropped, .put found rfl parts served rfl rfl rfl⟩

theorem DispatcherStep.itemsMove (step : DispatcherStep s next) :
    ItemsMove s next [] [] := by
  have frame := step.frame
  refine .same frame.enqueued ?_ (by rw [frame.scheduled])
  unfold LoopState.inHand
  rw [frame.producers]

theorem ItemsMove.enqueueLocal (q : next.queues =
      s.queues.enqueueLocal (s.queues.nextItem kind 0))
    (producers : next.producers = s.producers) :
    ItemsMove s next [s.queues.nextItem kind 0] [] := by
  refine .add ?_ (by rw [q]; rfl)
  unfold LoopState.inHand
  rw [q, producers]
  simp only [Queues.enqueueLocal, append_assoc]
  exact List.Perm.append_left _ perm_append_comm

theorem Queues.nodup_collect (q : Queues) (count : Nat)
    {timers : List ReadyItem}
    (scheduled : (q.collect count).scheduled = q.scheduled ++ timers) :
    timers.Nodup ∧ ∀ item ∈ timers, item.stamp < q.scheduled.length + timers.length := by
  induction count generalizing q timers with
  | zero =>
    have none : timers = [] := by
      have same : q.scheduled ++ timers = q.scheduled := scheduled.symm
      exact append_cancel_left (same.trans (append_nil _).symm)
    subst none
    exact ⟨nodup_nil, nofun⟩
  | succ count ih =>
    obtain ⟨later, stamps, _, collected, _, _⟩ :=
      (q.enqueueLocal (q.nextItem .timer 0)).collect_entered count
    have first : (q.enqueueLocal (q.nextItem .timer 0)).scheduled =
          q.scheduled ++ [q.nextItem .timer 0] := rfl
    have split : timers = q.nextItem .timer 0 :: later := by
      have same := scheduled.symm.trans collected
      rw [first, append_assoc] at same
      exact append_cancel_left same
    obtain ⟨nodup, bounded⟩ := ih _ collected
    rw [first, length_append, length_singleton] at bounded stamps
    subst split
    refine ⟨nodup_cons.mpr ⟨?_, nodup⟩, ?_⟩
    · intro mem
      have larger := (stamps _ mem).2.2
      change q.scheduled.length + 1 ≤ q.scheduled.length at larger
      omega
    · intro item mem
      rw [length_cons]
      rcases mem_cons.mp mem with isFirst | isLater
      · rw [isFirst]
        change q.scheduled.length < _
        omega
      · have bound := bounded item isLater
        omega

/-- The loop thread brings in due timers, and a stop for a Python signal. -/
theorem RunStep.itemsMove {reply : LoopReply} (step : RunStep s reply next) :
    ∃ fresh, ItemsMove s next fresh [] ∧ ∀ item ∈ fresh, item.kind = .timer ∨
        s.pc = .checkSignals ∧ next.pc = .turn := by
  cases step with
  | @collects count =>
    obtain ⟨timers, stamps, enqueued, scheduled, _, _⟩ := s.queues.collect_entered count
    obtain ⟨nodup, bounded⟩ := s.queues.nodup_collect count scheduled
    have length : (s.queues.collect count).scheduled.length =
        s.queues.scheduled.length + timers.length := by
      rw [scheduled, length_append]
    refine ⟨timers, ⟨?_, nodup, ?_, by rw [length]; omega, nofun⟩,
      fun item mem => .inl (stamps item mem).2.1⟩
    · rw [enqueued, append_nil, append_assoc, append_assoc]
      exact List.Perm.append_left _ perm_append_comm
    · intro item mem
      rw [length]
      exact ⟨(stamps item mem).2.2, bounded item mem⟩
  | signals pos => exact ⟨_, .enqueueLocal rfl rfl, fun _ _ => .inr ⟨pos, rfl⟩⟩
  | _ => exact ⟨[], .same rfl rfl rfl, nofun⟩

variable {action : LoopAction}

theorem itemsMove_loopStep (moved : loopStep s action = some next) :
    ∃ fresh dropped, ItemsMove s next fresh dropped := by
  cases loopStep_cases moved with
  | calls idle _ _ starts => exact ⟨_, _, .take idle (by rw [starts]; split <;> rfl) rfl rfl⟩
  | produces step => exact ⟨_, step.itemsMove⟩
  | dispatches step => exact ⟨[], [], step.itemsMove⟩
  | enqueues => exact ⟨_, _, .enqueueLocal rfl rfl⟩
  | refuses | begins => exact ⟨[], [], .same rfl rfl rfl⟩
  | runs step =>
    obtain ⟨fresh, moves, _⟩ := step.itemsMove
    exact ⟨fresh, [], moves⟩

theorem uniqueItems_loopStep (unique : UniqueItems s)
    (moved : loopStep s action = some next) :
    UniqueItems next := by
  obtain ⟨fresh, dropped, moves⟩ := itemsMove_loopStep moved
  exact unique.move moves

/-! ## Nothing is lost -/

theorem Queues.held_pushActive_perm (q : Queues) {run : Nat}
    {item : ReadyItem} (inRange : run < q.pendings.length) :
    (q.pushActive run item).held.Perm (q.held ++ [item]) := by
  have pushed : (q.pushActive run item).held = (q.setPending run
        ((q.pending run).push item q.localEnqueues)).held := rfl
  rw [pushed, q.held_setPending inRange, q.held_eq inRange,
    PendingReady.items_push, perm_iff_count]
  simp only [count_append]
  omega

theorem Queues.held_send_perm (q : Queues) (item : ReadyItem) : (q.send item).held.Perm
      (q.held ++ (Command.ofItem item).readyItem) := by
  rw [perm_iff_count]
  simp only [Queues.held, Queues.waiting, Queues.send, Queues.onChannel,
    Queues.inRuns, flatMap_append, flatMap_cons, flatMap_nil,
    count_append, count_nil]
  omega

def HoldsAll (s : LoopState) : Prop :=
  s.queues.held.Perm s.queues.enqueued

variable {entered : List ReadyItem}

theorem HoldsAll.of_perm (holds : HoldsAll s)
    (enqueued : next.queues.enqueued = s.queues.enqueued ++ entered)
    (held : next.queues.held.Perm (s.queues.held ++ entered)) :
    HoldsAll next := by
  unfold HoldsAll
  rw [enqueued]
  exact held.trans (holds.append_right _)

theorem HoldsAll.reorder (holds : HoldsAll s)
    (enqueued : next.queues.enqueued = s.queues.enqueued)
    (held : next.queues.held.Perm s.queues.held) : HoldsAll next := by
  unfold HoldsAll
  rw [enqueued]
  exact held.trans holds

theorem HoldsAll.grow (holds : HoldsAll s)
    (grows : Grows (fun _ => true) s next entered)
    (cleanup : ¬ next.hasLeftEarly) : HoldsAll next := by
  refine holds.of_perm grows.enqueued ?_
  rcases grows.held with same | early
  · simp only [filter_true] at same
    rw [same]
  · exact absurd early.1 cleanup

theorem holdsAll_producerStep (inv : RunsInOrder s last) (holds : HoldsAll s)
    (step : ProducerStep s tid next) : HoldsAll next := by
  cases step with
  | pushes _ isActive =>
    exact holds.of_perm rfl (s.queues.held_pushActive_perm (inv.run_of_accepting isActive))
  | sends => exact holds.of_perm rfl (s.queues.held_send_perm _)
  | _ => exact holds

section

variable (inv : RunsInOrder s last) (kept : QueuesKept s) (holds : HoldsAll s)
  (cleanup : ¬ next.hasLeftEarly)

include inv kept holds cleanup

theorem holdsAll_runStep {reply : LoopReply} (step : RunStep s reply next) :
    HoldsAll next := by
  cases step with
  | announces | finishes => exact holds.reorder rfl (by rw [s.queues.held_sendRun rfl])
  | installs pos =>
    have released := kept.released (by rw [pos]; rfl)
    exact holds.reorder rfl (by rw [s.queues.held_install released.2])
  | @collects count =>
    obtain ⟨timers, _, enqueued, _, _, held⟩ := s.queues.collect_entered count
    exact holds.of_perm enqueued (by rw [held])
  | pops => exact holds.reorder rfl (by rw [s.queues.held_pop])
  | swaps _ batch => exact holds.reorder rfl (s.queues.held_swap_perm batch)
  | merges pos =>
    exact holds.reorder rfl (s.queues.held_merge_perm (inv.newest (by rw [pos]; rfl))
        (kept.valid (by rw [pos]; rfl)) (kept.merging _ pos))
  | signals => exact holds.grow (grows_enqueueLocal rfl rfl) cleanup
  | leaves pos =>
    exact holds.reorder rfl (s.queues.held_leave_perm (inv.newest (by rw [pos]; rfl))
        (kept.valid (by rw [pos]; rfl)))
  | abandons => exact absurd (mem_append_right _ mem_cons_self) cleanup
  | _ => exact holds

theorem holdsAll_loopStep (moved : loopStep s action = some next) :
    HoldsAll next := by
  cases loopStep_cases moved with
  | calls | refuses => exact holds
  | produces step => exact holdsAll_producerStep inv holds step
  | dispatches step => exact holds.grow (grows_dispatcherStep inv kept step) cleanup
  | enqueues => exact holds.grow (grows_enqueueLocal rfl rfl) cleanup
  | begins => exact holds.reorder rfl (by rw [s.queues.held_openRun])
  | runs step => exact holdsAll_runStep inv kept holds cleanup step

end

/-! ## Runs that reach their cleanup -/

theorem not_hasLeftEarly_loopStep
    (cleanup : ReachesCleanup s action) (before : ¬ s.hasLeftEarly)
    (moved : loopStep s action = some next) : ¬ next.hasLeftEarly := by
  have returns (result : RunResult) : none ∉ s.results ++ [some result] := by
    intro mem
    rcases mem_append.mp mem with old | new
    · exact before old
    · cases mem_singleton.mp new
  cases loopStep_cases moved with
  | produces step | dispatches step => cases step <;> exact before
  | runs step =>
    cases step with
    | abandons pos early =>
      -- the condition excludes this ending
      unfold ReachesCleanup LoopState.returnsEarly at cleanup
      rw [pos] at cleanup
      exact absurd early (of_decide_eq_false cleanup)
    | returns | timesOut => exact returns _
    | _ => exact before
  | _ => exact before

/-- What holds in every state of runs that reach their cleanup. -/
structure Conserving (s : LoopState) : Prop where
  runs : ∃ last, RunsInOrder s last
  kept : QueuesKept s
  unique : UniqueItems s
  holds : HoldsAll s
  cleanup : ¬ s.hasLeftEarly

theorem conserving_new (threads : Nat) : Conserving (.new threads) where
  runs := ⟨0, runsInOrder_new threads⟩
  kept := queuesKept_new threads
  unique := uniqueItems_new threads
  holds := List.Perm.refl _
  cleanup := fun early => by cases early

theorem conserving_loopStep (inv : Conserving s)
    (cleanup : ReachesCleanup s action)
    (moved : loopStep s action = some next) : Conserving next := by
  obtain ⟨last, runs⟩ := inv.runs
  have reaches := not_hasLeftEarly_loopStep cleanup inv.cleanup moved
  exact
    { runs := runsInOrder_loopStep runs moved
      kept := queuesKept_loopStep runs inv.kept moved
      unique := uniqueItems_loopStep inv.unique moved
      holds := holdsAll_loopStep runs inv.kept inv.holds reaches moved
      cleanup := reaches }

theorem Conserving.nodup_held (inv : Conserving s) : s.queues.held.Nodup :=
  inv.holds.nodup_iff.mpr (nodup_append.mp inv.unique.nodup).1

/-! ## What is left is executed in order -/

/-- The items are not in the hands of a thread or in the local queue, and they
are held in the given order. -/
structure Lined (line : List ReadyItem) (s : LoopState) : Prop where
  entered : line ⊆ s.queues.enqueued
  own : ∀ item ∈ s.queues.localReady, item ∉ line
  held : (s.queues.held.filter fun item => decide (item ∈ line)) = line

theorem filter_mem_eq_nil {items line : List ReadyItem}
    (none : ∀ item ∈ items, item ∉ line) :
    (items.filter fun item => decide (item ∈ line)) = [] :=
  filter_eq_nil_iff.mpr fun item mem selected =>
    none item mem (of_decide_eq_true selected)

variable {line : List ReadyItem}

theorem Lined.not_inHand (lined : Lined line s)
    (unique : UniqueItems s) : ∀ item ∈ s.inHand, item ∉ line := by
  intro item inHand selected
  exact (nodup_append.mp unique.nodup).2.2 item (lined.entered selected) item inHand rfl

theorem mem_inHand {item : ReadyItem} (pos : s.producers[tid]? = some producer)
    (held : item ∈ producer.item) : item ∈ s.inHand :=
  mem_flatMap.mpr ⟨producer, mem_of_getElem? pos, held⟩

theorem Lined.keepsOrder (lined : Lined line s)
    (unique : UniqueItems s) (action : LoopAction) :
    KeepsOrder (fun item => decide (item ∈ line)) s action := by
  have own := filter_mem_eq_nil lined.own
  have hands := lined.not_inHand unique
  exact
    { direct := fun tid item run pos _ selected =>
        absurd (of_decide_eq_true selected) (hands item (mem_inHand pos mem_cons_self))
      remote := fun tid item pos selected =>
        absurd (of_decide_eq_true selected) (hands item (mem_inHand pos mem_cons_self))
      swap := fun _ _ _ _ _ _ _ => .inl own
      merge := fun _ _ _ => .inl own }

theorem lined_loopStep (inv : Conserving s) (lined : Lined line s)
    (cleanup : ReachesCleanup s action)
    (moved : loopStep s action = some next) : Lined line next := by
  obtain ⟨last, runs⟩ := inv.runs
  have after := conserving_loopStep inv cleanup moved
  obtain ⟨entered, grows⟩ := grows_loopStep runs inv.kept (lined.keepsOrder inv.unique action) moved
  -- an item that has been enqueued does not enter again
  have fresh : ∀ item ∈ entered, item ∉ line := by
    intro item mem selected
    have nodup := (nodup_append.mp after.unique.nodup).1
    rw [grows.enqueued] at nodup
    exact (nodup_append.mp nodup).2.2 item (lined.entered selected) item mem rfl
  refine ⟨?_, ?_, ?_⟩
  · rw [grows.enqueued]
    exact fun item selected => mem_append_left _ (lined.entered selected)
  · intro item mem
    rcases grows.own item mem with old | new
    · exact lined.own item old
    · exact fresh item new.1
  · rcases grows.held with same | early
    · rw [same, filter_mem_eq_nil fresh, append_nil]
      exact lined.held
    · exact absurd early.1 after.cleanup

/-- What waits outside the turns is in line. -/
theorem Conserving.lined (inv : Conserving s) (outside : s.pc.isInside = false) :
    Lined s.queues.waiting s := by
  have released := inv.kept.released outside
  have held : s.queues.held = s.queues.popped ++ s.queues.waiting := by
    unfold Queues.held
    rw [released.2, append_nil]
  have nodup := inv.nodup_held
  rw [held] at nodup
  refine ⟨?_, ?_, ?_⟩
  · intro item mem
    refine inv.holds.subset ?_
    rw [held]
    exact mem_append_right _ mem
  · rw [released.2]
    exact nofun
  · rw [held, filter_append]
    have executed : (s.queues.popped.filter fun item =>
        decide (item ∈ s.queues.waiting)) = [] :=
      filter_mem_eq_nil fun item popped waits =>
        (nodup_append.mp nodup).2.2 item popped item waits rfl
    rw [executed, nil_append, filter_eq_self]
    exact fun item mem => decide_eq_true mem

/-! ## Conservation -/

/-- Every item is taken out for execution at most once, what the queues hold is
exactly what has not been taken out, and the counters of the local queue are in
step whenever a callback runs or the loop is parked. -/
structure ReadyConserved (s : LoopState) : Prop where
  poppedOnce : s.queues.popped.Nodup
  remaining : (s.queues.readyBatch ++ s.queues.localReady ++ s.queues.inRuns ++
        s.queues.dispatcherBatch ++ s.queues.onChannel).Perm
      (s.queues.enqueued.filter fun item =>
        decide (item ∉ s.queues.popped))
  counted : ((∃ item processed, s.pc = .executing item processed) ∨
        s.pc = .park) →
      s.queues.localEnqueues = s.queues.localTaken + s.queues.localReady.length

/-- What waited before has been taken out in the order in which it waited, and
the rest of it still waits in that order. -/
def ExecutedInOrder (before s : LoopState) : Prop :=
  (s.queues.popped.filter fun item =>
        decide (item ∈ before.queues.waiting)) ++
      (s.queues.waiting.filter fun item =>
        decide (item ∈ before.queues.waiting)) =
    before.queues.waiting

theorem Conserving.readyConserved (inv : Conserving s) : ReadyConserved s where
  poppedOnce := (nodup_append.mp inv.nodup_held).1
  remaining := by
    have nodup := inv.nodup_held
    have disjoint := (nodup_append.mp nodup).2.2
    have filtered := inv.holds.filter fun item =>
      decide (item ∉ s.queues.popped)
    have executed : (s.queues.popped.filter fun item =>
        decide (item ∉ s.queues.popped)) = [] :=
      filter_eq_nil_iff.mpr fun item mem selected =>
        of_decide_eq_true selected mem
    have others : ((s.queues.waiting ++ s.queues.localReady).filter
        fun item => decide (item ∉ s.queues.popped)) =
          s.queues.waiting ++ s.queues.localReady :=
      filter_eq_self.mpr fun item mem =>
        decide_eq_true fun popped => disjoint item popped item mem rfl
    unfold Queues.held at filtered
    rw [filter_append, executed, nil_append, others] at filtered
    refine List.Perm.trans ?_ filtered
    rw [perm_iff_count]
    simp only [Queues.waiting, count_append]
    omega
  counted := by
    intro busy
    refine inv.kept.counted ?_
    rcases busy with ⟨item, processed, pos⟩ | pos
    · rw [pos]
      rfl
    · rw [pos]
      rfl

/-- In all runs that reach their cleanup, ready items are conserved, and what
the loop holds outside its turns is executed in the order in which it was left
there. -/
theorem readyConserved_of_reachesCleanup (threads : Nat)
    {first second : List LoopAction} {before s : LoopState}
    (cleanup : Guarded loopStep ReachesCleanup (.new threads) first)
    (cleanupLater : Guarded loopStep ReachesCleanup before second)
    (reached : run loopStep (.new threads) first = some before)
    (later : run loopStep before second = some s) :
    ReadyConserved s ∧ (before.pc.isInside = false → ExecutedInOrder before s) := by
  have inv : Conserving before :=
    invariant_of_run Conserving
      (fun _ _ _ inv cleanup moved => conserving_loopStep inv cleanup moved)
      (conserving_new threads) cleanup reached
  constructor
  · exact (invariant_of_run Conserving
      (fun _ _ _ inv cleanup moved => conserving_loopStep inv cleanup moved)
      inv cleanupLater later).readyConserved
  · intro outside
    obtain ⟨after, lined⟩ : Conserving s ∧ Lined before.queues.waiting s :=
      invariant_of_run (fun current => Conserving current ∧ Lined before.queues.waiting current)
        (fun _ _ _ both cleanup moved =>
          ⟨conserving_loopStep both.1 cleanup moved, lined_loopStep both.1 both.2 cleanup moved⟩)
        ⟨inv, inv.lined outside⟩ cleanupLater later
    have held := lined.held
    unfold Queues.held at held
    rw [filter_append, filter_append, filter_mem_eq_nil lined.own,
      append_nil] at held
    exact held

/-- A callback from another thread raises a `BaseException` after it has
scheduled another one, with two timers waiting in its generation. -/
def raisedRun : List LoopAction :=
  List.flatten [[.call 1 .callback], List.replicate 2 (.producer 1), [.runForever],
      List.replicate 4 (.loop .proceed), List.replicate 7 .dispatcher,
      [.loop (.timersDue 2)], List.replicate 3 (.loop .proceed),
      [.enqueue .handle, .loop (.executed .raisedBaseException)],
      List.replicate 5 (.loop .proceed), List.replicate 4 .dispatcher,
      [.loop .proceed]]

/-- The run behind it executes the first of them. -/
def resumedRun : List LoopAction :=
  List.flatten [[.runForever], List.replicate 4 (.loop .proceed),
      List.replicate 4 .dispatcher, [.loop (.timersDue 0)],
      List.replicate 3 (.loop .proceed)]

theorem readyConserved_of_raisedRun : ∃ before s,
      run loopStep (.new 2) raisedRun = some before ∧ before.pc = .outside ∧
        before.queues.waiting.map ReadyItem.stamp = [1, 2, 3] ∧
        run loopStep before resumedRun = some s ∧
        s.queues.popped.map ReadyItem.stamp = [0, 1] ∧
        ReadyConserved s ∧ ExecutedInOrder before s := by
  obtain ⟨before, s, reached, later, outside, waiting, guarded, popped⟩ :=
    exists_runs_of_any loopStep (.new 2) raisedRun resumedRun (fun before s =>
        before.pc = .outside ∧ before.queues.waiting.map ReadyItem.stamp = [1, 2, 3] ∧
          Guarded loopStep ReachesCleanup before resumedRun ∧
          s.queues.popped.map ReadyItem.stamp = [0, 1])
      (by decide)
  obtain ⟨conserved, ordered⟩ :=
    readyConserved_of_reachesCleanup 2 (by decide) guarded reached later
  exact ⟨before, s, reached, outside, waiting, later, popped, conserved,
    ordered (by rw [outside]; rfl)⟩

end Rsloop.Engine
