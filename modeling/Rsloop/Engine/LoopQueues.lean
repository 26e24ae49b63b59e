import Rsloop.Engine.RunProtocol

/-!
# The queues along a run

From the steps of the loop thread and the order of the run commands follows which
queues can hold anything: the queue of a run is empty once the dispatcher has
finished the run, and the batch and the local queue are empty outside the turns.
-/

namespace Rsloop.Engine

open Transition List Queues PendingReady

/-! ## The loop thread's moves -/

/-- The batch and the local queue may hold something: from the first turn until
what is left has been handed back. -/
def Position.isInside : Position → Bool
  | .turn | .generation _ | .mergeGeneration _ | .executing _ _ | .endTurn _ | .checkSignals
  | .park | .cleanup _ | .handBack _ => true
  | _ => false

/-- The loop thread may still merge the queue of its run. -/
def Position.mayMerge : Position → Bool
  | .clearReadyPending | .publish | .sendEnterRun | .install => true
  | pc => pc.isInside

theorem Position.mayMerge_of_isInside (pos : Position)
    (inside : pos.isInside) : pos.mayMerge := by
  cases pos with
  | clearReadyPending | publish | sendEnterRun | install => rfl
  | _ => exact inside

/-- What the loop's thread leaves alone -/
structure LoopFrame (s next : LoopState) : Prop where
  producers : next.producers = s.producers
  channelHandles : next.channelHandles = s.channelHandles
  dispatcher : next.dispatcher = s.dispatcher
  dispatcherHandles : next.dispatcherHandles = s.dispatcherHandles
  activeRun : next.activeRun = s.activeRun
  receivedRuns : next.receivedRuns = s.receivedRuns
  results : s.results <+: next.results

variable {s next : LoopState}

theorem RunStep.frame {reply : LoopReply} (step : RunStep s reply next) :
    LoopFrame s next := by
  cases step with
  | abandons | returns | timesOut => exact ⟨rfl, rfl, rfl, rfl, rfl, rfl, prefix_append _ _⟩
  | _ => exact ⟨rfl, rfl, rfl, rfl, rfl, rfl, prefix_rfl⟩

/-- What the dispatcher leaves alone -/
structure DispatcherFrame (s next : LoopState) : Prop where
  enqueued : next.queues.enqueued = s.queues.enqueued
  scheduled : next.queues.scheduled = s.queues.scheduled
  popped : next.queues.popped = s.queues.popped
  localReady : next.queues.localReady = s.queues.localReady
  producers : next.producers = s.producers
  pc : next.pc = s.pc
  results : next.results = s.results

theorem DispatcherStep.frame (step : DispatcherStep s next) :
    DispatcherFrame s next := by
  cases step with
  | enters _ _ replaces => cases replaces <;> exact ⟨rfl, rfl, rfl, rfl, rfl, rfl, rfl⟩
  | _ => exact ⟨rfl, rfl, rfl, rfl, rfl, rfl, rfl⟩

/-! ## Which queues can hold anything -/

structure QueuesKept (s : LoopState) : Prop where
  /-- The dispatcher has emptied the queues of all runs it has finished. -/
  emptied : ∀ run, 2 * run + 2 ≤ s.receivedRuns →
    s.dispatcher ≠ .finishRun run → (s.queues.pending run).items = []
  valid : s.pc.mayMerge → (s.queues.pending s.currentRun).Valid
  released : s.pc.isInside = false →
    s.queues.readyBatch = [] ∧ s.queues.localReady = []
  merging : ∀ processed, s.pc = .mergeGeneration processed → s.queues.readyBatch = []
  /-- The loop thread's enqueues are numbered from `localTaken` on. -/
  counted : s.pc.isInside → s.queues.localEnqueues =
      s.queues.localTaken + s.queues.localReady.length

theorem queuesKept_new (threads : Nat) : QueuesKept (.new threads) where
  emptied := fun run finished => by
    change 2 * run + 2 ≤ 0 at finished
    omega
  valid := nofun
  released := fun _ => ⟨rfl, rfl⟩
  merging := nofun
  counted := fun inside => by cases inside

section Pendings

variable (q : Queues) {run other : Nat}

theorem Queues.pending_setPending_self (inRange : run < q.pendings.length)
    (changed : PendingReady ReadyItem) : (q.setPending run changed).pending run = changed := by
  unfold Queues.pending setPending
  rw [getElem?_set_self inRange]
  rfl

theorem Queues.pending_setPending_of_ne (different : run ≠ other)
    (changed : PendingReady ReadyItem) :
    (q.setPending run changed).pending other = q.pending other := by
  unfold Queues.pending setPending
  rw [getElem?_set_ne different]

theorem Queues.pending_openRun : q.openRun.pending run = q.pending run ∨
      q.openRun.pending run = .empty := by
  unfold Queues.pending openRun
  by_cases inRange : run < q.pendings.length
  · exact .inl (by rw [getElem?_append_left inRange])
  · refine .inr ?_
    by_cases newest : run = q.pendings.length
    · subst newest
      simp
    · rw [getElem?_eq_none]
      · rfl
      · simp only [length_append, length_singleton]
        omega

end Pendings

variable {last : Nat}

theorem Position.Sent.le {pos : Position} {early : Prop} {runs : Nat}
    (sent : pos.Sent early runs last) :
    last ≤ 2 * runs ∧ (pos.mayMerge → last + 1 ≤ 2 * runs) := by
  cases pos with
  | outside => exact ⟨Nat.le_of_eq sent, nofun⟩
  | awaitFinishRun => exact ⟨Nat.le_of_eq sent.1, nofun⟩
  | _ =>
    simp only [Position.Sent] at sent
    omega

variable {run : Nat}

theorem RunsInOrder.run_lt (inv : RunsInOrder s last)
    (known : 2 * run + 1 ≤ last) :
    run < s.queues.pendings.length := by
  have bounded := inv.sent.le.1
  omega

theorem RunsInOrder.sent_of_inside (inv : RunsInOrder s last)
    (inside : s.pc.isInside) : last + 1 = 2 * s.queues.pendings.length := by
  have sent := inv.sent
  cases pos : s.pc with
  | turn | generation processed | mergeGeneration processed | executing item processed
  | endTurn error | checkSignals | park | cleanup result | handBack result =>
    rwa [pos] at sent
  | _ =>
    rw [pos] at inside
    cases inside

theorem RunsInOrder.active_of_forward (inv : RunsInOrder s last)
    {localMark : Nat} {after : AfterForward}
    (pos : s.dispatcher = .forward localMark after) :
    ∃ run, s.activeRun = some run ∧ s.receivedRuns = 2 * run + 1 := by
  have served := inv.served
  rw [pos] at served
  exact AfterForward.Serves.forwarded served

/-- All older queues are empty when the dispatcher serves a run. -/
theorem QueuesKept.olderThan_eq_nil (kept : QueuesKept s)
    (received : 2 * run ≤ s.receivedRuns)
    (elsewhere : ∀ older, older < run → s.dispatcher ≠ .finishRun older) :
    s.queues.olderThan run = [] := by
  unfold olderThan
  rw [flatMap_eq_nil_iff]
  intro pending mem
  obtain ⟨older, inRange, found⟩ := mem_iff_getElem.mp (mem_reverse.mp mem)
  rw [length_take] at inRange
  have emptied := kept.emptied older (by omega) (elsewhere older (by omega))
  unfold Queues.pending at emptied
  rw [getElem?_eq_getElem (by omega), Option.getD_some] at emptied
  rwa [← found, getElem_take]

theorem RunsInOrder.run_of_accepting (inv : RunsInOrder s last)
    (isActive : s.activeReadyDispatch = some ⟨run, true⟩) :
    run < s.queues.pendings.length := by
  have received := (inv.accepting run isActive).1
  have bounded := inv.received_le
  exact inv.run_lt (by omega)

theorem RunsInOrder.run_of_active (inv : RunsInOrder s last)
    (received : 2 * run + 1 ≤ s.receivedRuns) :
    run < s.queues.pendings.length :=
  inv.run_lt (Nat.le_trans received inv.received_le)

variable {dispatcher : Dispatcher}

theorem QueuesKept.addPending (kept : QueuesKept s)
    (inRange : run < s.queues.pendings.length)
    (received : s.receivedRuns < 2 * run + 2) {changed : PendingReady ReadyItem}
    (validly : (s.queues.pending run).Valid → changed.Valid)
    {enqueued dispatcherBatch : List ReadyItem} {producers : List Producer}
    (elsewhere : ∀ other, s.dispatcher ≠ .finishRun other) :
    QueuesKept
      { s with
        queues :=
          { s.queues.setPending run changed with
            enqueued := enqueued
            dispatcherBatch := dispatcherBatch }
        producers := producers
        dispatcher := dispatcher } :=
  { kept with
    emptied := by
      intro other finished _
      change 2 * other + 2 ≤ s.receivedRuns at finished
      have different : run ≠ other := by omega
      have same := s.queues.pending_setPending_of_ne different changed
      change ((s.queues.setPending run changed).pending other).items = []
      rw [same]
      exact kept.emptied other finished (elsewhere other)
    valid := by
      intro mayMerge
      have current := kept.valid mayMerge
      change ((s.queues.setPending run changed).pending
        ((s.queues.pendings.set run changed).length - 1)).Valid
      rw [length_set]
      by_cases same : run = s.queues.pendings.length - 1
      · rw [← same, s.queues.pending_setPending_self inRange]
        apply validly
        rwa [same]
      · rw [s.queues.pending_setPending_of_ne same]
        exact current }

theorem RunsInOrder.not_finishing_of_accepting (inv : RunsInOrder s last)
    (isActive : s.activeReadyDispatch = some ⟨run, true⟩) (other : Nat) :
    s.dispatcher ≠ .finishRun other := by
  intro pos
  have served := inv.served
  rw [pos] at served
  have received := (inv.accepting run isActive).1
  have finishing := served.2
  omega

theorem queuesKept_producerStep (inv : RunsInOrder s last)
    (kept : QueuesKept s) {tid : Nat}
    (step : ProducerStep s tid next) : QueuesKept next := by
  cases step with
  | pushes _ isActive =>
    have received := (inv.accepting _ isActive).1
    exact kept.addPending (inv.run_of_accepting isActive) (by omega)
      (fun valid => valid.push _ _) (inv.not_finishing_of_accepting isActive)
  | _ => exact { kept with }

section

variable {chan : List Command} {dispatcherBatch : List ReadyItem} (kept : QueuesKept s)

include kept

theorem QueuesKept.serve {dispatcherHandles channelHandles : Nat}
    {readyPending running stopping : Bool} {finished : List Nat}
    (elsewhere : ∀ run, s.dispatcher ≠ .finishRun run) :
    QueuesKept
      { s with
        queues := { s.queues with channel := chan, dispatcherBatch := dispatcherBatch }
        dispatcher := dispatcher
        dispatcherHandles := dispatcherHandles
        channelHandles := channelHandles
        readyPending := readyPending
        running := running
        stopping := stopping
        finished := finished } :=
  { kept with
    emptied := fun run finishedRun _ =>
      kept.emptied run finishedRun (elsewhere run) }

theorem QueuesKept.emptyPending {received : Nat} {activeRun : Option Nat}
    (finished : ∀ other, 2 * other + 2 ≤ received → dispatcher ≠ .finishRun other → other ≠ run →
        2 * other + 2 ≤ s.receivedRuns ∧ s.dispatcher ≠ .finishRun other) :
    QueuesKept
      { s with
        queues :=
          { s.queues.setPending run .empty with
            channel := chan
            dispatcherBatch := dispatcherBatch }
        dispatcher := dispatcher
        activeRun := activeRun
        receivedRuns := received } := by
  have emptied : ∀ other, (s.queues.setPending run .empty).pending other =
          s.queues.pending other ∨
        (s.queues.setPending run .empty).pending other = .empty := by
    intro other
    by_cases same : run = other
    · subst same
      by_cases inRange : run < s.queues.pendings.length
      · exact .inr (s.queues.pending_setPending_self inRange .empty)
      · left
        unfold setPending
        rw [set_eq_of_length_le (by omega)]
    · exact .inl (s.queues.pending_setPending_of_ne same .empty)
  exact
    { kept with
      emptied := by
        intro other isFinished elsewhere
        change ((s.queues.setPending run .empty).pending other).items = []
        by_cases same : other = run
        · subst same
          by_cases inRange : other < s.queues.pendings.length
          · rw [s.queues.pending_setPending_self inRange .empty]
            rfl
          · unfold setPending Queues.pending
            rw [getElem?_eq_none (by rw [length_set]; omega)]
            rfl
        · obtain ⟨before, waiting⟩ := finished other isFinished elsewhere same
          rw [s.queues.pending_setPending_of_ne (Ne.symm same)]
          exact kept.emptied other before waiting
      valid := by
        intro mayMerge
        change ((s.queues.setPending run .empty).pending
          ((s.queues.pendings.set run .empty).length - 1)).Valid
        rw [length_set]
        rcases emptied (s.queues.pendings.length - 1) with same | none
        · rw [same]
          exact kept.valid mayMerge
        · rw [none]
          exact valid_empty }

end

theorem QueuesKept.enter (kept : QueuesKept s) (inv : RunsInOrder s last)
    (pos : s.dispatcher = .drainCommands)
    {localMark : Nat} {rest : List Command} {q : Queues} {after : Dispatcher}
    (chan : s.queues.channel = .enterRun run localMark :: rest)
    (replaces : Replaces s q) :
    QueuesKept
      { s with
        queues := q
        activeRun := some run
        receivedRuns := 2 * run + 1
        dispatcher := after } := by
  have received := inv.received_enterRun chan
  have served : ServesRun s.receivedRuns s.activeRun := by
    have served := inv.served
    rwa [pos] at served
  cases replaces with
  | none inactive =>
    rw [inactive] at served
    have even : s.receivedRuns % 2 = 0 := served
    exact
      { kept with
        emptied := fun other finished _ => by
          change 2 * other + 2 ≤ 2 * run + 1 at finished
          exact kept.emptied other (by omega) (by simp [pos]) }
  | some active =>
    rw [active] at served
    have odd : s.receivedRuns = 2 * _ + 1 := served
    refine kept.emptyPending fun other finished _ different => ?_
    exact ⟨by omega, by simp [pos]⟩

theorem queuesKept_dispatcherStep (inv : RunsInOrder s last)
    (kept : QueuesKept s) (step : DispatcherStep s next) : QueuesKept next := by
  have served := inv.served
  cases step with
  | turns pos turn =>
    cases turn with
    | finishes inactive =>
      rw [pos] at served
      cases served.1.symm.trans inactive
    | _ => exact kept.serve (by simp [pos])
  | receives pos | releases pos | signals pos | resets pos
  | acknowledges pos => exact kept.serve (by simp [pos])
  | enters pos chan replaces => exact kept.enter inv pos chan replaces
  | @finishes run _ pos chan =>
    have received := inv.received_finishRun chan
    exact
      { kept with
        emptied := fun other finished different => by
          have older : other ≠ run := fun same => different (by rw [same])
          change 2 * other + 2 ≤ 2 * run + 2 at finished
          exact kept.emptied other (by omega) (by simp [pos]) }
  | @forwards localMark _ _ pos active =>
    obtain ⟨_, isActive, received⟩ := inv.active_of_forward pos
    cases active.symm.trans isActive
    exact kept.addPending (inv.run_of_active (by omega)) (by omega)
      (fun valid => valid.extend s.queues.dispatcherBatch localMark)
      (by simp [pos])
  | activates pos =>
    exact
      { kept with
        emptied := fun other finished _ =>
          kept.emptied other finished (by simp [pos]) }
  | takesBack pos isActive =>
    rw [pos] at served
    cases served.1.symm.trans isActive
    refine kept.emptyPending fun other finished _ different => ⟨finished, ?_⟩
    rw [pos]
    intro same
    cases same
    exact different rfl

theorem LoopFrame.emptied (frame : LoopFrame s next) (kept : QueuesKept s)
    (pendings : ∀ run, (next.queues.pending run).items = [] ∨
      next.queues.pending run = s.queues.pending run ∨
      s.receivedRuns < 2 * run + 2) :
    ∀ run, 2 * run + 2 ≤ next.receivedRuns →
      next.dispatcher ≠ .finishRun run → (next.queues.pending run).items = [] := by
  intro run finished elsewhere
  rw [frame.receivedRuns] at finished
  rw [frame.dispatcher] at elsewhere
  rcases pendings run with none | same | later
  · exact none
  · rw [same]
    exact kept.emptied run finished elsewhere
  · omega

theorem Queues.localEnqueues_collect (q : Queues) (count : Nat)
    (counted : q.localEnqueues = q.localTaken + q.localReady.length) :
    (q.collect count).localEnqueues = (q.collect count).localTaken +
        (q.collect count).localReady.length := by
  induction count generalizing q with
  | zero => exact counted
  | succ _ ih =>
    refine ih _ ?_
    simp only [enqueueLocal, length_append, length_singleton]
    omega

theorem RunsInOrder.received_lt (inv : RunsInOrder s last)
    (inside : s.pc.isInside) : s.receivedRuns < 2 * s.currentRun + 2 := by
  have sent := inv.sent_of_inside inside
  have bounded := inv.received_le
  unfold LoopState.currentRun
  omega

theorem RunsInOrder.newest (inv : RunsInOrder s last)
    (inside : s.pc.isInside) :
    s.currentRun + 1 = s.queues.pendings.length := by
  have sent := inv.sent_of_inside inside
  unfold LoopState.currentRun
  omega

section

variable (kept : QueuesKept s)

include kept

theorem QueuesKept.inside (frame : LoopFrame s next) {before after : Position}
    (pos : s.pc = before) (arrives : next.pc = after)
    (wasInside : before.isInside ∨ before = .install)
    (isInside : after.isInside)
    (elsewhere : ∀ processed, after ≠ .mergeGeneration processed)
    (pendings : next.queues.pendings = s.queues.pendings)
    (counted : next.queues.localEnqueues = next.queues.localTaken + next.queues.localReady.length) :
    QueuesKept next where
  emptied := frame.emptied kept fun run => by
    refine .inr (.inl ?_)
    unfold Queues.pending
    rw [pendings]
  valid := fun _ => by
    have mayMerge : before.mayMerge := by
      rcases wasInside with inside | isInstall
      · exact before.mayMerge_of_isInside inside
      · rw [isInstall]
        rfl
    have valid := kept.valid (by rw [pos]; exact mayMerge)
    unfold Queues.pending LoopState.currentRun at valid ⊢
    rwa [pendings]
  released := fun outside => by
    rw [arrives, isInside] at outside
    cases outside
  merging := fun processed other => absurd (arrives.symm.trans other) (elsewhere processed)
  counted := fun _ => counted

/-- The loop thread has given up its batch and its local queue. -/
theorem QueuesKept.outside (frame : LoopFrame s next) {after : Position}
    (arrives : next.pc = after) (isOutside : after.mayMerge = false)
    (pendings : ∀ run, (next.queues.pending run).items = [] ∨
      next.queues.pending run = s.queues.pending run ∨
      s.receivedRuns < 2 * run + 2)
    (released : next.queues.readyBatch = [] ∧ next.queues.localReady = []) :
    QueuesKept next where
  emptied := frame.emptied kept pendings
  valid := fun mayMerge => by
    rw [arrives, isOutside] at mayMerge
    cases mayMerge
  released := fun _ => released
  merging := fun processed other => by
    rw [← arrives, other] at isOutside
    cases isOutside
  counted := fun inside => by
    rw [arrives] at inside
    cases (after.mayMerge_of_isInside inside).symm.trans isOutside

theorem QueuesKept.pending_merge (inv : RunsInOrder s last) {processed : Nat}
    (pos : s.pc = .mergeGeneration processed) :
    (s.queues.merge s.currentRun).pending s.currentRun = .empty := by
  have newest := inv.newest (by rw [pos]; rfl)
  have valid := kept.valid (by rw [pos]; rfl)
  refine (s.queues.pending_setPending_self (by omega) _).trans ?_
  rw [items_mergeReadyGeneration valid]
  rfl

theorem QueuesKept.keep (frame : LoopFrame s next) (q : next.queues = s.queues)
    {before : Position} (pos : s.pc = before)
    (inside : next.pc.isInside = before.isInside)
    (mayMerge : next.pc.mayMerge = before.mayMerge)
    (merging : ∀ processed, next.pc = .mergeGeneration processed →
      s.queues.readyBatch = []) : QueuesKept next where
  emptied := frame.emptied kept fun run => .inr (.inl (by rw [q]))
  valid := fun may => by
    have valid := kept.valid (by rw [pos, ← mayMerge]; exact may)
    unfold LoopState.currentRun at valid ⊢
    rwa [q]
  released := fun outside => by
    rw [q]
    exact kept.released (by rw [pos, ← inside]; exact outside)
  merging := fun processed arrives => by
    rw [q]
    exact merging processed arrives
  counted := fun isInside => by
    rw [q]
    exact kept.counted (by rw [pos, ← inside]; exact isInside)

theorem QueuesKept.sendRun (frame : LoopFrame s next) {cmd : Command}
    (q : next.queues = s.queues.sendRun cmd)
    (inside : next.pc.isInside = false) (wasInside : s.pc.isInside = false)
    (mayMerge : next.pc.mayMerge → s.pc.mayMerge) :
    QueuesKept next where
  emptied := frame.emptied kept fun run => .inr (.inl (by rw [q]; rfl))
  valid := fun may => by
    have valid := kept.valid (mayMerge may)
    unfold LoopState.currentRun at valid ⊢
    rwa [q]
  released := fun _ => by
    rw [q]
    exact kept.released wasInside
  merging := fun processed arrives => by
    rw [arrives] at inside
    cases inside
  counted := fun isInside => by
    cases inside.symm.trans isInside

end

theorem QueuesKept.merge (inv : RunsInOrder s last) (kept : QueuesKept s)
    (frame : LoopFrame s next) {processed : Nat}
    (pos : s.pc = .mergeGeneration processed)
    (q : next.queues = s.queues.merge s.currentRun)
    (arrives : next.pc = .endTurn false ∨
      next.pc = .generation processed) : QueuesKept next := by
  have emptied : next.queues.pending s.currentRun = empty := by
    rw [q]
    exact kept.pending_merge inv pos
  have same : next.currentRun = s.currentRun := by
    unfold LoopState.currentRun
    rw [q, Queues.length_merge]
  have isInside : next.pc.isInside ∧
      ∀ other, next.pc ≠ .mergeGeneration other := by
    rcases arrives with isEnd | isHead
    · rw [isEnd]
      exact ⟨rfl, fun _ => Position.noConfusion⟩
    · rw [isHead]
      exact ⟨rfl, fun _ => Position.noConfusion⟩
  refine
    { emptied := frame.emptied kept fun run => ?_
      valid := fun _ => by
        rw [same, emptied]
        exact valid_empty
      released := fun outside => by
        cases isInside.1.symm.trans outside
      merging := fun other arrives => absurd arrives (isInside.2 other)
      counted := fun _ => ?_ }
  · by_cases current : s.currentRun = run
    · rw [← current, emptied]
      exact .inl rfl
    · refine .inr (.inl ?_)
      rw [q]
      exact s.queues.pending_setPending_of_ne current _
  · rw [q]
    change s.queues.localEnqueues = (mergeReadyGeneration _ _ _).localTaken +
        (mergeReadyGeneration _ _ _).localReady.length
    rw [localTaken_mergeReadyGeneration, localReady_mergeReadyGeneration,
      kept.counted (by rw [pos]; rfl)]
    rfl

theorem queuesKept_runStep (inv : RunsInOrder s last) (kept : QueuesKept s)
    {reply : LoopReply} (step : RunStep s reply next) : QueuesKept next := by
  have frame := step.frame
  have counted : ∀ {before : Position}, s.pc = before → before.isInside →
        s.queues.localEnqueues = s.queues.localTaken + s.queues.localReady.length :=
    fun pos inside => kept.counted (by rw [pos]; exact inside)
  cases step with
  | clears pos | publishes pos | cleans pos | retires pos
  | returns pos | timesOut pos =>
    exact kept.keep frame rfl pos rfl rfl fun _ => Position.noConfusion
  | stops pos isStop continues | endsTurn pos continues =>
    cases continues <;> exact kept.keep frame rfl pos rfl rfl fun _ => Position.noConfusion
  | passes pos pass =>
    cases pass with
    | merges batch => exact kept.keep frame rfl pos rfl rfl fun _ _ => batch
    | executes _ _ continues =>
      cases continues <;> exact kept.keep frame rfl pos rfl rfl fun _ => Position.noConfusion
    | _ => exact kept.keep frame rfl pos rfl rfl fun _ => Position.noConfusion
  | announces pos =>
    exact kept.sendRun frame rfl rfl (by rw [pos]; rfl) fun _ => by rw [pos]; rfl
  | finishes pos =>
    exact kept.sendRun frame rfl rfl (by rw [pos]; rfl) nofun
  | installs pos =>
    exact kept.inside frame pos rfl (.inr rfl) rfl (fun _ => Position.noConfusion) rfl rfl
  | @collects count pos =>
    obtain ⟨_, collected, _, _⟩ := collect_frame s.queues count
    exact kept.inside frame pos rfl (.inl rfl) rfl (fun _ => Position.noConfusion) collected
      (localEnqueues_collect _ _ (counted pos rfl))
  | pops pos =>
    exact kept.inside frame pos rfl (.inl rfl) rfl
      (fun _ => Position.noConfusion) rfl (counted pos rfl)
  | swaps pos =>
    exact kept.inside frame pos pos (.inl rfl) rfl
      (fun _ => Position.noConfusion) rfl (counted pos rfl)
  | merges pos arrives => exact kept.merge inv frame pos rfl arrives
  | signals pos =>
    refine kept.inside frame pos rfl (.inl rfl) rfl (fun _ => Position.noConfusion) rfl ?_
    have before := counted pos rfl
    simp only [LoopState.enqueueLocal, enqueueLocal, length_append,
      length_singleton]
    omega
  | leaves pos =>
    have received := inv.received_lt (by rw [pos]; rfl)
    refine kept.outside frame rfl rfl (fun run => ?_) ⟨rfl, localReady_mergeReadyGeneration⟩
    by_cases current : s.currentRun = run
    · rw [← current]
      exact .inr (.inr received)
    · exact .inr (.inl (s.queues.pending_setPending_of_ne current _))
  | releases _ nothing =>
    exact kept.outside frame rfl rfl (fun _ => .inr (.inl rfl)) nothing
  | abandons =>
    exact kept.outside frame rfl rfl (fun _ => .inr (.inl rfl)) ⟨rfl, rfl⟩

theorem QueuesKept.begin (kept : QueuesKept s)
    (isOver : s.pc = .outside ∨ s.pc = .leftEarly) :
    QueuesKept
      { s with
        queues := s.queues.openRun
        running := true
        stopping := false
        pc := .clearReadyPending } where
  emptied := fun run finished elsewhere => by
    rcases s.queues.pending_openRun with same | none
    · exact (congrArg items same).trans (kept.emptied run finished elsewhere)
    · exact congrArg items none
  valid := fun _ => by
    change (s.queues.openRun.pending
      ((s.queues.pendings ++ [empty]).length - 1)).Valid
    rw [length_append, length_singleton, Nat.add_sub_cancel]
    unfold Queues.pending openRun
    simp only [getElem?_concat_length, Option.getD_some]
    exact valid_empty
  released := fun _ => by
    refine kept.released ?_
    rcases isOver with outside | left
    · rw [outside]
      rfl
    · rw [left]
      rfl
  merging := nofun
  counted := fun inside => by cases inside

theorem QueuesKept.enqueue (kept : QueuesKept s)
    (runsCode : s.pc.runsCode) (kind : ReadyKind) :
    QueuesKept (s.enqueueLocal kind) := by
  have isInside : s.pc.isInside := by
    cases pos : s.pc <;> rw [pos] at runsCode <;> first | rfl | cases runsCode
  exact
    { kept with
      released := fun outside => by
        cases isInside.symm.trans outside
      counted := fun _ => by
        have before := kept.counted isInside
        change s.queues.localEnqueues + 1 =
          s.queues.localTaken + (s.queues.localReady ++ [_]).length
        rw [length_append, length_singleton]
        omega }

theorem queuesKept_loopStep (inv : RunsInOrder s last) (kept : QueuesKept s)
    {action : LoopAction} (moved : loopStep s action = some next) :
    QueuesKept next := by
  cases loopStep_cases moved with
  | calls => exact { kept with }
  | produces step => exact queuesKept_producerStep inv kept step
  | dispatches step => exact queuesKept_dispatcherStep inv kept step
  | enqueues runsCode => exact kept.enqueue runsCode _
  | refuses => exact kept
  | begins isOver => exact kept.begin isOver
  | runs step => exact queuesKept_runStep inv kept step

end Rsloop.Engine
