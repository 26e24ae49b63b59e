import Rsloop.Engine.ReadyConservation

/-!
# The end of a run

`run_forever` has one cleanup tail and, inside its drain loop, several `?` that
leave without it. A run that reaches the tail leaves the loop as it should be:
not running, with nothing installed on its thread, and with all unexecuted work
on its way back to the dispatcher.
-/

namespace Rsloop.Engine

open Transition List

variable {s next : LoopState} {last : Nat}

/-- The thread-local pointers of the run are set. -/
def Position.installed : Position → Bool
  | .turn | .generation _ | .mergeGeneration _ | .executing _ _ | .endTurn _ | .checkSignals
  | .park | .cleanup _ | .leftEarly => true
  | _ => false

/-- The dispatcher has reset the loop's state for the current run. -/
def LoopState.hasReset (s : LoopState) : Prop :=
  s.currentRun ∈ s.finished ∨ s.dispatcher = .acknowledge s.currentRun

structure RunFlags (s : LoopState) : Prop where
  finished : ∀ run ∈ s.finished, 2 * run + 2 ≤ s.receivedRuns
  stopped : s.pc = .outside → s.running = false
  reset : ∀ result, s.pc = .awaitFinishRun result → s.hasReset → s.running = false
  uninstalled : s.pc.installed = false →
    s.tlsCore = false ∧ s.tlsReadyQueue = false ∧ s.tlsTimers = false

theorem runFlags_new (threads : Nat) : RunFlags (.new threads) where
  finished := nofun
  stopped := fun _ => rfl
  reset := nofun
  uninstalled := fun _ => ⟨rfl, rfl, rfl⟩

variable {activeReadyDispatch : Option ActiveReadyDispatch}

theorem RunFlags.serve (flags : RunFlags s) {q : Queues}
    {dispatcher : Dispatcher}
    {dispatcherHandles channelHandles received : Nat}
    {readyPending running stopping : Bool} {finished : List Nat}
    {activeRun : Option Nat}
    (runs : q.pendings.length = s.queues.pendings.length)
    (acknowledged : ∀ run ∈ finished, 2 * run + 2 ≤ received)
    (stops : running = s.running ∨ running = false)
    (reset : running = false ∨
      ((s.currentRun ∈ finished ∨ dispatcher = .acknowledge s.currentRun) →
        s.hasReset)) :
    RunFlags
      { s with
        queues := q
        dispatcher := dispatcher
        dispatcherHandles := dispatcherHandles
        channelHandles := channelHandles
        receivedRuns := received
        readyPending := readyPending
        running := running
        stopping := stopping
        finished := finished
        activeRun := activeRun
        activeReadyDispatch := activeReadyDispatch } :=
  { flags with
    finished := acknowledged
    stopped := fun outside => by
      rcases stops with same | stopped
      · exact same.trans (flags.stopped outside)
      · exact stopped
    reset := by
      intro result waits hasReset
      unfold LoopState.hasReset LoopState.currentRun at hasReset
      rw [runs] at hasReset
      rcases reset with stopped | before
      · exact stopped
      · rcases stops with same | stopped
        · exact same.trans (flags.reset result waits (before hasReset))
        · exact stopped }

theorem runFlags_dispatcherStep (runs : RunsInOrder s last)
    (flags : RunFlags s) (step : DispatcherStep s next) : RunFlags next := by
  have served := runs.served
  have pass : ∀ {dispatcher : Dispatcher}, (∀ run, dispatcher ≠ .acknowledge run) →
        ((s.currentRun ∈ s.finished ∨
          dispatcher = .acknowledge s.currentRun) → s.hasReset) := by
    rintro dispatcher elsewhere (before | acknowledges)
    · exact .inl before
    · exact absurd acknowledges (elsewhere _)
  cases step with
  | turns pos turn =>
    cases turn with
    | finishes inactive =>
      rw [pos] at served
      cases served.1.symm.trans inactive
    | _ =>
      exact flags.serve rfl flags.finished (.inl rfl) (.inr (pass fun _ => Dispatcher.noConfusion))
  | receives => exact flags.serve rfl flags.finished (.inl rfl) (.inr id)
  | enters _ chan replaces opens =>
    have number := runs.received_enterRun chan
    refine flags.serve replaces.frame.2.1 (fun other mem => ?_) (.inl rfl) (.inr (pass ?_))
    · have before := flags.finished other mem
      omega
    · cases opens <;> exact fun _ => Dispatcher.noConfusion
  | finishes _ chan =>
    have number := runs.received_finishRun chan
    refine flags.serve rfl (fun other mem => ?_) (.inl rfl)
      (.inr (pass fun _ => Dispatcher.noConfusion))
    have before := flags.finished other mem
    omega
  | forwards | takesBack =>
    exact flags.serve length_set flags.finished (.inl rfl)
      (.inr (pass fun _ => Dispatcher.noConfusion))
  | @signals after =>
    refine flags.serve rfl flags.finished (.inl rfl) (.inr (pass ?_))
    cases after <;> exact fun _ => Dispatcher.noConfusion
  | resets => exact flags.serve rfl flags.finished (.inr rfl) (.inl rfl)
  | acknowledges pos =>
    have received := served
    rw [pos] at received
    refine flags.serve rfl ?_ (.inl rfl) (.inr ?_)
    · intro other mem
      rcases mem_cons.mp mem with isRun | before
      · have number := received.2
        omega
      · exact flags.finished other before
    · rintro (mem | acknowledges)
      · rcases mem_cons.mp mem with isRun | before
        · refine .inr ?_
          rwa [isRun]
        · exact .inl before
      · cases acknowledges
  | _ =>
    exact flags.serve rfl flags.finished (.inl rfl) (.inr (pass fun _ => Dispatcher.noConfusion))

section

variable {q : Queues} {pc : Position} {results : List (Option RunResult)}
  {stopping stopRequested readyPending drainActive : Bool}
  {tlsCore tlsReadyQueue tlsTimers pendingSignalError : Bool} (flags : RunFlags s)

include flags

theorem RunFlags.advance
    (inRun : pc ≠ .outside ∧ ∀ result, pc ≠ .awaitFinishRun result)
    (uninstalled : pc.installed = false →
      tlsCore = false ∧ tlsReadyQueue = false ∧ tlsTimers = false) :
    RunFlags
      { s with
        queues := q
        pc := pc
        results := results
        stopping := stopping
        stopRequested := stopRequested
        readyPending := readyPending
        drainActive := drainActive
        tlsCore := tlsCore
        tlsReadyQueue := tlsReadyQueue
        tlsTimers := tlsTimers
        pendingSignalError := pendingSignalError
        activeReadyDispatch := activeReadyDispatch } :=
  { flags with
    stopped := fun outside => absurd outside inRun.1
    reset := fun result waits => absurd waits (inRun.2 result)
    uninstalled := uninstalled }

/-- The loop thread stays where its pointers are installed. -/
theorem RunFlags.turns (installed : pc.installed) :
    RunFlags
      { s with
        queues := q
        pc := pc
        results := results
        stopping := stopping
        stopRequested := stopRequested
        readyPending := readyPending
        drainActive := drainActive
        tlsCore := tlsCore
        tlsReadyQueue := tlsReadyQueue
        tlsTimers := tlsTimers
        pendingSignalError := pendingSignalError } := by
  refine flags.advance ⟨?_, ?_⟩ ?_
  · rintro rfl
    cases installed
  · rintro result rfl
    cases installed
  · intro notInstalled
    cases installed.symm.trans notInstalled

end

theorem Position.installed_of_inTurns {pos : Position}
    (turns : pos.inTurns) : pos.installed := by
  cases pos <;> first | rfl | cases turns

section

variable (runs : RunsInOrder s last) (flags : RunFlags s)

include runs flags

/-- The dispatcher cannot have reset the state before it is asked to. -/
theorem RunFlags.sendFinishRun {result : RunResult}
    (pc : s.pc = .sendFinishRun result) :
    RunFlags
      { s with
        queues := s.queues.sendRun (.finishRun s.currentRun)
        pc := .awaitFinishRun result } := by
  have sent : last + 1 = 2 * s.queues.pendings.length := by
    have sent := runs.sent
    rwa [pc] at sent
  have bounded := runs.received_le
  have current : s.currentRun = s.queues.pendings.length - 1 := rfl
  exact
    { flags with
      stopped := nofun
      reset := by
        rintro _ _ (mem | acknowledges)
        · have finished := flags.finished s.currentRun mem
          omega
        · have served := runs.served
          change s.dispatcher = .acknowledge s.currentRun at acknowledges
          rw [acknowledges] at served
          have received := served.2
          omega
      uninstalled := fun _ => flags.uninstalled (by rw [pc]; rfl) }

theorem runFlags_runStep {reply : LoopReply} (step : RunStep s reply next) :
    RunFlags next := by
  have before {pos : Position} (isThere : s.pc = pos)
      (notInstalled : pos.installed = false) :
      s.tlsCore = false ∧ s.tlsReadyQueue = false ∧ s.tlsTimers = false :=
    flags.uninstalled (by rw [isThere]; exact notInstalled)
  cases step with
  | clears pos | publishes pos | announces pos | leaves pos
  | releases pos | retires pos =>
    exact flags.advance ⟨Position.noConfusion, fun _ => Position.noConfusion⟩
      (fun _ => before pos rfl)
  | swaps pos => exact flags.turns (by rw [pos]; rfl)
  | passes _ pass => exact flags.turns (Position.installed_of_inTurns pass.inTurns.2)
  | merges _ arrives => exact flags.turns (by rcases arrives with rfl | rfl <;> rfl)
  | stops _ _ continues =>
    exact flags.turns (Position.installed_of_inTurns continues.inTurns)
  | endsTurn _ ends => exact flags.turns (by cases ends <;> rfl)
  | cleans =>
    exact flags.advance ⟨Position.noConfusion, fun _ => Position.noConfusion⟩
      (fun _ => ⟨rfl, rfl, rfl⟩)
  | finishes pos => exact flags.sendFinishRun runs pos
  | returns pos acknowledged =>
    exact
      { flags with
        stopped := fun _ => flags.reset _ pos (.inl acknowledged)
        reset := nofun
        uninstalled := fun _ => before pos rfl }
  | timesOut pos =>
    exact
      { flags with
        stopped := fun _ => rfl
        reset := nofun
        uninstalled := fun _ => before pos rfl }
  | _ => exact flags.turns rfl

/-- A run starts only where no earlier one has left without its cleanup. -/
theorem RunFlags.begin (cleanup : ¬ s.hasLeftEarly)
    (isOver : s.pc = .outside ∨ s.pc = .leftEarly) :
    RunFlags
      { s with
        queues := s.queues.openRun
        running := true
        stopping := false
        pc := .clearReadyPending } := by
  have outside : s.pc = .outside := by
    rcases isOver with isOutside | left
    · exact isOutside
    · have sent := runs.sent
      rw [left] at sent
      exact absurd sent.1 cleanup
  exact
    { flags with
      stopped := nofun
      reset := nofun
      uninstalled := fun _ => flags.uninstalled (by rw [outside]; rfl) }

theorem runFlags_loopStep (cleanup : ¬ s.hasLeftEarly) {action : LoopAction}
    (moved : loopStep s action = some next) : RunFlags next := by
  cases loopStep_cases moved with
  | calls | enqueues => exact { flags with }
  | produces step =>
    cases step with
    | pushes =>
      exact
        { flags with
          reset := fun result waits hasReset => by
            unfold LoopState.hasReset LoopState.currentRun at hasReset
            rw [Queues.length_pushActive] at hasReset
            exact flags.reset result waits hasReset }
    | _ => exact { flags with }
  | dispatches step => exact runFlags_dispatcherStep runs flags step
  | refuses => exact flags
  | begins isOver => exact flags.begin runs cleanup isOver
  | runs step => exact runFlags_runStep runs flags step

end

/-! ## What a run leaves -/

theorem Follows.mem {early : Prop} {first number : Nat} {numbers : List Nat}
    (follows : Follows early first numbers last) (notEarly : ¬ early)
    (later : first < number) (within : number ≤ last) : number ∈ numbers := by
  induction numbers generalizing first with
  | nil =>
    have same : last = first := follows
    omega
  | cons head _ ih =>
    rcases follows.1 with consecutive | ⟨isEarly, _⟩
    · by_cases isHead : number = head
      · rw [isHead]
        exact mem_cons_self
      · exact mem_cons_of_mem _ (ih follows.2 (by omega))
    · exact absurd isEarly notEarly

theorem mem_channel_of_mem_runNumbers {q : Queues} {run : Nat}
    (mem : 2 * run + 2 ∈ q.runNumbers) : Command.finishRun run ∈ q.channel := by
  obtain ⟨cmd, onChannel, number⟩ := mem_flatMap.mp mem
  cases cmd with
  | schedule item | io item => cases number
  | enterRun other =>
    have same : 2 * run + 2 = 2 * other + 1 := mem_singleton.mp number
    omega
  | finishRun other =>
    have same : 2 * run + 2 = 2 * other + 2 := mem_singleton.mp number
    have isRun : run = other := by omega
    rwa [isRun]

/-- The loop as `run_forever` should leave it: what has not been executed is
with the dispatcher, or in the queue of a run whose `FinishRun` it has still to
handle. -/
structure LeftClean (s : LoopState) : Prop where
  stopped : s.running = false
  uninstalled : s.tlsCore = false ∧ s.tlsReadyQueue = false ∧ s.tlsTimers = false
  closed : s.activeReadyDispatch = none
  queued : (s.queues.inRuns ++ s.queues.dispatcherBatch ++ s.queues.onChannel).Perm
      (s.queues.enqueued.filter fun item =>
        decide (item ∉ s.queues.popped))
  handedOver : ∀ run, (s.queues.pending run).items ≠ [] →
    Command.finishRun run ∈ s.queues.channel ∨ s.dispatcher = .finishRun run

theorem Conserving.handedOver (inv : Conserving s)
    (outside : s.pc = .outside) {run : Nat}
    (holds : (s.queues.pending run).items ≠ []) :
    Command.finishRun run ∈ s.queues.channel ∨ s.dispatcher = .finishRun run := by
  obtain ⟨last, runs⟩ := inv.runs
  by_cases finishing : s.dispatcher = .finishRun run
  · exact .inr finishing
  · have waits : s.receivedRuns < 2 * run + 2 := by
      by_contra received
      exact holds (inv.kept.emptied run (by omega) finishing)
    have inRange : run < s.queues.pendings.length := by
      by_contra beyond
      apply holds
      unfold Queues.pending
      rw [getElem?_eq_none (by omega)]
      rfl
    have sent : last = 2 * s.queues.pendings.length := by
      have sent := runs.sent
      rwa [outside] at sent
    exact .inl (mem_channel_of_mem_runNumbers (runs.commands.mem inv.cleanup waits (by omega)))

theorem Conserving.leftClean (inv : Conserving s) (flags : RunFlags s)
    (outside : s.pc = .outside) : LeftClean s := by
  obtain ⟨last, runs⟩ := inv.runs
  obtain ⟨batch, own⟩ := inv.kept.released (by rw [outside]; rfl)
  exact
    { stopped := flags.stopped outside
      uninstalled := flags.uninstalled (by rw [outside]; rfl)
      closed := runs.retired (by rw [outside]; rfl)
      queued := by
        have remaining := inv.readyConserved.remaining
        rwa [batch, own, nil_append, nil_append] at remaining
      handedOver := fun _ holds => inv.handedOver outside holds }

/-- In all executions in which every item ends on a path to the cleanup, the
loop is left clean whenever `run_forever` has returned. -/
theorem leftClean_of_reachesCleanup (threads : Nat)
    {actions : List LoopAction} {s : LoopState}
    (cleanup : Guarded loopStep ReachesCleanup (.new threads) actions)
    (reached : run loopStep (.new threads) actions = some s)
    (returned : s.pc = .outside) : LeftClean s := by
  obtain ⟨inv, flags⟩ : Conserving s ∧ RunFlags s :=
    invariant_of_run (fun current => Conserving current ∧ RunFlags current)
      (fun _ _ _ both cleanup moved => by
        obtain ⟨last, runs⟩ := both.1.runs
        exact ⟨conserving_loopStep both.1 cleanup moved,
          runFlags_loopStep runs both.2 both.1.cleanup moved⟩)
      ⟨conserving_new threads, runFlags_new threads⟩ cleanup reached
  exact inv.leftClean flags returned

theorem leftClean_of_raisedRun : ∃ s, run loopStep (.new 2) raisedRun = some s ∧
        s.results = [some .callbackError] ∧
        s.queues.dispatcherBatch.map ReadyItem.stamp = [1, 2, 3] ∧
        LeftClean s := by
  refine exists_run_imp (fun s => s.pc = .outside ∧ s.results = [some
      .callbackError] ∧ s.queues.dispatcherBatch.map ReadyItem.stamp = [1, 2, 3]) (by decide) ?_
  rintro s reached ⟨returned, results, batch⟩
  exact ⟨results, batch, leftClean_of_reachesCleanup 2 (by decide) reached returned⟩

/-- A callback schedules another one and raises, and the exception handler
raises as well. -/
def handlerRaisedRun : List LoopAction :=
  List.flatten [[.call 1 .callback], List.replicate 2 (.producer 1), [.runForever],
      List.replicate 4 (.loop .proceed), List.replicate 7 .dispatcher,
      [.loop (.timersDue 0)], List.replicate 3 (.loop .proceed),
      [.enqueue .handle, .loop (.executed .handlerRaised)]]

/-- `run_forever` has returned with the loop marked as running, its pointers
installed, its queue published and the scheduled handle gone. -/
theorem not_leftClean_of_handlerRaisedRun : ∃ s,
      run loopStep (.new 2) handlerRaisedRun = some s ∧
        s.pc = .leftEarly ∧ s.results = [none] ∧
        s.running ∧ s.tlsReadyQueue ∧
        s.activeReadyDispatch = some ⟨0, true⟩ ∧
        s.queues.enqueued.map ReadyItem.stamp = [0, 1] ∧
        s.queues.held.map ReadyItem.stamp = [0] ∧
        ¬ LeftClean s := by
  refine exists_run_imp (fun s => s.pc = .leftEarly ∧ s.results = [none] ∧
      s.running ∧ s.tlsReadyQueue ∧ s.activeReadyDispatch = some ⟨0, true⟩
      ∧ s.queues.enqueued.map ReadyItem.stamp = [0, 1] ∧ s.queues.held.map ReadyItem.stamp =
      [0]) (by decide) ?_
  rintro s reached ⟨left, results, isRunning, installed, active, enqueued, held⟩
  refine ⟨left, results, isRunning, installed, active, enqueued, held, fun clean => ?_⟩
  cases clean.stopped.symm.trans isRunning

end Rsloop.Engine
