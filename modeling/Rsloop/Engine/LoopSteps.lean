import Rsloop.Engine.Loop

/-!
# What a step of the loop can do

Each party's step function is inverted once: a constructor stands for a branch
and carries the state that the branch leads to. Branches that change nothing but
the position of a party are kept together.
-/

namespace Rsloop.Engine

variable {s next : LoopState}

/-! ## Threads that schedule work -/

/-- A producer decides which way its item takes. -/
inductive Routes (s : LoopState) : Producer → Producer → Prop
  | loads {item : ReadyItem} : Routes s (.loadChannelHandles item)
        (if s.channelHandles = 0 then .tryActive item else .addChannelHandle item)
  | misses {item : ReadyItem} (closed : ∀ run, s.activeReadyDispatch ≠ some ⟨run, true⟩) :
      Routes s (.tryActive item) (if item.isHandle then .addChannelHandle item else .send item)

/-- What a step of a thread that schedules can do -/
inductive ProducerStep (s : LoopState) (tid : Nat) : LoopState → Prop
  | routes {before after : Producer} (found : s.producers[tid]? = some before)
      (route : Routes s before after) :
      ProducerStep s tid { s with producers := s.producers.set tid after }
  | pushes {item : ReadyItem} {run : Nat}
      (found : s.producers[tid]? = some (.tryActive item))
      (isActive : s.activeReadyDispatch = some ⟨run, true⟩) :
      ProducerStep s tid
        { s with
          queues := s.queues.pushActive run item
          producers := s.producers.set tid .signal }
  | counts {item : ReadyItem} (found : s.producers[tid]? = some (.addChannelHandle item)) :
      ProducerStep s tid
        { s with
          channelHandles := s.channelHandles + 1
          producers := s.producers.set tid (.send item) }
  | sends {item : ReadyItem} (found : s.producers[tid]? = some (.send item)) :
      ProducerStep s tid
        { s with
          queues := s.queues.send item
          producers := s.producers.set tid .idle }
  | signals (found : s.producers[tid]? = some .signal) : ProducerStep s tid
        { s with readyPending := true, producers := s.producers.set tid .idle }

theorem producerStep_of_stepProducer {tid : Nat}
    (moved : stepProducer s tid = some next) : ProducerStep s tid next := by
  unfold stepProducer at moved
  split at moved
  next item found =>
    cases moved
    exact .routes found .loads
  next item found =>
    split at moved
    next run isActive =>
      cases moved
      exact .pushes found isActive
    next closed =>
      cases moved
      exact .routes found (.misses closed)
  next item found =>
    cases moved
    exact .counts found
  next item found =>
    cases moved
    exact .sends found
  next found =>
    cases moved
    exact .signals found
  next => cases moved

/-! ## The dispatcher -/

/-- The dispatcher's moves that change nothing else. -/
inductive Turns (s : LoopState) : Dispatcher → Dispatcher → Prop
  | forwards (active : s.activeRun.isSome)
      (waits : s.queues.dispatcherBatch ≠ []) :
      Turns s .poll (.forward s.queues.localEnqueues .drainCommands)
  | drains : Turns s .poll .drainCommands
  | polls (chan : s.queues.channel = []) : Turns s .drainCommands .poll
  | finishes {run : Nat} (inactive : s.activeRun = none) :
      Turns s (.finishRun run) (.acknowledge run)

/-- A command that brings an item, with the handles that it counts for. -/
inductive Carries (item : ReadyItem) : Command → Nat → Prop
  | schedule : Carries item (.schedule item) (if item.isHandle then 1 else 0)
  | io : Carries item (.io item) 0

/-- A run that is still active is replaced with what its queue holds. -/
inductive Replaces (s : LoopState) : Queues → Prop
  | none (inactive : s.activeRun = none) : Replaces s s.queues.receive
  | some {replaced : Nat} (active : s.activeRun = some replaced) :
      Replaces s (s.queues.receive.discard replaced)

inductive Opens (s : LoopState) (run localMark : Nat) : Dispatcher → Prop
  | idle (batch : s.queues.dispatcherBatch = []) : Opens s run localMark (.activate run)
  | behind (batch : s.queues.dispatcherBatch ≠ []) :
      Opens s run localMark (.forward localMark (.activate run))

/-- What a step of the dispatcher can do -/
inductive DispatcherStep (s : LoopState) : LoopState → Prop
  | turns {before after : Dispatcher} (pc : s.dispatcher = before)
      (turn : Turns s before after) :
      DispatcherStep s { s with dispatcher := after }
  | receives {item : ReadyItem} {cmd : Command} {rest : List Command}
      {handles : Nat} (pc : s.dispatcher = .drainCommands)
      (chan : s.queues.channel = cmd :: rest)
      (carries : Carries item cmd handles) :
      DispatcherStep s
        { s with
          queues := s.queues.receive
          dispatcherHandles := s.dispatcherHandles + handles }
  | enters {run localMark : Nat} {rest : List Command} {queues : Queues}
      {after : Dispatcher} (pc : s.dispatcher = .drainCommands)
      (chan : s.queues.channel = .enterRun run localMark :: rest)
      (replaces : Replaces s queues) (opens : Opens s run localMark after) :
      DispatcherStep s
        { s with
          queues := queues
          activeRun := some run
          receivedRuns := 2 * run + 1
          dispatcher := after }
  | finishes {run : Nat} {rest : List Command} (pc : s.dispatcher = .drainCommands)
      (chan : s.queues.channel = .finishRun run :: rest) :
      DispatcherStep s
        { s with
          queues := s.queues.receive
          receivedRuns := 2 * run + 2
          dispatcher := .finishRun run }
  | forwards {localMark run : Nat} {after : AfterForward}
      (pc : s.dispatcher = .forward localMark after)
      (active : s.activeRun = some run) :
      DispatcherStep s
        { s with
          queues := s.queues.forward run localMark
          dispatcher := .releaseHandles after }
  | releases {after : AfterForward} (pc : s.dispatcher = .releaseHandles after) :
      DispatcherStep s
        { s with
          channelHandles := s.channelHandles - s.dispatcherHandles
          dispatcherHandles := 0
          dispatcher := .signal after }
  | signals {after : AfterForward} (pc : s.dispatcher = .signal after) :
      DispatcherStep s { s with readyPending := true, dispatcher := after.pc }
  | activates {run : Nat} (pc : s.dispatcher = .activate run) : DispatcherStep s
        { s with
          activeReadyDispatch := s.activeReadyDispatch.map fun dispatch =>
            if dispatch.run = run then { dispatch with acceptingReady := true } else dispatch
          dispatcher := .drainCommands }
  | takesBack {run active : Nat} (pc : s.dispatcher = .finishRun run)
      (isActive : s.activeRun = some active) :
      DispatcherStep s
        { s with
          queues := s.queues.takeBack active
          activeRun := none
          dispatcher := .resetState run }
  | resets {run : Nat} (pc : s.dispatcher = .resetState run) : DispatcherStep s
        { s with running := false, stopping := false, dispatcher := .acknowledge run }
  | acknowledges {run : Nat} (pc : s.dispatcher = .acknowledge run) :
      DispatcherStep s
        { s with finished := run :: s.finished, dispatcher := .drainCommands }

theorem dispatcherStep_of_stepCommand (pos : s.dispatcher = .drainCommands)
    {cmd : Command} {rest : List Command}
    (chan : s.queues.channel = cmd :: rest) :
    DispatcherStep s (stepCommand s cmd) := by
  cases cmd with
  | schedule => exact .receives pos chan .schedule
  | io => exact .receives pos chan .io
  | enterRun =>
    refine .enters pos chan ?_ ?_
    · split
      next replaced active => exact .some active
      next inactive => exact .none inactive
    · split
      next batch => exact .idle batch
      next batch => exact .behind batch
  | finishRun => exact .finishes pos chan

theorem dispatcherStep_of_stepDispatcher (moved : stepDispatcher s = some next) :
    DispatcherStep s next := by
  unfold stepDispatcher at moved
  split at moved
  next pos =>
    split at moved
    next waits =>
      cases moved
      exact .turns pos (.forwards waits.1 waits.2)
    next =>
      cases moved
      exact .turns pos .drains
  next pos =>
    split at moved
    next chan =>
      cases moved
      exact .turns pos (.polls chan)
    next cmd rest chan =>
      cases moved
      exact dispatcherStep_of_stepCommand pos chan
  next localMark after pos =>
    split at moved <;> cases moved
    rename_i run active
    exact .forwards pos active
  next after pos =>
    cases moved
    exact .releases pos
  next after pos =>
    cases moved
    exact .signals pos
  next run pos =>
    cases moved
    exact .activates pos
  next run pos =>
    split at moved
    next inactive =>
      cases moved
      exact .turns pos (.finishes inactive)
    next active isActive =>
      cases moved
      exact .takesBack pos isActive
  next run pos =>
    cases moved
    exact .resets pos
  next run pos =>
    cases moved
    exact .acknowledges pos

/-! ## The loop thread -/

/-- The turn goes on behind an item. -/
inductive Continues (stopping : Bool) (processed : Nat) : Position → Prop
  | within (budget : processed + 1 < maxReadyItemsPerTurn) :
      Continues stopping processed (.generation (processed + 1))
  | again (full : ¬ processed + 1 < maxReadyItemsPerTurn)
      (stops : stopping) : Continues stopping processed (.generation 0)
  | full (full : ¬ processed + 1 < maxReadyItemsPerTurn)
      (goesOn : stopping = false) : Continues stopping processed (.endTurn false)

theorem continues_afterItem (s : LoopState) (processed : Nat) :
    Continues s.stopping processed (afterItem s processed) := by
  unfold afterItem
  split
  next budget => exact .within budget
  next full =>
    split
    next stops => exact .again full stops
    next goesOn => exact .full full (eq_false_of_ne_true goesOn)

/-- The loop thread's moves within the turns that change nothing else. -/
inductive Passes (s : LoopState) : LoopReply → Position → Position → Prop
  | pauses {processed : Nat} (batch : s.queues.readyBatch = [])
      (isOver : processed ≠ 0 ∧ s.stopRequested = false ∨
        s.readyPending = false ∧ s.queues.localReady = []) :
      Passes s .proceed (.generation processed) (.endTurn false)
  | merges {processed : Nat} (batch : s.queues.readyBatch = [])
      (starts : processed = 0 ∨ s.stopRequested)
      (raised : s.readyPending) :
      Passes s .proceed (.generation processed) (.mergeGeneration processed)
  | executes {item : ReadyItem} {processed : Nat} {outcome : Outcome}
      {after : Position} (ends : item.kind.ending outcome = some .next)
      (other : item.kind ≠ .stop)
      (continues : Continues s.stopping processed after) :
      Passes s (.executed outcome) (.executing item processed) after
  | raises {item : ReadyItem} {processed : Nat} {outcome : Outcome}
      (ends : item.kind.ending outcome = some .raise) :
      Passes s (.executed outcome) (.executing item processed) (.endTurn true)
  | parks : Passes s .proceed .checkSignals .park
  | wakes : Passes s .proceed .park .turn

/-- The positions between the installation and the cleanup. -/
def Position.inTurns : Position → Bool
  | .turn | .generation _ | .mergeGeneration _ | .executing _ _ | .endTurn _ | .checkSignals
  | .park => true
  | _ => false

theorem Continues.inTurns {stopping : Bool} {processed : Nat} {after : Position}
    (continues : Continues stopping processed after) : after.inTurns := by
  cases continues <;> rfl

theorem Passes.inTurns {reply : LoopReply} {before after : Position}
    (pass : Passes s reply before after) : before.inTurns ∧ after.inTurns := by
  cases pass with
  | executes _ _ continues => exact ⟨rfl, continues.inTurns⟩
  | _ => exact ⟨rfl, rfl⟩

inductive EndsTurn (s : LoopState) : Bool → Position → Prop
  | raised : EndsTurn s true (.cleanup .callbackError)
  | stopped (stops : s.stopping) : EndsTurn s false
        (.cleanup (if s.pendingSignalError then .signalError else .ok))
  | goesOn (runs : s.stopping = false) : EndsTurn s false .checkSignals

/-- What a step of the loop's own thread can do -/
inductive RunStep (s : LoopState) : LoopReply → LoopState → Prop
  | clears (pc : s.pc = .clearReadyPending) : RunStep s .proceed
        { s with readyPending := false, pc := .publish }
  | publishes (pc : s.pc = .publish) : RunStep s .proceed
        { s with
          activeReadyDispatch := some ⟨s.currentRun, false⟩
          pc := .sendEnterRun }
  | announces (pc : s.pc = .sendEnterRun) : RunStep s .proceed
        { s with
          queues := s.queues.sendRun (.enterRun s.currentRun s.queues.localEnqueues)
          pc := .install }
  | installs (pc : s.pc = .install) : RunStep s .proceed
        { s with
          queues := s.queues.install
          tlsCore := true
          tlsReadyQueue := true
          tlsTimers := true
          pendingSignalError := false
          pc := .turn }
  | collects {count : Nat} (pc : s.pc = .turn) : RunStep s (.timersDue count)
        { s with
          queues := s.queues.collect count
          drainActive := true
          pc := .generation 0 }
  | pops {item : ReadyItem} {rest : List ReadyItem} {processed : Nat}
      (pc : s.pc = .generation processed)
      (batch : s.queues.readyBatch = item :: rest) :
      RunStep s .proceed
        { s with queues := s.queues.pop, pc := .executing item processed }
  | swaps {processed : Nat} (pc : s.pc = .generation processed)
      (batch : s.queues.readyBatch = []) (quiet : s.readyPending = false)
      (starts : processed = 0 ∨ s.stopRequested) :
      RunStep s .proceed { s with queues := s.queues.swap }
  | passes {reply : LoopReply} {before after : Position} (pc : s.pc = before)
      (pass : Passes s reply before after) :
      RunStep s reply { s with pc := after }
  | merges {processed : Nat} {after : Position}
      (pc : s.pc = .mergeGeneration processed)
      (arrives : after = .endTurn false ∨ after = .generation processed) :
      RunStep s .proceed
        { s with
          queues := s.queues.merge s.currentRun
          readyPending := false
          pc := after }
  | stops {item : ReadyItem} {processed : Nat} {outcome : Outcome}
      {after : Position} (pc : s.pc = .executing item processed)
      (isStop : item.kind = .stop) (continues : Continues true processed after) :
      RunStep s (.executed outcome)
        { s with stopRequested := false, stopping := true, pc := after }
  | abandons {item : ReadyItem} {processed : Nat} {outcome : Outcome}
      (pc : s.pc = .executing item processed)
      (early : item.kind.ending outcome = some .earlyReturn) :
      RunStep s (.executed outcome)
        { s with
          queues := s.queues.abandon
          tlsTimers := false
          results := s.results ++ [none]
          pc := .leftEarly }
  | endsTurn {error : Bool} {after : Position} (pc : s.pc = .endTurn error)
      (ends : EndsTurn s error after) :
      RunStep s .proceed { s with drainActive := false, pc := after }
  | signals (pc : s.pc = .checkSignals)
      (first : s.pendingSignalError = false) :
      RunStep s .signalError
        { s.enqueueLocal .stop with pendingSignalError := true, pc := .turn }
  | cleans {result : RunResult} (pc : s.pc = .cleanup result) :
      RunStep s .proceed
        { s with
          drainActive := false
          tlsTimers := false
          tlsCore := false
          tlsReadyQueue := false
          pc := .handBack result }
  | leaves {result : RunResult} (pc : s.pc = .handBack result) :
      RunStep s .proceed
        { s with queues := s.queues.leave s.currentRun, pc := .retire result }
  | releases {result : RunResult} (pc : s.pc = .handBack result)
      (nothing : s.queues.readyBatch = [] ∧ s.queues.localReady = []) :
      RunStep s .proceed { s with pc := .retire result }
  | retires {result : RunResult} (pc : s.pc = .retire result) :
      RunStep s .proceed
        { s with activeReadyDispatch := none, pc := .sendFinishRun result }
  | finishes {result : RunResult} (pc : s.pc = .sendFinishRun result) :
      RunStep s .proceed
        { s with
          queues := s.queues.sendRun (.finishRun s.currentRun)
          pc := .awaitFinishRun result }
  | returns {result : RunResult} (pc : s.pc = .awaitFinishRun result)
      (acknowledged : s.currentRun ∈ s.finished) :
      RunStep s .proceed (s.returned result)
  | timesOut {result : RunResult} (pc : s.pc = .awaitFinishRun result) :
      RunStep s .timedOut
        ({ s with running := false, stopping := false }.returned .finishError)

theorem runStep_of_stepGeneration {processed : Nat}
    (pos : s.pc = .generation processed) :
    RunStep s .proceed (stepGeneration s processed) := by
  unfold stepGeneration
  split
  next item rest batch => exact .pops pos batch
  next batch =>
    split
    next isOver => exact .passes pos (.pauses batch (.inl isOver))
    next starts =>
      rw [not_and_or, not_not, Bool.not_eq_false] at starts
      split
      next raised => exact .passes pos (.merges batch starts raised)
      next lowered =>
        have quiet : s.readyPending = false := eq_false_of_ne_true lowered
        split
        next nothing =>
          exact .passes pos (.pauses batch (.inr ⟨quiet, nothing⟩))
        next => exact .swaps pos batch quiet starts

theorem runStep_of_stepExecuting {item : ReadyItem} {processed : Nat}
    {outcome : Outcome} {ending : Ending}
    (pos : s.pc = .executing item processed)
    (ends : item.kind.ending outcome = some ending) :
    RunStep s (.executed outcome) (stepExecuting s item processed ending) := by
  cases ending with
  | next =>
    have continues := continues_afterItem (s.executed item.kind) processed
    unfold stepExecuting
    by_cases isStop : item.kind = .stop
    · unfold LoopState.executed at continues ⊢
      rw [if_pos isStop] at continues ⊢
      exact .stops pos isStop continues
    · have same : s.executed item.kind = s := if_neg isStop
      rw [same] at continues ⊢
      exact .passes pos (.executes ends isStop continues)
  | raise => exact .passes pos (.raises ends)
  | earlyReturn => exact .abandons pos ends

theorem endsTurn_of_stepEndTurn {error : Bool} (pos : s.pc = .endTurn error) :
    RunStep s .proceed (stepEndTurn s error) := by
  refine .endsTurn pos ?_
  cases error with
  | true => exact .raised
  | false =>
    rw [if_neg Bool.false_ne_true]
    split
    next stops => exact .stopped stops
    next runs => exact .goesOn (eq_false_of_ne_true runs)

theorem runStep_of_stepLoop {reply : LoopReply}
    (moved : stepLoop s reply = some next) : RunStep s reply next := by
  unfold stepLoop at moved
  split at moved
  next pos =>
    cases moved
    exact .clears pos
  next pos =>
    cases moved
    exact .publishes pos
  next pos =>
    cases moved
    exact .announces pos
  next pos =>
    cases moved
    exact .installs pos
  next count pos =>
    cases moved
    exact .collects pos
  next processed pos =>
    cases moved
    exact runStep_of_stepGeneration pos
  next processed pos =>
    cases moved
    refine .merges pos ?_
    split
    · exact .inl rfl
    · exact .inr rfl
  next item processed outcome pos =>
    obtain ⟨ending, ends, moved⟩ := Option.map_eq_some_iff.mp moved
    cases moved
    exact runStep_of_stepExecuting pos ends
  next error pos =>
    cases moved
    exact endsTurn_of_stepEndTurn pos
  next pos =>
    cases moved
    exact .passes pos .parks
  next pos =>
    split_ifs at moved with first
    cases moved
    exact .signals pos (eq_false_of_ne_true first)
  next pos =>
    cases moved
    exact .passes pos .wakes
  next result pos =>
    cases moved
    exact .cleans pos
  next result pos =>
    cases moved
    by_cases nothing : s.queues.readyBatch = [] ∧ s.queues.localReady = []
    · rw [if_pos nothing]
      exact .releases pos nothing
    · rw [if_neg nothing]
      exact .leaves pos
  next result pos =>
    cases moved
    exact .retires pos
  next result pos =>
    cases moved
    exact .finishes pos
  next result pos =>
    split_ifs at moved with acknowledged
    cases moved
    exact .returns pos acknowledged
  next result pos =>
    cases moved
    exact .timesOut pos
  next => cases moved

/-! ## All together -/

inductive LoopStep (s : LoopState) : LoopAction → LoopState → Prop
  | calls {tid : Nat} {kind : ReadyKind} {producer : Producer}
      (idle : s.producers[tid]? = some .idle)
      (outside : tid = 0 → s.pc = .outside) (notTimer : kind ≠ .timer)
      (starts : producer =
        if (s.queues.nextItem kind tid).isHandle then
          .loadChannelHandles (s.queues.nextItem kind tid)
        else
          .tryActive (s.queues.nextItem kind tid)) :
      LoopStep s (.call tid kind)
        { s with
          queues := s.queues.schedule (s.queues.nextItem kind tid)
          stopRequested := s.stopRequested || decide (kind = .stop)
          producers := s.producers.set tid producer }
  | produces {tid : Nat} {next : LoopState}
      (step : ProducerStep s tid next) : LoopStep s (.producer tid) next
  | dispatches {next : LoopState} (step : DispatcherStep s next) :
      LoopStep s .dispatcher next
  | enqueues {kind : ReadyKind} (runsCode : s.pc.runsCode)
      (notTimer : kind ≠ .timer) :
      LoopStep s (.enqueue kind) (s.enqueueLocal kind)
  | refuses : LoopStep s .runForever s
  | begins (isOver : s.pc = .outside ∨ s.pc = .leftEarly)
      (idle : s.producers[0]? = some .idle) (stopped : s.running = false) :
      LoopStep s .runForever
        { s with
          queues := s.queues.openRun
          running := true
          stopping := false
          pc := .clearReadyPending }
  | runs {reply : LoopReply} {next : LoopState} (step : RunStep s reply next) :
      LoopStep s (.loop reply) next

theorem loopStep_cases {action : LoopAction}
    (moved : loopStep s action = some next) : LoopStep s action next := by
  cases action with
  | call =>
    simp only [loopStep, stepCall] at moved
    split at moved
    next => cases moved
    next allowed =>
      rw [not_or, not_or, not_and, not_not, not_not] at allowed
      cases moved
      exact .calls allowed.2.2 allowed.2.1 allowed.1 rfl
  | producer => exact .produces (producerStep_of_stepProducer moved)
  | dispatcher => exact .dispatches (dispatcherStep_of_stepDispatcher moved)
  | enqueue =>
    simp only [loopStep] at moved
    split_ifs at moved with allowed
    cases moved
    exact .enqueues allowed.1 allowed.2
  | runForever =>
    simp only [loopStep, stepRunForever] at moved
    split at moved
    next allowed =>
      split at moved
      next =>
        cases moved
        exact .refuses
      next stopped =>
        cases moved
        exact .begins allowed.1 allowed.2 (eq_false_of_ne_true stopped)
    next => cases moved
  | loop => exact .runs (runStep_of_stepLoop moved)

end Rsloop.Engine
