import Rsloop.Transition
import Rsloop.Engine.ReadyQueues

/-!
# The loop

Three parties move: threads that schedule work, the dispatcher, which serves
the command channel on a thread of its own, and the thread that runs the loop.
Every locked section, channel operation and access to an atomic is one step.
What the environment decides is part of the action: the timers that are due,
how an executed item ends, a pending Python signal, and whether the wait for
the dispatcher at the end of a run times out.
-/

namespace Rsloop.Engine

open Transition

/-! ## Parties -/

structure ActiveReadyDispatch where
  run : Nat
  acceptingReady : Bool
  deriving DecidableEq

/-- A thread inside `schedule_ready_handle` or `send_command`. Only handles are
counted on the channel. -/
inductive Producer where
  | idle
  | loadChannelHandles (item : ReadyItem)
  | tryActive (item : ReadyItem)
  | addChannelHandle (item : ReadyItem)
  | send (item : ReadyItem)
  | signal
  deriving DecidableEq

/-- Where the dispatcher goes on behind `forward_ready_batch`. -/
inductive AfterForward where
  | drainCommands
  | activate (run : Nat)
  deriving DecidableEq

inductive Dispatcher where
  | poll
  | drainCommands
  | forward (localMark : Nat) (after : AfterForward)
  | releaseHandles (after : AfterForward)
  | signal (after : AfterForward)
  | activate (run : Nat)
  | finishRun (run : Nat)
  | resetState (run : Nat)
  | acknowledge (run : Nat)
  deriving DecidableEq

def AfterForward.pc : AfterForward → Dispatcher
  | .drainCommands => .drainCommands
  | .activate run => .activate run

/-- How an item ends: `raisedException` is an ordinary exception that the
exception handler takes, `handlerRaised` one for which the handler raises in its
turn, `failed` the error of a completion or of a transport drain. -/
inductive Outcome where
  | returned
  | raisedException
  | raisedBaseException
  | handlerRaised
  | failed
  deriving DecidableEq

inductive Ending where
  | next
  | raise
  | earlyReturn
  deriving DecidableEq

/-- `execute_ready` and the arms of `run_forever` around it -/
def executeReady : Outcome → Option Ending
  | .returned | .raisedException => some .next
  | .raisedBaseException => some .raise
  | .handlerRaised => some .earlyReturn
  | .failed => none

/-- The arms that end in `?` -/
def complete : Outcome → Option Ending
  | .returned => some .next
  | .failed => some .earlyReturn
  | _ => none

def runInfallible : Outcome → Option Ending
  | .returned => some .next
  | _ => none

def ReadyKind.ending : ReadyKind → Outcome → Option Ending
  | .callback | .handle | .timer => executeReady
  | .futureSetResult | .futureSetException | .streamTransportRead | .processTransport
  | .connectCompleted | .loopWork => complete
  | .stop | .streamTransportWrite | .startSocketReader | .startServerAccept | .stopServerAccept
  | .serverAccepted => runInfallible

inductive RunResult where
  | ok
  | callbackError
  | signalError
  | finishError
  deriving DecidableEq

/-- The loop thread in `run_forever`. `turn` is the head of the outer loop and
`generation` that of the inner one; from `cleanup` on the run is over. -/
inductive Position where
  | outside
  | clearReadyPending
  | publish
  | sendEnterRun
  | install
  | turn
  | generation (processed : Nat)
  | mergeGeneration (processed : Nat)
  | executing (item : ReadyItem) (processed : Nat)
  | endTurn (error : Bool)
  | checkSignals
  | park
  | cleanup (result : RunResult)
  | handBack (result : RunResult)
  | retire (result : RunResult)
  | sendFinishRun (result : RunResult)
  | awaitFinishRun (result : RunResult)
  | leftEarly
  deriving DecidableEq

/-- The positions in which Python code or a task of the reactor can run on the
loop thread. -/
def Position.runsCode : Position → Bool
  | .turn | .executing _ _ | .checkSignals | .park | .cleanup _ => true
  | _ => false

/-- Run `run` uses `queues.pendings[run]`. `receivedRuns` numbers the last run
command that the dispatcher has received, `finished` are the runs whose
`FinishRun` it has acknowledged, `results` how the runs have returned, with
`none` for a run that has left without its cleanup. -/
structure LoopState where
  queues : Queues
  running : Bool
  stopping : Bool
  stopRequested : Bool
  readyPending : Bool
  activeReadyDispatch : Option ActiveReadyDispatch
  channelHandles : Nat
  producers : List Producer
  dispatcher : Dispatcher
  dispatcherHandles : Nat
  activeRun : Option Nat
  receivedRuns : Nat
  pc : Position
  drainActive : Bool
  tlsCore : Bool
  tlsReadyQueue : Bool
  tlsTimers : Bool
  pendingSignalError : Bool
  finished : List Nat
  results : List (Option RunResult)
  deriving DecidableEq

def LoopState.new (threads : Nat) : LoopState where
  queues := .new
  running := false
  stopping := false
  stopRequested := false
  readyPending := false
  activeReadyDispatch := none
  channelHandles := 0
  producers := List.replicate threads .idle
  dispatcher := .poll
  dispatcherHandles := 0
  activeRun := none
  receivedRuns := 0
  pc := .outside
  drainActive := false
  tlsCore := false
  tlsReadyQueue := false
  tlsTimers := false
  pendingSignalError := false
  finished := []
  results := []

/-- The run that `run_forever` has begun last. -/
def LoopState.currentRun (s : LoopState) : Nat :=
  s.queues.pendings.length - 1

/-! ## Threads that schedule work -/

/-- A thread calls in. The loop's own thread gets here only outside a run, since
`try_enqueue_local_ready` serves it within one. `schedule_stop` sets its flag
first. -/
def stepCall (s : LoopState) (tid : Nat) (kind : ReadyKind) : Option LoopState :=
  if kind = .timer ∨ (tid = 0 ∧ s.pc ≠ .outside) ∨
      s.producers[tid]? ≠ some .idle then
    none
  else
    let item := s.queues.nextItem kind tid
    some
      { s with
        queues := s.queues.schedule item
        stopRequested := s.stopRequested || decide (kind = .stop)
        producers := s.producers.set tid
          (if item.isHandle then .loadChannelHandles item else .tryActive item) }

def stepProducer (s : LoopState) (tid : Nat) : Option LoopState :=
  match s.producers[tid]? with
  | some (.loadChannelHandles item) =>
    some
      { s with
        producers := s.producers.set tid (if s.channelHandles = 0 then
            .tryActive item
          else
            .addChannelHandle item) }
  | some (.tryActive item) =>
    match s.activeReadyDispatch with
    | some ⟨run, true⟩ =>
      some
        { s with
          queues := s.queues.pushActive run item
          producers := s.producers.set tid .signal }
    | _ =>
      some
        { s with
          producers := s.producers.set tid
            (if item.isHandle then .addChannelHandle item else .send item) }
  | some (.addChannelHandle item) =>
    some
      { s with
        channelHandles := s.channelHandles + 1
        producers := s.producers.set tid (.send item) }
  | some (.send item) =>
    some
      { s with
        queues := s.queues.send item
        producers := s.producers.set tid .idle }
  | some .signal =>
    some { s with readyPending := true, producers := s.producers.set tid .idle }
  | _ => none

/-! ## The dispatcher -/

/-- The run commands in the order in which they are sent. -/
def Command.number : Command → Nat
  | .enterRun run _ => 2 * run + 1
  | .finishRun run => 2 * run + 2
  | _ => 0

/-- `handle_command` -/
def stepCommand (s : LoopState) : Command → LoopState
  | .schedule item =>
    { s with
      queues := s.queues.receive
      dispatcherHandles := s.dispatcherHandles + (if item.isHandle then 1 else 0) }
  | .io _ => { s with queues := s.queues.receive }
  | .enterRun run localMark =>
    { s with
      queues :=
        match s.activeRun with
        | some replaced => s.queues.receive.discard replaced
        | none => s.queues.receive
      activeRun := some run
      receivedRuns := Command.number (.enterRun run localMark)
      dispatcher :=
        if s.queues.dispatcherBatch = [] then
          .activate run
        else
          .forward localMark (.activate run) }
  | .finishRun run =>
    { s with
      queues := s.queues.receive
      receivedRuns := Command.number (.finishRun run)
      dispatcher := .finishRun run }

def stepDispatcher (s : LoopState) : Option LoopState :=
  match s.dispatcher with
  | .poll =>
    if s.activeRun.isSome ∧ s.queues.dispatcherBatch ≠ [] then
      some { s with dispatcher := .forward s.queues.localEnqueues .drainCommands }
    else
      some { s with dispatcher := .drainCommands }
  | .drainCommands =>
    match s.queues.channel with
    | [] => some { s with dispatcher := .poll }
    | cmd :: _ => some (stepCommand s cmd)
  | .forward localMark after =>
    match s.activeRun with
    | none => none
    | some run =>
      some
        { s with
          queues := s.queues.forward run localMark
          dispatcher := .releaseHandles after }
  | .releaseHandles after =>
    some
      { s with
        channelHandles := s.channelHandles - s.dispatcherHandles
        dispatcherHandles := 0
        dispatcher := .signal after }
  | .signal after =>
    some { s with readyPending := true, dispatcher := after.pc }
  | .activate run =>
    some
      { s with
        activeReadyDispatch := s.activeReadyDispatch.map fun dispatch =>
          if dispatch.run = run then { dispatch with acceptingReady := true } else dispatch
        dispatcher := .drainCommands }
  | .finishRun run =>
    match s.activeRun with
    | none => some { s with dispatcher := .acknowledge run }
    | some active =>
      some
        { s with
          queues := s.queues.takeBack active
          activeRun := none
          dispatcher := .resetState run }
  | .resetState run =>
    some { s with running := false, stopping := false, dispatcher := .acknowledge run }
  | .acknowledge run =>
    some { s with finished := run :: s.finished, dispatcher := .drainCommands }

/-! ## The loop thread -/

inductive LoopReply where
  | proceed
  | timersDue (count : Nat)
  | executed (outcome : Outcome)
  | signalError
  | timedOut
  deriving DecidableEq

def maxReadyItemsPerTurn : Nat := 1024

def LoopState.enqueueLocal (s : LoopState) (kind : ReadyKind) : LoopState :=
  { s with
    queues := s.queues.enqueueLocal (s.queues.nextItem kind 0)
    stopRequested := s.stopRequested || decide (kind = .stop)
    readyPending := s.readyPending || !s.drainActive }

/-- The entry of `run_forever`: it is refused while the loop is running. -/
def stepRunForever (s : LoopState) : Option LoopState :=
  if (s.pc = .outside ∨ s.pc = .leftEarly) ∧
      s.producers[0]? = some .idle then
    if s.running then
      some s
    else
      some
        { s with
          queues := s.queues.openRun
          running := true
          stopping := false
          pc := .clearReadyPending }
  else
    none

/-- One pass of the inner loop up to the point at which it has an item. -/
def stepGeneration (s : LoopState) (processed : Nat) : LoopState :=
  match s.queues.readyBatch with
  | item :: _ => { s with queues := s.queues.pop, pc := .executing item processed }
  | [] =>
    if processed ≠ 0 ∧ s.stopRequested = false then
      { s with pc := .endTurn false }
    else if s.readyPending then
      { s with pc := .mergeGeneration processed }
    else if s.queues.localReady = [] then
      { s with pc := .endTurn false }
    else
      { s with queues := s.queues.swap }

/-- The locked section that merges both queues and lowers the flag. -/
def stepMerge (s : LoopState) (processed : Nat) : LoopState :=
  { s with
    queues := s.queues.merge s.currentRun
    readyPending := false
    pc :=
      if (s.queues.merge s.currentRun).readyBatch = [] then
        .endTurn false
      else
        .generation processed }

/-- The turn goes on behind an item, up to the budget of a turn. -/
def afterItem (s : LoopState) (processed : Nat) : Position :=
  if processed + 1 < maxReadyItemsPerTurn then
    .generation (processed + 1)
  else if s.stopping then
    .generation 0
  else
    .endTurn false

/-- The effect of a `Stop` item -/
def LoopState.executed (s : LoopState) (kind : ReadyKind) : LoopState :=
  if kind = .stop then { s with stopRequested := false, stopping := true } else s

def stepExecuting (s : LoopState) (item : ReadyItem) (processed : Nat) : Ending → LoopState
  | .next =>
    { s.executed item.kind with pc := afterItem (s.executed item.kind) processed }
  | .raise => { s with pc := .endTurn true }
  | .earlyReturn =>
    -- only the timers' `Drop` runs on this path
    { s with
      queues := s.queues.abandon
      tlsTimers := false
      results := s.results ++ [none]
      pc := .leftEarly }

def stepEndTurn (s : LoopState) (error : Bool) : LoopState :=
  { s with
    drainActive := false
    pc :=
      if error then
        .cleanup .callbackError
      else if s.stopping then
        .cleanup (if s.pendingSignalError then .signalError else .ok)
      else
        .checkSignals }

def LoopState.returned (s : LoopState) (result : RunResult) : LoopState :=
  { s with results := s.results ++ [some result], pc := .outside }

def stepLoop (s : LoopState) (reply : LoopReply) : Option LoopState :=
  match s.pc, reply with
  | .clearReadyPending, .proceed =>
    some { s with readyPending := false, pc := .publish }
  | .publish, .proceed =>
    some
      { s with
        activeReadyDispatch := some ⟨s.currentRun, false⟩
        pc := .sendEnterRun }
  | .sendEnterRun, .proceed =>
    some
      { s with
        queues := s.queues.sendRun (.enterRun s.currentRun s.queues.localEnqueues)
        pc := .install }
  | .install, .proceed =>
    some
      { s with
        queues := s.queues.install
        tlsCore := true
        tlsReadyQueue := true
        tlsTimers := true
        pendingSignalError := false
        pc := .turn }
  | .turn, .timersDue count =>
    some
      { s with
        queues := s.queues.collect count
        drainActive := true
        pc := .generation 0 }
  | .generation processed, .proceed => some (stepGeneration s processed)
  | .mergeGeneration processed, .proceed => some (stepMerge s processed)
  | .executing item processed, .executed outcome =>
    (item.kind.ending outcome).map (stepExecuting s item processed)
  | .endTurn error, .proceed => some (stepEndTurn s error)
  | .checkSignals, .proceed => some { s with pc := .park }
  | .checkSignals, .signalError =>
    if s.pendingSignalError then
      none
    else
      some { s.enqueueLocal .stop with pendingSignalError := true, pc := .turn }
  | .park, .proceed => some { s with pc := .turn }
  | .cleanup result, .proceed =>
    some
      { s with
        drainActive := false
        tlsTimers := false
        tlsCore := false
        tlsReadyQueue := false
        pc := .handBack result }
  | .handBack result, .proceed =>
    some
      { s with
        queues :=
          if s.queues.readyBatch = [] ∧ s.queues.localReady = [] then
            s.queues
          else
            s.queues.leave s.currentRun
        pc := .retire result }
  | .retire result, .proceed =>
    some { s with activeReadyDispatch := none, pc := .sendFinishRun result }
  | .sendFinishRun result, .proceed =>
    some
      { s with
        queues := s.queues.sendRun (.finishRun s.currentRun)
        pc := .awaitFinishRun result }
  | .awaitFinishRun result, .proceed =>
    if s.currentRun ∈ s.finished then some (s.returned result) else none
  | .awaitFinishRun _, .timedOut =>
    some ({ s with running := false, stopping := false }.returned .finishError)
  | _, _ => none

/-! ## All together -/

inductive LoopAction where
  | call (tid : Nat) (kind : ReadyKind)
  | producer (tid : Nat)
  | dispatcher
  | enqueue (kind : ReadyKind)
  | runForever
  | loop (reply : LoopReply)
  deriving DecidableEq

def loopStep (s : LoopState) : LoopAction → Option LoopState
  | .call tid kind => stepCall s tid kind
  | .producer tid => stepProducer s tid
  | .dispatcher => stepDispatcher s
  | .enqueue kind =>
    if s.pc.runsCode ∧ kind ≠ .timer then some (s.enqueueLocal kind) else none
  | .runForever => stepRunForever s
  | .loop reply => stepLoop s reply

/-- The item that is being executed ends in a way that leaves `run_forever`
without its cleanup. -/
def LoopState.returnsEarly (s : LoopState) : LoopAction → Bool
  | .loop (.executed outcome) =>
    match s.pc with
    | .executing item _ => item.kind.ending outcome = some .earlyReturn
    | _ => false
  | _ => false

def ReachesCleanup (s : LoopState) (action : LoopAction) : Prop :=
  s.returnsEarly action = false

instance (s : LoopState) (action : LoopAction) : Decidable (ReachesCleanup s action) :=
  inferInstanceAs (Decidable (s.returnsEarly action = false))

end Rsloop.Engine
