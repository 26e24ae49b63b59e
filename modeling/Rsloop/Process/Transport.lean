import Rsloop.Text.Newlines
import Rsloop.Transition

/-!
# The subprocess transport

Reader threads, the waiter thread and the closing stdin pipe record what happens to
a child process under the state lock and publish events on one queue; the loop
thread drains the queue and calls the protocol.
-/

namespace Rsloop.Process

open Rsloop.Text

inductive PendingProcessEvent where
  | pipeDataReceived (fd : Nat) (data : List UInt8)
  | pipeConnectionLost (fd : Nat) (exc : Option String)
  | processExited (returncode : Int)
  | connectionLost (exc : Option String)
  deriving DecidableEq

inductive Payload where
  | bytes (data : List UInt8)
  | text (decoded : CodePoints)
  deriving DecidableEq

/-- `decode` is that of the encoding and the error handler. -/
structure ProcessTextConfig where
  decode : List UInt8 → Option CodePoints
  translateNewlines : Bool

/-- The argument of `pipe_data_received`, unless the data cannot be decoded -/
def payload (textConfig : Option ProcessTextConfig) (data : List UInt8) : Option Payload :=
  match textConfig with
  | none => some (.bytes data)
  | some cfg =>
    match cfg.decode data with
    | none => none
    | some decoded =>
      if cfg.translateNewlines then
        some (.text (replace [cr] [lf] (replace [cr, lf] [lf] decoded)))
      else
        some (.text decoded)

namespace PendingProcessEvent

/-- Whether the arguments of the event's callback can be built -/
def hasPayload (textConfig : Option ProcessTextConfig) : PendingProcessEvent → Bool
  | pipeDataReceived _ data => (payload textConfig data).isSome
  | _ => true

def isConnectionLost : PendingProcessEvent → Bool
  | connectionLost _ => true
  | _ => false

/-- The message under which a failed call is reported; a failed `connection_lost`
is not. -/
def failure : PendingProcessEvent → String
  | pipeDataReceived _ _ => "subprocess pipe_data_received failed"
  | pipeConnectionLost _ _ => "subprocess pipe_connection_lost failed"
  | processExited _ => "subprocess process_exited failed"
  | connectionLost _ => "subprocess connection_lost failed"

end PendingProcessEvent

/-! ## Threads -/

/-- The two halves of `enqueue_pending_event` -/
inductive Publication where
  | push (event : PendingProcessEvent)
  | announce
  deriving DecidableEq

def enqueuePendingEvent (event : PendingProcessEvent) : List Publication :=
  [.push event, .announce]

inductive Reader where
  | reading
  | announcing
  | finished
  deriving DecidableEq

/-- `observed` and `exiting` are inside `handle_process_exit`, before and behind its
second look at stdin. -/
inductive Waiter where
  | waiting
  | observed (code : Int)
  | exiting (code : Int)
  | finished
  deriving DecidableEq

inductive Drain where
  | idle
  | taking
  | delivering (drained : List PendingProcessEvent)
  deriving DecidableEq

/-! ## State -/

/-- The core. A nonempty `publishing` is what the holder of the state lock has still
to do; `stdinExit` is the exit code that the closing stdin pipe has taken out of
the state. The last five fields are a record of the run; `delivered` has the events
whose callbacks have been called. -/
structure ProcessTransportCore where
  textConfig : Option ProcessTextConfig
  hasProtocol : Bool
  returncode : Option Int
  exited : Bool
  pendingExitCode : Option Int
  connectionLostCalled : Bool
  openPipes : List Nat
  publishing : List Publication
  pendingEvents : List PendingProcessEvent
  eventsScheduled : Bool
  commands : Nat
  readers : Nat → Reader
  waiter : Waiter
  stdinExit : Option Int
  drain : Drain
  chunks : Nat → List (List UInt8)
  hasObservedExit : Bool
  recorded : List Int
  delivered : List PendingProcessEvent
  reported : List String

structure ProcessPipes where
  stdin : Bool
  stdout : Bool
  stderr : Bool

def ProcessPipes.openPipes (pipes : ProcessPipes) : List Nat :=
  (if pipes.stdin then [0] else []) ++ (if pipes.stdout then [1] else []) ++
    (if pipes.stderr then [2] else [])

/-- The transport behind `connection_made`, with its threads started -/
def spawnProcessTransport (pipes : ProcessPipes) (textConfig : Option ProcessTextConfig) :
    ProcessTransportCore where
  textConfig := textConfig
  hasProtocol := true
  returncode := none
  exited := false
  pendingExitCode := none
  connectionLostCalled := false
  openPipes := pipes.openPipes
  publishing := []
  pendingEvents := []
  eventsScheduled := false
  commands := 0
  readers := fun fd =>
    if (fd = 1 ∧ pipes.stdout) ∨ (fd = 2 ∧ pipes.stderr) then .reading else .finished
  waiter := .waiting
  stdinExit := none
  drain := .idle
  chunks := fun _ => []
  hasObservedExit := false
  recorded := []
  delivered := []
  reported := []

namespace ProcessTransportCore

/-! ## Recording what happens -/

def push (core : ProcessTransportCore) (event : PendingProcessEvent) : ProcessTransportCore :=
  { core with pendingEvents := core.pendingEvents ++ [event] }

/-- `events_scheduled.swap(true)`, and the command for a drain if it was not set -/
def announce (core : ProcessTransportCore) : ProcessTransportCore :=
  { core with
    eventsScheduled := true
    commands := if core.eventsScheduled then core.commands else core.commands + 1 }

def reportError (core : ProcessTransportCore) (message : String) : ProcessTransportCore :=
  { core with reported := core.reported ++ [message] }

end ProcessTransportCore

def processConnectionLostEligible (exited openPipesEmpty : Bool) : Bool :=
  exited && openPipesEmpty

inductive ProcessExitDecision where
  | duplicate
  | first (shouldFinish : Bool)

/-- The new `exited` and `returncode`, and the decision -/
def recordProcessExit (exited : Bool) (returncode : Option Int) (openPipesEmpty : Bool)
    (code : Int) : Bool × Option Int × ProcessExitDecision :=
  if exited then
    (exited, returncode, .duplicate)
  else
    (true, some code, .first (processConnectionLostEligible true openPipesEmpty))

namespace ProcessTransportCore

def enqueueConnectionLostLocked (core : ProcessTransportCore) (exc : Option String) :
    ProcessTransportCore :=
  if core.connectionLostCalled then
    core
  else
    { core with
      connectionLostCalled := true
      publishing := core.publishing ++ enqueuePendingEvent (.connectionLost exc) }

def finishIf (core : ProcessTransportCore) (shouldFinish : Bool) : ProcessTransportCore :=
  if shouldFinish then core.enqueueConnectionLostLocked none else core

def pipeConnectionLostMessage (core : ProcessTransportCore) (fd : Nat)
    (exc : Option String) : ProcessTransportCore :=
  if fd ∈ core.openPipes then
    finishIf
      { core with
        openPipes := core.openPipes.erase fd
        pendingExitCode := if fd = 0 then none else core.pendingExitCode
        stdinExit := if fd = 0 then core.pendingExitCode else core.stdinExit
        publishing := enqueuePendingEvent (.pipeConnectionLost fd exc) }
      (processConnectionLostEligible core.exited (core.openPipes.erase fd).isEmpty)
  else
    core

def processExited (core : ProcessTransportCore) (returncode : Int) : ProcessTransportCore :=
  match recordProcessExit core.exited core.returncode core.openPipes.isEmpty returncode with
  | (exited, stored, .duplicate) =>
    { core with
      exited := exited
      returncode := stored
      recorded := core.recorded ++ [returncode] }
  | (exited, stored, .first shouldFinish) =>
    finishIf
      { core with
        exited := exited
        returncode := stored
        recorded := core.recorded ++ [returncode]
        publishing := enqueuePendingEvent (.processExited returncode) }
      shouldFinish

theorem processExited_of_exited {core : ProcessTransportCore} {code : Int}
    (exited : core.exited) :
    core.processExited code = { core with recorded := core.recorded ++ [code] } := by
  rw [processExited, recordProcessExit, if_pos exited]

theorem processExited_of_running {core : ProcessTransportCore} {code : Int}
    (running : core.exited = false) :
    core.processExited code = finishIf
        { core with
          exited := true
          returncode := some code
          recorded := core.recorded ++ [code]
          publishing := enqueuePendingEvent (.processExited code) }
        (processConnectionLostEligible true core.openPipes.isEmpty) := by
  rw [processExited, recordProcessExit, if_neg]
  rw [running]
  exact Bool.false_ne_true

/-! The recording functions change the lifecycle and what is to be published. -/

section

variable (core : ProcessTransportCore)

include core

theorem enqueueConnectionLostLocked_eq (exc : Option String) :
    ∃ called publishing, core.enqueueConnectionLostLocked exc =
      { core with connectionLostCalled := called, publishing := publishing } := by
  rw [enqueueConnectionLostLocked]
  by_cases called : core.connectionLostCalled
  · rw [if_pos called]
    exact ⟨core.connectionLostCalled, core.publishing, rfl⟩
  · rw [if_neg called]
    exact ⟨_, _, rfl⟩

theorem finishIf_eq (shouldFinish : Bool) :
    ∃ called publishing, core.finishIf shouldFinish =
      { core with connectionLostCalled := called, publishing := publishing } := by
  cases shouldFinish with
  | false => exact ⟨core.connectionLostCalled, core.publishing, rfl⟩
  | true => exact core.enqueueConnectionLostLocked_eq none

theorem pipeConnectionLostMessage_eq (fd : Nat) (exc : Option String) :
    ∃ openPipes pendingExitCode stdinExit called publishing,
      core.pipeConnectionLostMessage fd exc =
        { core with
          openPipes := openPipes
          pendingExitCode := pendingExitCode
          stdinExit := stdinExit
          connectionLostCalled := called
          publishing := publishing } := by
  rw [pipeConnectionLostMessage]
  by_cases isOpen : fd ∈ core.openPipes
  · rw [if_pos isOpen]
    obtain ⟨called, publishing, same⟩ := finishIf_eq _ _
    exact ⟨_, _, _, called, publishing, same⟩
  · rw [if_neg isOpen]
    exact ⟨core.openPipes, core.pendingExitCode, core.stdinExit, core.connectionLostCalled,
      core.publishing, rfl⟩

theorem processExited_eq (code : Int) :
    ∃ exited returncode recorded called publishing, core.processExited code =
        { core with
          exited := exited
          returncode := returncode
          recorded := recorded
          connectionLostCalled := called
          publishing := publishing } := by
  rcases Bool.eq_false_or_eq_true core.exited with exited | running
  · rw [processExited_of_exited exited]
    exact ⟨core.exited, core.returncode, _, core.connectionLostCalled, core.publishing, rfl⟩
  · rw [processExited_of_running running]
    obtain ⟨called, publishing, same⟩ := finishIf_eq _ _
    exact ⟨_, _, _, called, publishing, same⟩

end

/-! ## Draining -/

/-- `connection_lost_with_py`: the protocol is released whether or not the callback
raises, and both callers ignore that it did. -/
def connectionLostWithPy (core : ProcessTransportCore) (exc : Option String) :
    ProcessTransportCore :=
  { core with
    hasProtocol := false
    delivered :=
      if core.hasProtocol then core.delivered ++ [.connectionLost exc] else core.delivered }

def stopDrain (core : ProcessTransportCore) : ProcessTransportCore :=
  { core with eventsScheduled := false, drain := .idle }

def failDrain (core : ProcessTransportCore) (event : PendingProcessEvent) : ProcessTransportCore :=
  ((core.reportError event.failure).connectionLostWithPy none).stopDrain

/-- The callback of an event other than `ConnectionLost`. A released protocol is
`None`, which has none of the methods. -/
def callProtocol (core : ProcessTransportCore) (event : PendingProcessEvent)
    (rest : List PendingProcessEvent) (raises : Bool) : ProcessTransportCore :=
  if event.hasPayload core.textConfig && core.hasProtocol then
    let called := { core with delivered := core.delivered ++ [event] }
    if raises then called.failDrain event
    else { called with drain := .delivering rest }
  else
    core.failDrain event

/-- One event of the drain, or the end of the batch. The call takes the state lock
to look up the protocol. -/
def stepDeliver (core : ProcessTransportCore) (raises : Bool) : Option ProcessTransportCore :=
  match core.drain, core.publishing with
  | .delivering [], _ => some { core with drain := .taking }
  | .delivering (.connectionLost exc :: _), [] => some (core.connectionLostWithPy exc).stopDrain
  | .delivering (event :: rest), [] => some (core.callProtocol event rest raises)
  | _, _ => none

def stepTake (core : ProcessTransportCore) : Option ProcessTransportCore :=
  match core.drain with
  | .taking =>
    if core.pendingEvents.isEmpty then some core.stopDrain
    else
      some { core with drain := .delivering core.pendingEvents, pendingEvents := [] }
  | _ => none

end ProcessTransportCore

/-! ## Steps -/

inductive ProcessAction where
  /-- A reader thread reads a chunk and pushes it. -/
  | read (fd : Nat) (data : List UInt8)
  | announceData (fd : Nat)
  /-- It sees the end of the file, or an error. -/
  | closePipe (fd : Nat) (exc : Option String)
  /-- `connection_lost` of the stdin protocol -/
  | loseStdin
  /-- Its `process_exited` with the code that has waited for it -/
  | exitAfterStdin
  | observeExit (code : Int)
  | checkStdin
  | reportExit
  | failWait
  /-- The control channel is gone. -/
  | disconnect
  /-- The holder of the state lock goes on. -/
  | publish
  | startDrain
  | take
  | deliver (raises : Bool)
  deriving DecidableEq

namespace ProcessTransportCore

def stepReader (core : ProcessTransportCore) (fd : Nat) (data : List UInt8) :
    Option ProcessTransportCore :=
  match core.readers fd with
  | .reading =>
    some (push
      { core with
        readers := Function.update core.readers fd .announcing
        chunks := Function.update core.chunks fd (core.chunks fd ++ [data]) }
      (.pipeDataReceived fd data))
  | _ => none

def stepAnnounceData (core : ProcessTransportCore) (fd : Nat) : Option ProcessTransportCore :=
  match core.readers fd with
  | .announcing =>
    some (announce { core with readers := Function.update core.readers fd .reading })
  | _ => none

def stepClosePipe (core : ProcessTransportCore) (fd : Nat) (exc : Option String) :
    Option ProcessTransportCore :=
  match core.readers fd, core.publishing with
  | .reading, [] =>
    some (pipeConnectionLostMessage
      { core with readers := Function.update core.readers fd .finished } fd exc)
  | _, _ => none

def stepLoseStdin (core : ProcessTransportCore) : Option ProcessTransportCore :=
  match core.stdinExit, core.publishing with
  | none, [] => some (core.pipeConnectionLostMessage 0 none)
  | _, _ => none

def stepExitAfterStdin (core : ProcessTransportCore) : Option ProcessTransportCore :=
  match core.stdinExit, core.publishing with
  | some code, [] => some (processExited { core with stdinExit := none } code)
  | _, _ => none

def stepCheckStdin (core : ProcessTransportCore) : Option ProcessTransportCore :=
  match core.waiter, core.publishing with
  | .observed code, [] =>
    if 0 ∈ core.openPipes then
      some { core with waiter := .waiting, pendingExitCode := some code }
    else
      some { core with waiter := .exiting code }
  | _, _ => none

def stepReportExit (core : ProcessTransportCore) : Option ProcessTransportCore :=
  match core.waiter, core.publishing with
  | .exiting code, [] => some (processExited { core with waiter := .waiting } code)
  | _, _ => none

def stepFailWait (core : ProcessTransportCore) : Option ProcessTransportCore :=
  match core.waiter, core.publishing with
  | .waiting, [] =>
    some (enqueueConnectionLostLocked
      (reportError { core with waiter := .finished } "subprocess wait failed") none)
  | _, _ => none

def stepPublish (core : ProcessTransportCore) : Option ProcessTransportCore :=
  match core.publishing with
  | [] => none
  | .push event :: rest => some (push { core with publishing := rest } event)
  | .announce :: rest => some (announce { core with publishing := rest })

end ProcessTransportCore

def processStep (core : ProcessTransportCore) : ProcessAction → Option ProcessTransportCore
  | .read fd data => core.stepReader fd data
  | .announceData fd => core.stepAnnounceData fd
  | .closePipe fd exc => core.stepClosePipe fd exc
  | .loseStdin => core.stepLoseStdin
  | .exitAfterStdin => core.stepExitAfterStdin
  | .observeExit code =>
    if core.waiter = .waiting then
      some { core with waiter := .observed code, hasObservedExit := true }
    else none
  | .checkStdin => core.stepCheckStdin
  | .reportExit => core.stepReportExit
  | .failWait => core.stepFailWait
  | .disconnect => if core.waiter = .waiting then some { core with waiter := .finished } else none
  | .publish => core.stepPublish
  | .startDrain =>
    if core.drain = .idle ∧ 0 < core.commands then
      some { core with drain := .taking, commands := core.commands - 1 }
    else none
  | .take => core.stepTake
  | .deliver raises => core.stepDeliver raises

/-! ## What a step can do -/

open ProcessTransportCore PendingProcessEvent in
/-- The steps with their conditions. The three calls of a callback are told apart:
it returns, it raises, or it cannot be made. -/
inductive ProcessMove (core : ProcessTransportCore) :
    ProcessAction → ProcessTransportCore → Prop where
  | read {fd : Nat} {data : List UInt8} (reading : core.readers fd = .reading) :
      ProcessMove core (.read fd data) (push
          { core with
            readers := Function.update core.readers fd .announcing
            chunks := Function.update core.chunks fd (core.chunks fd ++ [data]) }
          (pipeDataReceived fd data))
  | announceData {fd : Nat} (announcing : core.readers fd = .announcing) :
      ProcessMove core (.announceData fd)
        (announce { core with readers := Function.update core.readers fd .reading })
  | closePipe {fd : Nat} {exc : Option String} (reading : core.readers fd = .reading)
      (free : core.publishing = []) :
      ProcessMove core (.closePipe fd exc) (pipeConnectionLostMessage
          { core with readers := Function.update core.readers fd .finished } fd exc)
  | loseStdin (idle : core.stdinExit = none) (free : core.publishing = []) :
      ProcessMove core .loseStdin (core.pipeConnectionLostMessage 0 none)
  | exitAfterStdin {code : Int} (taken : core.stdinExit = some code)
      (free : core.publishing = []) :
      ProcessMove core .exitAfterStdin (processExited { core with stdinExit := none } code)
  | observeExit {code : Int} (waiting : core.waiter = .waiting) :
      ProcessMove core (.observeExit code)
        { core with waiter := .observed code, hasObservedExit := true }
  | deferExit {code : Int} (observed : core.waiter = .observed code)
      (isOpen : 0 ∈ core.openPipes) :
      ProcessMove core .checkStdin { core with waiter := .waiting, pendingExitCode := some code }
  | beginExit {code : Int} (observed : core.waiter = .observed code) :
      ProcessMove core .checkStdin { core with waiter := .exiting code }
  | reportExit {code : Int} (exiting : core.waiter = .exiting code)
      (free : core.publishing = []) :
      ProcessMove core .reportExit (processExited { core with waiter := .waiting } code)
  | failWait (free : core.publishing = []) : ProcessMove core .failWait
        (enqueueConnectionLostLocked
          (reportError { core with waiter := .finished } "subprocess wait failed") none)
  | disconnect (waiting : core.waiter = .waiting) :
      ProcessMove core .disconnect { core with waiter := .finished }
  | push {event : PendingProcessEvent} {rest : List Publication}
      (publishing : core.publishing = .push event :: rest) :
      ProcessMove core .publish (push { core with publishing := rest } event)
  | announce {rest : List Publication} (publishing : core.publishing = .announce :: rest) :
      ProcessMove core .publish (announce { core with publishing := rest })
  | startDrain (idle : core.drain = .idle) (commanded : 0 < core.commands) :
      ProcessMove core .startDrain { core with drain := .taking, commands := core.commands - 1 }
  | takeNone (taking : core.drain = .taking) (empty : core.pendingEvents = []) :
      ProcessMove core .take core.stopDrain
  | takeAll (taking : core.drain = .taking) : ProcessMove core .take
        { core with drain := .delivering core.pendingEvents, pendingEvents := [] }
  | endBatch {raises : Bool} (holding : core.drain = .delivering []) :
      ProcessMove core (.deliver raises) { core with drain := .taking }
  | lose {raises : Bool} {exc : Option String} {rest : List PendingProcessEvent}
      (holding : core.drain = .delivering (connectionLost exc :: rest)) :
      ProcessMove core (.deliver raises) (core.connectionLostWithPy exc).stopDrain
  | call {event : PendingProcessEvent} {rest : List PendingProcessEvent}
      (holding : core.drain = .delivering (event :: rest))
      (other : event.isConnectionLost = false)
      (callable : (event.hasPayload core.textConfig && core.hasProtocol)) :
      ProcessMove core (.deliver false)
        { core with delivered := core.delivered ++ [event], drain := .delivering rest }
  | raise {event : PendingProcessEvent} {rest : List PendingProcessEvent}
      (holding : core.drain = .delivering (event :: rest))
      (other : event.isConnectionLost = false) (free : core.publishing = [])
      (callable : (event.hasPayload core.textConfig && core.hasProtocol)) :
      ProcessMove core (.deliver true)
        (failDrain { core with delivered := core.delivered ++ [event] } event)
  | refuse {raises : Bool} {event : PendingProcessEvent} {rest : List PendingProcessEvent}
      (holding : core.drain = .delivering (event :: rest))
      (other : event.isConnectionLost = false) (free : core.publishing = [])
      (refused : event.hasPayload core.textConfig = false ∨ core.hasProtocol = false) :
      ProcessMove core (.deliver raises) (core.failDrain event)

variable {core next : ProcessTransportCore}

theorem processMove_callProtocol {event : PendingProcessEvent}
    {rest : List PendingProcessEvent} {raises : Bool}
    (holding : core.drain = .delivering (event :: rest))
    (other : event.isConnectionLost = false) (free : core.publishing = []) :
    ProcessMove core (.deliver raises) (core.callProtocol event rest raises) := by
  rw [ProcessTransportCore.callProtocol]
  by_cases callable : (event.hasPayload core.textConfig && core.hasProtocol)
  · rw [if_pos callable]
    cases raises with
    | false => exact .call holding other callable
    | true => exact .raise holding other free callable
  · rw [if_neg callable]
    refine .refuse holding other free ?_
    exact Bool.and_eq_false_iff.mp (Bool.eq_false_iff.mpr callable)

theorem processMove_stepDeliver {raises : Bool}
    (moved : core.stepDeliver raises = some next) :
    ProcessMove core (.deliver raises) next := by
  unfold ProcessTransportCore.stepDeliver at moved
  cases holding : core.drain with
  | idle | taking =>
    simp only [holding] at moved
    cases moved
  | delivering drained =>
    cases drained with
    | nil =>
      simp only [holding] at moved
      cases moved
      exact .endBatch holding
    | cons event =>
      cases free : core.publishing with
      | cons => cases event <;> simp only [holding, free] at moved <;> cases moved
      | nil =>
        cases event with
        | connectionLost =>
          simp only [holding, free] at moved
          cases moved
          exact .lose holding
        | pipeDataReceived fd data | pipeConnectionLost fd exc | processExited code =>
          simp only [holding, free] at moved
          cases moved
          exact processMove_callProtocol holding rfl free

theorem processMove_stepTake (moved : core.stepTake = some next) :
    ProcessMove core .take next := by
  unfold ProcessTransportCore.stepTake at moved
  split at moved
  · rename_i taking
    split_ifs at moved with empty
    · cases moved
      exact .takeNone taking (List.isEmpty_iff.mp empty)
    · cases moved
      exact .takeAll taking
  · cases moved

theorem processMove_stepCheckStdin (moved : core.stepCheckStdin = some next) :
    ProcessMove core .checkStdin next := by
  unfold ProcessTransportCore.stepCheckStdin at moved
  split at moved
  · rename_i observed _
    split_ifs at moved with isOpen
    · cases moved
      exact .deferExit observed isOpen
    · cases moved
      exact .beginExit observed
  · cases moved

theorem processMove_stepPublish (moved : core.stepPublish = some next) :
    ProcessMove core .publish next := by
  unfold ProcessTransportCore.stepPublish at moved
  split at moved
  · cases moved
  · rename_i publishing
    cases moved
    exact .push publishing
  · rename_i publishing
    cases moved
    exact .announce publishing

theorem processMove_processStep {action : ProcessAction}
    (moved : processStep core action = some next) :
    ProcessMove core action next := by
  cases action with
  | read =>
    simp only [processStep, ProcessTransportCore.stepReader] at moved
    split at moved <;> cases moved
    rename_i reading
    exact .read reading
  | announceData =>
    simp only [processStep, ProcessTransportCore.stepAnnounceData] at moved
    split at moved <;> cases moved
    rename_i announcing
    exact .announceData announcing
  | closePipe =>
    simp only [processStep, ProcessTransportCore.stepClosePipe] at moved
    split at moved <;> cases moved
    rename_i reading free
    exact .closePipe reading free
  | loseStdin =>
    simp only [processStep, ProcessTransportCore.stepLoseStdin] at moved
    split at moved <;> cases moved
    rename_i idle free
    exact .loseStdin idle free
  | exitAfterStdin =>
    simp only [processStep, ProcessTransportCore.stepExitAfterStdin] at moved
    split at moved <;> cases moved
    rename_i taken free
    exact .exitAfterStdin taken free
  | observeExit =>
    simp only [processStep] at moved
    split_ifs at moved with waiting
    cases moved
    exact .observeExit waiting
  | checkStdin => exact processMove_stepCheckStdin moved
  | reportExit =>
    simp only [processStep, ProcessTransportCore.stepReportExit] at moved
    split at moved <;> cases moved
    rename_i exiting free
    exact .reportExit exiting free
  | failWait =>
    simp only [processStep, ProcessTransportCore.stepFailWait] at moved
    split at moved <;> cases moved
    rename_i free
    exact .failWait free
  | disconnect =>
    simp only [processStep] at moved
    split_ifs at moved with waiting
    cases moved
    exact .disconnect waiting
  | publish => exact processMove_stepPublish moved
  | startDrain =>
    simp only [processStep] at moved
    split_ifs at moved with ready
    cases moved
    exact .startDrain ready.1 ready.2
  | take => exact processMove_stepTake moved
  | deliver => exact processMove_stepDeliver moved

end Rsloop.Process
