import Mathlib.Data.List.Rotate
import Rsloop.Engine.Outstanding

/-!
# Watches of file descriptors

`add_reader` and `add_writer` register one callback for a descriptor and a
direction. Its readiness wait is one-shot and lives in one of two places: as a
task on the loop's own runtime when the loop runs, and on the dispatcher when
the registration is made while the loop is stopped. What a wait schedules is an
ordinary ready item of `loopStep`; when the loop has executed it, the callback
waits for the end of the turn, and only the current registration is armed again.

All calls are made on the thread that runs the loop, one after the other.
-/

namespace Rsloop.Engine

open Transition

/-! ## Registrations and waits -/

/-- A `ReadyCallback` of kind `Reader(fd)` or `Writer(fd)` -/
structure WatchCallback where
  id : Nat
  fd : Int
  writable : Bool
  deriving DecidableEq

def WatchCallback.key (cb : WatchCallback) : Int × Bool :=
  (cb.fd, cb.writable)

/-- `fileobj` is the identity of the object that was passed in. -/
structure FdWatch where
  fileobj : Nat
  ready : WatchCallback
  deriving DecidableEq

/-- The handle of a wait stays in its map when the wait is over. -/
structure WatchTask where
  callback : WatchCallback
  waiting : Bool
  deriving DecidableEq

inductive WatchCommand where
  | start (cb : WatchCallback)
  | stop (fd : Int) (writable : Bool)
  deriving DecidableEq

def WatchCommand.key : WatchCommand → Int × Bool
  | .start cb => cb.key
  | .stop fd writable => (fd, writable)

/-- `keepalive` holds the entries of `reader_keepalive` and `writer_keepalive`,
`localTasks` those of `FD_WATCH_TASKS` and `remoteTasks` those of the
dispatcher's `reader_tasks` and `writer_tasks`. The commands of watches keep
their order on the channel; what else is on it stands in `loop`. `fires` says
which ready items carry the callback of a watch, `cancelled` which callbacks
have their flag set, and `invoked` is the history of the calls into Python. -/
structure WatchState where
  loop : LoopState
  keepalive : List FdWatch
  nextCallbackId : Nat
  cancelled : List WatchCallback
  localTasks : List WatchTask
  remoteTasks : List WatchTask
  commands : List WatchCommand
  fires : List (ReadyItem × WatchCallback)
  deferredFdRearms : List WatchCallback
  invoked : List WatchCallback

def WatchState.new (threads : Nat) : WatchState where
  loop := .new threads
  keepalive := []
  nextCallbackId := 0
  cancelled := []
  localTasks := []
  remoteTasks := []
  commands := []
  fires := []
  deferredFdRearms := []
  invoked := []

def WatchState.registered (s : WatchState) (fd : Int) (writable : Bool) : Option FdWatch :=
  s.keepalive.find? fun watch => decide (watch.ready.key = (fd, writable))

/-- The callback that a ready item carries, if it is that of a watch. -/
def WatchState.carried (s : WatchState) (item : ReadyItem) : Option WatchCallback :=
  (s.fires.find? fun entry => decide (entry.1 = item)).map Prod.snd

def without (key : Int × Bool) (tasks : List WatchTask) : List WatchTask :=
  tasks.filter fun task => decide (task.callback.key ≠ key)

def startTask (cb : WatchCallback) (tasks : List WatchTask) : List WatchTask :=
  ⟨cb, true⟩ :: without cb.key tasks

def finishWait (cb : WatchCallback) (tasks : List WatchTask) : List WatchTask :=
  tasks.map fun task =>
    if task.callback = cb then { task with waiting := false } else task

/-- `start_fd_watch`: on the runtime thread the wait becomes a task of the loop's
own runtime, from anywhere else it goes to the dispatcher. -/
def startFdWatch (s : WatchState) (cb : WatchCallback) : WatchState :=
  if s.loop.tlsCore then
    { s with localTasks := startTask cb s.localTasks }
  else
    { s with
      localTasks := without cb.key s.localTasks
      commands := s.commands ++ [.start cb] }

/-- `stop_fd_watch` -/
def stopFdWatch (s : WatchState) (fd : Int) (writable : Bool) : WatchState :=
  if s.localTasks.any fun task => decide (task.callback.key = (fd, writable)) then
    { s with localTasks := without (fd, writable) s.localTasks }
  else
    { s with commands := s.commands ++ [.stop fd writable] }

/-- What `add_reader` and `add_writer` do. -/
def addWatch (s : WatchState) (writable : Bool) (fd : Int) (fileobj : Nat) : WatchState :=
  let ready : WatchCallback := ⟨s.nextCallbackId, fd, writable⟩
  let inserted :=
    { s with
      nextCallbackId := s.nextCallbackId + 1
      keepalive := ⟨fileobj, ready⟩ :: s.keepalive.filter fun watch =>
        decide (watch.ready.key ≠ (fd, writable)) }
  match s.registered fd writable with
  | some previous =>
    startFdWatch (stopFdWatch
        { inserted with cancelled := previous.ready :: s.cancelled }
        fd writable)
      ready
  | none => startFdWatch inserted ready

def addReader (s : WatchState) (fd : Int) (fileobj : Nat) : WatchState :=
  addWatch s false fd fileobj

def addWriter (s : WatchState) (fd : Int) (fileobj : Nat) : WatchState :=
  addWatch s true fd fileobj

/-- The registration that a removal finds: that of the descriptor, or else one
of the same file object. `order` is where the iteration of the hash map
begins. -/
def WatchState.findWatch (s : WatchState) (writable : Bool) (fd : Int)
    (fileobj order : Nat) : Option FdWatch :=
  match s.registered fd writable with
  | some watch => some watch
  | none =>
    ((s.keepalive.filter fun watch =>
      decide (watch.ready.writable = writable ∧ watch.fileobj = fileobj)).rotate order).head?

/-- What `remove_reader` and `remove_writer` do. -/
def removeWatch (s : WatchState) (writable : Bool) (fd : Int)
    (fileobj order : Nat) : WatchState :=
  match s.findWatch writable fd fileobj order with
  | some removed =>
    stopFdWatch
      { s with
        keepalive := s.keepalive.filter fun watch =>
          decide (watch.ready.key ≠ removed.ready.key)
        cancelled := removed.ready :: s.cancelled }
      removed.ready.fd writable
  | none => stopFdWatch s fd writable

def removeReader (s : WatchState) (fd : Int) (fileobj order : Nat) : WatchState :=
  removeWatch s false fd fileobj order

def removeWriter (s : WatchState) (fd : Int) (fileobj order : Nat) : WatchState :=
  removeWatch s true fd fileobj order

/-- `rearm_fd_watch_if_needed` -/
def rearmFdWatchIfNeeded (s : WatchState) (ready : WatchCallback) : WatchState :=
  match s.registered ready.fd ready.writable with
  | some watch => if watch.ready = ready then startFdWatch s ready else s
  | none => s

/-! ## Steps -/

def Position.endsTurn : Position → Bool
  | .endTurn _ => true
  | _ => false

/-- `execute_ready` skips a callback that is cancelled. -/
def WatchState.executes (s : WatchState) (item : ReadyItem) : List WatchCallback :=
  (s.carried item).toList.filter fun cb =>
    decide (cb ∉ s.cancelled)

/-- A step of the loop: the callback of a watch is invoked when its item is
taken out, and put aside for the end of the turn when it has returned. -/
def WatchState.follow (s : WatchState) (next : LoopState) : WatchState :=
  match s.loop.pc.item, next.pc.item with
  | none, some item =>
    { s with loop := next, invoked := s.invoked ++ s.executes item }
  | some item, none =>
    { s with
      loop := next
      deferredFdRearms :=
        if next.pc = .leftEarly then
          []
        else
          s.deferredFdRearms ++ (s.carried item).toList }
  | _, _ => { s with loop := next }

/-- A wait that is over sends `ScheduleReady`, unless the callback has been
cancelled. -/
def WatchState.scheduleReady (s : WatchState) (cb : WatchCallback)
    (tid : Nat) (action : LoopAction) : Option WatchState :=
  if cb ∈ s.cancelled then
    some s
  else
    (loopStep s.loop action).map fun next =>
      { s with
        loop := next
        fires := (s.loop.queues.nextItem .callback tid, cb) :: s.fires }

/-- `handle_command` for the commands of watches -/
def WatchState.serve (s : WatchState) : WatchCommand → WatchState
  | .start cb => { s with remoteTasks := startTask cb s.remoteTasks }
  | .stop fd writable => { s with remoteTasks := without (fd, writable) s.remoteTasks }

/-- Python code can run on the loop's thread. -/
def WatchState.mayCall (s : WatchState) : Bool :=
  s.loop.pc.runsCode || decide (s.loop.pc = .outside ∧
      s.loop.producers[0]? = some .idle)

inductive WatchAction where
  | loop (action : LoopAction)
  | addReader (fd : Int) (fileobj : Nat)
  | addWriter (fd : Int) (fileobj : Nat)
  | removeReader (fd : Int) (fileobj order : Nat)
  | removeWriter (fd : Int) (fileobj order : Nat)
  | localReady (cb : WatchCallback)
  | remoteReady (cb : WatchCallback) (tid : Nat)
  | dispatcher
  | rearm

def watchStep (s : WatchState) : WatchAction → Option WatchState
  | .loop action =>
    -- the rearms stand before what ends the turn
    if s.loop.pc.endsTurn ∧ action = .loop .proceed ∧
        s.deferredFdRearms ≠ [] then
      none
    else
      (loopStep s.loop action).map s.follow
  | .addReader fd fileobj => if s.mayCall then some (addReader s fd fileobj) else none
  | .addWriter fd fileobj => if s.mayCall then some (addWriter s fd fileobj) else none
  | .removeReader fd fileobj order =>
    if s.mayCall then some (removeReader s fd fileobj order) else none
  | .removeWriter fd fileobj order =>
    if s.mayCall then some (removeWriter s fd fileobj order) else none
  | .localReady cb =>
    if s.loop.pc = .park ∧ ⟨cb, true⟩ ∈ s.localTasks then
      { s with localTasks := finishWait cb s.localTasks }.scheduleReady
          cb 0 (.enqueue .callback)
    else
      none
  | .remoteReady cb tid =>
    if tid ≠ 0 ∧ ⟨cb, true⟩ ∈ s.remoteTasks then
      { s with remoteTasks := finishWait cb s.remoteTasks }.scheduleReady
          cb tid (.call tid .callback)
    else
      none
  | .dispatcher =>
    match s.loop.dispatcher, s.commands with
    | .drainCommands, cmd :: rest => some ({ s with commands := rest }.serve cmd)
    | _, _ => none
  | .rearm =>
    match s.loop.pc, s.deferredFdRearms with
    | .endTurn _, ready :: rest =>
      some (rearmFdWatchIfNeeded { s with deferredFdRearms := rest } ready)
    | _, _ => none

def WatchState.returnsEarly (s : WatchState) : WatchAction → Bool
  | .loop action => s.loop.returnsEarly action
  | _ => false

/-- No item ends in a way that leaves `run_forever` without its cleanup: neither
does the exception handler raise nor a completion fail. -/
def WatchReachesCleanup (s : WatchState) (action : WatchAction) : Prop :=
  s.returnsEarly action = false

instance (s : WatchState) (action : WatchAction) :
    Decidable (WatchReachesCleanup s action) :=
  inferInstanceAs (Decidable (s.returnsEarly action = false))

/-! ## Where a callback can be -/

def WatchState.carries (s : WatchState) (cb : WatchCallback)
    (item : ReadyItem) : Bool :=
  decide (s.carried item = some cb)

/-- Waits that are armed and start commands in flight -/
def WatchState.armed (s : WatchState) (cb : WatchCallback) : Nat :=
  s.localTasks.count ⟨cb, true⟩ + s.remoteTasks.count ⟨cb, true⟩ +
    s.commands.count (.start cb)

def WatchState.queued (s : WatchState) (cb : WatchCallback) : Nat :=
  s.loop.outstanding.countP (s.carries cb)

/-- Executing, or awaiting the rearm at the end of the turn -/
def WatchState.busy (s : WatchState) (cb : WatchCallback) : Nat :=
  s.loop.pc.item.toList.countP (s.carries cb) +
    s.deferredFdRearms.count cb

/-- Exactly one of the three, and once. -/
def InOneState (s : WatchState) (cb : WatchCallback) : Prop :=
  (s.armed cb = 1 ∧ s.queued cb = 0 ∧ s.busy cb = 0) ∨
    (s.armed cb = 0 ∧ s.queued cb = 1 ∧ s.busy cb = 0) ∨
    (s.armed cb = 0 ∧ s.queued cb = 0 ∧ s.busy cb = 1)

end Rsloop.Engine
