import Mathlib.Algebra.Order.Ring.Nat
import Rsloop.Transition

/-!
# A server and its connections

Accept tasks hand accepted streams to the loop thread or, for a TLS server, to a
job of the blocking pool, which performs the handshake first. Either of them
builds the transport, calls `connection_made` and starts the workers. The
counters of the server are changed in these procedures, when a connection is
lost, and when `start_tls` moves a connection to another transport. `wait_closed`
reads them one after the other.
-/

namespace Rsloop.Server

open Transition

/-! ## One connection -/

/-- How far the procedure that builds the current transport has come: `queued`
waits in the ready queue and `job` in the blocking pool, `admitted` has seen the
server open for the last time, `made` has come back from `connection_made`.
`detaching` and `prepared` are the two halves of `upgrade_stream`. -/
inductive Phase where
  | queued
  | job
  | handshake
  | admitted
  | making
  | made
  | startReader
  | startWriter
  | running
  | failed
  | detaching
  | prepared
  deriving DecidableEq

/-- `serverRef` is the server reference of the current transport's state, `lease`
the one that `start_tls` has taken out of it. `losing` says that
`connection_lost_with_py` has picked up the reference and has not used it yet.
`opened` and `ended` are the history: counted by the server, and lost or not
started. -/
structure Connection where
  tls : Bool
  upgraded : Bool
  phase : Phase
  reserved : Bool
  serverRef : Bool
  lease : Bool
  detached : Bool
  lostCalled : Bool
  lossQueued : Bool
  losing : Bool
  opened : Bool
  ended : Bool
  deriving DecidableEq

namespace Connection

/-- An accepted stream, which carries a handshake slot if the server is a TLS
server. -/
def accepted (tls : Bool) : Connection where
  tls := tls
  upgraded := false
  phase := if tls then .job else .queued
  reserved := tls
  serverRef := false
  lease := false
  detached := false
  lostCalled := false
  lossQueued := false
  losing := false
  opened := false
  ended := false

def isOpen (c : Connection) : Bool :=
  c.opened && !c.ended

/-- The loop thread is inside the procedure that starts a plaintext
connection. -/
def onLoopThread (c : Connection) : Bool :=
  !c.tls && (c.phase = .making || c.phase = .made ||
    c.phase = .startReader)

/-- The first locked section of `connection_lost_with_py` -/
def lose (c : Connection) : Connection :=
  if c.detached then
    { c with lostCalled := true }
  else if c.lostCalled then
    c
  else
    { c with lostCalled := true, losing := c.serverRef }

def fail (c : Connection) : Connection :=
  { c with phase := .failed, ended := true }

end Connection

/-- What a step asks of the server: nothing, `connection_opened` or
`connection_lost`. -/
inductive Accounting where
  | none
  | opened
  | lost
  deriving DecidableEq

inductive ConnectionStep where
  | start (succeeds : Bool)
  | handshake (succeeds : Bool)
  | opened (succeeds : Bool)
  | made (raises : Bool)
  | startReader (succeeds : Bool)
  | startWriter (succeeds : Bool)
  | queueLoss
  | beginLoss
  | endLoss
  | startTls
  | takeLease
  deriving DecidableEq

/-- The `Drop` of a `ServerConnectionLease`, in a procedure that fails -/
def Connection.dropLease (c : Connection) : Connection × Accounting :=
  ({ c.fail with lease := false },
    if c.lease then .lost else .none)

/-- The transport that takes a prepared connection over. The lease passes to
its state. -/
def Connection.takeOver (c : Connection) : Connection :=
  { c with
    tls := true
    phase := .making
    serverRef := c.lease
    lease := false
    detached := false
    lostCalled := false
    lossQueued := false }

/-- `closed` is the server's flag. -/
def stepConnection (closed : Bool) (c : Connection) :
    ConnectionStep → Option (Connection × Accounting)
  | .start succeeds =>
    match c.phase with
    | .queued =>
      if succeeds then
        some ({ c with phase := .making, serverRef := true }, .none)
      else
        some (c.fail, .none)
    | .job =>
      if closed = false ∧ succeeds then
        some ({ c with phase := .handshake }, .none)
      else
        some (c.fail, .none)
    | .prepared =>
      if succeeds then
        some ({ c with phase := .handshake }, .none)
      else
        some c.dropLease
    | _ => none
  | .handshake succeeds =>
    if c.phase = .handshake then
      if c.upgraded then
        if succeeds then some (c.takeOver, .none) else some c.dropLease
      else if closed = false ∧ succeeds then
        some ({ c with phase := .admitted }, .none)
      else
        some (c.fail, .none)
    else
      none
  | .opened succeeds =>
    match c.phase with
    | .admitted =>
      if succeeds then
        some ({ c with phase := .making, serverRef := true, opened := true }, .opened)
      else
        some (c.fail, .none)
    | .made =>
      if c.serverRef then
        some ({ c with phase := .startReader, opened := true }, .opened)
      else
        some ({ c with phase := .startReader }, .none)
    | _ => none
  | .made raises =>
    if c.phase = .making then
      if raises then
        some (c.fail, .none)
      else if c.tls then
        some ({ c with phase := .startReader }, .none)
      else
        some ({ c with phase := .made }, .none)
    else
      none
  | .startReader succeeds =>
    if c.phase = .startReader then
      if succeeds then
        some ({ c with phase := if c.tls then .startWriter else .running }, .none)
      else
        -- `fail_transport_worker_start`
        some ({ c.lose with phase := .failed }, .none)
    else
      none
  | .startWriter succeeds =>
    if c.phase = .startWriter then
      if succeeds then
        some ({ c with phase := .running }, .none)
      else
        some ({ c.lose with phase := .failed }, .none)
    else
      none
  | .queueLoss =>
    if c.detached then
      some (c, .none)
    else if c.serverRef then
      some ({ c with lossQueued := true }, .none)
    else
      none
  | .beginLoss =>
    if c.lossQueued ∧ c.onLoopThread = false then
      some ({ c.lose with lossQueued := false }, .none)
    else
      none
  | .endLoss =>
    if c.losing then
      some ({ c with losing := false, ended := true }, .lost)
    else
      none
  | .startTls =>
    -- behind a loss the socket is closed and cannot be duplicated
    if c.serverRef ∧ c.detached = false ∧
        (c.lostCalled → c.losing) ∧
        (c.onLoopThread → c.phase = .making) then
      some ({ c with phase := .detaching, detached := true }, .none)
    else
      none
  | .takeLease =>
    if c.phase = .detaching then
      some
        ({ c with
          phase := .prepared
          upgraded := true
          lease := c.serverRef
          serverRef := false }, .none)
    else
      none

/-! ## Accept tasks and the waiter -/

/-- An accept task, from its guard to the end of the guard. `polling`,
`rechecking` and `reserving` belong to the accept workers of TLS servers. -/
inductive AcceptTask where
  | spawned
  | checking
  | polling
  | rechecking
  | accepting
  | scheduling
  | reserving
  | exiting
  | ended
  deriving DecidableEq

inductive TaskReply where
  | proceed
  | accepted
  | wouldBlock
  | notReady
  | error
  | cancelled
  deriving DecidableEq

/-- `wait_closed`; `again` tells the second look, behind `listen`, from the
first. -/
inductive Waiter where
  | idle
  | checkClosed (again : Bool)
  | loadAcceptTasks (again : Bool)
  | loadConnections (again : Bool)
  | loadHandshakes (again : Bool)
  | listen
  | waiting
  | completed
  deriving DecidableEq

/-- `listeners` have not been started and `spawning` are the ones that
`spawn_accept_tasks` has taken and not given to a task yet. `closing` is a
`close()` that has set the flag and not notified the waiters yet. -/
structure ServerCore where
  tls : Bool
  closed : Bool
  serving : Bool
  listeners : Nat
  spawning : Nat
  tasks : List AcceptTask
  activeAcceptTasks : Nat
  connections : List Connection
  activeConnections : Nat
  pendingTlsHandshakes : Nat
  maxPendingTlsHandshakes : Nat
  closing : Bool
  waiter : Waiter
  notified : Bool
  deriving DecidableEq

def ServerCore.new (tls : Bool) (listeners maxPendingTlsHandshakes : Nat) : ServerCore where
  tls := tls
  closed := false
  serving := false
  listeners := listeners
  spawning := 0
  tasks := []
  activeAcceptTasks := 0
  connections := []
  activeConnections := 0
  pendingTlsHandshakes := 0
  maxPendingTlsHandshakes := maxPendingTlsHandshakes
  closing := false
  waiter := .idle
  notified := false

/-- The counters are machine words. -/
def wordSize : Nat := 2 ^ 64

def fetchAdd (counter : Nat) : Nat :=
  (counter + 1) % wordSize

def fetchSub (counter : Nat) : Nat :=
  (counter + (wordSize - 1)) % wordSize

/-- Descriptors are nonnegative C integers, and a connection that has not ended
has one. -/
def maxDescriptors : Nat := 2 ^ 31

namespace ServerCore

def account (server : ServerCore) : Accounting → ServerCore
  | .none => server
  | .opened => { server with activeConnections := fetchAdd server.activeConnections }
  | .lost =>
    { server with
      activeConnections := fetchSub server.activeConnections
      notified := server.notified || decide (server.activeConnections = 1 ∧ server.closed) }

/-- An accepted stream enters the ready queue or the blocking pool. -/
def accept (server : ServerCore) (tls : Bool) : ServerCore :=
  { server with connections := server.connections ++ [.accepted tls] }

end ServerCore

/-! ## Steps -/

/-- `spawn_accept_tasks` up to the end of its locked section -/
def stepStartServing (server : ServerCore) : ServerCore :=
  if server.closed ∨ server.serving then
    server
  else
    { server with
      serving := true
      spawning := server.spawning + server.listeners
      listeners := 0 }

def stepSpawnTask (server : ServerCore) : Option ServerCore :=
  if server.spawning = 0 then
    none
  else
    some
      { server with
        spawning := server.spawning - 1
        tasks := server.tasks ++ [.spawned]
        activeAcceptTasks := server.activeAcceptTasks + 1 }

/-- `schedule_accepted_transport` on its way to the loop or to the handshake
slots -/
def stepSchedule (server : ServerCore) : Option (AcceptTask × ServerCore) :=
  if server.tls then
    if server.closed then some (.accepting, server) else some (.reserving, server)
  else if server.connections.countP (fun one => !one.ended) < maxDescriptors then
    some (.checking, server.accept false)
  else
    none

def stepReserve (server : ServerCore) : Option (AcceptTask × ServerCore) :=
  if server.pendingTlsHandshakes < server.maxPendingTlsHandshakes then
    if server.connections.countP (fun one => !one.ended) < maxDescriptors then
      some (.accepting,
          { server.accept true with pendingTlsHandshakes := server.pendingTlsHandshakes + 1 })
    else
      none
  else
    some (.accepting, server)

/-- One step of an accept task, and the server behind it -/
def stepAccept (server : ServerCore) : AcceptTask → TaskReply → Option (AcceptTask × ServerCore)
  | .spawned, .proceed => some (.checking, server)
  | .spawned, .error => some (.exiting, server)
  | .spawned, .cancelled => if server.closed then some (.exiting, server) else none
  | .checking, .proceed =>
    some (if server.closed then .exiting
        else if server.tls then .polling else .accepting, server)
  | .polling, .proceed => some (.rechecking, server)
  | .polling, .notReady => some (.checking, server)
  | .polling, .error => some (.exiting, server)
  | .rechecking, .proceed => some (if server.closed then .exiting else .accepting, server)
  | .accepting, .accepted => some (.scheduling, server)
  | .accepting, .wouldBlock => if server.tls then some (.checking, server) else none
  | .accepting, .error => some (.exiting, server)
  | .accepting, .cancelled =>
    if server.tls = false ∧ server.closed then some (.exiting, server) else none
  | .scheduling, .proceed => stepSchedule server
  | .scheduling, .error => some (if server.tls then .accepting else .checking, server)
  | .reserving, .proceed => stepReserve server
  | .exiting, .proceed =>
    some (.ended,
        { server with activeAcceptTasks := server.activeAcceptTasks - 1, notified := true })
  | _, _ => none

def stepTask (server : ServerCore) (index : Nat) (reply : TaskReply) : Option ServerCore :=
  match server.tasks[index]? with
  | none => none
  | some task =>
    (stepAccept server task reply).map fun (next, changed) =>
      { changed with tasks := server.tasks.set index next }

/-- `close` up to the end of its locked section; the tasks are cancelled from
then on. -/
def stepClose (server : ServerCore) : ServerCore :=
  if server.closed then
    server
  else
    { server with closed := true, serving := false, listeners := 0, closing := true }

def stepOf (server : ServerCore) (index : Nat) (step : ConnectionStep) : Option ServerCore :=
  match server.connections[index]? with
  | none => none
  | some c =>
    (stepConnection server.closed c step).map fun (next, accounting) =>
      { server.account accounting with connections := server.connections.set index next }

def Connection.jobOver (c : Connection) : Bool :=
  c.upgraded || c.phase = .running ||
    c.phase = .failed || c.phase = .detaching

/-- The `Drop` of a `PendingTlsHandshake` -/
def stepDropPending (server : ServerCore) (index : Nat) : Option ServerCore :=
  match server.connections[index]? with
  | none => none
  | some c =>
    if c.reserved ∧ c.jobOver then
      some
        { server with
          connections := server.connections.set index { c with reserved := false }
          pendingTlsHandshakes := server.pendingTlsHandshakes - 1
          notified := true }
    else
      none

/-- Where `wait_closed` goes on when one of its four conditions fails. -/
def Waiter.miss (again : Bool) : Waiter :=
  if again then .waiting else .listen

def stepWaiter (server : ServerCore) : Option ServerCore :=
  match server.waiter with
  | .checkClosed again =>
    some { server with waiter := if server.closed then .loadAcceptTasks again else .miss again }
  | .loadAcceptTasks again =>
    some
      { server with
        waiter :=
          if server.activeAcceptTasks = 0 then .loadConnections again
          else .miss again }
  | .loadConnections again =>
    some
      { server with
        waiter :=
          if server.activeConnections = 0 then .loadHandshakes again
          else .miss again }
  | .loadHandshakes again =>
    some
      { server with
        waiter :=
          if server.pendingTlsHandshakes = 0 then .completed
          else .miss again }
  | .listen => some { server with notified := false, waiter := .checkClosed true }
  | .waiting =>
    if server.notified then some { server with waiter := .checkClosed false } else none
  | _ => none

inductive ServerAction where
  | startServing
  | spawnTask
  | task (index : Nat) (reply : TaskReply)
  | close
  | notifyClosed
  | connection (index : Nat) (step : ConnectionStep)
  | dropPending (index : Nat)
  | waitClosed
  | waiter
  deriving DecidableEq

def serverStep (server : ServerCore) : ServerAction → Option ServerCore
  | .startServing => some (stepStartServing server)
  | .spawnTask => stepSpawnTask server
  | .task index reply => stepTask server index reply
  | .close => some (stepClose server)
  | .notifyClosed =>
    if server.closing then some { server with closing := false, notified := true } else none
  | .connection index step => stepOf server index step
  | .dropPending index => stepDropPending server index
  | .waitClosed =>
    if server.waiter = .idle then some { server with waiter := .checkClosed false } else none
  | .waiter => stepWaiter server

end Rsloop.Server
