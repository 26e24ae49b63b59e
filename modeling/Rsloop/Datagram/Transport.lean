import Rsloop.Transition

/-!
# Datagram transports

`__RsloopDatagramTransport` runs on the loop thread alone: a reader task, a
writer task while something waits to be sent, and callbacks that the loop runs
in the order they were scheduled. What the running callback still has to do is
a stack of frames. A protocol method is a frame of its own, and the application
can call the transport from inside it.
-/

namespace Rsloop.Datagram

/-! ## The state -/

inductive Callback where
  | connectionMade
  | datagramReceived
  | errorReceived
  | pauseWriting
  | resumeWriting
  | connectionLost
  deriving DecidableEq, Repr

inductive Item where
  | reader
  | writer
  | connectionMade
  | callConnectionLost
  deriving DecidableEq, Repr

inductive Frame where
  | running (cb : Callback)
  | readLoop
  | recvfrom
  | flushLoop
  | flushEnd
  | closeSocket
  deriving DecidableEq, Repr

/-- A fresh task has not run; a woken one has been resumed from a wait and will
run. The writer is absent while `_writer_task` is `None`. -/
inductive Position where
  | absent
  | fresh
  | woken
  | waiting
  | running
  | finished
  deriving DecidableEq, Repr

structure Task where
  pc : Position
  mustCancel : Bool
  deriving DecidableEq, Repr

/-- `Task.cancel`: the pending wait is cancelled, or the task is told at its
next step. -/
def Task.cancel (task : Task) (item : Item) : Task × List Item :=
  match task.pc with
  | .waiting => (⟨.woken, true⟩, [item])
  | .absent | .finished => (task, [])
  | _ => ({ task with mustCancel := true }, [])

/-- The task waits for its file descriptor, unless it has to be told of its
cancellation. -/
def Task.suspend (task : Task) (item : Item) : Task × List Item :=
  if task.mustCancel then ({ task with pc := .woken }, [item])
  else ({ task with pc := .waiting }, [])

/-- How the operating system or the protocol has dealt with a datagram. -/
inductive Handled (Datagram : Type) where
  | sent (datagram : Datagram)
  | reported (datagram : Datagram)
  deriving DecidableEq

def Handled.datagram {Datagram : Type} : Handled Datagram → Datagram
  | .sent datagram | .reported datagram => datagram

/-- The size of a datagram and the limits of the send buffer. -/
structure Limits (Datagram : Type) where
  size : Datagram → Nat
  highWater : Nat
  lowWater : Nat

def defaultLimits {Datagram : Type} (size : Datagram → Nat) : Limits Datagram where
  size := size
  highWater := 64 * 1024
  lowWater := 16 * 1024

structure State (Datagram : Type) where
  reader : Task
  writer : Task
  /-- How often `_call_connection_lost` waits for the end of the reader. -/
  doneCallbacks : Nat
  buffer : List Datagram
  bufferSize : Nat
  closing : Bool
  connLost : Bool
  protocolPaused : Bool
  socketClosed : Bool
  ready : List Item
  stack : List Frame
  /-- Every call the protocol has received. -/
  log : List Callback
  /-- Every datagram that `sendto` has taken. -/
  accepted : List Datagram
  /-- Every datagram that has left the transport. -/
  handled : List (Handled Datagram)
  deriving DecidableEq

variable {Datagram : Type}

/-- The constructor schedules the reader, then `connection_made`. -/
def State.new : State Datagram where
  reader := ⟨.fresh, false⟩
  writer := ⟨.absent, false⟩
  doneCallbacks := 0
  buffer := []
  bufferSize := 0
  closing := false
  connLost := false
  protocolPaused := false
  socketClosed := false
  ready := [.reader, .connectionMade]
  stack := []
  log := []
  accepted := []
  handled := []

/-! ## Operations -/

inductive SocketReply where
  | done
  | wouldBlock
  | failed
  deriving DecidableEq, Repr

namespace State

def callProtocol (s : State Datagram) (cb : Callback) (rest : List Frame) :
    State Datagram :=
  { s with log := s.log ++ [cb], stack := .running cb :: rest }

def cancelReader (s : State Datagram) : State Datagram :=
  { s with
    reader := (s.reader.cancel .reader).1
    ready := s.ready ++ (s.reader.cancel .reader).2 }

def cancelWriter (s : State Datagram) : State Datagram :=
  { s with
    writer := (s.writer.cancel .writer).1
    ready := s.ready ++ (s.writer.cancel .writer).2 }

def finishReader (s : State Datagram) : State Datagram :=
  { s with
    reader := ⟨.finished, false⟩
    doneCallbacks := 0
    ready := s.ready ++ List.replicate s.doneCallbacks .callConnectionLost }

def callConnectionLost (s : State Datagram) (rest : List Frame) : State Datagram :=
  if s.connLost then
    { s with stack := rest }
  else if s.reader.pc = .finished then
    { s with connLost := true }.callProtocol .connectionLost (.closeSocket :: rest)
  else
    { s with doneCallbacks := s.doneCallbacks + 1, stack := rest }

def maybePauseProtocol (limits : Limits Datagram) (s : State Datagram) : State Datagram :=
  if s.bufferSize > limits.highWater ∧ s.protocolPaused = false then
    { s with protocolPaused := true }.callProtocol .pauseWriting s.stack
  else
    s

def maybeResumeProtocol (limits : Limits Datagram) (s : State Datagram) : State Datagram :=
  if s.protocolPaused ∧ s.bufferSize ≤ limits.lowWater then
    { s with protocolPaused := false }.callProtocol .resumeWriting s.stack
  else
    s

def append (limits : Limits Datagram) (s : State Datagram)
    (datagram : Datagram) : State Datagram :=
  { s with
    buffer := s.buffer ++ [datagram]
    bufferSize := s.bufferSize + limits.size datagram
    accepted := s.accepted ++ [datagram] }.maybePauseProtocol limits

def createWriter (s : State Datagram) : State Datagram :=
  if s.writer.pc = .absent then
    { s with writer := ⟨.fresh, false⟩, ready := s.ready ++ [.writer] }
  else
    s

def popleft (limits : Limits Datagram) (s : State Datagram) (datagram : Datagram)
    (later : List Datagram) (outcome : Handled Datagram) : State Datagram :=
  { s with
    buffer := later
    bufferSize := s.bufferSize - limits.size datagram
    handled := s.handled ++ [outcome] }

/-- A closed socket fails every operation. -/
def answers (s : State Datagram) (reply : SocketReply) : Bool :=
  !s.socketClosed || decide (reply = .failed)

def sendto (limits : Limits Datagram) (s : State Datagram) (datagram : Datagram)
    (reply : SocketReply) : Option (State Datagram) :=
  match s.buffer with
  | _ :: _ => some (s.append limits datagram)
  | [] =>
    if s.answers reply then
      match reply with
      | .done =>
        some { s with
          accepted := s.accepted ++ [datagram]
          handled := s.handled ++ [.sent datagram] }
      | .wouldBlock => some (s.createWriter.append limits datagram)
      | .failed =>
        some ({ s with
          accepted := s.accepted ++ [datagram]
          handled := s.handled ++ [Handled.reported datagram] }.callProtocol
            .errorReceived s.stack)
    else
      none

def close (s : State Datagram) : State Datagram :=
  if s.closing then
    s
  else
    let s := { s with closing := true }.cancelReader
    if s.buffer.isEmpty then
      { s with ready := s.ready ++ [.callConnectionLost] }
    else
      s

/-- `_force_close`. -/
def abort (s : State Datagram) : State Datagram :=
  if s.connLost then
    s
  else
    ({ s with
      buffer := []
      bufferSize := 0
      closing := true }.cancelReader.cancelWriter).callConnectionLost
      s.stack

/-! ## Steps -/

/-- The loop runs the next scheduled callback. A task that was cancelled before
it started ends without running its body. -/
def runItem (s : State Datagram) : Item → State Datagram
  | .reader =>
    match s.reader.pc with
    | .fresh =>
      if s.reader.mustCancel then s.finishReader
      else
        { s with reader := ⟨.running, false⟩, stack := [.readLoop] }
    | .woken =>
      if s.reader.mustCancel then s.finishReader
      else
        { s with reader := ⟨.running, false⟩, stack := [.recvfrom] }
    | _ => s
  | .writer =>
    match s.writer.pc with
    | .fresh =>
      if s.writer.mustCancel then
        { s with writer := ⟨.finished, false⟩ }
      else
        { s with writer := ⟨.running, false⟩, stack := [.flushLoop] }
    | .woken =>
      { s with
        writer := ⟨.running, false⟩
        stack := [if s.writer.mustCancel then .flushEnd else .flushLoop] }
    | _ => s
  | .connectionMade => s.callProtocol .connectionMade []
  | .callConnectionLost => s.callConnectionLost []

/-- One turn of `_read_loop` up to its receive. -/
def stepReadLoop (s : State Datagram) (rest : List Frame) : State Datagram :=
  if s.closing then { s.finishReader with stack := rest }
  else { s with stack := .recvfrom :: rest }

def stepRecvfrom (s : State Datagram) (rest : List Frame) : SocketReply → State Datagram
  | .done => s.callProtocol .datagramReceived (.readLoop :: rest)
  | .failed => s.callProtocol .errorReceived (.readLoop :: rest)
  | .wouldBlock =>
    { s with
      reader := (s.reader.suspend .reader).1
      ready := s.ready ++ (s.reader.suspend .reader).2
      stack := rest }

/-- One turn of the loop of `_flush_write_buffer`. -/
def stepFlushLoop (limits : Limits Datagram) (s : State Datagram) (rest : List Frame)
    (reply : SocketReply) : Option (State Datagram) :=
  match s.buffer with
  | [] => some { s with stack := .flushEnd :: rest }
  | datagram :: later =>
    if s.answers reply then
      match reply with
      | .done =>
        some ((s.popleft limits datagram later (.sent datagram)).maybeResumeProtocol limits)
      | .wouldBlock =>
        some { s with
          writer := (s.writer.suspend .writer).1
          ready := s.ready ++ (s.writer.suspend .writer).2
          stack := rest }
      | .failed =>
        some ((s.popleft limits datagram later
          (.reported datagram)).callProtocol .errorReceived s.stack)
    else
      none

/-- The `finally` of `_flush_write_buffer`. -/
def stepFlushEnd (s : State Datagram) (rest : List Frame) : State Datagram :=
  let s := { s with writer := ⟨.absent, false⟩ }
  if s.closing && s.buffer.isEmpty then s.callConnectionLost rest
  else { s with stack := rest }

def resume (limits : Limits Datagram) (s : State Datagram)
    (reply : SocketReply) : Option (State Datagram) :=
  match s.stack with
  | .readLoop :: rest => some (s.stepReadLoop rest)
  | .recvfrom :: rest => some (s.stepRecvfrom rest reply)
  | .flushLoop :: rest => s.stepFlushLoop limits rest reply
  | .flushEnd :: rest => some (s.stepFlushEnd rest)
  | .closeSocket :: rest => some { s with socketClosed := true, stack := rest }
  | .running _ :: _ | [] => none

/-- A protocol method has raised: the task that called it ends. Every other
caller passes the exception on. -/
def unwind (s : State Datagram) (rest : List Frame) : State Datagram :=
  match rest with
  | .readLoop :: below => { s.finishReader with stack := below }
  | .flushLoop :: below => { s with stack := .flushEnd :: below }
  | _ => { s with stack := rest }

end State

inductive Action (Datagram : Type) where
  | nextItem
  | resume (reply : SocketReply)
  | callbackEnds (raised : Bool)
  | sendto (datagram : Datagram) (reply : SocketReply)
  | close
  | abort
  | readable
  | writable
  deriving DecidableEq

/-- The application knows the transport from `connection_made` on, and runs in
callbacks of its own and in the protocol's methods. -/
def applicationRuns (s : State Datagram) : Bool :=
  decide (.connectionMade ∈ s.log) &&
    match s.stack with
    | [] | .running _ :: _ => true
    | _ => false

def datagramStep (limits : Limits Datagram) (s : State Datagram) :
    Action Datagram → Option (State Datagram)
  | .nextItem =>
    match s.stack, s.ready with
    | [], item :: ready => some ({ s with ready := ready }.runItem item)
    | _, _ => none
  | .resume reply => s.resume limits reply
  | .callbackEnds raised =>
    match s.stack with
    | .running _ :: rest =>
      some (if raised then s.unwind rest else { s with stack := rest })
    | _ => none
  | .sendto datagram reply =>
    if applicationRuns s then s.sendto limits datagram reply else none
  | .close => if applicationRuns s then some s.close else none
  | .abort => if applicationRuns s then some s.abort else none
  | .readable =>
    if s.reader.pc = .waiting then
      some { s with
        reader := { s.reader with pc := .woken }
        ready := s.ready ++ [.reader] }
    else
      none
  | .writable =>
    if s.writer.pc = .waiting then
      some { s with
        writer := { s.writer with pc := .woken }
        ready := s.ready ++ [.writer] }
    else
      none

end Rsloop.Datagram
