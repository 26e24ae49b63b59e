import Rsloop.Stream.CoreWrite
import Rsloop.Transition

/-!
# The writer worker and the transport as a whole

The worker's loop over the writer queue, the methods the application calls,
and the step function of the transport with both threads.
-/

namespace Rsloop.Stream

variable {Byte : Type}

/-! ## The writer worker -/

/-- Take the next command: `none` where the queue is empty. -/
def TransportState.dequeued (s : TransportState Byte) : Option (TransportState Byte) :=
  match s.writerQueue.tryDequeue with
  | none => none
  | some (.data data, queue) =>
    some { s with writerQueue := queue, worker := .writing data data.len }
  | some (cmd, queue) => some { s with writerQueue := queue, worker := .command cmd }

/-- `write_all_owned`: any positive prefix, a retry, or an error. A write half
that was shut down takes nothing more. -/
def stepWorkerWriting (s : TransportState Byte) (data : OwnedWriteBuffer Byte)
    (bufferedLen : Nat) (reply : Reply) : Option (TransportState Byte) :=
  if data.isEmpty then
    some { s with worker := .recordDrained bufferedLen }
  else
    match reply with
    | .wrote count =>
      if accepted : count ≤ data.len then
        if 0 < count ∧ s.writeHalfShut = false then
          some { s.sent data.remaining count with
            worker := .writing (data.advance count accepted) bufferedLen }
        else
          none
      else
        none
    | .wouldBlock => some s
    | .failed => some { s with worker := .reportLost }
    | _ => none

def stepWorker (cfg : TransportConfig) (s : TransportState Byte) (reply : Reply) :
    Option (TransportState Byte) :=
  match s.worker with
  | .notStarted => none
  | .receive => s.dequeued
  | .writing data bufferedLen => stepWorkerWriting s data bufferedLen reply
  | .recordDrained bufferedLen =>
    if bufferedLen = 0 then
      some { s with worker := .tryReceive }
    else
      let (writeBuffer, signal) :=
        s.writeBuffer.drainWriteBuffer bufferedLen
      some { s with
        writeBuffer := writeBuffer
        worker := if signal = .resume then .notifyResume else .tryReceive }
  | .notifyResume => some { s.enqueuePendingReadEvent .resume with worker := .tryReceive }
  | .tryReceive =>
    match s.dequeued with
    | none => some { s with worker := .clearOnEmpty }
    | some next => some next
  | .clearOnEmpty => some { s with writerRegistered := false, worker := .clearOnIdle }
  | .clearOnIdle => some { s with writerRegistered := false, worker := .receive }
  | .command .writeEof =>
    some { s with
      writeHalfShut := true
      worker := if cfg.closeOnWriteEof then .reportLost else .receive }
  | .command .close
  | .command .abort => some { s with writeHalfShut := true, worker := .reportLost }
  | .command .stop => some { s with worker := .exiting }
  | .command (.data _) => none
  | .reportLost => some { s.enqueuePendingReadEvent .lost with worker := .exiting }
  | .exiting =>
    some { s with
      writerQueue := { s.writerQueue with receiverAlive := false }
      worker := .exited }
  | .exited => none

/-! ## Methods and interleavings -/

inductive Action (Byte : Type) where
  | write (data : List Byte) (exactBytes : Bool)
  | writelines (segs : List (List Byte))
  | close
  | abort
  | writeEof
  | setWriteBufferLimits (high low : Option Nat)
  | flush
  | drainEvent
  | peerEof
  | nextTurn
  | enterRun
  | leaveRun
  | loop (reply : Reply)
  | worker (reply : Reply)
  deriving DecidableEq

/-- Application code runs on the loop thread between operations and inside
protocol callbacks. -/
def applicationRuns : List (Frame Byte) → Bool
  | [] | .running _ :: _ => true
  | _ => false

/-- Start a method of the transport on top of what is already running. -/
def TransportState.call (s : TransportState Byte) (frames : List (Frame Byte)) :
    Option (TransportState Byte) :=
  if applicationRuns s.stack then some (s.proceed frames s.stack) else none

/-- `write` and `writelines` return at once on a closing transport and raise on
one that is not writable. -/
def TransportState.callWrite (cfg : TransportConfig) (s : TransportState Byte)
    (bytes : List Byte) (frames : List (Frame Byte)) : Option (TransportState Byte) :=
  if s.closing || !cfg.writable then
    s.call []
  else
    { s with written := s.written ++ bytes }.call frames

/-- Start the delivery of an event that the loop thread has popped. -/
def deliveryFrames : ReadEventKind → List (Frame Byte)
  | .data => []
  | .eof => [.protocolCall .eofReceived]
  | .lost => [.connectionLost]
  | .pause => [.protocolCall .pauseWriting]
  | .resume => [.protocolCall .resumeWriting]

def step (cfg : TransportConfig) (s : TransportState Byte) :
    Action Byte → Option (TransportState Byte)
  | .write data exactBytes =>
    s.callWrite cfg data (if exactBytes then
        [.tryWriteBytesWithStatus data s.writeBackpressureActive]
      else
        [.tryWriteBytes data])
  | .writelines segs =>
    let segs := segs.filter fun segment => !segment.isEmpty
    s.callWrite cfg segs.flatten [.tryWriteSegments segs]
  | .close => s.call [.flushPendingDirectWrite, .perform .setClosing, .finishClose]
  | .abort => s.call [.discardPendingDirectWrite, .perform .setClosing, .finishAbort]
  | .writeEof =>
    if cfg.canWriteEof then
      s.call [.flushPendingDirectWrite, .perform .markWriteEof, .finishWriteEof]
    else
      s.call []
  | .setWriteBufferLimits high low =>
    match StreamWriteBufferState.normalizeWriteBufferLimits high low with
    | none => s.call []
    | some (lowWater, highWater) => s.call [.setWriteBufferLimits lowWater highWater]
  | .flush =>
    if s.stack = [] ∧ s.onRuntimeThread ∧ 0 < s.flushCommands then
      some { s with
        flushCommands := s.flushCommands - 1
        stack := [.flushPendingDirectWrite] }
    else
      none
  | .drainEvent =>
    if s.stack = [] ∧ s.onRuntimeThread then
      match s.events with
      | [] => none
      | kind :: rest => some { s with events := rest, stack := deliveryFrames kind }
    else
      none
  | .peerEof => some (s.enqueuePendingReadEvent .eof)
  | .nextTurn =>
    if s.stack = [] then some { s with currentTurn := s.currentTurn + 1 } else none
  | .enterRun =>
    if s.stack = [] then some { s with onRuntimeThread := true }
    else none
  | .leaveRun =>
    if s.stack = [] then some { s with onRuntimeThread := false }
    else none
  | .loop reply =>
    match s.stack with
    | [] => none
    | frame :: rest => stepFrame cfg s rest reply frame
  | .worker reply => stepWorker cfg s reply

end Rsloop.Stream
