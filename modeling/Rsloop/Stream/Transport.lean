import Rsloop.Stream.WriteBuffers

/-!
# The state of a stream transport's write path

The loop thread runs `write`, `writelines`, `close`, `abort`, `write_eof`,
scheduled flushes and event deliveries. What it still has to do is a stack of
frames, so that a protocol callback can call back into the transport in the
middle of an operation. The writer worker is a program counter. A frame or a
worker position stands for one atomic step.

The staged buffer, `direct_write_scheduled`, the closing flag and the small-write
counters are touched by the loop thread only, so a step may read them together
with one access to something the two threads share.
-/

namespace Rsloop.Stream

/-! ## Read events that carry no data -/

inductive ReadEventKind where
  | data
  | eof
  | lost
  | pause
  | resume
  deriving DecidableEq, Repr

inductive ReadEventState where
  | opened
  | eof
  | lost
  deriving DecidableEq, Repr

/-- The gate in front of the pending read queue. -/
def transitionReadEventState
    (s : ReadEventState) (kind : ReadEventKind) : Option ReadEventState :=
  match kind with
  | .data => if s = .opened then some .opened else none
  | .eof => if s = .opened then some .eof else none
  | .lost => if s = .lost then none else some .lost
  | .pause | .resume => if s = .lost then none else some s

/-! ## Frames, worker positions and the state -/

/-- What the constructor of a transport fixes. -/
structure TransportConfig where
  directWriter : Bool
  coalesceSmallWrites : Bool
  writable : Bool
  canWriteEof : Bool
  closeOnWriteEof : Bool
  maxWriteBufferSize : Nat
  deriving DecidableEq, Repr

/-- A TCP or Unix socket transport: direct writes, a lazy writer worker. -/
def socketConfig (coalesceSmallWrites : Bool) : TransportConfig where
  directWriter := true
  coalesceSmallWrites := coalesceSmallWrites
  writable := true
  canWriteEof := true
  closeOnWriteEof := false
  maxWriteBufferSize := defaultMaxWriteBufferSize

inductive ProtocolCallback where
  | pauseWriting
  | resumeWriting
  | eofReceived
  | connectionLost
  deriving DecidableEq, Repr

inductive FlowSignal where
  | pause
  | resume
  deriving DecidableEq, Repr

/-- What goes to the writer queue in one critical section. -/
inductive Publication (Byte : Type) where
  | one (data : OwnedWriteBuffer Byte)
  | batch (buffers : List (OwnedWriteBuffer Byte))
  deriving DecidableEq

/-- Publishing takes up to three steps: raise the backpressure flag, start the
lazy worker, push. -/
inductive PublishPhase where
  | activate
  | ensureWorker
  | send
  deriving DecidableEq, Repr

/-- Operations that only change the state. -/
inductive Operation (Byte : Type) where
  | setClosing
  | markWriteEof
  | shutdownDirectWriter
  | sendControl (cmd : WriterCommand Byte)
  | enqueueConnectionLost
  | releaseProtocol
  | clearBackpressure
  | dropPendingDirectWrite
  | clearWriteBuffer
  deriving DecidableEq

/-- One atomic step the loop thread still has to take. -/
inductive Frame (Byte : Type) where
  | tryWriteBytes (data : List Byte)
  | tryWriteBytesWithStatus (data : List Byte) (backpressureActive : Bool)
  | tryDirectWrite (data : OwnedWriteBuffer Byte)
  | activateQueueWrite (data : OwnedWriteBuffer Byte)
  | queueWrite (data : OwnedWriteBuffer Byte)
  | publish (phase : PublishPhase) (what : Publication Byte) (pauses : Bool)
  | stageDirectWriteBuffer (data : OwnedWriteBuffer Byte)
  | stageOwnedBuffer (data : OwnedWriteBuffer Byte) (pauses : Bool)
  | scheduleFlush
  | notifyPauseWriting
  | notifyResumeWriting
  | protocolCall (cb : ProtocolCallback)
  | running (cb : ProtocolCallback)
  | flushPendingDirectWrite
  | flushDirectWrite (data : OwnedWriteBuffer Byte)
  | recordWriteBufferDrained (len : Nat)
  | tryWriteSegments (segs : List (List Byte))
  | tryDirectWriteVectored (segs : List (List Byte))
  | activateQueueSegments (segs : List (List Byte)) (written : Nat)
  | queueSegments (segs : List (List Byte)) (written : Nat)
  | queueWriteBatch (buffers : List (OwnedWriteBuffer Byte))
  | tryWriteBuffer (data : OwnedWriteBuffer Byte)
  | setWriteBufferLimits (lowWater highWater : Nat)
  | perform (op : Operation Byte)
  | finishClose
  | finishWriteEof
  | discardPendingDirectWrite
  | finishAbort
  | connectionLost
  | failWrite
  deriving DecidableEq

/-- Where the writer worker is in `run_stream_writer`. -/
inductive Worker (Byte : Type) where
  | notStarted
  | receive
  | writing (data : OwnedWriteBuffer Byte) (bufferedLen : Nat)
  | recordDrained (bufferedLen : Nat)
  | notifyResume
  | tryReceive
  | clearOnEmpty
  | clearOnIdle
  | command (command : WriterCommand Byte)
  | reportLost
  | exiting
  | exited
  deriving DecidableEq

structure TransportState (Byte : Type) where
  closing : Bool
  lostCalled : Bool
  writerRegistered : Bool
  writeEofRequested : Bool
  directWriteScheduled : Bool
  pendingDirectWrite : Option (OwnedWriteBuffer Byte)
  writeBuffer : StreamWriteBufferState
  writerQueue : QueueState Byte
  lazyWriter : Bool
  directWriterOpen : Bool
  protocolReleased : Bool
  smallWriteTurn : Option Nat
  smallWritesThisTurn : Nat
  currentTurn : Nat
  flushCommands : Nat
  events : List ReadEventKind
  readEventState : ReadEventState
  onRuntimeThread : Bool
  writeHalfShut : Bool
  stack : List (Frame Byte)
  worker : Worker Byte
  /-- The bytes the socket has taken, in order. -/
  wire : List Byte
  /-- The bytes of all calls that found the transport open and writable. -/
  written : List Byte
  /-- The bytes of calls that the write cap refused, as far as unsent. -/
  refused : List Byte
  /-- The flow-control calls the protocol has received. -/
  signals : List FlowSignal
  deriving DecidableEq

variable {Byte : Type}

/-- A fresh transport. Only sockets start without their worker. -/
def TransportState.new (cfg : TransportConfig) : TransportState Byte where
  closing := false
  lostCalled := false
  writerRegistered := false
  writeEofRequested := false
  directWriteScheduled := false
  pendingDirectWrite := none
  writeBuffer := .new
  writerQueue := .new
  lazyWriter := cfg.directWriter
  directWriterOpen := cfg.directWriter
  protocolReleased := false
  smallWriteTurn := none
  smallWritesThisTurn := 0
  currentTurn := 0
  flushCommands := 0
  events := []
  readEventState := .opened
  onRuntimeThread := true
  writeHalfShut := false
  stack := []
  worker := if cfg.directWriter then .notStarted else .receive
  wire := []
  written := []
  refused := []
  signals := []

end Rsloop.Stream
