import Rsloop.Stream.Transport

/-!
# The loop thread's side of the write path

Direct writes, staging, the hand-over to the writer queue and the closing
operations, one step at a time.
-/

namespace Rsloop.Stream

variable {Byte : Type}

/-- The environment's answer to a step that does input or output, or the way a
protocol callback ends. Steps that need no answer ignore it. -/
inductive Reply where
  | done
  | wrote (count : Nat)
  | wouldBlock
  | failed
  | returned (truthy : Bool)
  | raised
  deriving DecidableEq, Repr

/-- A falsy answer to EOF closes the transport. -/
def closeAfterEof : List (Frame Byte) :=
  [.perform .setClosing, .perform (.sendControl .close), .connectionLost]

namespace TransportState

def writeBackpressureActive (s : TransportState Byte) : Bool :=
  s.writerRegistered

def proceed (s : TransportState Byte) (frames rest : List (Frame Byte)) : TransportState Byte :=
  { s with stack := frames ++ rest }

/-- The lock-protected part of `enqueue_pending_read_event`. -/
def enqueuePendingReadEvent (s : TransportState Byte) (kind : ReadEventKind) :
    TransportState Byte :=
  match transitionReadEventState s.readEventState kind with
  | none => s
  | some next => { s with readEventState := next, events := s.events ++ [kind] }

/-- The first small write of a turn stays direct unless the previous turn with
small writes had several. -/
def shouldCoalesceSmallWrite
    (cfg : TransportConfig) (s : TransportState Byte) (len : Nat) : Bool :=
  cfg.coalesceSmallWrites && isWriteBatchCandidate len &&
    (decide (s.smallWriteTurn = some s.currentTurn) ||
      decide (s.smallWritesThisTurn > 1))

/-- What `should_coalesce_small_write` leaves behind for the next write. -/
def noteSmallWrite (cfg : TransportConfig) (s : TransportState Byte) (len : Nat) :
    TransportState Byte :=
  if cfg.coalesceSmallWrites && isWriteBatchCandidate len then
    { s with
      smallWriteTurn := some s.currentTurn
      smallWritesThisTurn :=
        if s.smallWriteTurn = some s.currentTurn then 2 else 1 }
  else
    s

/-- A synchronous protocol call; a released transport calls Python's `None`,
which fails without reaching the protocol. -/
def callProtocol (s : TransportState Byte) (cb : ProtocolCallback)
    (rest : List (Frame Byte)) : TransportState Byte :=
  if s.protocolReleased then
    match cb with
    | .eofReceived => s.proceed closeAfterEof rest
    | _ => s.proceed [] rest
  else
    let called := s.proceed [.running cb] rest
    match cb with
    | .pauseWriting => { called with signals := s.signals ++ [.pause] }
    | .resumeWriting => { called with signals := s.signals ++ [.resume] }
    | _ => called

end TransportState

/-- The bytes of the segments that a partial vectored write left, one buffer
for each segment that still has some. -/
def unsentBuffers : List (List Byte) → Nat → List (OwnedWriteBuffer Byte)
  | [], _ => []
  | segment :: rest, written =>
    if partly : written < segment.length then
      (OwnedWriteBuffer.fromPython segment).advance written (Nat.le_of_lt partly) ::
        unsentBuffers rest 0
    else
      unsentBuffers rest (written - segment.length)

/-- The same bytes copied into one buffer. -/
def joinUnsent (joined : OwnedWriteBuffer Byte) : List (List Byte) → Nat → OwnedWriteBuffer Byte
  | [], _ => joined
  | segment :: rest, written =>
    joinUnsent (joined.extendFromSlice (segment.drop written)) rest (written - segment.length)

/-- `record_write_buffer_enqueued`, and what follows it: a write over the cap
is refused, any other goes on with the decision whether to pause. -/
def recordWriteBufferEnqueued (cfg : TransportConfig) (s : TransportState Byte)
    (bytes : List Byte) (rest : List (Frame Byte))
    (next : Bool → Frame Byte) : TransportState Byte :=
  match s.writeBuffer.enqueueWriteBuffer bytes.length cfg.maxWriteBufferSize with
  | none => { s with refused := s.refused ++ bytes }.proceed [] rest
  | some (writeBuffer, signal) =>
    { s with writeBuffer := writeBuffer }.proceed
      [next (decide (signal = WriteBufferSignal.pause))] rest

/-- Pushing to the queue; the publication is lost where the worker is gone. -/
def publishTo (queue : QueueState Byte) : Publication Byte → Option (QueueState Byte)
  | .one data => queue.enqueue (.data data)
  | .batch buffers => queue.sendBatch buffers

/-- A socket write of the given bytes that took `count` of them. -/
def TransportState.sent (s : TransportState Byte) (bytes : List Byte) (count : Nat) :
    TransportState Byte :=
  { s with wire := s.wire ++ bytes.take count }

/-- How a direct write of `limit` bytes ends. -/
inductive DirectWrite (limit : Nat) where
  | wrote (count : Nat) (accepted : count ≤ limit)
  | blocked
  | failed

/-- A direct write can succeed only while the direct writer is held and the
write half is open. Interruption and transient backpressure are `blocked`. -/
def tryDirectTaskedWrite (s : TransportState Byte) (limit : Nat) :
    Reply → Option (DirectWrite limit)
  | .wrote count =>
    if accepted : count ≤ limit then
      if s.directWriterOpen && !s.writeHalfShut then
        some (.wrote count accepted)
      else
        none
    else
      none
  | .wouldBlock =>
    if s.directWriterOpen && !s.writeHalfShut then some .blocked
    else none
  | .failed => some .failed
  | _ => none

/-- The write calls' direct attempt: done, queue the rest, or fail. -/
def afterDirectWrite (s : TransportState Byte) (data : OwnedWriteBuffer Byte)
    (rest : List (Frame Byte)) : DirectWrite data.len → TransportState Byte
  | .wrote count accepted =>
    if count = data.len then
      (s.sent data.remaining count).proceed [] rest
    else
      (s.sent data.remaining count).proceed
        [.activateQueueWrite (data.advance count accepted)] rest
  | .blocked => s.proceed [.activateQueueWrite data] rest
  | .failed => s.proceed [.failWrite] rest

/-- The scheduled flush's direct attempt on the staged bytes. -/
def afterFlushDirectWrite (s : TransportState Byte) (data : OwnedWriteBuffer Byte)
    (rest : List (Frame Byte)) : DirectWrite data.len → TransportState Byte
  | .wrote count accepted =>
    if count = data.len then
      (s.sent data.remaining count).proceed [.recordWriteBufferDrained count] rest
    else
      (s.sent data.remaining count).proceed
        [.publish .activate (.one (data.advance count accepted)) false,
          .recordWriteBufferDrained count] rest
  | .blocked => s.proceed [.publish .activate (.one data) false] rest
  | .failed => s.proceed [.failWrite] rest

/-- The bytes a scatter/gather attempt offers: at most sixteen segments. -/
def vectoredLimit (segs : List (List Byte)) : Nat :=
  (segs.take writeBatchSegments).flatten.length

def afterDirectWriteVectored (s : TransportState Byte) (segs : List (List Byte))
    (rest : List (Frame Byte)) :
    DirectWrite (vectoredLimit segs) → TransportState Byte
  | .wrote count _ =>
    if count = segs.flatten.length then
      (s.sent segs.flatten count).proceed [] rest
    else
      (s.sent segs.flatten count).proceed [.activateQueueSegments segs count] rest
  | .blocked => s.proceed [.activateQueueSegments segs 0] rest
  | .failed => s.proceed [.failWrite] rest

def signalFrames : WriteBufferSignal → List (Frame Byte)
  | .none => []
  | .pause => [.notifyPauseWriting]
  | .resume => [.notifyResumeWriting]

/-- `notify_pause_writing` and `notify_resume_writing`: a call inside a run of
the loop, an event outside of one. -/
def stepNotify (s : TransportState Byte) (cb : ProtocolCallback)
    (kind : ReadEventKind) (rest : List (Frame Byte)) : TransportState Byte :=
  if s.onRuntimeThread then
    s.proceed [.protocolCall cb] rest
  else
    (s.enqueuePendingReadEvent kind).proceed [] rest

/-- `ensure_writer_worker` hands the receiver to a new worker. A worker that
cannot be started drops the receiver. -/
def stepEnsureWriterWorker (s : TransportState Byte) (what : Publication Byte)
    (pauses : Bool) (rest : List (Frame Byte)) (reply : Reply) : TransportState Byte :=
  if s.lazyWriter then
    if reply = .failed then
      { s with
        lazyWriter := false
        writerQueue := { s.writerQueue with receiverAlive := false }
      }.proceed [.failWrite, .publish .send what pauses] rest
    else
      { s with lazyWriter := false, worker := .receive }.proceed
        [.publish .send what pauses] rest
  else
    s.proceed [.publish .send what pauses] rest

/-- Operations that finish in one step. A control command to a worker that is
gone is dropped. -/
def performOperation (s : TransportState Byte) : Operation Byte → TransportState Byte
  | .setClosing => { s with closing := true }
  | .markWriteEof => { s with writeEofRequested := true }
  | .shutdownDirectWriter =>
    { s with writeHalfShut := s.writeHalfShut || s.directWriterOpen }
  | .sendControl cmd =>
    { s with
      writerQueue := (s.writerQueue.enqueue cmd).getD s.writerQueue }
  | .enqueueConnectionLost => s.enqueuePendingReadEvent .lost
  | .releaseProtocol => { s with directWriterOpen := false, protocolReleased := true }
  | .clearBackpressure => { s with writerRegistered := false }
  | .dropPendingDirectWrite =>
    { s with pendingDirectWrite := none, directWriteScheduled := false }
  | .clearWriteBuffer =>
    { s with writeBuffer := (s.writeBuffer.clearWriteBufferState false).1 }

/-- What follows the end of a protocol callback. Failures are reported, and a
failing `eof_received` loses the connection. -/
def afterCallback : ProtocolCallback → Reply → Option (List (Frame Byte))
  | .eofReceived, .returned true => some []
  | .eofReceived, .returned false => some closeAfterEof
  | .eofReceived, .raised => some [.connectionLost]
  | _, .returned _ | _, .raised => some []
  | _, _ => none

/-- Steps of the loop thread that need no answer from the environment. -/
def advanceFrame (cfg : TransportConfig) (s : TransportState Byte)
    (rest : List (Frame Byte)) : Frame Byte → TransportState Byte
  | .tryWriteBytes data =>
    s.proceed [.tryWriteBytesWithStatus data s.writeBackpressureActive] rest
  | .tryWriteBytesWithStatus data backpressureActive =>
    if cfg.directWriter && !backpressureActive then
      (s.noteSmallWrite cfg data.length).proceed [if s.directWriteScheduled ||
            s.shouldCoalesceSmallWrite cfg data.length then
          .stageDirectWriteBuffer (.fromPython data)
        else
          .tryDirectWrite (.fromPython data)] rest
    else
      s.proceed [.queueWrite (.fromPython data)] rest
  | .activateQueueWrite data =>
    { s with writerRegistered := true }.proceed [.queueWrite data] rest
  | .queueWrite data =>
    recordWriteBufferEnqueued cfg s data.remaining rest (.publish .ensureWorker (.one data))
  | .publish .activate what pauses =>
    { s with writerRegistered := true }.proceed [.publish .ensureWorker what pauses] rest
  | .publish .send what pauses =>
    match publishTo s.writerQueue what with
    | none => s.proceed [.perform .clearWriteBuffer, .failWrite] rest
    | some queue =>
      { s with writerQueue := queue }.proceed
        (if pauses then [.notifyPauseWriting] else []) rest
  | .stageDirectWriteBuffer data =>
    if data.isEmpty then
      s.proceed [] rest
    else
      recordWriteBufferEnqueued cfg s data.remaining rest (.stageOwnedBuffer data)
  | .stageOwnedBuffer data pauses =>
    { s with
      pendingDirectWrite := some (match s.pendingDirectWrite with
        | some buf => buf.extendFromSlice data.remaining
        | none => data) }.proceed
      (if pauses then [.notifyPauseWriting, .scheduleFlush]
        else [.scheduleFlush]) rest
  | .scheduleFlush =>
    { s with
      directWriteScheduled := true
      flushCommands :=
        if s.directWriteScheduled then s.flushCommands
        else s.flushCommands + 1 }.proceed [] rest
  | .notifyPauseWriting => stepNotify s .pauseWriting .pause rest
  | .notifyResumeWriting => stepNotify s .resumeWriting .resume rest
  | .protocolCall cb => s.callProtocol cb rest
  | .flushPendingDirectWrite =>
    match s.pendingDirectWrite with
    | none => { s with directWriteScheduled := false }.proceed [] rest
    | some data =>
      { s with directWriteScheduled := false, pendingDirectWrite := none }.proceed
        [if s.closing then .recordWriteBufferDrained data.len
          else .flushDirectWrite data] rest
  | .recordWriteBufferDrained len =>
    if len = 0 then
      s.proceed [] rest
    else
      { s with writeBuffer := (s.writeBuffer.drainWriteBuffer len).1 }.proceed
        (signalFrames (s.writeBuffer.drainWriteBuffer len).2) rest
  | .tryWriteSegments segs =>
    if segs.flatten.length = 0 then
      s.proceed [] rest
    else
      s.proceed [match segs with
        | [segment] => .tryWriteBytes segment
        | _ =>
          if decide (segs.flatten.length > smallWriteCoalesceMaxBytes) &&
              cfg.directWriter && !s.writeBackpressureActive &&
              !s.directWriteScheduled then
            .tryDirectWriteVectored segs
          else
            .queueSegments segs 0] rest
  | .activateQueueSegments segs written =>
    { s with writerRegistered := true }.proceed [.queueSegments segs written] rest
  | .queueSegments segs written =>
    s.proceed [if decide (segs.flatten.length - written > defaultWriteBufferHighWater) &&
          decide (segs.length ≤ writeBatchSegments) &&
          !s.directWriteScheduled then
        .queueWriteBatch (unsentBuffers segs written)
      else
        .tryWriteBuffer (joinUnsent .withPooledCapacity segs written)]
      rest
  | .queueWriteBatch buffers =>
    recordWriteBufferEnqueued cfg s (buffers.flatMap OwnedWriteBuffer.remaining) rest
      (.publish .activate (.batch buffers))
  | .tryWriteBuffer data =>
    if data.isEmpty then
      s.proceed [] rest
    else
      s.proceed [if cfg.directWriter && !s.writeBackpressureActive then
          if s.directWriteScheduled || (cfg.coalesceSmallWrites &&
                isWriteBatchCandidate data.len) then
            .stageDirectWriteBuffer data
          else
            .tryDirectWrite data
        else
          .queueWrite data] rest
  | .setWriteBufferLimits lowWater highWater =>
    { s with
      writeBuffer := (s.writeBuffer.reconcileWriteBufferLimits lowWater highWater).1
      }.proceed
      (signalFrames (s.writeBuffer.reconcileWriteBufferLimits lowWater highWater).2)
      rest
  | .perform op => (performOperation s op).proceed [] rest
  | .finishClose =>
    s.proceed (if cfg.directWriter && s.lazyWriter then
        [.perform .shutdownDirectWriter, .perform (.sendControl .stop),
          .perform .enqueueConnectionLost]
      else
        [.perform (.sendControl .close)]) rest
  | .finishWriteEof =>
    s.proceed (if cfg.directWriter && s.lazyWriter then
        if cfg.closeOnWriteEof then
          [.perform .shutdownDirectWriter, .perform .enqueueConnectionLost]
        else
          [.perform .shutdownDirectWriter]
      else
        [.perform (.sendControl .writeEof)]) rest
  | .discardPendingDirectWrite =>
    { s with directWriteScheduled := false, pendingDirectWrite := none }.proceed
      [.recordWriteBufferDrained (match s.pendingDirectWrite with
        | none => 0
        | some data => data.len)] rest
  | .finishAbort =>
    s.proceed (if cfg.directWriter then
        [.perform .shutdownDirectWriter, .perform (.sendControl .abort),
          .perform .enqueueConnectionLost]
      else
        [.perform (.sendControl .abort)]) rest
  | .connectionLost =>
    if s.lostCalled then
      s.proceed [] rest
    else
      { s with
        lostCalled := true
        closing := true
        writeBuffer := { s.writeBuffer with size := 0, protocolPaused := false }
        }.proceed
        [.protocolCall .connectionLost, .perform .releaseProtocol] rest
  | .failWrite =>
    if s.closing then
      s.proceed [] rest
    else
      s.proceed [.perform .enqueueConnectionLost, .perform .setClosing,
          .perform .clearBackpressure, .perform .dropPendingDirectWrite,
          .perform .clearWriteBuffer, .perform (.sendControl .stop)] rest
  -- The frames below take an answer; `stepFrame` handles them.
  | .tryDirectWrite _ | .publish .ensureWorker _ _ | .running _ | .flushDirectWrite _
  | .tryDirectWriteVectored _ => s

/-- One step of the loop thread, with the given frame on top of `rest`. -/
def stepFrame (cfg : TransportConfig) (s : TransportState Byte)
    (rest : List (Frame Byte)) (reply : Reply) :
    Frame Byte → Option (TransportState Byte)
  | .tryDirectWrite data =>
    (tryDirectTaskedWrite s data.len reply).map (afterDirectWrite s data rest)
  | .publish .ensureWorker what pauses =>
    some (stepEnsureWriterWorker s what pauses rest reply)
  | .running cb =>
    (afterCallback cb reply).map fun frames =>
      s.proceed frames rest
  | .flushDirectWrite data =>
    (tryDirectTaskedWrite s data.len reply).map (afterFlushDirectWrite s data rest)
  | .tryDirectWriteVectored segs =>
    (tryDirectTaskedWrite s (vectoredLimit segs) reply).map
      (afterDirectWriteVectored s segs rest)
  | frame => some (advanceFrame cfg s rest frame)

end Rsloop.Stream
