import Rsloop.Stream.OpenTransport

/-!
# The steps of an open transport

What a step of a transport that stays open can do, said once: which frames
follow the one on top, where the worker goes, and what a method starts. The
invariants of open transports are proved by cases on these relations.
-/

namespace Rsloop.Stream

open List TransportState

variable {Byte : Type}

/-! ## The loop thread -/

/-- Frames that only choose the way of the bytes in hand, with what the choice
rests on. A blocked direct write hands its bytes on in the same way. -/
inductive Routes (cfg : TransportConfig) (s : TransportState Byte) :
    Frame Byte → Frame Byte → Prop where
  | status (data : List Byte) : Routes cfg s (.tryWriteBytes data)
        (.tryWriteBytesWithStatus data s.writeBackpressureActive)
  | stageBytes (data : List Byte) (active : Bool)
      (direct : (cfg.directWriter && !active)) :
      Routes cfg s (.tryWriteBytesWithStatus data active)
        (.stageDirectWriteBuffer (.fromPython data))
  | sendBytes (data : List Byte) (active : Bool)
      (direct : (cfg.directWriter && !active))
      (unscheduled : s.directWriteScheduled = false)
      (apart : s.shouldCoalesceSmallWrite cfg data.length = false) :
      Routes cfg s (.tryWriteBytesWithStatus data active)
        (.tryDirectWrite (.fromPython data))
  | queueBytes (data : List Byte) (active : Bool)
      (queues : (cfg.directWriter && !active) = false) :
      Routes cfg s (.tryWriteBytesWithStatus data active) (.queueWrite (.fromPython data))
  | single (segment : List Byte) :
      Routes cfg s (.tryWriteSegments [segment]) (.tryWriteBytes segment)
  | gather (segs : List (List Byte)) (several : ∀ segment, segs ≠ [segment])
      (long : segs.flatten.length > smallWriteCoalesceMaxBytes)
      (direct : (cfg.directWriter && !s.writeBackpressureActive))
      (unscheduled : s.directWriteScheduled = false) :
      Routes cfg s (.tryWriteSegments segs) (.tryDirectWriteVectored segs)
  | join (segs : List (List Byte)) (several : ∀ segment, segs ≠ [segment]) :
      Routes cfg s (.tryWriteSegments segs) (.queueSegments segs 0)
  | batch (segs : List (List Byte)) (written : Nat)
      (long : segs.flatten.length - written > defaultWriteBufferHighWater)
      (unscheduled : s.directWriteScheduled = false) :
      Routes cfg s (.queueSegments segs written)
        (.queueWriteBatch (unsentBuffers segs written))
  | copy (segs : List (List Byte)) (written : Nat) :
      Routes cfg s (.queueSegments segs written)
        (.tryWriteBuffer (joinUnsent .withPooledCapacity segs written))
  | stageBuffer (data : OwnedWriteBuffer Byte) (direct :
        (cfg.directWriter && !s.writeBackpressureActive)) :
      Routes cfg s (.tryWriteBuffer data) (.stageDirectWriteBuffer data)
  | sendBuffer (data : OwnedWriteBuffer Byte) (direct :
        (cfg.directWriter && !s.writeBackpressureActive))
      (unscheduled : s.directWriteScheduled = false)
      (apart : (cfg.coalesceSmallWrites && isWriteBatchCandidate data.len) = false) :
      Routes cfg s (.tryWriteBuffer data) (.tryDirectWrite data)
  | queueBuffer (data : OwnedWriteBuffer Byte) (queues :
        (cfg.directWriter && !s.writeBackpressureActive) = false) :
      Routes cfg s (.tryWriteBuffer data) (.queueWrite data)
  | blockedWrite (data : OwnedWriteBuffer Byte) :
      Routes cfg s (.tryDirectWrite data) (.activateQueueWrite data)
  | blockedFlush (data : OwnedWriteBuffer Byte) : Routes cfg s (.flushDirectWrite data)
        (.publish .activate (.one data) false)
  | blockedGather (segs : List (List Byte)) :
      Routes cfg s (.tryDirectWriteVectored segs) (.activateQueueSegments segs 0)

/-- Frames that may return with nothing done -/
inductive Finishes : Frame Byte → Prop where
  | stage (data : OwnedWriteBuffer Byte) (empty : data.remaining = []) :
      Finishes (.stageDirectWriteBuffer data)
  | segments (segments : List (List Byte)) (empty : segments.flatten = []) :
      Finishes (.tryWriteSegments segments)
  | buffer (data : OwnedWriteBuffer Byte) (empty : data.remaining = []) :
      Finishes (.tryWriteBuffer data)
  | drained : Finishes (.recordWriteBufferDrained 0)
  | callback (callback : ProtocolCallback) : Finishes (.running callback)

/-- Frames that count their bytes in, and the frame that then holds them. -/
inductive Records : Frame Byte → (Bool → Frame Byte) → Prop where
  | queue (data : OwnedWriteBuffer Byte) :
      Records (.queueWrite data) (.publish .ensureWorker (.one data))
  | stage (data : OwnedWriteBuffer Byte) :
      Records (.stageDirectWriteBuffer data) (.stageOwnedBuffer data)
  | batch (buffers : List (OwnedWriteBuffer Byte)) :
      Records (.queueWriteBatch buffers) (.publish .activate (.batch buffers))

/-- Frames that count bytes out or set new limits, and what they decide. -/
inductive Decides (s : TransportState Byte) :
    Frame Byte → StreamWriteBufferState → WriteBufferSignal → Prop where
  | drain (len : Nat) (nonzero : len ≠ 0) : Decides s (.recordWriteBufferDrained len)
        (s.writeBuffer.drainWriteBuffer len).1
        (s.writeBuffer.drainWriteBuffer len).2
  | limits (lowWater highWater : Nat) : Decides s (.setWriteBufferLimits lowWater highWater)
        (s.writeBuffer.reconcileWriteBufferLimits lowWater highWater).1
        (s.writeBuffer.reconcileWriteBufferLimits lowWater highWater).2

inductive Activates : Frame Byte → Frame Byte → Prop where
  | one (data : OwnedWriteBuffer Byte) : Activates (.activateQueueWrite data) (.queueWrite data)
  | segments (segments : List (List Byte)) (written : Nat) :
      Activates (.activateQueueSegments segments written) (.queueSegments segments written)
  | publication (what : Publication Byte) (pauses : Bool) :
      Activates (.publish .activate what pauses) (.publish .ensureWorker what pauses)

/-- The frame, the callback and the event of a flow-control decision. -/
inductive Announcement : Frame Byte → ProtocolCallback → ReadEventKind → FlowSignal → Prop where
  | pause : Announcement .notifyPauseWriting .pauseWriting .pause .pause
  | resume : Announcement .notifyResumeWriting .resumeWriting .resume .resume

variable {cb : ProtocolCallback} {kind : ReadEventKind} {signal : FlowSignal}

theorem Announcement.flow {frame : Frame Byte}
    (announcement : Announcement frame cb kind signal) :
    kind = .pause ∨ kind = .resume := by
  cases announcement with
  | pause => exact .inl rfl
  | resume => exact .inr rfl

/-- A direct write that took `count` bytes, and the frames for the others. -/
inductive Sends : Frame Byte → Nat → List (Frame Byte) → Prop where
  | write (data : OwnedWriteBuffer Byte) : Sends (.tryDirectWrite data) data.len []
  | writePart (data : OwnedWriteBuffer Byte) (count : Nat) (accepted : count ≤ data.len) :
      Sends (.tryDirectWrite data) count [.activateQueueWrite (data.advance count accepted)]
  | flush (data : OwnedWriteBuffer Byte) : Sends (.flushDirectWrite data) data.len
        [.recordWriteBufferDrained data.len]
  | flushPart (data : OwnedWriteBuffer Byte) (count : Nat) (accepted : count ≤ data.len) :
      Sends (.flushDirectWrite data) count
        [.publish .activate (.one (data.advance count accepted)) false,
          .recordWriteBufferDrained count]
  | gather (segs : List (List Byte)) :
      Sends (.tryDirectWriteVectored segs) segs.flatten.length []
  | gatherPart (segs : List (List Byte)) (count : Nat) :
      Sends (.tryDirectWriteVectored segs) count [.activateQueueSegments segs count]

/-- One step of the loop thread with the given frame on top of `rest`. Only
`try_write_bytes_with_status` takes note of small writes. -/
inductive FrameMove (config : TransportConfig) (s : TransportState Byte)
    (rest : List (Frame Byte)) : Frame Byte → TransportState Byte → Prop where
  | routed {frame new : Frame Byte} {turn : Option Nat} {count : Nat}
      (noting : turn = s.smallWriteTurn ∧ count = s.smallWritesThisTurn ∨
        ∃ data active, frame = .tryWriteBytesWithStatus data active)
      (routes : Routes config s frame new) :
      FrameMove config s rest frame
        ({ s with smallWriteTurn := turn, smallWritesThisTurn := count }.proceed [new] rest)
  | finished {frame : Frame Byte} (finishes : Finishes frame) :
      FrameMove config s rest frame (s.proceed [] rest)
  | refused {frame : Frame Byte} {next : Bool → Frame Byte} (records : Records frame next)
      (full : s.writeBuffer.enqueueWriteBuffer frame.bytes.length
        config.maxWriteBufferSize = none) :
      FrameMove config s rest frame
        ({ s with refused := s.refused ++ frame.bytes }.proceed [] rest)
  | recorded {frame : Frame Byte} {next : Bool → Frame Byte}
      {writeBuffer : StreamWriteBufferState} {signal : WriteBufferSignal}
      (records : Records frame next)
      (accepted : s.writeBuffer.enqueueWriteBuffer frame.bytes.length
        config.maxWriteBufferSize = some (writeBuffer, signal)) :
      FrameMove config s rest frame
        ({ s with writeBuffer := writeBuffer }.proceed
          [next (decide (signal = WriteBufferSignal.pause))] rest)
  | activated {frame new : Frame Byte} (activates : Activates frame new) :
      FrameMove config s rest frame ({ s with writerRegistered := true }.proceed [new] rest)
  | started (what : Publication Byte) (pauses : Bool) (isLazy : s.lazyWriter) :
      FrameMove config s rest (.publish .ensureWorker what pauses)
        ({ s with lazyWriter := false, worker := .receive }.proceed
          [.publish .send what pauses] rest)
  | running (what : Publication Byte) (pauses : Bool) (notLazy : s.lazyWriter = false) :
      FrameMove config s rest (.publish .ensureWorker what pauses)
        (s.proceed [.publish .send what pauses] rest)
  | published {what : Publication Byte} {queue : QueueState Byte} (pauses : Bool)
      (pushed : publishTo s.writerQueue what = some queue) :
      FrameMove config s rest (.publish .send what pauses)
        ({ s with writerQueue := queue }.proceed
          (if pauses then [.notifyPauseWriting] else []) rest)
  | staged (data : OwnedWriteBuffer Byte) (pauses : Bool) :
      FrameMove config s rest (.stageOwnedBuffer data pauses)
        ({ s with
          pendingDirectWrite := some (match s.pendingDirectWrite with
            | some buf => buf.extendFromSlice data.remaining
            | none => data) }.proceed
          (if pauses then [.notifyPauseWriting, .scheduleFlush]
            else [.scheduleFlush]) rest)
  | scheduled (flushCommands : Nat) : FrameMove config s rest .scheduleFlush
        ({ s with
          directWriteScheduled := true
          flushCommands := flushCommands }.proceed [] rest)
  | calls {frame : Frame Byte} {cb : ProtocolCallback}
      {kind : ReadEventKind} {signal : FlowSignal}
      (announcement : Announcement frame cb kind signal)
      (inRun : s.onRuntimeThread) :
      FrameMove config s rest frame (s.proceed [.protocolCall cb] rest)
  | queues {frame : Frame Byte} {cb : ProtocolCallback}
      {kind : ReadEventKind} {signal : FlowSignal}
      (announcement : Announcement frame cb kind signal)
      (outside : s.onRuntimeThread = false) :
      FrameMove config s rest frame
        ({ s with events := s.events ++ [kind] }.proceed [] rest)
  | called {frame : Frame Byte} {cb : ProtocolCallback}
      {kind : ReadEventKind} {signal : FlowSignal}
      (announcement : Announcement frame cb kind signal) :
      FrameMove config s rest (.protocolCall cb)
        ({ s with signals := s.signals ++ [signal] }.proceed [.running cb] rest)
  | nothingStaged (unstaged : s.pendingDirectWrite = none) :
      FrameMove config s rest .flushPendingDirectWrite
        ({ s with directWriteScheduled := false, pendingDirectWrite := none }.proceed [] rest)
  | flushed (data : OwnedWriteBuffer Byte) (pending : s.pendingDirectWrite = some data) :
      FrameMove config s rest .flushPendingDirectWrite
        ({ s with
          directWriteScheduled := false
          pendingDirectWrite := none }.proceed [.flushDirectWrite data] rest)
  | decided {frame : Frame Byte} {writeBuffer : StreamWriteBufferState}
      {signal : WriteBufferSignal}
      (decides : Decides s frame writeBuffer signal) :
      FrameMove config s rest frame
        ({ s with writeBuffer := writeBuffer }.proceed (signalFrames signal) rest)
  | sent {frame : Frame Byte} {frames : List (Frame Byte)} (count : Nat)
      (sends : Sends frame count frames) :
      FrameMove config s rest frame ((s.sent frame.bytes count).proceed frames rest)

/-- Frames that have bytes in hand, or could have. -/
def Frame.holdsData : Frame Byte → Bool
  | .tryWriteBytes _ | .tryWriteBytesWithStatus _ _ | .tryDirectWrite _ | .activateQueueWrite _
  | .queueWrite _ | .publish _ _ _ | .stageDirectWriteBuffer _ | .stageOwnedBuffer _ _
  | .flushDirectWrite _ | .tryWriteSegments _ | .tryDirectWriteVectored _
  | .activateQueueSegments _ _ | .queueSegments _ _ | .queueWriteBatch _
  | .tryWriteBuffer _ => true
  | _ => false

variable {new : Frame Byte} {cfg : TransportConfig} {s next : TransportState Byte}
  {frame : Frame Byte} {rest : List (Frame Byte)} {reply : Reply}

theorem Routes.bytes_eq (routes : Routes cfg s frame new) :
    new.bytes = frame.bytes := by
  cases routes <;> simp [Frame.bytes, Publication.payload]

theorem Finishes.bytes_eq (finishes : Finishes frame) : frame.bytes = [] := by
  cases finishes <;> first | rfl | assumption

theorem Records.bytes_eq {next : Bool → Frame Byte} {pauses : Bool}
    (records : Records frame next) : (next pauses).bytes = frame.bytes := by
  cases records <;> rfl

theorem Activates.bytes_eq (activates : Activates frame new) :
    new.bytes = frame.bytes := by
  cases activates <;> rfl

theorem Sends.bytes_eq {count : Nat} {frames : List (Frame Byte)}
    (sends : Sends frame count frames) :
    frames.flatMap Frame.bytes = frame.bytes.drop count := by
  cases sends <;> simp [Frame.bytes, Publication.payload, OwnedWriteBuffer.len]

theorem FrameMove.route (routes : Routes cfg s frame new) :
    FrameMove cfg s rest frame (s.proceed [new] rest) :=
  .routed (.inl ⟨rfl, rfl⟩) routes

theorem FrameMove.record {after : Bool → Frame Byte}
    (records : Records frame after) :
    FrameMove cfg s rest frame
      (recordWriteBufferEnqueued cfg s frame.bytes rest after) := by
  obtain ⟨full, equal⟩ | ⟨writeBuffer, signal, accepted, equal⟩ :=
    recordWriteBufferEnqueued_cases cfg s frame.bytes rest after
  · rw [equal]
    exact .refused records full
  · rw [equal]
    exact .recorded records accepted

theorem FrameMove.notify (isOpen : Open s)
    (announcement : Announcement frame cb kind signal) :
    FrameMove cfg s rest frame (stepNotify s cb kind rest) := by
  unfold stepNotify
  rw [(isOpen.enqueueFlowEvent announcement.flow).1]
  split
  next inRun => exact .calls announcement inRun
  next outside => exact .queues announcement (eq_false_of_ne_true outside)

theorem frameMove_tryWriteBytesWithStatus (data : List Byte) (active : Bool) :
    FrameMove cfg s rest (.tryWriteBytesWithStatus data active)
      (advanceFrame cfg s rest (.tryWriteBytesWithStatus data active)) := by
  obtain ⟨turn, count, noted⟩ := noteSmallWrite_eq cfg s data.length
  simp only [advanceFrame]
  split
  next direct =>
    rw [noted]
    split
    next => exact .routed (.inr ⟨_, _, rfl⟩) (.stageBytes data active direct)
    next apart =>
      simp only [Bool.or_eq_true, not_or, Bool.not_eq_true] at apart
      exact .routed (.inr ⟨_, _, rfl⟩) (.sendBytes data active direct apart.1 apart.2)
  next queues =>
    exact .route (.queueBytes data active (eq_false_of_ne_true queues))

theorem frameMove_tryWriteSegments (segs : List (List Byte)) :
    FrameMove cfg s rest (.tryWriteSegments segs)
      (advanceFrame cfg s rest (.tryWriteSegments segs)) := by
  simp only [advanceFrame]
  split
  next empty =>
    exact .finished (.segments _ (eq_nil_of_length_eq_zero empty))
  next =>
    split
    next segment nonempty => exact .route (.single segment)
    next several =>
      split
      next chosen =>
        simp only [Bool.and_eq_true, decide_eq_true_eq, Bool.not_eq_true'] at chosen
        obtain ⟨⟨⟨long, direct⟩, inactive⟩, unscheduled⟩ := chosen
        refine .route (.gather segs several long ?_ unscheduled)
        rw [direct, inactive]
        rfl
      next => exact .route (.join segs several)

theorem frameMove_tryWriteBuffer (data : OwnedWriteBuffer Byte) :
    FrameMove cfg s rest (.tryWriteBuffer data)
      (advanceFrame cfg s rest (.tryWriteBuffer data)) := by
  simp only [advanceFrame]
  split
  next empty => exact .finished (.buffer data (List.isEmpty_iff.mp empty))
  next =>
    split
    next direct =>
      split
      next => exact .route (.stageBuffer data direct)
      next apart =>
        rw [Bool.or_eq_true, not_or, Bool.not_eq_true, Bool.not_eq_true] at apart
        exact .route (.sendBuffer data direct apart.1 apart.2)
    next queues => exact .route (.queueBuffer data (eq_false_of_ne_true queues))

/-- A frame with bytes in hand moves like this also where the transport is
closing; only the worker's queue has to be there. -/
theorem frameMove_of_holdsData (holds : frame.holdsData)
    (answered : reply ≠ .failed)
    (alive : ∀ what pauses, frame = .publish .send what pauses →
      s.writerQueue.receiverAlive)
    (moved : stepFrame cfg s rest reply frame = some next) :
    FrameMove cfg s rest frame next := by
  cases frame with
  | tryWriteBytes data =>
    cases moved
    exact .route (.status data)
  | tryWriteBytesWithStatus data active =>
    cases moved
    exact frameMove_tryWriteBytesWithStatus data active
  | tryDirectWrite data =>
    obtain ⟨result, attempted, rfl⟩ := Option.map_eq_some_iff.mp moved
    cases result with
    | wrote count accepted =>
      simp only [afterDirectWrite]
      split
      next whole =>
        subst whole
        exact .sent _ (.write data)
      next => exact .sent count (.writePart data count accepted)
    | blocked => exact .route (.blockedWrite data)
    | failed => exact absurd attempted (tryDirectTaskedWrite_ne_failed answered)
  | activateQueueWrite data =>
    cases moved
    exact .activated (.one data)
  | queueWrite data =>
    cases moved
    exact .record (.queue data)
  | publish phase what pauses =>
    cases phase with
    | activate =>
      cases moved
      exact .activated (.publication what pauses)
    | ensureWorker =>
      cases moved
      unfold stepEnsureWriterWorker
      split
      next isLazy => exact .started what pauses isLazy
      next notLazy =>
        exact .running what pauses (eq_false_of_ne_true notLazy)
    | send =>
      cases moved
      obtain ⟨queue, pushed⟩ := publishTo_isSome what (alive what pauses rfl)
      simp only [advanceFrame, pushed]
      exact .published pauses pushed
  | stageDirectWriteBuffer data =>
    cases moved
    simp only [advanceFrame]
    split
    next empty => exact .finished (.stage data (List.isEmpty_iff.mp empty))
    next => exact .record (.stage data)
  | stageOwnedBuffer data pauses =>
    cases moved
    exact .staged data pauses
  | flushDirectWrite data =>
    obtain ⟨result, attempted, rfl⟩ := Option.map_eq_some_iff.mp moved
    cases result with
    | wrote count accepted =>
      simp only [afterFlushDirectWrite]
      split
      next whole =>
        subst whole
        exact .sent _ (.flush data)
      next => exact .sent count (.flushPart data count accepted)
    | blocked => exact .route (.blockedFlush data)
    | failed => exact absurd attempted (tryDirectTaskedWrite_ne_failed answered)
  | tryWriteSegments segs =>
    cases moved
    exact frameMove_tryWriteSegments segs
  | tryDirectWriteVectored segs =>
    obtain ⟨result, attempted, rfl⟩ := Option.map_eq_some_iff.mp moved
    cases result with
    | wrote count =>
      simp only [afterDirectWriteVectored]
      split
      next whole =>
        subst whole
        exact .sent _ (.gather segs)
      next => exact .sent count (.gatherPart segs count)
    | blocked => exact .route (.blockedGather segs)
    | failed => exact absurd attempted (tryDirectTaskedWrite_ne_failed answered)
  | activateQueueSegments segs written =>
    cases moved
    exact .activated (.segments segs written)
  | queueSegments segs written =>
    cases moved
    simp only [advanceFrame]
    split
    next chosen =>
      simp only [Bool.and_eq_true, decide_eq_true_eq, Bool.not_eq_true'] at chosen
      exact .route (.batch segs written chosen.1.1 chosen.2)
    next => exact .route (.copy segs written)
  | queueWriteBatch buffers =>
    cases moved
    exact .record (.batch buffers)
  | tryWriteBuffer data =>
    cases moved
    exact frameMove_tryWriteBuffer data
  | _ => cases holds

theorem frameMove_of_stepFrame (isOpen : Open s)
    (stack : s.stack = frame :: rest)
    (answered : reply ≠ .failed)
    (moved : stepFrame cfg s rest reply frame = some next) :
    FrameMove cfg s rest frame next := by
  have keepsOpen : frame.keepsOpen :=
    isOpen.frames frame (by rw [stack]; exact mem_cons_self)
  by_cases holds : frame.holdsData
  · exact frameMove_of_holdsData holds answered (fun _ _ _ => isOpen.receiver) moved
  cases frame with
  | scheduleFlush =>
    cases moved
    exact .scheduled _
  | notifyPauseWriting =>
    cases moved
    exact .notify isOpen .pause
  | notifyResumeWriting =>
    cases moved
    exact .notify isOpen .resume
  | protocolCall cb =>
    cases moved
    simp only [advanceFrame, callProtocol, isOpen.notReleased]
    cases cb with
    | pauseWriting => exact .called .pause
    | resumeWriting => exact .called .resume
    | eofReceived | connectionLost => cases keepsOpen
  | running cb =>
    obtain ⟨frames, returned, rfl⟩ := Option.map_eq_some_iff.mp moved
    have none : frames = [] := by
      cases cb <;> cases reply <;> simp_all [afterCallback, Frame.keepsOpen]
    subst none
    exact .finished (.callback cb)
  | flushPendingDirectWrite =>
    cases moved
    simp only [advanceFrame]
    split
    next unstaged =>
      rw [unstaged]
      exact .nothingStaged unstaged
    next data pending =>
      rw [if_neg (by simp [isOpen.notClosing])]
      exact .flushed data pending
  | recordWriteBufferDrained len =>
    cases moved
    simp only [advanceFrame]
    split
    next zero =>
      subst zero
      exact .finished .drained
    next nonzero => exact .decided (.drain len nonzero)
  | setWriteBufferLimits lowWater highWater =>
    cases moved
    exact .decided (.limits lowWater highWater)
  | _ => first | exact absurd rfl holds | cases keepsOpen

/-! ## The worker -/

/-- Positions of the worker between which nothing else changes. -/
inductive Passes (queue : QueueState Byte) : Worker Byte → Worker Byte → Prop where
  | written (data : OwnedWriteBuffer Byte) (bufferedLen : Nat) (empty : data.remaining = []) :
      Passes queue (.writing data bufferedLen) (.recordDrained bufferedLen)
  | nothing : Passes queue (.recordDrained 0) .tryReceive
  | idle (empty : queue.commands = []) : Passes queue .tryReceive .clearOnEmpty

/-- What a step of the writer worker can do -/
inductive WorkerMove (s : TransportState Byte) : TransportState Byte → Prop where
  | waits : WorkerMove s s
  | passes {before after : Worker Byte} (position : s.worker = before)
      (pass : Passes s.writerQueue before after) :
      WorkerMove s { s with worker := after }
  | takes {data : OwnedWriteBuffer Byte} {later : List (WriterCommand Byte)}
      (position : s.worker = .receive ∨ s.worker = .tryReceive)
      (cmds : s.writerQueue.commands = .data data :: later) :
      WorkerMove s { s with
        writerQueue := { s.writerQueue with commands := later }
        worker := .writing data data.len }
  | writes {data : OwnedWriteBuffer Byte} {bufferedLen count : Nat}
      (position : s.worker = .writing data bufferedLen)
      (accepted : count ≤ data.len) :
      WorkerMove s { s.sent data.remaining count with
        worker := .writing (data.advance count accepted) bufferedLen }
  | drains {bufferedLen : Nat} (position : s.worker = .recordDrained bufferedLen)
      (nonzero : bufferedLen ≠ 0) :
      WorkerMove s { s with
        writeBuffer := (s.writeBuffer.drainWriteBuffer bufferedLen).1
        worker :=
          if (s.writeBuffer.drainWriteBuffer bufferedLen).2 = .resume then
            .notifyResume
          else .tryReceive }
  | resumes (position : s.worker = .notifyResume) : WorkerMove s { s with
        events := s.events ++ [.resume]
        worker := .tryReceive }
  | clears {before after : Worker Byte} (position : s.worker = before)
      (clearing : before = .clearOnEmpty ∧ after = .clearOnIdle ∨
        before = .clearOnIdle ∧ after = .receive) :
      WorkerMove s { s with writerRegistered := false, worker := after }

theorem workerMove_of_dequeued (isOpen : Open s)
    (pos : s.worker = .receive ∨ s.worker = .tryReceive)
    (taken : s.dequeued = some next) : WorkerMove s next := by
  unfold dequeued QueueState.tryDequeue at taken
  have dataOnly := isOpen.dataOnly
  cases cmds : s.writerQueue.commands with
  | nil => simp [cmds] at taken
  | cons cmd =>
    rw [cmds] at dataOnly taken
    cases cmd with
    | data =>
      cases taken
      exact .takes pos cmds
    | _ => cases dataOnly _ mem_cons_self

theorem commands_of_dequeued (taken : s.dequeued = none) :
    s.writerQueue.commands = [] := by
  unfold dequeued QueueState.tryDequeue at taken
  cases cmds : s.writerQueue.commands with
  | nil => rfl
  | cons cmd => cases cmd <;> simp [cmds] at taken

theorem workerMove_of_stepWorkerWriting {data : OwnedWriteBuffer Byte}
    {bufferedLen : Nat}
    (pos : s.worker = .writing data bufferedLen) (answered : reply ≠ .failed)
    (moved : stepWorkerWriting s data bufferedLen reply = some next) :
    WorkerMove s next := by
  unfold stepWorkerWriting at moved
  split at moved
  next empty =>
    cases moved
    exact .passes pos (.written data bufferedLen (List.isEmpty_iff.mp empty))
  next =>
    cases reply with
    | wrote =>
      simp only at moved
      split at moved
      next accepted =>
        split_ifs at moved
        cases moved
        exact .writes pos accepted
      next => cases moved
    | wouldBlock =>
      cases moved
      exact .waits
    | failed => exact absurd rfl answered
    | _ => cases moved

theorem workerMove_of_stepWorker (isOpen : Open s) (answered : reply ≠ .failed)
    (moved : stepWorker cfg s reply = some next) : WorkerMove s next := by
  have workerLoop := isOpen.workerLoop
  unfold stepWorker at moved
  cases pos : s.worker with
  | notStarted => simp [pos] at moved
  | receive =>
    simp only [pos] at moved
    exact workerMove_of_dequeued isOpen (.inl pos) moved
  | writing =>
    simp only [pos] at moved
    exact workerMove_of_stepWorkerWriting pos answered moved
  | recordDrained =>
    simp only [pos] at moved
    split at moved
    next zero =>
      cases moved
      subst zero
      exact .passes pos .nothing
    next nonzero =>
      cases moved
      exact .drains pos nonzero
  | notifyResume =>
    simp only [pos, (isOpen.enqueueFlowEvent (.inr rfl)).1] at moved
    cases moved
    exact .resumes pos
  | tryReceive =>
    simp only [pos] at moved
    cases taken : s.dequeued with
    | none =>
      rw [taken] at moved
      cases moved
      exact .passes pos (.idle (commands_of_dequeued taken))
    | some =>
      rw [taken] at moved
      cases moved
      exact workerMove_of_dequeued isOpen (.inr pos) taken
  | clearOnEmpty =>
    simp only [pos] at moved
    cases moved
    exact .clears pos (.inl ⟨rfl, rfl⟩)
  | clearOnIdle =>
    simp only [pos] at moved
    cases moved
    exact .clears pos (.inr ⟨rfl, rfl⟩)
  | _ => simp [pos, Worker.keepsOpen] at workerLoop

/-! ## Whole steps -/

/-- What `write` and `writelines` start. -/
inductive Writes (s : TransportState Byte) : Action Byte → Frame Byte → Prop where
  | exactBytes (data : List Byte) : Writes s (.write data true)
        (.tryWriteBytesWithStatus data s.writeBackpressureActive)
  | bytes (data : List Byte) : Writes s (.write data false) (.tryWriteBytes data)
  | lines (segs : List (List Byte)) : Writes s (.writelines segs)
        (.tryWriteSegments (segs.filter fun segment => !segment.isEmpty))

/-- What a step of an open transport can do -/
inductive OpenStep (cfg : TransportConfig) (s : TransportState Byte) :
    Action Byte → TransportState Byte → Prop where
  | ignored {action : Action Byte} : OpenStep cfg s action s
  | wrote {action : Action Byte} {frame : Frame Byte} (writes : Writes s action frame)
      (runs : applicationRuns s.stack) :
      OpenStep cfg s action
        ({ s with written := s.written ++ frame.bytes }.proceed [frame] s.stack)
  | limits {high low : Option Nat} (lowWater highWater : Nat)
      (runs : applicationRuns s.stack) :
      OpenStep cfg s (.setWriteBufferLimits high low)
        (s.proceed [.setWriteBufferLimits lowWater highWater] s.stack)
  | flushes (idle : s.stack = []) (flushCommands : Nat) : OpenStep cfg s .flush
        { s with flushCommands := flushCommands, stack := [.flushPendingDirectWrite] }
  | delivers {frame : Frame Byte} {cb : ProtocolCallback}
      {kind : ReadEventKind} {signal : FlowSignal}
      {later : List ReadEventKind} (idle : s.stack = [])
      (inRun : s.onRuntimeThread)
      (announcement : Announcement frame cb kind signal)
      (events : s.events = kind :: later) :
      OpenStep cfg s .drainEvent
        { s with events := later, stack := [.protocolCall cb] }
  | turns (idle : s.stack = []) (turn : Nat) :
      OpenStep cfg s .nextTurn { s with currentTurn := turn }
  | switches {action : Action Byte} (idle : s.stack = []) (inRun : Bool) :
      OpenStep cfg s action { s with onRuntimeThread := inRun }
  | frame {top : Frame Byte} {rest : List (Frame Byte)} {reply : Reply}
      {next : TransportState Byte} (stack : s.stack = top :: rest)
      (move : FrameMove cfg s rest top next) :
      OpenStep cfg s (.loop reply) next
  | worker {reply : Reply} {next : TransportState Byte} (move : WorkerMove s next) :
      OpenStep cfg s (.worker reply) next

variable {action : Action Byte}

theorem openStep_of_callWrite (writes : Writes s action frame)
    (called : s.callWrite cfg frame.bytes [frame] = some next) :
    OpenStep cfg s action next := by
  unfold callWrite call at called
  split at called
  · split_ifs at called
    cases called
    exact .ignored
  · split_ifs at called with runs
    cases called
    exact .wrote writes runs

theorem openStep_of_setLimits {high low : Option Nat}
    (moved : step cfg s (.setWriteBufferLimits high low) = some next) :
    OpenStep cfg s (.setWriteBufferLimits high low) next := by
  simp only [step] at moved
  split at moved
  · unfold call at moved
    split_ifs at moved
    cases moved
    exact .ignored
  next lowWater highWater _ =>
    unfold call at moved
    split_ifs at moved with runs
    cases moved
    exact .limits lowWater highWater runs

theorem openStep_of_drainEvent
    (isOpen : Open s) (moved : step cfg s .drainEvent = some next) :
    OpenStep cfg s .drainEvent next := by
  simp only [step] at moved
  split_ifs at moved with enabled
  have flowEvents := isOpen.flowEvents
  cases events : s.events with
  | nil => simp [events] at moved
  | cons kind =>
    simp only [events, Option.some.injEq] at moved
    rw [events] at flowEvents
    subst moved
    rcases flowEvents kind mem_cons_self with rfl | rfl
    · exact .delivers enabled.1 enabled.2 .pause events
    · exact .delivers enabled.1 enabled.2 .resume events

theorem openStep_of_step (isOpen : Open s) (keepsOpen : action.keepsOpen)
    (moved : step cfg s action = some next) : OpenStep cfg s action next := by
  cases action with
  | write data exactBytes =>
    cases exactBytes with
    | true => exact openStep_of_callWrite (.exactBytes data) moved
    | false => exact openStep_of_callWrite (.bytes data) moved
  | writelines segs => exact openStep_of_callWrite (.lines segs) moved
  | setWriteBufferLimits => exact openStep_of_setLimits moved
  | flush =>
    simp only [step] at moved
    split_ifs at moved with enabled
    cases moved
    exact .flushes enabled.1 _
  | drainEvent => exact openStep_of_drainEvent isOpen moved
  | nextTurn =>
    simp only [step] at moved
    split_ifs at moved with idle
    cases moved
    exact .turns idle _
  | enterRun =>
    simp only [step] at moved
    split_ifs at moved with idle
    cases moved
    exact .switches idle true
  | leaveRun =>
    simp only [step] at moved
    split_ifs at moved with idle
    cases moved
    exact .switches idle false
  | loop reply =>
    have answered : reply ≠ .failed := by
      rintro rfl
      cases keepsOpen
    simp only [step] at moved
    cases stack : s.stack with
    | nil => simp [stack] at moved
    | cons frame =>
      rw [stack] at moved
      exact .frame stack (frameMove_of_stepFrame isOpen stack answered moved)
  | worker reply =>
    have answered : reply ≠ .failed := by
      rintro rfl
      cases keepsOpen
    exact .worker (workerMove_of_stepWorker isOpen answered moved)
  | _ => cases keepsOpen

/-! ## Open transports stay open -/

theorem open_of_frameMove (isOpen : Open s) (stack : s.stack = frame :: rest)
    (move : FrameMove cfg s rest frame next) : Open next := by
  cases move with
  | routed _ routes | recorded routes _ | activated routes | called routes =>
    exact Open.replace { isOpen with } stack (by cases routes <;> rfl)
  | finished => exact isOpen.pop stack
  | refused _ _ | scheduled _ | nothingStaged _ => exact Open.pop { isOpen with } stack
  | started =>
    have started : Open { s with lazyWriter := false, worker := .receive } :=
      { isOpen with workerLoop := rfl, lazyIdle := by simp }
    exact started.replace stack rfl
  | running => exact isOpen.replace stack rfl
  | @published _ queue pauses pushed =>
    have alive := receiverAlive_of_publishTo pushed
    have published : Open { s with writerQueue := queue } :=
      { isOpen with
        dataOnly := isData_of_publishTo pushed isOpen.dataOnly
        receiver := alive.trans isOpen.receiver }
    cases pauses with
    | true => exact published.replace stack rfl
    | false => exact published.pop stack
  | staged _ pauses =>
    cases pauses with
    | true =>
      exact Open.proceed { isOpen with } stack (by simp [Frame.keepsOpen]) (by simp [Frame.settled])
    | false => exact Open.replace { isOpen with } stack rfl
  | calls announcement => exact isOpen.replace stack (by cases announcement <;> rfl)
  | queues announcement =>
    obtain ⟨equal, queued⟩ := isOpen.enqueueFlowEvent announcement.flow
    rw [equal] at queued
    exact queued.pop stack
  | flushed => exact Open.replace { isOpen with } stack rfl
  | decided => exact isOpen.signalFrames stack _ _
  | sent _ sends =>
    refine Open.proceed { isOpen with } stack ?_ ?_
    · cases sends <;> simp [Frame.keepsOpen]
    · cases sends <;> simp [Frame.settled]

theorem open_of_workerMove (isOpen : Open s) (move : WorkerMove s next) :
    Open next := by
  have started : ∀ {before after : Worker Byte}, s.worker = before →
      before ≠ .notStarted → s.lazyWriter → after = .notStarted :=
    fun pos running isLazy =>
      absurd (pos.symm.trans (isOpen.lazyIdle isLazy)) running
  cases move with
  | waits => exact isOpen
  | passes pos pass =>
    exact { isOpen with
      workerLoop := by cases pass <;> rfl
      lazyIdle := started pos (by cases pass <;> simp) }
  | takes pos cmds =>
    have dataOnly := isOpen.dataOnly
    rw [cmds] at dataOnly
    exact { isOpen with
      dataOnly := (forall_mem_cons.mp dataOnly).2
      workerLoop := rfl
      lazyIdle := started rfl (by rcases pos with at_ | at_ <;> simp [at_]) }
  | writes pos =>
    exact { isOpen with workerLoop := rfl, lazyIdle := started pos (by simp) }
  | drains pos =>
    refine { isOpen with workerLoop := ?_, lazyIdle := started pos (by simp) }
    split <;> rfl
  | resumes pos =>
    obtain ⟨equal, queued⟩ := isOpen.enqueueFlowEvent (.inr rfl)
    rw [equal] at queued
    exact { queued with workerLoop := rfl, lazyIdle := started pos (by simp) }
  | clears pos clearing =>
    rcases clearing with ⟨rfl, rfl⟩ | ⟨rfl, rfl⟩
    · exact { isOpen with workerLoop := rfl, lazyIdle := started pos (by simp) }
    · exact { isOpen with workerLoop := rfl, lazyIdle := started pos (by simp) }

theorem Open.start (isOpen : Open s) (runs : applicationRuns s.stack)
    (keepsOpen : new.keepsOpen) : Open (s.proceed [new] s.stack) :=
  { isOpen with
    frames := forall_mem_cons.mpr ⟨keepsOpen, isOpen.frames⟩
    belowTop := isOpen.settled_of_applicationRuns runs }

/-- An open transport stays open under every step that does not close it. -/
theorem open_step (isOpen : Open s) (keepsOpen : action.keepsOpen)
    (moved : step cfg s action = some next) : Open next := by
  cases openStep_of_step isOpen keepsOpen moved with
  | ignored => exact isOpen
  | wrote writes runs => exact Open.start { isOpen with } runs (by cases writes <;> rfl)
  | limits _ _ runs => exact isOpen.start runs rfl
  | flushes =>
    exact { isOpen with frames := by simp [Frame.keepsOpen], belowTop := by simp }
  | delivers _ _ announcement events =>
    have flowEvents := isOpen.flowEvents
    rw [events] at flowEvents
    exact { isOpen with
      frames := by cases announcement <;> simp [Frame.keepsOpen]
      belowTop := by simp
      flowEvents := (forall_mem_cons.mp flowEvents).2 }
  | turns _ _ | switches _ _ => exact { isOpen with }
  | frame stack move => exact open_of_frameMove isOpen stack move
  | worker move => exact open_of_workerMove isOpen move

end Rsloop.Stream
