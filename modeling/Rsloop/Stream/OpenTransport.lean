import Rsloop.Stream.PyTransport

/-!
# Transports that stay open

The frames of the write path, sorted by what they hold, and the part of the
state that cannot change while nobody closes the transport and no socket
operation fails: the queue holds data only, the worker stays in its data loop,
and below the top of the stack nothing is in flight.
-/

namespace Rsloop.Stream

open List QueueState

variable {Byte : Type}

/-! ## What a frame holds -/

def Publication.payload : Publication Byte → List Byte
  | .one data => data.remaining
  | .batch buffers => buffers.flatMap OwnedWriteBuffer.remaining

/-- The bytes the loop thread has in hand in a frame. -/
def Frame.bytes : Frame Byte → List Byte
  | .tryWriteBytes data | .tryWriteBytesWithStatus data _ => data
  | .tryDirectWrite data | .activateQueueWrite data | .queueWrite data => data.remaining
  | .publish _ what _ => what.payload
  | .stageDirectWriteBuffer data | .stageOwnedBuffer data _
  | .flushDirectWrite data => data.remaining
  | .tryWriteSegments segs | .tryDirectWriteVectored segs => segs.flatten
  | .activateQueueSegments segs written
  | .queueSegments segs written => segs.flatten.drop written
  | .queueWriteBatch buffers => buffers.flatMap OwnedWriteBuffer.remaining
  | .tryWriteBuffer data => data.remaining
  | _ => []

/-- The flow-control calls that are decided but not yet made in a frame. -/
def Frame.signals : Frame Byte → List FlowSignal
  | .publish _ _ true | .stageOwnedBuffer _ true | .notifyPauseWriting => [.pause]
  | .notifyResumeWriting => [.resume]
  | .protocolCall .pauseWriting => [.pause]
  | .protocolCall .resumeWriting => [.resume]
  | _ => []

/-- Frames that can wait below another one: they hold nothing. -/
def Frame.settled : Frame Byte → Bool
  | .scheduleFlush | .running _ | .recordWriteBufferDrained _ | .perform _ | .finishClose
  | .finishWriteEof | .finishAbort | .connectionLost | .failWrite => true
  | _ => false

/-- Frames of the methods that do not close the transport. -/
def Frame.keepsOpen : Frame Byte → Bool
  | .protocolCall .eofReceived | .protocolCall .connectionLost | .running .eofReceived
  | .running .connectionLost | .perform _ | .finishClose | .finishWriteEof
  | .discardPendingDirectWrite | .finishAbort | .connectionLost | .failWrite => false
  | _ => true

def Worker.held : Worker Byte → List Byte
  | .writing data _ => data.remaining
  | _ => []

/-- Positions inside the worker's data loop. -/
def Worker.keepsOpen : Worker Byte → Bool
  | .command _ | .reportLost | .exiting | .exited => false
  | _ => true

def TransportState.staged (s : TransportState Byte) : List Byte :=
  match s.pendingDirectWrite with
  | none => []
  | some data => data.remaining

variable {s : TransportState Byte}

@[simp]
theorem staged_of_none (unstaged : s.pendingDirectWrite = none) : s.staged = [] := by
  rw [TransportState.staged, unstaged]

variable {frame : Frame Byte}

theorem Frame.bytes_of_settled (settled : frame.settled) : frame.bytes = [] := by
  cases frame <;> first | rfl | cases settled

theorem flatMap_bytes_of_settled {frames : List (Frame Byte)}
    (settled : ∀ frame ∈ frames, frame.settled) :
    frames.flatMap Frame.bytes = [] := by
  rw [flatMap_eq_nil_iff]
  intro frame mem
  exact Frame.bytes_of_settled (settled frame mem)

theorem settled_of_applicationRuns {stack : List (Frame Byte)}
    (belowTop : ∀ frame ∈ stack.tail, frame.settled)
    (runs : applicationRuns stack) :
    ∀ frame ∈ stack, frame.settled := by
  cases stack with
  | nil => simp
  | cons =>
    intro frame mem
    rcases mem_cons.mp mem with rfl | below
    · cases frame <;> first | rfl | cases runs
    · exact belowTop frame below

theorem Frame.signals_of_settled (settled : frame.settled) : frame.signals = [] := by
  cases frame <;> first | rfl | cases settled

@[simp]
theorem flatMap_remaining_unsentBuffers (segs : List (List Byte))
    (written : Nat) :
    (unsentBuffers segs written).flatMap OwnedWriteBuffer.remaining =
      segs.flatten.drop written := by
  induction segs generalizing written with
  | nil => simp [unsentBuffers]
  | cons _ _ ih =>
    rw [unsentBuffers]
    split
    next partly =>
      simp [ih, drop_append_of_le_length (Nat.le_of_lt partly)]
    next wholly =>
      rw [ih, flatten_cons, drop_append,
        drop_eq_nil_of_le (Nat.le_of_not_lt wholly), nil_append]

@[simp]
theorem remaining_joinUnsent (joined : OwnedWriteBuffer Byte)
    (segs : List (List Byte))
    (written : Nat) :
    (joinUnsent joined segs written).remaining =
      joined.remaining ++ segs.flatten.drop written := by
  induction segs generalizing joined written with
  | nil => simp [joinUnsent]
  | cons _ _ ih =>
    simp [joinUnsent, ih, drop_append]

variable {queue next : QueueState Byte} {what : Publication Byte}

section

variable (published : publishTo queue what = some next)

include published

theorem payloads_of_publishTo :
    payloads next.commands = payloads queue.commands ++ what.payload := by
  cases what with
  | one => exact payloads_enqueue published
  | batch => exact payloads_sendBatch published

theorem receiverAlive_of_publishTo : next.receiverAlive = queue.receiverAlive := by
  cases what with
  | one =>
    obtain ⟨-, rfl | ⟨_, _, _, _, _, _, _, _, rfl⟩⟩ := enqueue_cases published
    · rfl
    · rfl
  | batch =>
    simp only [publishTo, sendBatch] at published
    split_ifs at published
    cases published
    rfl

theorem isData_of_publishTo (dataOnly : ∀ cmd ∈ queue.commands, cmd.isData) :
    ∀ cmd ∈ next.commands, cmd.isData := by
  cases what with
  | one =>
    obtain ⟨-, rfl | ⟨earlier, _, _, _, _, equal, _, _, rfl⟩⟩ := enqueue_cases published
    · intro cmd mem
      rcases mem_append.mp mem with old | new
      · exact dataOnly cmd old
      · rw [mem_singleton.mp new]
        rfl
    · intro cmd mem
      rcases mem_append.mp mem with old | new
      · exact dataOnly cmd (by rw [equal]; simp [old])
      · rw [mem_singleton.mp new]
        rfl
  | batch =>
    simp only [publishTo, sendBatch] at published
    split_ifs at published
    cases published
    intro cmd mem
    rcases mem_append.mp mem with old | new
    · exact dataOnly cmd old
    · obtain ⟨buf, -, rfl⟩ := mem_map.mp new
      rfl

end

theorem publishTo_isSome (what : Publication Byte) (alive : queue.receiverAlive) :
    ∃ next, publishTo queue what = some next := by
  cases what with
  | one =>
    simp only [publishTo, enqueue, alive, if_true]
    split
    · split <;> exact ⟨_, rfl⟩
    · exact ⟨_, rfl⟩
  | batch =>
    simp only [publishTo, sendBatch, alive, if_true]
    exact ⟨_, rfl⟩

/-! ## The open transport -/

/-- What holds while nobody closes the transport and nothing fails. -/
structure Open (s : TransportState Byte) : Prop where
  notClosing : s.closing = false
  notReleased : s.protocolReleased = false
  gateOpen : s.readEventState = .opened
  frames : ∀ frame ∈ s.stack, frame.keepsOpen
  belowTop : ∀ frame ∈ s.stack.tail, frame.settled
  flowEvents : ∀ kind ∈ s.events, kind = .pause ∨ kind = .resume
  dataOnly : ∀ cmd ∈ s.writerQueue.commands, cmd.isData
  receiver : s.writerQueue.receiverAlive
  workerLoop : s.worker.keepsOpen
  lazyIdle : s.lazyWriter → s.worker = .notStarted

/-- The actions of a run in which the transport is not closed and no socket
operation fails. -/
def Action.keepsOpen : Action Byte → Bool
  | .close | .abort | .writeEof | .peerEof | .loop .failed | .worker .failed => false
  | _ => true

theorem open_new (cfg : TransportConfig) :
    Open (TransportState.new cfg : TransportState Byte) where
  notClosing := rfl
  notReleased := rfl
  gateOpen := rfl
  frames := by simp [TransportState.new]
  belowTop := by simp [TransportState.new]
  flowEvents := by simp [TransportState.new]
  dataOnly := by simp [TransportState.new, QueueState.new]
  receiver := rfl
  workerLoop := by
    simp only [TransportState.new]
    split <;> rfl
  lazyIdle := by
    intro lazyWriter
    simp only [TransportState.new] at lazyWriter ⊢
    rw [if_pos lazyWriter]

variable {rest : List (Frame Byte)}

theorem Open.settled_below (isOpen : Open s) (stack : s.stack = frame :: rest) :
    ∀ other ∈ rest, other.settled := by
  have belowTop := isOpen.belowTop
  rwa [stack] at belowTop

theorem Open.proceed {frames : List (Frame Byte)}
    (isOpen : Open s) (stack : s.stack = frame :: rest)
    (keepsOpen : ∀ new ∈ frames, new.keepsOpen)
    (settled : ∀ new ∈ frames.tail, new.settled) : Open (s.proceed frames rest) := by
  have framesBelow : ∀ old ∈ rest, old.keepsOpen := fun old mem =>
    isOpen.frames old (by rw [stack]; exact mem_cons_of_mem _ mem)
  have settledBelow : ∀ old ∈ rest, old.settled := fun old mem =>
    isOpen.belowTop old (by rw [stack]; exact mem)
  refine { isOpen with frames := ?_, belowTop := ?_ }
  · intro frame mem
    rcases mem_append.mp mem with new | old
    · exact keepsOpen frame new
    · exact framesBelow frame old
  · intro frame mem
    cases frames with
    | nil => exact settledBelow frame (mem_of_mem_tail mem)
    | cons =>
      rcases mem_append.mp mem with new | old
      · exact settled frame new
      · exact settledBelow frame old

theorem Open.replace {new : Frame Byte} (isOpen : Open s)
    (stack : s.stack = frame :: rest)
    (keepsOpen : new.keepsOpen) : Open (s.proceed [new] rest) :=
  isOpen.proceed stack (by simpa using keepsOpen) (by simp)

theorem Open.pop (isOpen : Open s) (stack : s.stack = frame :: rest) :
    Open (s.proceed [] rest) :=
  isOpen.proceed stack (by simp) (by simp)

theorem Open.signalFrames (isOpen : Open s) (stack : s.stack = frame :: rest)
    (writeBuffer : StreamWriteBufferState) (signal : WriteBufferSignal) :
    Open ({ s with writeBuffer := writeBuffer }.proceed (signalFrames signal) rest) := by
  cases signal with
  | none => exact Open.pop { isOpen with } stack
  | pause | resume => exact Open.replace { isOpen with } stack rfl

theorem Open.enqueueFlowEvent (isOpen : Open s)
    {kind : ReadEventKind} (flow : kind = .pause ∨ kind = .resume) :
    s.enqueuePendingReadEvent kind =
        { s with events := s.events ++ [kind] } ∧
      Open (s.enqueuePendingReadEvent kind) := by
  have accepted : transitionReadEventState s.readEventState kind = some .opened := by
    rw [isOpen.gateOpen]
    rcases flow with rfl | rfl <;> rfl
  have equal : s.enqueuePendingReadEvent kind =
      { s with events := s.events ++ [kind] } := by
    unfold TransportState.enqueuePendingReadEvent
    rw [accepted, ← isOpen.gateOpen]
  refine ⟨equal, ?_⟩
  rw [equal]
  refine { isOpen with flowEvents := ?_ }
  intro other mem
  rcases mem_append.mp mem with old | new
  · exact isOpen.flowEvents other old
  · rwa [mem_singleton.mp new]

theorem noteSmallWrite_eq (cfg : TransportConfig) (s : TransportState Byte)
    (len : Nat) :
    ∃ turn count, s.noteSmallWrite cfg len =
      { s with smallWriteTurn := turn, smallWritesThisTurn := count } := by
  unfold TransportState.noteSmallWrite
  split <;> exact ⟨_, _, rfl⟩

theorem recordWriteBufferEnqueued_cases (cfg : TransportConfig)
    (s : TransportState Byte)
    (bytes : List Byte) (rest : List (Frame Byte)) (next : Bool → Frame Byte) :
    (s.writeBuffer.enqueueWriteBuffer bytes.length cfg.maxWriteBufferSize = none ∧
        recordWriteBufferEnqueued cfg s bytes rest next =
          { s with refused := s.refused ++ bytes }.proceed [] rest) ∨
      ∃ writeBuffer signal, s.writeBuffer.enqueueWriteBuffer bytes.length
            cfg.maxWriteBufferSize = some (writeBuffer, signal) ∧
          recordWriteBufferEnqueued cfg s bytes rest next =
            { s with writeBuffer := writeBuffer }.proceed
              [next (decide (signal = WriteBufferSignal.pause))] rest := by
  unfold recordWriteBufferEnqueued
  cases answer : s.writeBuffer.enqueueWriteBuffer bytes.length cfg.maxWriteBufferSize with
  | none => exact .inl ⟨rfl, rfl⟩
  | some pair => exact .inr ⟨pair.1, pair.2, rfl, rfl⟩

theorem tryDirectTaskedWrite_ne_failed {limit : Nat} {reply : Reply}
    (answered : reply ≠ .failed) :
    tryDirectTaskedWrite s limit reply ≠ some .failed := by
  cases reply with
  | failed => exact absurd rfl answered
  | wrote =>
    simp only [tryDirectTaskedWrite]
    repeat' split
    all_goals simp
  | wouldBlock =>
    simp only [tryDirectTaskedWrite]
    split <;> simp
  | done | returned truthy | raised => simp [tryDirectTaskedWrite]

theorem Open.settled_of_applicationRuns (isOpen : Open s)
    (runs : applicationRuns s.stack) : ∀ frame ∈ s.stack, frame.settled :=
  Stream.settled_of_applicationRuns isOpen.belowTop runs

end Rsloop.Stream
