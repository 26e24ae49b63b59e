import Rsloop.Stream.OpenSteps
import Rsloop.Stream.PausedReading

/-!
# The hand-over of `start_tls`

`upgrade_stream` runs on the loop thread: it flushes the staged bytes, detaches
the transport, sends `Stop` to the writer worker, cancels the reader, raises
the worker's stop flag, joins the worker and lets go of the direct writer. Then
the TLS transport owns the socket. The worker, the reader and producers behind
their push go on in between. Flow-control callbacks that the flush runs return
or raise.
-/

namespace Rsloop.Stream

open Transition List TransportState

variable {Byte : Type}

/-! ## The upgrade -/

/-- What `upgrade_stream` has done last. -/
inductive UpgradePhase where
  | flushing
  | detached
  | stopSent
  | readerStopped
  | joining
  | joined
  | handshake
  | tlsSent
  deriving DecidableEq, Repr

structure Upgrade (Byte : Type) where
  writing : TransportState Byte
  reading : ReadState Byte
  phase : UpgradePhase
  /-- The stop flag that `abort_workers` raises. -/
  stop : Bool
  /-- The worker has looked at the stop flag and waits for a command. -/
  looked : Bool
  /-- What the detached reader has taken off the socket. -/
  dropped : List Byte
  deriving DecidableEq

/-- `start_tls` is called between two operations of the transport. -/
def Upgrade.start (writing : TransportState Byte) (reading : ReadState Byte)
    (looked : Bool) : Upgrade Byte where
  writing := { writing with stack := [.flushPendingDirectWrite] }
  reading := reading
  phase := .flushing
  stop := false
  looked := looked
  dropped := []

inductive UpgradeAction (Byte : Type) where
  | loop (reply : Reply)
  | advance
  | joinTimesOut
  | look
  | worker (reply : Reply)
  | reader (reply : ReaderReply Byte)
  | producer (index : Nat)
  | firstTlsByte
  deriving DecidableEq

def Worker.isGone : Worker Byte → Bool
  | .notStarted | .exited => true
  | _ => false

def Worker.isReceiving : Worker Byte → Bool
  | .receive => true
  | _ => false

/-- The next operation of `upgrade_stream`. The reader is cancelled where it
waits, not inside `enqueue_pending_read_event`. -/
def stepAdvance (s : Upgrade Byte) : Option (Upgrade Byte) :=
  match s.phase with
  | .flushing =>
    if s.writing.stack.isEmpty then
      some { s with
        writing := { s.writing with closing := true }
        reading := { s.reading with closing := true, stateReading := false, reading := false }
        phase := .detached }
    else
      none
  | .detached =>
    some { s with
      writing := performOperation s.writing (.sendControl .stop)
      phase := .stopSent }
  | .stopSent =>
    if s.reading.reader = .posting then
      none
    else
      some { s with
        reading := { s.reading with reader := .finished }
        phase := .readerStopped }
  | .readerStopped => some { s with stop := true, phase := .joining }
  | .joining =>
    if s.writing.worker.isGone then some { s with phase := .joined }
    else none
  | .joined =>
    some { s with
      writing := { s.writing with directWriterOpen := false }
      phase := .handshake }
  | .handshake | .tlsSent => none

/-- The reader of a detached transport: `enqueue_pending_read_event` drops
whatever it brings. -/
def stepDetachedReader (s : Upgrade Byte) (reply : ReaderReply Byte) : Option (Upgrade Byte) :=
  let readerAt (reader : Reader) (dropped : List Byte) :=
    some { s with
      reading := { s.reading with reader := reader }
      dropped := s.dropped ++ dropped }
  match s.reading.reader with
  | .acquire | .gate | .next => readerAt .finished []
  | .reading =>
    match reply with
    | .data bytes => if bytes = [] then none else readerAt .acquire bytes
    | .eof => readerAt .finished []
    | .wouldBlock => readerAt .gate []
    | .failed _ => readerAt .finished []
  | .posting | .finished => none

def upgradeStep (cfg : TransportConfig) (s : Upgrade Byte) :
    UpgradeAction Byte → Option (Upgrade Byte)
  | .loop reply =>
    match s.writing.stack with
    | [] => none
    | frame :: rest =>
      (stepFrame cfg s.writing rest reply frame).map fun writing =>
        { s with writing := writing }
  | .advance => stepAdvance s
  | .joinTimesOut =>
    if s.phase = .joining then some { s with phase := .joined }
    else none
  | .look =>
    if s.writing.worker.isReceiving && !s.looked then
      if s.stop then
        some { s with writing := { s.writing with worker := .exiting } }
      else
        some { s with looked := true }
    else
      none
  | .worker reply =>
    if s.writing.worker.isReceiving && !s.looked then
      none
    else
      (stepWorker cfg s.writing reply).map fun writing =>
        { s with writing := writing, looked := false }
  | .reader reply =>
    if s.phase = .flushing then
      (stepReader s.reading reply).map fun reading =>
        { s with reading := reading }
    else
      stepDetachedReader s reply
  | .producer index =>
    (stepProducer s.reading index).map fun reading =>
      { s with reading := reading }
  | .firstTlsByte =>
    if s.phase = .handshake then some { s with phase := .tlsSent }
    else none

/-! ## What has to be handed over -/

/-- The bytes between the loop thread and the socket. -/
def TransportState.backlog (s : TransportState Byte) : List Byte :=
  s.worker.held ++ payloads s.writerQueue.commands

/-- The bytes that `write` has accepted and the socket has not taken. -/
def TransportState.unsent (s : TransportState Byte) : List Byte :=
  s.backlog ++ s.staged

/-- All accepted bytes are on the socket in order, and nothing that was taken
off the socket has been kept from the protocol. -/
structure NothingLost (writing : TransportState Byte) (s : Upgrade Byte) : Prop where
  sent : s.writing.wire = writing.wire ++ writing.unsent
  delivered : s.reading.undelivered = []
  dropped : s.dropped = []

/-- An open plaintext transport between two operations. -/
structure Plaintext (writing : TransportState Byte) : Prop where
  isOpen : Open writing
  between : writing.stack = []
  notStarted : writing.worker = .notStarted →
    writing.lazyWriter ∧ payloads writing.writerQueue.commands = []

def UpgradeAction.succeeds : UpgradeAction Byte → Bool
  | .loop .failed | .worker .failed | .reader (.failed _) => false
  | _ => true

/-- The worker has looked at the queue for the last time before it looks at the
stop flag. -/
def Upgrade.beyondQueue (s : Upgrade Byte) : Bool :=
  match s.writing.worker with
  | .clearOnEmpty | .clearOnIdle => true
  | .receive => !s.looked
  | _ => false

/-- No read completes during the upgrade, the worker is joined in time, and it
is not about to look at the raised flag with bytes in its queue. -/
def CleanUpgrade (s : Upgrade Byte) : UpgradeAction Byte → Prop
  | .reader (.data _) | .joinTimesOut => False
  | .advance =>
    s.phase = .readerStopped → s.beyondQueue →
      payloads s.writing.writerQueue.commands = []
  | _ => True

instance [DecidableEq Byte] (s : Upgrade Byte) :
    DecidablePred (CleanUpgrade s) := fun action =>
  match action with
  | .reader (.data _) => .isFalse id
  | .reader .eof | .reader .wouldBlock | .reader (.failed _) => .isTrue trivial
  | .joinTimesOut => .isFalse id
  | .advance => inferInstanceAs (Decidable (_ → _ → _))
  | .loop _ | .look | .worker _ | .producer _ | .firstTlsByte => .isTrue trivial

/-! ## Steps of the worker -/

/-- What a worker step without an error does. Control commands other than
`Stop` do not occur here. -/
structure WorkerMoves (s next : TransportState Byte) : Prop where
  frame : next = { s with
    wire := next.wire
    worker := next.worker
    writerQueue := next.writerQueue
    writeBuffer := next.writeBuffer
    writerRegistered := next.writerRegistered
    events := next.events
    readEventState := next.readEventState }
  wire : ∃ sent, next.wire = s.wire ++ sent ∧ s.backlog = sent ++ next.backlog
  started : next.worker ≠ .notStarted
  queue : next.writerQueue.commands = s.writerQueue.commands ∧
        next.worker.keepsOpen = s.worker.keepsOpen ∨
      ∃ command, s.writerQueue.commands = command :: next.writerQueue.commands ∧
        s.worker.keepsOpen ∧
        (command.isData ∧ next.worker.keepsOpen ∨
          command.isData = false ∧ next.worker = .command command)
  receiver : next.worker ≠ .exited →
    next.writerQueue.receiverAlive = s.writerQueue.receiverAlive
  beyond : next.worker = .clearOnEmpty ∨ next.worker = .clearOnIdle ∨ next.worker = .receive →
      s.worker = .clearOnEmpty ∨ s.worker = .clearOnIdle ∨ next.writerQueue.commands = []
  leaves : next.worker.keepsOpen = false → s.worker.keepsOpen = false →
    next.worker = .exiting ∨ next.worker = .exited

variable {data : OwnedWriteBuffer Byte} {cfg : TransportConfig}
  {s next : TransportState Byte}

theorem WorkerMoves.rest {pos : Worker Byte} (same : next = { s with
      worker := pos
      writeBuffer := next.writeBuffer
      writerRegistered := next.writerRegistered
      events := next.events
      readEventState := next.readEventState })
    (held : pos.held = s.worker.held)
    (started : pos ≠ .notStarted)
    (keepsOpen : pos.keepsOpen = s.worker.keepsOpen)
    (beyond : pos = .clearOnEmpty ∨ pos = .clearOnIdle ∨ pos = .receive →
      s.worker = .clearOnEmpty ∨ s.worker = .clearOnIdle ∨ s.writerQueue.commands = [])
    (leaves : pos.keepsOpen = false → pos = .exiting ∨ pos = .exited) :
    WorkerMoves s next := by
  rw [same]
  exact
    { frame := rfl
      wire := ⟨[], (append_nil _).symm, by
        simp only [TransportState.backlog, held, nil_append]⟩
      started := started
      queue := .inl ⟨rfl, keepsOpen⟩
      receiver := fun _ => rfl
      beyond := beyond
      leaves := fun left _ => leaves left }

theorem workerMoves_dequeued
    (idle : s.worker.held = []) (inLoop : s.worker.keepsOpen)
    (taken : s.dequeued = some next) : WorkerMoves s next := by
  unfold dequeued QueueState.tryDequeue at taken
  cases cmds : s.writerQueue.commands with
  | nil => simp [cmds] at taken
  | cons cmd rest =>
    have backlog : s.backlog = cmd.payload ++ payloads rest := by
      rw [TransportState.backlog, idle, cmds]
      rfl
    cases cmd with
    | data =>
      simp only [cmds, Option.some.injEq] at taken
      subst taken
      refine
        { frame := rfl
          wire := ⟨[], (append_nil _).symm, backlog⟩
          started := by simp
          queue := .inr ⟨_, cmds, inLoop, .inl ⟨rfl, rfl⟩⟩
          receiver := fun _ => rfl
          beyond := by simp
          leaves := nofun }
    | _ =>
      simp only [cmds, Option.some.injEq] at taken
      subst taken
      exact
        { frame := rfl
          wire := ⟨[], (append_nil _).symm, backlog⟩
          started := by simp
          queue := .inr ⟨_, cmds, inLoop, .inr ⟨rfl, rfl⟩⟩
          receiver := fun _ => rfl
          beyond := by simp
          leaves := fun _ outside => by rw [inLoop] at outside; cases outside }

variable {reply : Reply}

theorem workerMoves_stepWorkerWriting {bufferedLen : Nat}
    (pos : s.worker = .writing data bufferedLen) (answered : reply ≠ .failed)
    (moved : stepWorkerWriting s data bufferedLen reply = some next) :
    WorkerMoves s next := by
  unfold stepWorkerWriting at moved
  split at moved
  next empty =>
    cases moved
    refine .rest rfl ?_ (by simp) (by rw [pos]; rfl) (by simp) (by rintro ⟨⟩)
    rw [pos]
    exact (List.isEmpty_iff.mp empty).symm
  next =>
    cases reply with
    | wrote count =>
      simp only at moved
      split_ifs at moved with _
      cases moved
      refine
        { frame := rfl
          wire := ⟨data.remaining.take count, rfl, ?_⟩
          started := by simp
          queue := .inl ⟨rfl, by rw [pos]; rfl⟩
          receiver := fun _ => rfl
          beyond := by simp
          leaves := by rintro ⟨⟩ }
      simp only [TransportState.backlog, TransportState.sent, pos,
        Worker.held, OwnedWriteBuffer.remaining_advance]
      rw [← append_assoc, take_append_drop]
    | wouldBlock =>
      cases moved
      have same : s = { s with worker := s.worker } := rfl
      refine .rest same rfl ?_ rfl ?_ ?_
      · simp [pos]
      · simp [pos]
      · simp [pos, Worker.keepsOpen]
    | failed => exact absurd rfl answered
    | done | returned truthy | raised => cases moved

theorem workerMoves_stepWorker (answered : reply ≠ .failed)
    (onlyStop : ∀ cmd, s.worker = .command cmd → cmd = .stop)
    (notLost : s.worker ≠ .reportLost)
    (moved : stepWorker cfg s reply = some next) :
    WorkerMoves s next := by
  unfold stepWorker at moved
  cases pos : s.worker with
  | notStarted | exited => simp [pos] at moved
  | receive =>
    simp only [pos] at moved
    exact workerMoves_dequeued (by rw [pos]; rfl) (by rw [pos]; rfl) moved
  | writing =>
    simp only [pos] at moved
    exact workerMoves_stepWorkerWriting pos answered moved
  | recordDrained =>
    simp only [pos] at moved
    split at moved
    · cases moved
      exact .rest rfl (by rw [pos]; rfl) (by simp) (by rw [pos]; rfl)
        (by simp) nofun
    · cases moved
      refine .rest rfl ?_ ?_ ?_ ?_ ?_
      · rw [pos]
        split <;> rfl
      · split <;> simp
      · rw [pos]
        split <;> rfl
      · split <;> simp
      · intro left
        split at left <;> cases left
  | notifyResume =>
    simp only [pos] at moved
    cases moved
    unfold enqueuePendingReadEvent
    split
    · exact .rest rfl (by rw [pos]; rfl) (by simp)
        (by rw [pos]; rfl) (by simp) nofun
    · exact .rest rfl (by rw [pos]; rfl) (by simp)
        (by rw [pos]; rfl) (by simp) nofun
  | tryReceive =>
    simp only [pos] at moved
    cases taken : s.dequeued with
    | none =>
      rw [taken] at moved
      cases moved
      exact .rest rfl (by rw [pos]; rfl) (by simp) (by rw [pos]; rfl)
        (fun _ => .inr (.inr (commands_of_dequeued taken)))
        nofun
    | some =>
      rw [taken] at moved
      cases moved
      exact workerMoves_dequeued (by rw [pos]; rfl) (by rw [pos]; rfl) taken
  | clearOnEmpty =>
    simp only [pos] at moved
    cases moved
    exact .rest rfl (by rw [pos]; rfl) (by simp) (by rw [pos]; rfl)
      (fun _ => .inl pos) nofun
  | clearOnIdle =>
    simp only [pos] at moved
    cases moved
    exact .rest rfl (by rw [pos]; rfl) (by simp) (by rw [pos]; rfl)
      (fun _ => .inr (.inl pos)) nofun
  | command cmd =>
    obtain rfl := onlyStop cmd pos
    simp only [pos] at moved
    cases moved
    exact .rest rfl (by rw [pos]; rfl) (by simp) (by rw [pos]; rfl)
      (by simp) (fun _ => .inl rfl)
  | reportLost => exact absurd pos notLost
  | exiting =>
    simp only [pos] at moved
    cases moved
    exact
      { frame := rfl
        wire := ⟨[], (append_nil _).symm, by
          simp [TransportState.backlog, pos, Worker.held]⟩
        started := by simp
        queue := .inl ⟨rfl, by rw [pos]; rfl⟩
        receiver := fun stays => absurd rfl stays
        beyond := by simp
        leaves := fun _ _ => .inr rfl }

/-! ## The flush -/

/-- Frames of the flush behind its last access to the socket and the queue. -/
def Frame.holdsNothing : Frame Byte → Bool
  | .recordWriteBufferDrained _ | .notifyPauseWriting | .notifyResumeWriting
  | .protocolCall .pauseWriting | .protocolCall .resumeWriting | .running .pauseWriting
  | .running .resumeWriting => true
  | _ => false

/-- Where the flush is, and where the bytes are that are not on the socket. -/
inductive FlushPosition (total : List Byte) (s : TransportState Byte) : Prop where
  | pending (stack : s.stack = [.flushPendingDirectWrite])
      (alone : s.staged = [] ∨ s.backlog = [])
      (bytes : s.wire ++ s.backlog ++ s.staged = total)
  | direct (data : OwnedWriteBuffer Byte) (stack : s.stack = [.flushDirectWrite data])
      (unstaged : s.pendingDirectWrite = none)
      (alone : data.remaining = [] ∨ s.backlog = [])
      (bytes : s.wire ++ s.backlog ++ data.remaining = total)
  | publish (phase : PublishPhase) (data : OwnedWriteBuffer Byte) (tail : List (Frame Byte))
      (stack : s.stack = .publish phase (.one data) false :: tail)
      (below : ∀ frame ∈ tail, frame.holdsNothing)
      (unstaged : s.pendingDirectWrite = none)
      (started : phase = .send → s.worker ≠ .notStarted)
      (bytes : s.wire ++ s.backlog ++ data.remaining = total)
  | settled (frames : ∀ frame ∈ s.stack, frame.holdsNothing)
      (unstaged : s.pendingDirectWrite = none)
      (bytes : s.wire ++ s.backlog = total)

structure Flushing (total : List Byte) (s : TransportState Byte) : Prop where
  isOpen : Open s
  notStarted : s.worker = .notStarted →
    s.lazyWriter ∧ payloads s.writerQueue.commands = []
  position : FlushPosition total s

section Flush

variable {total : List Byte}

theorem WorkerMoves.wire_append_backlog (moves : WorkerMoves s next) :
    next.wire ++ next.backlog = s.wire ++ s.backlog := by
  obtain ⟨sent, wire, backlog⟩ := moves.wire
  rw [wire, backlog, append_assoc]

theorem WorkerMoves.backlog_eq_nil (moves : WorkerMoves s next)
    (empty : s.backlog = []) :
    next.backlog = [] := by
  obtain ⟨sent, -, backlog⟩ := moves.wire
  rw [empty] at backlog
  exact (append_eq_nil_iff.mp backlog.symm).2

theorem WorkerMoves.flushPosition
    (moves : WorkerMoves s next) (pos : FlushPosition total s) :
    FlushPosition total next := by
  have stack : next.stack = s.stack := by rw [moves.frame]
  have staging : next.pendingDirectWrite = s.pendingDirectWrite := by
    rw [moves.frame]
  have staged : next.staged = s.staged := by
    rw [TransportState.staged, TransportState.staged, staging]
  cases pos with
  | pending top alone bytes =>
    refine .pending (stack.trans top) ?_ ?_
    · rw [staged]
      exact alone.imp_right moves.backlog_eq_nil
    · rwa [moves.wire_append_backlog, staged]
  | direct data top unstaged alone bytes =>
    refine .direct data (stack.trans top) (staging.trans unstaged) ?_ ?_
    · exact alone.imp_right moves.backlog_eq_nil
    · rwa [moves.wire_append_backlog]
  | publish phase data tail top below unstaged started bytes =>
    refine .publish phase data tail (stack.trans top) below
      (staging.trans unstaged) (fun _ => moves.started) ?_
    rwa [moves.wire_append_backlog]
  | settled frames unstaged bytes =>
    refine .settled (by rw [stack]; exact frames) (staging.trans unstaged) ?_
    rwa [moves.wire_append_backlog]

variable {reply : Reply}

theorem Flushing.worker (flushing : Flushing total s)
    (answered : reply ≠ .failed)
    (moved : stepWorker cfg s reply = some next) : Flushing total next := by
  have inLoop := flushing.isOpen.workerLoop
  have moves : WorkerMoves s next := by
    refine workerMoves_stepWorker answered ?_ ?_ moved
    · intro cmd position
      rw [position] at inLoop
      cases inLoop
    · intro position
      rw [position] at inLoop
      cases inLoop
  exact
    { isOpen := open_of_workerMove flushing.isOpen
        (workerMove_of_stepWorker flushing.isOpen answered moved)
      notStarted := fun position => absurd position moves.started
      position := moves.flushPosition flushing.position }

variable {rest : List (Frame Byte)}

theorem flushPosition_stepNotify {cb : ProtocolCallback} {kind : ReadEventKind}
    (holds : (Frame.protocolCall cb : Frame Byte).holdsNothing)
    (below : ∀ other ∈ rest, other.holdsNothing)
    (unstaged : s.pendingDirectWrite = none)
    (bytes : s.wire ++ s.backlog = total) :
    let next := stepNotify s cb kind rest
    FlushPosition total next ∧ next.worker = s.worker ∧ next.lazyWriter = s.lazyWriter ∧
      next.writerQueue = s.writerQueue := by
  unfold stepNotify
  split
  · refine ⟨.settled ?_ unstaged bytes, rfl, rfl, rfl⟩
    exact forall_mem_cons.mpr ⟨holds, below⟩
  · unfold enqueuePendingReadEvent
    split <;> exact ⟨.settled below unstaged bytes, rfl, rfl, rfl⟩

variable {frame : Frame Byte}

/-- A frame that holds nothing leaves only such frames. -/
theorem flushPosition_holdsNothing (isOpen : Open s)
    (holds : frame.holdsNothing)
    (below : ∀ other ∈ rest, other.holdsNothing)
    (unstaged : s.pendingDirectWrite = none)
    (bytes : s.wire ++ s.backlog = total)
    (moved : stepFrame cfg s rest reply frame = some next) :
    FlushPosition total next ∧ next.worker = s.worker ∧ next.lazyWriter = s.lazyWriter ∧
      next.writerQueue = s.writerQueue := by
  cases frame with
  | recordWriteBufferDrained len =>
    simp only [stepFrame, advanceFrame] at moved
    split at moved
    · cases moved
      exact ⟨.settled below unstaged bytes, rfl, rfl, rfl⟩
    · cases moved
      refine ⟨.settled ?_ unstaged bytes, rfl, rfl, rfl⟩
      intro other mem
      rcases mem_append.mp mem with new | old
      · revert new
        cases (s.writeBuffer.drainWriteBuffer len).2 with
        | none => simp [signalFrames]
        | pause | resume =>
          intro new
          rw [mem_singleton.mp new]
          rfl
      · exact below other old
  | notifyPauseWriting | notifyResumeWriting =>
    cases moved
    exact flushPosition_stepNotify rfl below unstaged bytes
  | protocolCall cb =>
    cases moved
    simp only [advanceFrame, callProtocol, isOpen.notReleased]
    cases cb with
    | pauseWriting | resumeWriting =>
      refine ⟨.settled ?_ unstaged bytes, rfl, rfl, rfl⟩
      exact forall_mem_cons.mpr ⟨rfl, below⟩
    | eofReceived | connectionLost => cases holds
  | running cb =>
    obtain ⟨frames, returned, rfl⟩ := Option.map_eq_some_iff.mp moved
    have none : frames = [] := by
      cases cb <;> cases reply <;> simp_all [afterCallback, Frame.holdsNothing]
    subst none
    exact ⟨.settled below unstaged bytes, rfl, rfl, rfl⟩
  | _ => cases holds

/-- `flush_pending_direct_write` takes what is staged. -/
theorem flushPosition_pending (isOpen : Open s)
    (alone : s.staged = [] ∨ s.backlog = [])
    (bytes : s.wire ++ s.backlog ++ s.staged = total)
    (moved : stepFrame cfg s [] reply .flushPendingDirectWrite = some next) :
    FlushPosition total next ∧ next.worker = s.worker ∧ next.lazyWriter = s.lazyWriter ∧
      next.writerQueue = s.writerQueue := by
  simp only [stepFrame, advanceFrame, Option.some.injEq] at moved
  rw [TransportState.staged] at alone bytes
  cases staging : s.pendingDirectWrite with
  | none =>
    simp only [staging] at moved bytes
    subst moved
    refine ⟨.settled (by simp [proceed]) ?_ ?_, rfl, rfl, rfl⟩
    · rfl
    · rwa [append_nil] at bytes
  | some data =>
    simp only [staging, isOpen.notClosing] at moved bytes alone
    subst moved
    exact ⟨.direct data rfl rfl alone bytes, rfl, rfl, rfl⟩

/-- The flush tries the socket. Nothing may be ahead of its bytes. -/
theorem flushPosition_direct (answered : reply ≠ .failed)
    (unstaged : s.pendingDirectWrite = none)
    (alone : data.remaining = [] ∨ s.backlog = [])
    (bytes : s.wire ++ s.backlog ++ data.remaining = total)
    (moved : stepFrame cfg s [] reply (.flushDirectWrite data) = some next) :
    FlushPosition total next ∧ next.worker = s.worker ∧ next.lazyWriter = s.lazyWriter ∧
      next.writerQueue = s.writerQueue := by
  obtain ⟨result, written, rfl⟩ := Option.map_eq_some_iff.mp moved
  cases result with
  | wrote count =>
    have sent : s.wire ++ data.remaining.take count ++ s.backlog ++
          data.remaining.drop count = total := by
      rcases alone with empty | empty
      · rw [empty] at bytes ⊢
        simpa using bytes
      · rw [empty] at bytes ⊢
        simpa using bytes
    simp only [afterFlushDirectWrite]
    split
    next all =>
      refine ⟨.settled (by simp [proceed, Frame.holdsNothing])
        unstaged ?_, rfl, rfl, rfl⟩
      rw [all, OwnedWriteBuffer.len, drop_length, append_nil] at sent
      rwa [all]
    next =>
      refine ⟨.publish .activate _ _ rfl (by simp [Frame.holdsNothing])
        unstaged (by simp) ?_, rfl, rfl, rfl⟩
      rwa [OwnedWriteBuffer.remaining_advance]
  | blocked =>
    exact ⟨.publish .activate data [] rfl (by simp) unstaged (by simp) bytes, rfl, rfl, rfl⟩
  | failed => exact absurd written (tryDirectTaskedWrite_ne_failed answered)

theorem Flushing.publish {phase : PublishPhase} {tail : List (Frame Byte)}
    (flushing : Flushing total s) (answered : reply ≠ .failed)
    (below : ∀ frame ∈ tail, frame.holdsNothing)
    (unstaged : s.pendingDirectWrite = none)
    (started : phase = .send → s.worker ≠ .notStarted)
    (bytes : s.wire ++ s.backlog ++ data.remaining = total) (isOpen : Open next)
    (moved : stepFrame cfg s tail reply (.publish phase (.one data) false) = some next) :
    Flushing total next := by
  cases phase with
  | activate =>
    cases moved
    exact
      { isOpen := isOpen
        notStarted := flushing.notStarted
        position := .publish .ensureWorker data tail rfl below unstaged (by simp) bytes }
  | ensureWorker =>
    simp only [stepFrame, Option.some.injEq] at moved
    subst moved
    unfold stepEnsureWriterWorker at isOpen ⊢
    cases isLazy : s.lazyWriter with
    | true =>
      -- The worker starts with an empty queue.
      have idle := flushing.isOpen.lazyIdle isLazy
      have same : s.backlog = payloads s.writerQueue.commands := by
        rw [TransportState.backlog, idle]
        rfl
      simp only [isLazy, if_true, if_neg answered] at isOpen ⊢
      refine
        { isOpen := isOpen
          notStarted := nofun
          position := .publish .send data tail rfl below unstaged nofun ?_ }
      rwa [same] at bytes
    | false =>
      have running : s.worker ≠ .notStarted := by
        intro position
        cases ((flushing.notStarted position).1).symm.trans isLazy
      simp only [isLazy] at isOpen ⊢
      exact
        { isOpen := isOpen
          notStarted := flushing.notStarted
          position := .publish .send data tail rfl below unstaged (fun _ => running) bytes }
  | send =>
    obtain ⟨queue, published⟩ := publishTo_isSome (.one data) flushing.isOpen.receiver
    simp only [stepFrame, advanceFrame, published, Option.some.injEq] at moved
    subst moved
    refine
      { isOpen := isOpen
        notStarted := fun position => absurd position (started rfl)
        position := .settled below unstaged ?_ }
    rw [← bytes, append_assoc]
    refine congrArg (s.wire ++ ·) ?_
    simp only [TransportState.backlog, proceed,
      payloads_of_publishTo published, Publication.payload,
      append_assoc]

theorem Flushing.loop (flushing : Flushing total s)
    (stack : s.stack = frame :: rest)
    (answered : reply ≠ .failed)
    (moved : stepFrame cfg s rest reply frame = some next) :
    Flushing total next := by
  have isOpen : Open next :=
    open_of_frameMove flushing.isOpen stack
      (frameMove_of_stepFrame flushing.isOpen stack answered moved)
  have keeps : (FlushPosition total next ∧
        next.worker = s.worker ∧ next.lazyWriter = s.lazyWriter ∧
        next.writerQueue = s.writerQueue) → Flushing total next := by
    rintro ⟨pos, worker, lazyWriter, queue⟩
    refine ⟨isOpen, ?_, pos⟩
    rw [worker, lazyWriter, queue]
    exact flushing.notStarted
  cases flushing.position with
  | pending top alone bytes =>
    cases top.symm.trans stack
    exact keeps (flushPosition_pending flushing.isOpen alone bytes moved)
  | direct _ top unstaged alone bytes =>
    cases top.symm.trans stack
    exact keeps (flushPosition_direct answered unstaged alone bytes moved)
  | publish _ _ _ top below unstaged started bytes =>
    cases top.symm.trans stack
    exact flushing.publish answered below unstaged started bytes isOpen moved
  | settled frames unstaged bytes =>
    rw [stack] at frames
    obtain ⟨holds, below⟩ := forall_mem_cons.mp frames
    exact keeps (flushPosition_holdsNothing flushing.isOpen holds below unstaged bytes moved)

end Flush

/-! ## The join -/

/-- Between the flush and the join: what the socket has not taken is with the
worker or in its queue, ahead of the control commands. -/
structure Draining (total : List Byte) (control : List (WriterCommand Byte))
    (s : TransportState Byte) : Prop where
  idle : s.stack = []
  bytes : s.wire ++ s.backlog = total
  inLoop : s.worker.keepsOpen → ∃ datas, (∀ cmd ∈ datas, cmd.isData) ∧
      s.writerQueue.commands = datas ++ control
  left : s.worker.keepsOpen = false → payloads s.writerQueue.commands = [] ∧
      (s.worker = .command .stop ∨ s.worker = .exiting ∨ s.worker = .exited)
  notStarted : s.worker = .notStarted → payloads s.writerQueue.commands = []

structure NoControlSent (s : TransportState Byte) : Prop where
  workerLoop : s.worker.keepsOpen
  receiver : s.writerQueue.receiverAlive

variable {total : List Byte} {control : List (WriterCommand Byte)}

theorem Draining.workerMoves (draining : Draining total control s)
    (answered : reply ≠ .failed)
    (moved : stepWorker cfg s reply = some next) : WorkerMoves s next := by
  refine workerMoves_stepWorker answered ?_ ?_ moved
  · intro cmd pos
    have gone : s.worker.keepsOpen = false := by rw [pos]; rfl
    rcases (draining.left gone).2 with stop | exiting | exited
    · cases pos.symm.trans stop
      rfl
    · cases pos.symm.trans exiting
    · cases pos.symm.trans exited
  · intro pos
    have gone : s.worker.keepsOpen = false := by rw [pos]; rfl
    rcases (draining.left gone).2 with stop | exiting | exited <;> simp_all

/-- The worker takes the data commands in order, then `Stop`. -/
theorem Draining.worker (draining : Draining total control s)
    (stops : control = [] ∨ control = [.stop]) (answered : reply ≠ .failed)
    (moved : stepWorker cfg s reply = some next) :
    Draining total control next := by
  have moves := draining.workerMoves answered moved
  have idle : next.stack = [] := by
    rw [moves.frame]
    exact draining.idle
  have bytes := moves.wire_append_backlog.trans draining.bytes
  rcases moves.queue with ⟨same, pos⟩ | ⟨cmd, taken, inLoop, rest⟩
  · refine ⟨idle, bytes, ?_, ?_, fun fresh => absurd fresh moves.started⟩
    · rw [pos, same]
      exact draining.inLoop
    · intro gone
      have before := pos.symm.trans gone
      rw [same]
      exact ⟨(draining.left before).1, .inr (moves.leaves gone before)⟩
  · obtain ⟨datas, isData, cmds⟩ := draining.inLoop inLoop
    rw [cmds] at taken
    refine ⟨idle, bytes, ?_, ?_, fun fresh => absurd fresh moves.started⟩
    · intro stays
      rcases rest with ⟨data, -⟩ | ⟨-, gone⟩
      · cases datas with
        | nil =>
          rcases stops with rfl | rfl
          · cases taken
          · rw [nil_append, List.cons.injEq] at taken
            rw [← taken.1] at data
            cases data
        | cons _ later =>
          rw [cons_append, List.cons.injEq] at taken
          exact ⟨later, (forall_mem_cons.mp isData).2, taken.2.symm⟩
      · rw [gone] at stays
        cases stays
    · intro gone
      rcases rest with ⟨-, stays⟩ | ⟨control, pos⟩
      · cases stays.symm.trans gone
      · cases datas with
        | nil =>
          rcases stops with rfl | rfl
          · cases taken
          · rw [nil_append, List.cons.injEq] at taken
            obtain ⟨rfl, empty⟩ := taken
            rw [← empty]
            exact ⟨rfl, .inl pos⟩
        | cons =>
          rw [cons_append, List.cons.injEq] at taken
          rw [← taken.1, (forall_mem_cons.mp isData).1] at control
          cases control

theorem NoControlSent.worker (noControl : NoControlSent s)
    (draining : Draining total [] s) (answered : reply ≠ .failed)
    (moved : stepWorker cfg s reply = some next) : NoControlSent next := by
  have moves := draining.workerMoves answered moved
  have workerLoop : next.worker.keepsOpen := by
    rcases moves.queue with ⟨-, pos⟩ | ⟨cmd, taken, -, rest⟩
    · exact pos.trans noControl.workerLoop
    · obtain ⟨datas, isData, cmds⟩ := draining.inLoop noControl.workerLoop
      rcases rest with ⟨-, stays⟩ | ⟨control, -⟩
      · exact stays
      · rw [append_nil] at cmds
        rw [isData cmd (by rw [← cmds, taken]; exact mem_cons_self)] at control
        cases control
  refine ⟨workerLoop, ?_⟩
  rw [moves.receiver ?_]
  · exact noControl.receiver
  · intro pos
    rw [pos] at workerLoop
    cases workerLoop

theorem Flushing.draining (flushing : Flushing total s) (empty : s.stack = []) :
    Draining total [] s ∧ NoControlSent s := by
  have bytes : s.wire ++ s.backlog = total := by
    cases flushing.position with
    | pending stack | direct data stack | publish phase data tail stack => simp [empty] at stack
    | settled _ _ bytes => exact bytes
  have inLoop := flushing.isOpen.workerLoop
  refine ⟨⟨empty, bytes, fun _ => ?_, fun gone => ?_, fun pos => ?_⟩,
    inLoop, flushing.isOpen.receiver⟩
  · exact ⟨_, flushing.isOpen.dataOnly, (append_nil _).symm⟩
  · cases inLoop.symm.trans gone
  · exact (flushing.notStarted pos).2

theorem Draining.stop (draining : Draining total [] s)
    (noControl : NoControlSent s) :
    Draining total [.stop] (performOperation s (.sendControl .stop)) := by
  have queue : s.writerQueue.enqueue .stop = some { s.writerQueue with
      commands := s.writerQueue.commands ++ [.stop] } := by
    simp only [QueueState.enqueue, noControl.receiver, if_true]
  simp only [performOperation, queue, Option.getD_some]
  refine ⟨draining.idle, ?_, fun _ => ?_, fun gone => ?_, fun fresh => ?_⟩
  · rw [← draining.bytes]
    simp [TransportState.backlog, WriterCommand.payload]
  · obtain ⟨datas, isData, cmds⟩ := draining.inLoop noControl.workerLoop
    rw [append_nil] at cmds
    exact ⟨datas, isData, by rw [cmds]⟩
  · cases noControl.workerLoop.symm.trans gone
  · rw [payloads_append, draining.notStarted fresh]
    rfl

/-- A worker that is gone has left nothing. -/
theorem Draining.wire_eq (draining : Draining total control s)
    (gone : s.worker.isGone) : s.wire = total := by
  have empty : s.backlog = [] := by
    rw [TransportState.backlog]
    cases pos : s.worker with
    | notStarted =>
      rw [draining.notStarted pos]
      rfl
    | exited =>
      rw [(draining.left (by rw [pos]; rfl)).1]
      rfl
    | _ =>
      rw [pos] at gone
      cases gone
  have bytes := draining.bytes
  rwa [empty, append_nil] at bytes

/-! ## The hand-over -/

/-- How far the write side is in each phase of the upgrade. -/
def HandsOver (total : List Byte) (s : Upgrade Byte) : Prop :=
  match s.phase with
  | .flushing => s.stop = false ∧ Flushing total s.writing
  | .detached =>
    s.stop = false ∧ Draining total [] s.writing ∧ NoControlSent s.writing
  | .stopSent | .readerStopped => s.stop = false ∧ Draining total [.stop] s.writing
  | .joining =>
    Draining total [.stop] s.writing ∧ (s.beyondQueue →
        payloads s.writing.writerQueue.commands = [])
  | _ =>
    s.writing.stack = [] ∧ s.writing.worker.isGone ∧ s.writing.wire = total

variable {writing : TransportState Byte} {action : UpgradeAction Byte} {s next : Upgrade Byte}

theorem handsOver_stepAdvance (inv : HandsOver total s)
    (clean : CleanUpgrade s .advance)
    (moved : stepAdvance s = some next) : HandsOver total next := by
  unfold HandsOver at inv
  unfold stepAdvance at moved
  cases phase : s.phase with
  | flushing =>
    simp only [phase] at inv moved
    split_ifs at moved with empty
    cases moved
    obtain ⟨draining, noControl⟩ := inv.2.draining (List.isEmpty_iff.mp empty)
    exact ⟨inv.1, { draining with }, { noControl with }⟩
  | detached =>
    simp only [phase] at inv moved
    cases moved
    exact ⟨inv.1, inv.2.1.stop inv.2.2⟩
  | stopSent =>
    simp only [phase] at inv moved
    split_ifs at moved
    cases moved
    exact inv
  | readerStopped =>
    simp only [phase] at inv moved
    cases moved
    exact ⟨inv.2, clean phase⟩
  | joining =>
    simp only [phase] at inv moved
    split_ifs at moved with gone
    cases moved
    exact ⟨inv.1.idle, gone, inv.1.wire_eq gone⟩
  | joined =>
    simp only [phase] at inv moved
    cases moved
    exact inv
  | handshake | tlsSent => simp [phase] at moved

theorem handsOver_look (inv : HandsOver total s)
    (moved : upgradeStep cfg s .look = some next) : HandsOver total next := by
  simp only [upgradeStep] at moved
  split at moved
  next waits =>
    rw [Bool.and_eq_true, Bool.not_eq_true'] at waits
    obtain ⟨receiving, unlooked⟩ := waits
    have pos : s.writing.worker = .receive := by
      cases worker : s.writing.worker <;> first
        | rfl
        | rw [worker] at receiving; cases receiving
    have beyond : s.beyondQueue := by
      simp only [Upgrade.beyondQueue, pos, unlooked, Bool.not_false]
    unfold HandsOver at inv ⊢
    split at moved
    next raised =>
      cases moved
      cases phase : s.phase with
      | joining =>
        simp only [phase] at inv ⊢
        obtain ⟨draining, empty⟩ := inv
        have bytes := draining.bytes
        rw [TransportState.backlog, pos] at bytes
        refine ⟨?_, by simp [Upgrade.beyondQueue]⟩
        exact
          { idle := draining.idle
            bytes := bytes
            inLoop := by simp [Worker.keepsOpen]
            left := fun _ => ⟨empty beyond, .inr (.inl rfl)⟩
            notStarted := by simp }
      | flushing | detached | stopSent | readerStopped => simp [phase, raised] at inv
      | joined | handshake | tlsSent => simp [phase, pos, Worker.isGone] at inv
    next =>
      cases moved
      cases phase : s.phase with
      | joining =>
        simp only [phase] at inv ⊢
        refine ⟨inv.1, fun behind => ?_⟩
        simp [Upgrade.beyondQueue, pos] at behind
      | _ =>
        simp only [phase] at inv ⊢
        exact inv
  next => cases moved

/-- The worker gets behind its last look at the queue only with an empty one. -/
theorem beyondQueue_worker (moves : WorkerMoves s.writing writing)
    (empty : s.beyondQueue → payloads s.writing.writerQueue.commands = [])
    (beyond : { s with writing := writing, looked := false }.beyondQueue) :
    payloads writing.writerQueue.commands = [] := by
  have pos : writing.worker = .clearOnEmpty ∨
      writing.worker = .clearOnIdle ∨ writing.worker = .receive := by
    cases worker : writing.worker <;> simp_all [Upgrade.beyondQueue]
  have emptied : s.beyondQueue → s.writing.worker.held = [] →
      payloads writing.writerQueue.commands = [] := by
    intro behind held
    have backlog : s.writing.backlog = [] := by
      rw [TransportState.backlog, held, empty behind]
      rfl
    exact (append_eq_nil_iff.mp (moves.backlog_eq_nil backlog)).2
  rcases moves.beyond pos with clearing | clearing | none
  · exact emptied (by rw [Upgrade.beyondQueue, clearing]) (by rw [clearing]; rfl)
  · exact emptied (by rw [Upgrade.beyondQueue, clearing]) (by rw [clearing]; rfl)
  · rw [none]
    rfl

section

variable (inv : HandsOver total s)

include inv

theorem handsOver_worker (answered : reply ≠ .failed)
    (moved : upgradeStep cfg s (.worker reply) = some next) :
    HandsOver total next := by
  simp only [upgradeStep] at moved
  split at moved
  · cases moved
  obtain ⟨writing, stepped, rfl⟩ := Option.map_eq_some_iff.mp moved
  unfold HandsOver at inv ⊢
  have stays : s.writing.worker.isGone → False := by
    intro gone
    cases pos : s.writing.worker with
    | notStarted | exited => simp [stepWorker, pos] at stepped
    | _ =>
      rw [pos] at gone
      cases gone
  cases phase : s.phase with
  | flushing =>
    simp only [phase] at inv ⊢
    exact ⟨inv.1, inv.2.worker answered stepped⟩
  | detached =>
    simp only [phase] at inv ⊢
    exact ⟨inv.1, inv.2.1.worker (.inl rfl) answered stepped,
      inv.2.2.worker inv.2.1 answered stepped⟩
  | stopSent | readerStopped =>
    simp only [phase] at inv ⊢
    exact ⟨inv.1, inv.2.worker (.inr rfl) answered stepped⟩
  | joining =>
    simp only [phase] at inv ⊢
    refine ⟨inv.1.worker (.inr rfl) answered stepped, ?_⟩
    exact beyondQueue_worker (inv.1.workerMoves answered stepped) inv.2
  | joined | handshake | tlsSent =>
    simp only [phase] at inv
    exact (stays inv.2.1).elim

theorem handsOver_loop (answered : reply ≠ .failed)
    (moved : upgradeStep cfg s (.loop reply) = some next) :
    HandsOver total next := by
  simp only [upgradeStep] at moved
  cases stack : s.writing.stack with
  | nil => simp [stack] at moved
  | cons =>
    rw [stack] at moved
    obtain ⟨writing, stepped, rfl⟩ := Option.map_eq_some_iff.mp moved
    unfold HandsOver at inv ⊢
    cases phase : s.phase with
    | flushing =>
      simp only [phase] at inv ⊢
      exact ⟨inv.1, inv.2.loop stack answered stepped⟩
    | detached =>
      simp only [phase] at inv
      simp [inv.2.1.idle] at stack
    | stopSent | readerStopped =>
      simp only [phase] at inv
      simp [inv.2.idle] at stack
    | joining =>
      simp only [phase] at inv
      simp [inv.1.idle] at stack
    | joined | handshake | tlsSent => simp [phase, stack] at inv

theorem HandsOver.frame (reading : ReadState Byte) (dropped : List Byte) :
    HandsOver total { s with reading := reading, dropped := dropped } :=
  inv

theorem handsOver_upgradeStep (succeeds : action.succeeds)
    (clean : CleanUpgrade s action)
    (moved : upgradeStep cfg s action = some next) :
    HandsOver total next := by
  cases action with
  | loop =>
    refine handsOver_loop inv ?_ moved
    rintro rfl
    cases succeeds
  | advance => exact handsOver_stepAdvance inv clean moved
  | joinTimesOut => exact clean.elim
  | look => exact handsOver_look inv moved
  | worker =>
    refine handsOver_worker inv ?_ moved
    rintro rfl
    cases succeeds
  | reader =>
    simp only [upgradeStep] at moved
    split at moved
    · obtain ⟨reading, -, rfl⟩ := Option.map_eq_some_iff.mp moved
      exact inv.frame reading s.dropped
    · unfold stepDetachedReader at moved
      repeat' split at moved
      all_goals
        cases moved
        try exact inv.frame _ _
  | producer =>
    obtain ⟨reading, -, rfl⟩ := Option.map_eq_some_iff.mp moved
    exact inv.frame reading s.dropped
  | firstTlsByte =>
    simp only [upgradeStep] at moved
    split_ifs at moved with phase
    cases moved
    simp only [HandsOver, phase] at inv
    exact inv

end

/-! ## The read side -/

/-- Nothing has been read that the protocol has not received. -/
structure NothingRead (s : Upgrade Byte) : Prop where
  delivered : s.reading.undelivered = []
  dropped : s.dropped = []

theorem undelivered_enqueue {reading : ReadState Byte}
    {event : PendingReadEvent Byte}
    {fromReader : Bool} (dry : reading.undelivered = [])
    (empty : tokenBytes event.tokens = []) :
    (reading.enqueuePendingReadEvent event fromReader).undelivered = [] := by
  unfold ReadState.enqueuePendingReadEvent
  split
  · exact dry
  · obtain ⟨held, drained, queued⟩ := undelivered_eq_nil.mp dry
    refine undelivered_eq_nil.mpr ⟨held, drained, ?_⟩
    have last : eventBytes [event] = [] := eventBytes_cons_eq_nil.mpr ⟨empty, rfl⟩
    rw [eventBytes] at queued last
    rw [eventBytes, eventTokens_append]
    exact bytes_append_eq_nil.mpr ⟨queued, last⟩

theorem undelivered_stepReader {reading after : ReadState Byte}
    {reply : ReaderReply Byte}
    (dry : reading.undelivered = []) (noData : ∀ bytes, reply ≠ .data bytes)
    (moved : stepReader reading reply = some after) : after.undelivered = [] := by
  unfold stepReader at moved
  split at moved
  · cases moved
    exact dry
  · split at moved
    · cases moved
      exact undelivered_enqueue dry rfl
    · split_ifs at moved
      cases moved
      exact dry
  · cases reply with
    | data bytes => exact absurd rfl (noData bytes)
    | eof | failed message =>
      cases moved
      exact undelivered_enqueue dry rfl
    | wouldBlock =>
      cases moved
      exact dry
  · repeat' split at moved
    all_goals
      cases moved
      exact dry
  · cases moved
  · cases moved

theorem nothingRead_stepDetachedReader {reply : ReaderReply Byte}
    (inv : NothingRead s)
    (noData : ∀ bytes, reply ≠ .data bytes)
    (moved : stepDetachedReader s reply = some next) :
    NothingRead next := by
  have nothingMore : s.dropped ++ [] = [] := by
    rw [inv.dropped]
    rfl
  unfold stepDetachedReader at moved
  split at moved
  iterate 3
    · cases moved
      exact ⟨inv.delivered, nothingMore⟩
  · cases reply with
    | data bytes => exact absurd rfl (noData bytes)
    | eof | wouldBlock | failed message =>
      cases moved
      exact ⟨inv.delivered, nothingMore⟩
  · cases moved
  · cases moved

theorem nothingRead_stepAdvance (inv : NothingRead s)
    (moved : stepAdvance s = some next) :
    NothingRead next := by
  unfold stepAdvance at moved
  repeat' split at moved
  all_goals
    cases moved
    try exact ⟨inv.delivered, inv.dropped⟩

theorem nothingRead_upgradeStep (inv : NothingRead s)
    (clean : CleanUpgrade s action)
    (moved : upgradeStep cfg s action = some next) : NothingRead next := by
  cases action with
  | loop reply | worker reply =>
    simp only [upgradeStep] at moved
    split at moved
    · cases moved
    · obtain ⟨writing, -, rfl⟩ := Option.map_eq_some_iff.mp moved
      exact ⟨inv.delivered, inv.dropped⟩
  | advance => exact nothingRead_stepAdvance inv moved
  | joinTimesOut => exact clean.elim
  | look =>
    simp only [upgradeStep] at moved
    split at moved
    · split at moved
      · cases moved
        exact ⟨inv.delivered, inv.dropped⟩
      · cases moved
        exact ⟨inv.delivered, inv.dropped⟩
    · cases moved
  | reader reply =>
    have noData : ∀ bytes, reply ≠ .data bytes := by
      rintro bytes rfl
      exact clean
    simp only [upgradeStep] at moved
    split at moved
    · obtain ⟨reading, stepped, rfl⟩ := Option.map_eq_some_iff.mp moved
      exact ⟨undelivered_stepReader inv.delivered noData stepped, inv.dropped⟩
    · exact nothingRead_stepDetachedReader inv noData moved
  | producer =>
    obtain ⟨reading, stepped, rfl⟩ := Option.map_eq_some_iff.mp moved
    have moves := producerMoves_of_stepProducer stepped
    refine ⟨dry_of_same ?_ ?_ ?_ inv.delivered, inv.dropped⟩
    · rw [moves.keeps]
    · rw [moves.keeps]
    · rw [moves.keeps]
      exact id
  | firstTlsByte =>
    simp only [upgradeStep] at moved
    split_ifs at moved
    cases moved
    exact ⟨inv.delivered, inv.dropped⟩

theorem flushing_start (plaintext : Plaintext writing)
    (alone : writing.staged = [] ∨ writing.backlog = []) :
    Flushing (writing.wire ++ writing.unsent)
      { writing with stack := [.flushPendingDirectWrite] } where
  isOpen := { plaintext.isOpen with frames := by simp [Frame.keepsOpen], belowTop := by simp }
  notStarted := plaintext.notStarted
  position := .pending rfl alone (append_assoc _ _ _)

/-- If at the start of the upgrade all read bytes have been delivered and not
both the loop thread and the worker have bytes to send, and the upgrade runs
cleanly, then nothing is lost when the first byte of TLS is sent. -/
theorem nothingLost_of_cleanUpgrade (cfg : TransportConfig)
    {writing : TransportState Byte} {reading : ReadState Byte}
    {looked : Bool} {actions : List (UpgradeAction Byte)}
    {s : Upgrade Byte}
    (plaintext : Plaintext writing)
    (noErrors : ∀ action ∈ actions, action.succeeds)
    (alone : writing.staged = [] ∨ writing.backlog = [])
    (delivered : reading.undelivered = [])
    (clean : Guarded (upgradeStep cfg) CleanUpgrade
      (Upgrade.start writing reading looked) actions)
    (reached :
      run (upgradeStep cfg) (Upgrade.start writing reading looked) actions = some s)
    (handedOver : s.phase = .tlsSent) : NothingLost writing s := by
  have succeeds : Guarded (upgradeStep cfg) (fun _ action => action.succeeds)
      (Upgrade.start writing reading looked) actions :=
    guarded_of_forall fun action member _ => noErrors action member
  have handsOver : HandsOver (writing.wire ++ writing.unsent) s := by
    refine invariant_of_run (HandsOver _) ?_ ?_ (succeeds.and clean) reached
    · rintro before action after inv ⟨succeeds, clean⟩ moved
      exact handsOver_upgradeStep inv succeeds clean moved
    · exact ⟨rfl, flushing_start plaintext alone⟩
  have nothingRead : NothingRead s := by
    refine invariant_of_run NothingRead ?_ ⟨delivered, rfl⟩ clean reached
    intro before action after inv clean moved
    exact nothingRead_upgradeStep inv clean moved
  simp only [HandsOver, handedOver] at handsOver
  exact ⟨handsOver.2.2, nothingRead.delivered, nothingRead.dropped⟩

/-- A write has found the socket full, and its bytes wait for the worker. -/
def queuedTransport : TransportState UInt8 :=
  { TransportState.new (socketConfig false) with
    writerRegistered := true
    writeBuffer := { StreamWriteBufferState.new with size := 2 }
    writerQueue := { commands := [.data (.fromPython [1, 2])], receiverAlive := true }
    lazyWriter := false
    worker := .receive
    written := [1, 2] }

def writeBlocked : List (Action UInt8) :=
  [.write [1, 2] true, .loop .done, .loop .wouldBlock, .loop .done,
    .loop .done, .loop .done, .loop .done]

theorem queuedTransport_reached :
    run (step (socketConfig false)) (TransportState.new (socketConfig false))
      writeBlocked = some queuedTransport := by
  decide

theorem plaintext_queuedTransport : Plaintext queuedTransport where
  isOpen :=
    { open_new (socketConfig false) with
      dataOnly := by decide
      receiver := rfl
      workerLoop := rfl
      lazyIdle := by decide }
  between := rfl
  notStarted := by decide

/-- The worker takes the queued bytes while the loop thread detaches, and
`Stop` behind them. -/
def workerFinishes : List (UpgradeAction UInt8) :=
  [.loop .done, .advance, .worker .done, .advance, .advance,
    .worker (.wrote 1), .advance, .worker (.wrote 1), .worker .done,
    .worker .done, .worker .done, .worker .done, .worker .done, .advance,
    .advance, .firstTlsByte]

theorem nothingLost_of_workerFinishes : ∃ s, run (upgradeStep (socketConfig false))
          (Upgrade.start queuedTransport (ReadState.new plainProtocol) true)
          workerFinishes = some s ∧
        s.writing.wire = [1, 2] ∧ NothingLost queuedTransport s := by
  refine exists_run_imp
    (fun s => s.phase = .tlsSent ∧ s.writing.wire = [1, 2]) (by decide) ?_
  rintro s reached ⟨phase, wire⟩
  exact ⟨wire, nothingLost_of_cleanUpgrade (socketConfig false) plaintext_queuedTransport (by
    decide) (by decide) (by decide) (by decide) reached phase⟩

/-- The worker has not received anything yet when `abort_workers` raises its
stop flag. -/
def workerSeesFlag : List (UpgradeAction UInt8) :=
  [.loop .done, .advance, .advance, .advance, .advance, .look, .worker .done,
    .advance, .advance, .firstTlsByte]

/-- The reader has posted a chunk that no drain has delivered yet. -/
def chunkQueued : List (ReadAction UInt8) :=
  [.reader .wouldBlock, .reader .wouldBlock, .reader (.data [7]), .producer 0,
    .producer 0, .producer 0]

def idleUpgrade : List (UpgradeAction UInt8) :=
  [.loop .done, .advance, .advance, .advance, .advance, .advance, .advance, .firstTlsByte]

/-- The queued bytes of a write never reach the socket, and a chunk read before
the upgrade never reaches the protocol. -/
theorem plaintext_lost : run (step (socketConfig false)) (TransportState.new (socketConfig false))
        writeBlocked = some queuedTransport ∧
      (∃ s, run (upgradeStep (socketConfig false))
            (Upgrade.start queuedTransport (ReadState.new plainProtocol) false)
            workerSeesFlag = some s ∧
          s.phase = .tlsSent ∧ queuedTransport.written = [1, 2] ∧
          s.writing.wire = []) ∧
      ∃ reading s last, run (readStep plainProtocol) (ReadState.new plainProtocol)
            chunkQueued = some reading ∧
          run (upgradeStep (socketConfig false))
            (Upgrade.start (TransportState.new (socketConfig false)) reading
              false) idleUpgrade = some s ∧
          s.phase = .tlsSent ∧ s.reading.undelivered = [7] ∧
          run (readStep plainProtocol) s.reading
            (.startDrain :: List.replicate 9 (.drain (.returned true))) = some last ∧
          last.undelivered = [] ∧ last.log = [] := by
  refine ⟨queuedTransport_reached, ?_, ?_⟩
  · exact exists_run_of_any (upgradeStep (socketConfig false))
      (Upgrade.start queuedTransport (ReadState.new plainProtocol) false)
      workerSeesFlag
      (fun s => s.phase = .tlsSent ∧
        queuedTransport.written = [1, 2] ∧ s.writing.wire = [])
      (by decide)
  · obtain ⟨reading, posted, later⟩ :=
      exists_run_of_any (readStep plainProtocol) (ReadState.new plainProtocol) chunkQueued
        (fun reading =>
          (run (upgradeStep (socketConfig false))
            (Upgrade.start (TransportState.new (socketConfig false)) reading
              false) idleUpgrade).any (fun s =>
                s.phase = .tlsSent ∧ s.reading.undelivered = [7] ∧
                  (run (readStep plainProtocol) s.reading (.startDrain ::
                      List.replicate 9 (.drain (.returned true)))).any
                    (fun last => last.undelivered = [] ∧ last.log = [])))
        (by decide)
    obtain ⟨s, upgraded, later⟩ := (Option.any_eq_true _ _).mp later
    obtain ⟨phase, undelivered, later⟩ := of_decide_eq_true later
    obtain ⟨last, drained, ended⟩ := (Option.any_eq_true _ _).mp later
    exact ⟨reading, s, last, posted, upgraded, phase, undelivered, drained,
      of_decide_eq_true ended⟩

end Rsloop.Stream
