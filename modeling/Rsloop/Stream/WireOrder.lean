import Rsloop.Stream.OpenSteps

/-!
# Wire order

Bytes wait in three places on their way to the socket: the staged buffer, the
writer queue and the buffer the worker holds. A write bypasses all of them
while the backpressure flag is down. The worker takes the flag down in a step of
its own, after it has seen the queue empty, so a write that was decided in
between is still in the queue when the flag falls, and the next write overtakes
it. Order is kept in every run in which the flag only falls while nothing is
queued or about to be queued.
-/

namespace Rsloop.Stream

open Transition List

variable {Byte : Type}

/-! ## Conditions on runs -/

def Action.isWrite : Action Byte → Bool
  | .write _ _ | .writelines _ => true
  | _ => false

/-- Nobody closes the transport, nothing fails, and no write is called from
inside a protocol callback. -/
def PlainWrites (s : TransportState Byte) (action : Action Byte) : Prop :=
  action.keepsOpen ∧ (action.isWrite → s.stack = [])

/-- The loop thread has decided to queue its bytes, relying on the raised
flag, and has not pushed them yet. -/
def Frame.publishes : Frame Byte → Bool
  | .tryWriteBytesWithStatus _ true => true
  | .queueWrite _ | .publish .ensureWorker _ _ | .publish .send _ _ => true
  | _ => false

def Worker.clearsBackpressure : Worker Byte → Bool
  | .clearOnEmpty | .clearOnIdle => true
  | _ => false

/-- The bytes whose length the next step of a frame adds to the write buffer. -/
def Frame.recordedBytes : Frame Byte → List Byte
  | .queueWrite data | .stageDirectWriteBuffer data => data.remaining
  | .queueWriteBatch buffers => buffers.flatMap OwnedWriteBuffer.remaining
  | _ => []

/-- The worker takes the flag down only while nothing is queued or about to be
queued, and the write cap refuses nothing. -/
def TimelyClears (cfg : TransportConfig) (s : TransportState Byte) : Action Byte → Prop
  | .worker _ =>
    s.worker.clearsBackpressure → s.writerQueue.commands = [] ∧
        ∀ frame ∈ s.stack.head?, frame.publishes = false
  | .loop _ =>
    ∀ frame ∈ s.stack.head?, (s.writeBuffer.enqueueWriteBuffer frame.recordedBytes.length
        cfg.maxWriteBufferSize).isSome
  | _ => True

instance decidablePlainWrites (s : TransportState Byte) (action : Action Byte) :
    Decidable (PlainWrites s action) :=
  inferInstanceAs (Decidable (_ ∧ _))

instance decidableTimelyClears (cfg : TransportConfig) (s : TransportState Byte) :
    ∀ action : Action Byte, Decidable (TimelyClears cfg s action)
  | .worker _ => inferInstanceAs (Decidable (_ → _))
  | .loop _ => inferInstanceAs (Decidable (∀ _ ∈ s.stack.head?, _))
  | .write _ _ | .writelines _ | .close | .abort | .writeEof | .setWriteBufferLimits _ _ | .flush
  | .drainEvent | .peerEof | .nextTurn | .enterRun | .leaveRun => .isTrue trivial

/-! ## The invariant -/

/-- Frames that can stand above a flush that is still to be scheduled. -/
def Frame.announces : Frame Byte → Bool
  | .setWriteBufferLimits _ _ | .notifyPauseWriting | .notifyResumeWriting | .protocolCall _
  | .running _ => true
  | _ => false

/-- What the loop thread relies on in a frame. -/
def Frame.Ready (s : TransportState Byte) : Frame Byte → Prop
  | .tryWriteBytesWithStatus _ active => s.writerRegistered = active
  | .tryDirectWrite _ => s.writerRegistered = false ∧ s.pendingDirectWrite = none
  | .activateQueueWrite _ => s.pendingDirectWrite = none
  | .queueWrite _ => s.writerRegistered
  | .publish .activate _ _ => s.pendingDirectWrite = none
  | .publish _ _ _ => s.writerRegistered
  | .stageDirectWriteBuffer _ | .stageOwnedBuffer _ _ => s.writerRegistered = false
  | .flushDirectWrite _
  | .tryDirectWriteVectored _ => s.writerRegistered = false ∧ s.pendingDirectWrite = none
  | .activateQueueSegments _ _ | .queueWriteBatch _ => s.pendingDirectWrite = none
  | _ => True

/-- The three holding places in order, followed by the bytes in the loop
thread's hand; and the flag tells where bytes can be. -/
structure Accounts (s : TransportState Byte) (hand : List Byte) : Prop where
  total : s.written =
    s.wire ++ s.worker.held ++ payloads s.writerQueue.commands ++ s.staged ++ hand
  quiet : s.writerRegistered = false →
    s.worker.held = [] ∧ payloads s.writerQueue.commands = []
  stagedQuiet : s.pendingDirectWrite ≠ none → s.writerRegistered = false

/-- Sent and held bytes are the written ones in order, and staged bytes get flushed. -/
structure WireOrder (s : TransportState Byte) : Prop where
  accounts : Accounts s (s.stack.flatMap Frame.bytes)
  scheduled : s.pendingDirectWrite ≠ none →
    s.directWriteScheduled ∨ Frame.scheduleFlush ∈ s.stack
  below : s.stack.Pairwise fun upper lower =>
    lower = .scheduleFlush → upper.announces
  ready : ∀ frame ∈ s.stack.head?, frame.Ready s

variable {s : TransportState Byte} {frame : Frame Byte}

theorem Frame.ready_of_settled (settled : frame.settled) : frame.Ready s := by
  cases frame <;> trivial

theorem wireOrder_new (cfg : TransportConfig) :
    WireOrder (TransportState.new cfg : TransportState Byte) where
  accounts :=
    { total := by
        simp only [TransportState.new, TransportState.staged, QueueState.new]
        split <;> rfl
      quiet := by
        intro _
        simp only [TransportState.new, QueueState.new]
        split <;> exact ⟨rfl, rfl⟩
      stagedQuiet := fun _ => rfl }
  scheduled := by simp [TransportState.new]
  below := by simp [TransportState.new]
  ready := by simp [TransportState.new]

variable {rest : List (Frame Byte)}

theorem WireOrder.accounts_top (inv : WireOrder s)
    (stack : s.stack = frame :: rest)
    (settled : ∀ other ∈ rest, other.settled) : Accounts s frame.bytes := by
  have accounts := inv.accounts
  rwa [stack, flatMap_cons, flatMap_bytes_of_settled settled, append_nil] at accounts

theorem Frame.Ready.congr {after : TransportState Byte} (ready : frame.Ready s)
    (sameFlag : after.writerRegistered = s.writerRegistered)
    (samePending : after.pendingDirectWrite = s.pendingDirectWrite) :
    frame.Ready after := by
  cases frame with
  | publish phase => cases phase <;> simp_all [Frame.Ready]
  | _ => simp_all [Frame.Ready]

variable {frames : List (Frame Byte)}

theorem flatMap_bytes_proceed (settled : ∀ other ∈ rest, other.settled) :
    (s.proceed frames rest).stack.flatMap Frame.bytes = frames.flatMap Frame.bytes := by
  change (frames ++ rest).flatMap Frame.bytes = _
  rw [flatMap_append, flatMap_bytes_of_settled settled, append_nil]

/-- A flush that is scheduled, or about to be, stays so when the stack changes
above the frame that schedules it. -/
theorem flushScheduled {after : TransportState Byte}
    (scheduled : s.pendingDirectWrite ≠ none → s.directWriteScheduled ∨
        Frame.scheduleFlush ∈ s.stack)
    (below : Frame.scheduleFlush ∈ s.stack → Frame.scheduleFlush ∈ rest)
    (samePending : after.pendingDirectWrite = s.pendingDirectWrite)
    (sameScheduled : after.directWriteScheduled = s.directWriteScheduled)
    (pending : after.pendingDirectWrite ≠ none) :
    after.directWriteScheduled ∨ Frame.scheduleFlush ∈ frames ++ rest := by
  rw [samePending] at pending
  rw [sameScheduled]
  exact (scheduled pending).imp_right fun mem => mem_append_right _ (below mem)

theorem scheduleFlush_below (stack : s.stack = frame :: rest)
    (other : frame ≠ .scheduleFlush) (mem : Frame.scheduleFlush ∈ s.stack) :
    Frame.scheduleFlush ∈ rest := by
  rw [stack] at mem
  exact (mem_cons.mp mem).resolve_left other.symm

/-- Frames of which at most the first holds bytes, above others that wait. -/
theorem WireOrder.proceed (settled : ∀ other ∈ rest, other.settled)
    (accounts : Accounts s (frames.flatMap Frame.bytes))
    (scheduled : s.pendingDirectWrite ≠ none → s.directWriteScheduled ∨
        Frame.scheduleFlush ∈ frames ++ rest)
    (below : (frames ++ rest).Pairwise fun upper lower =>
      lower = .scheduleFlush → upper.announces)
    (ready : ∀ new ∈ frames.head?, new.Ready s) :
    WireOrder (s.proceed frames rest) where
  accounts := by
    rw [flatMap_bytes_proceed settled]
    exact { accounts with }
  scheduled := scheduled
  below := below
  ready := by
    intro frame mem
    cases frames with
    | nil =>
      have inRest : frame ∈ rest := mem_of_mem_head? mem
      exact Frame.ready_of_settled (settled frame inRest)
    | cons =>
      cases mem
      exact (ready frame rfl).congr rfl rfl

/-! ## Steps of the loop thread -/

variable {new : Frame Byte} {cfg : TransportConfig} {s : TransportState Byte}
  {frame : Frame Byte} {rest : List (Frame Byte)}

section

variable (inv : WireOrder s)

include inv

section

variable (stack : s.stack = frame :: rest)

include stack

theorem WireOrder.ready_top : frame.Ready s :=
  inv.ready frame (by rw [stack]; rfl)

theorem WireOrder.below_top :
    (∀ lower ∈ rest, lower = .scheduleFlush → frame.announces) ∧
      rest.Pairwise fun upper lower =>
        lower = .scheduleFlush → upper.announces := by
  have below := inv.below
  rw [stack] at below
  exact pairwise_cons.mp below

theorem WireOrder.unscheduled_below (silent : frame.announces = false) :
    Frame.scheduleFlush ∉ rest := by
  intro mem
  cases silent.symm.trans ((inv.below_top stack).1 _ mem rfl)

theorem WireOrder.below_silent (silent : frame.announces = false) :
    (new :: rest).Pairwise fun upper lower =>
      lower = .scheduleFlush → upper.announces := by
  refine pairwise_cons.mpr ⟨?_, (inv.below_top stack).2⟩
  rintro lower mem rfl
  exact absurd mem (inv.unscheduled_below stack silent)

theorem WireOrder.unstaged (silent : frame.announces = false)
    (other : frame ≠ .scheduleFlush)
    (idle : s.directWriteScheduled = false) : s.pendingDirectWrite = none := by
  by_contra pending
  rcases inv.scheduled pending with scheduled | mem
  · cases idle.symm.trans scheduled
  · exact inv.unscheduled_below stack silent (scheduleFlush_below stack other mem)

end

end

theorem Accounts.unstaged {hand : List Byte} (accounts : Accounts s hand)
    (active : s.writerRegistered) : s.pendingDirectWrite = none := by
  by_contra pending
  cases active.symm.trans (accounts.stagedQuiet pending)

variable {after : TransportState Byte} {frames : List (Frame Byte)}

section

variable (inv : WireOrder s) (stack : s.stack = frame :: rest)
  (settled : ∀ other ∈ rest, other.settled) (other : frame ≠ .scheduleFlush)

include inv stack settled other

/-- The frame on top makes room for others and leaves the staged bytes to
their flush. -/
theorem WireOrder.continueWith
    (above : frame.announces = false ∨ ∀ new ∈ frames, new.announces)
    (inside : frames.Pairwise fun upper lower =>
      lower = .scheduleFlush → upper.announces)
    (samePending : after.pendingDirectWrite = s.pendingDirectWrite)
    (sameScheduled : after.directWriteScheduled = s.directWriteScheduled)
    (accounts : Accounts after (frames.flatMap Frame.bytes))
    (ready : ∀ new ∈ frames.head?, new.Ready after) :
    WireOrder (after.proceed frames rest) := by
  refine WireOrder.proceed settled accounts ?_ ?_ ready
  · exact flushScheduled inv.scheduled (scheduleFlush_below stack other) samePending sameScheduled
  · refine pairwise_append.mpr ⟨inside, (inv.below_top stack).2, ?_⟩
    rintro upper new lower mem rfl
    rcases above with silent | announces
    · exact absurd mem (inv.unscheduled_below stack silent)
    · exact announces upper new

theorem WireOrder.replace (above : frame.announces = false ∨ new.announces)
    (samePending : after.pendingDirectWrite = s.pendingDirectWrite)
    (sameScheduled : after.directWriteScheduled = s.directWriteScheduled)
    (accounts : Accounts after new.bytes) (ready : new.Ready after) :
    WireOrder (after.proceed [new] rest) := by
  refine inv.continueWith stack settled other (by simpa using above)
    (pairwise_singleton _ _) samePending sameScheduled
    (by simpa using accounts) ?_
  intro top mem
  cases mem
  exact ready

theorem WireOrder.finish
    (samePending : after.pendingDirectWrite = s.pendingDirectWrite)
    (sameScheduled : after.directWriteScheduled = s.directWriteScheduled)
    (accounts : Accounts after []) : WireOrder (after.proceed [] rest) :=
  inv.continueWith stack settled other (.inr (by simp)) .nil samePending
    sameScheduled accounts (by simp)

end

theorem Accounts.sent {bytes : List Byte} (accounts : Accounts s bytes)
    (idle : s.writerRegistered = false)
    (unstaged : s.pendingDirectWrite = none) (count : Nat) :
    Accounts (s.sent bytes count) (bytes.drop count) := by
  obtain ⟨held, queued⟩ := accounts.quiet idle
  refine { accounts with total := ?_ }
  have total := accounts.total
  rw [held, queued, staged_of_none unstaged] at total
  change s.written = (s.wire ++ bytes.take count) ++ s.worker.held ++
      payloads s.writerQueue.commands ++ s.staged ++ bytes.drop count
  rw [held, queued, staged_of_none unstaged, total]
  simp

/-- Pushing the bytes in hand while the flag is up. -/
theorem Accounts.published {what : Publication Byte} {queue : QueueState Byte}
    (accounts : Accounts s what.payload) (active : s.writerRegistered)
    (published : publishTo s.writerQueue what = some queue) :
    Accounts { s with writerQueue := queue } [] := by
  refine { total := ?_, quiet := fun idle => ?_, stagedQuiet := accounts.stagedQuiet }
  · have total := accounts.total
    rw [staged_of_none (accounts.unstaged active)] at total
    change s.written = s.wire ++ s.worker.held ++
      payloads queue.commands ++ s.staged ++ []
    rw [staged_of_none (accounts.unstaged active), payloads_of_publishTo published, total]
    simp
  · cases active.symm.trans idle

theorem Accounts.activated {hand : List Byte} (accounts : Accounts s hand)
    (unstaged : s.pendingDirectWrite = none) :
    Accounts { s with writerRegistered := true } hand where
  total := accounts.total
  quiet := by simp
  stagedQuiet := fun pending => absurd unstaged pending

variable {data : OwnedWriteBuffer Byte}

theorem Accounts.stage (accounts : Accounts s data.remaining)
    (idle : s.writerRegistered = false) :
    Accounts
      { s with
        pendingDirectWrite := some (match s.pendingDirectWrite with
          | some buf => buf.extendFromSlice data.remaining
          | none => data) } [] := by
  refine { total := ?_, quiet := accounts.quiet, stagedQuiet := fun _ => idle }
  have total := accounts.total
  simp only [TransportState.staged] at total ⊢
  cases pending : s.pendingDirectWrite with
  | none | some buf =>
    rw [pending] at total
    simpa using total

theorem Accounts.unstage (accounts : Accounts s []) : Accounts
      { s with directWriteScheduled := false, pendingDirectWrite := none }
      s.staged where
  total := by simpa using accounts.total
  quiet := accounts.quiet
  stagedQuiet := by simp

theorem wireOrder_staged {pauses : Bool} (inv : WireOrder s)
    (stack : s.stack = .stageOwnedBuffer data pauses :: rest)
    (settled : ∀ other ∈ rest, other.settled) :
    WireOrder ({ s with
      pendingDirectWrite := some (match s.pendingDirectWrite with
        | some buf => buf.extendFromSlice data.remaining
        | none => data) }.proceed
      (if pauses then [.notifyPauseWriting, .scheduleFlush]
        else [.scheduleFlush]) rest) := by
  have staged := (inv.accounts_top stack settled).stage (inv.ready_top stack)
  cases pauses with
  | false =>
    exact .proceed settled staged (fun _ => .inr mem_cons_self)
      (inv.below_silent stack rfl) (by simp [Frame.Ready])
  | true =>
    refine .proceed settled staged (fun _ => .inr (by simp)) ?_ (by simp [Frame.Ready])
    exact pairwise_cons.mpr ⟨fun _ _ _ => rfl, inv.below_silent stack rfl⟩

theorem WireOrder.signalFrames (inv : WireOrder s)
    (stack : s.stack = frame :: rest)
    (settled : ∀ other ∈ rest, other.settled)
    (other : frame ≠ .scheduleFlush) (empty : frame.bytes = [])
    (writeBuffer : StreamWriteBufferState) (signal : WriteBufferSignal) :
    WireOrder ({ s with writeBuffer := writeBuffer }.proceed (signalFrames signal) rest) := by
  have accounts := inv.accounts_top stack settled
  rw [empty] at accounts
  cases signal with
  | none => exact inv.finish stack settled other rfl rfl { accounts with }
  | pause | resume =>
    exact inv.replace stack settled other (.inr rfl) rfl rfl { accounts with } trivial

theorem inactive_of_toSocket {active : Bool}
    (toSocket : (cfg.directWriter && !active)) : active = false := by
  simpa using (Bool.and_eq_true_iff.mp toSocket).2

/-- Each choice gives the next frame what it relies on. -/
theorem WireOrder.ready_of_routes (direct : cfg.directWriter)
    (inv : WireOrder s) (stack : s.stack = frame :: rest)
    (routes : Routes cfg s frame new) : new.Ready s := by
  have ready := inv.ready_top stack
  cases routes with
  | status => rfl
  | stageBytes _ _ toSocket => exact Eq.trans ready (inactive_of_toSocket toSocket)
  | sendBytes _ _ toSocket unscheduled =>
    exact ⟨Eq.trans ready (inactive_of_toSocket toSocket),
      inv.unstaged stack rfl (by simp) unscheduled⟩
  | queueBytes _ active queues =>
    change s.writerRegistered = active at ready
    change s.writerRegistered
    simpa [ready, direct] using queues
  | gather segs _ _ toSocket unscheduled | sendBuffer data toSocket unscheduled _ =>
    exact ⟨inactive_of_toSocket toSocket, inv.unstaged stack rfl (by simp) unscheduled⟩
  | batch _ _ _ unscheduled => exact inv.unstaged stack rfl (by simp) unscheduled
  | stageBuffer _ toSocket => exact inactive_of_toSocket toSocket
  | queueBuffer _ queues =>
    change s.writerRegistered
    simpa [direct, TransportState.writeBackpressureActive] using queues
  | blockedWrite data | blockedFlush data | blockedGather segs => exact ready.2
  | _ => trivial

/-- What the socket has not taken goes on in other frames. -/
theorem wireOrder_sent {count : Nat} (inv : WireOrder s)
    (stack : s.stack = frame :: rest)
    (settled : ∀ other ∈ rest, other.settled) (sends : Sends frame count frames) :
    WireOrder ((s.sent frame.bytes count).proceed frames rest) := by
  have ready : s.writerRegistered = false ∧ s.pendingDirectWrite = none := by
    have top := inv.ready_top stack
    cases sends <;> exact top
  have sent := (inv.accounts_top stack settled).sent ready.1 ready.2 count
  rw [← sends.bytes_eq] at sent
  refine inv.continueWith stack settled (by cases sends <;> simp)
    (.inl (by cases sends <;> rfl)) (by cases sends <;> simp) rfl rfl sent ?_
  intro new mem
  cases sends <;> cases mem <;> first | exact ready.2 | trivial

theorem wireOrder_of_frameMove {next : TransportState Byte}
    (direct : cfg.directWriter)
    (inv : WireOrder s) (isOpen : Open s) (stack : s.stack = frame :: rest)
    (fits : (s.writeBuffer.enqueueWriteBuffer frame.recordedBytes.length
      cfg.maxWriteBufferSize).isSome)
    (move : FrameMove cfg s rest frame next) : WireOrder next := by
  have settled := isOpen.settled_below stack
  have accounts := inv.accounts_top stack settled
  have ready := inv.ready_top stack
  cases move with
  | routed _ routes =>
    refine inv.replace stack settled (by cases routes <;> simp)
      (.inl (by cases routes <;> rfl)) rfl rfl ?_ ?_
    · rw [routes.bytes_eq]
      exact { accounts with }
    · exact (inv.ready_of_routes direct stack routes).congr rfl rfl
  | finished finishes =>
    rw [finishes.bytes_eq] at accounts
    exact inv.finish stack settled (by cases finishes <;> simp) rfl rfl accounts
  | refused records full =>
    have same : frame.recordedBytes = frame.bytes := by cases records <;> rfl
    rw [same, full] at fits
    cases fits
  | recorded records =>
    refine inv.replace stack settled (by cases records <;> simp)
      (.inl (by cases records <;> rfl)) rfl rfl ?_
      (by cases records <;> exact ready)
    rw [records.bytes_eq]
    exact { accounts with }
  | activated activates =>
    refine inv.replace stack settled (by cases activates <;> simp)
      (.inl (by cases activates <;> rfl)) rfl rfl ?_
      (by cases activates <;> trivial)
    rw [activates.bytes_eq]
    exact accounts.activated (by cases activates <;> exact ready)
  | started _ _ isLazy =>
    have idle : s.worker.held = [] := by
      rw [isOpen.lazyIdle isLazy]
      rfl
    have total := accounts.total
    rw [idle] at total
    refine inv.replace stack settled (by simp) (.inl rfl) rfl rfl ?_ ready
    exact
      { total := total
        quiet := fun inactive => ⟨rfl, (accounts.quiet inactive).2⟩
        stagedQuiet := accounts.stagedQuiet }
  | running =>
    exact inv.replace stack settled (by simp) (.inl rfl) rfl rfl accounts ready
  | published pauses pushed =>
    have published := accounts.published ready pushed
    cases pauses with
    | true => exact inv.replace stack settled (by simp) (.inl rfl) rfl rfl published trivial
    | false => exact inv.finish stack settled (by simp) rfl rfl published
  | staged => exact wireOrder_staged inv stack settled
  | scheduled =>
    exact .proceed settled { accounts with } (fun _ => .inl rfl) (inv.below_top stack).2 (by simp)
  | calls announcement =>
    cases announcement <;> exact inv.replace stack settled (by simp) (.inr rfl) rfl rfl
        accounts trivial
  | queues announcement =>
    cases announcement <;> exact inv.finish stack settled (by simp) rfl rfl { accounts with }
  | called =>
    exact inv.replace stack settled (by simp) (.inr rfl) rfl rfl { accounts with } trivial
  | nothingStaged unstaged =>
    have taken := accounts.unstage
    rw [staged_of_none unstaged] at taken
    exact .proceed settled taken (by simp) (inv.below_top stack).2 (by simp)
  | flushed _ pending =>
    have taken := accounts.unstage
    have idle := accounts.stagedQuiet (by simp [pending])
    rw [TransportState.staged, pending] at taken
    refine .proceed settled (by simpa [Frame.bytes] using taken) (by simp)
      (inv.below_silent stack rfl) ?_
    intro new mem
    cases mem
    exact ⟨idle, rfl⟩
  | decided decides =>
    exact inv.signalFrames stack settled (by cases decides <;> simp)
      (by cases decides <;> rfl) _ _
  | sent _ sends => exact wireOrder_sent inv stack settled sends

/-! ## Steps of the worker -/

variable {next : TransportState Byte}

section

variable (inv : WireOrder s)

include inv

/-- The loop thread's part of the state is left alone. -/
theorem WireOrder.workerMoves
    (same : after = { s with
      worker := after.worker
      writerQueue := after.writerQueue
      wire := after.wire
      writeBuffer := after.writeBuffer
      events := after.events })
    (accounts : Accounts after (s.stack.flatMap Frame.bytes)) :
    WireOrder after := by
  rw [same] at accounts ⊢
  exact { inv with accounts := accounts }

variable {position : Worker Byte}

theorem WireOrder.workerAt (sameBytes : pos.held = s.worker.held) :
    WireOrder { s with worker := pos } := by
  have accounts := inv.accounts
  refine inv.workerMoves rfl ?_
  refine { accounts with total := ?_, quiet := ?_ }
  · rw [sameBytes]
    exact accounts.total
  · rw [sameBytes]
    exact accounts.quiet

/-- The flag falls while nothing is queued or about to be queued. -/
theorem wireOrder_clear (holdsNothing : pos.held = [])
    (idle : s.worker.held = []) (queueEmpty : s.writerQueue.commands = [])
    (notPublishing : ∀ frame ∈ s.stack.head?, frame.publishes = false) :
    WireOrder { s with writerRegistered := false, worker := pos } := by
  have accounts := inv.accounts
  refine
    { accounts :=
        { total := ?_, quiet := fun _ => ⟨holdsNothing, ?_⟩, stagedQuiet := fun _ => rfl }
      scheduled := inv.scheduled
      below := inv.below
      ready := ?_ }
  · rw [accounts.total, idle, ← holdsNothing]
    rfl
  · rw [queueEmpty]
    rfl
  · intro frame mem
    have ready := inv.ready frame mem
    have quiet := notPublishing frame mem
    cases frame with
    | tryWriteBytesWithStatus _ active =>
      cases active with
      | true => cases quiet
      | false => rfl
    | publish phase =>
      cases phase with
      | activate => exact ready
      | ensureWorker | send => cases quiet
    | queueWrite => cases quiet
    | tryDirectWrite data | flushDirectWrite data | tryDirectWriteVectored segs =>
      exact ⟨rfl, ready.2⟩
    | stageDirectWriteBuffer data | stageOwnedBuffer data pauses => rfl
    | activateQueueWrite data | activateQueueSegments segs written
    | queueWriteBatch => exact ready
    | _ => trivial

theorem wireOrder_of_workerMove {reply : Reply}
    (timely : TimelyClears cfg s (.worker reply)) (move : WorkerMove s next) :
    WireOrder next := by
  have accounts := inv.accounts
  have total := accounts.total
  cases move with
  | waits => exact inv
  | passes pos pass =>
    refine inv.workerAt ?_
    rw [pos]
    cases pass with
    | written _ _ empty => exact empty.symm
    | _ => rfl
  | @takes data later pos cmds =>
    have idle : s.worker.held = [] := by
      rcases pos with receive | tryReceive
      · rw [receive]
        rfl
      · rw [tryReceive]
        rfl
    refine inv.workerMoves rfl { accounts with total := ?_, quiet := ?_ }
    · rw [cmds, idle] at total
      change s.written = s.wire ++ data.remaining ++ payloads later ++ s.staged ++ _
      rw [total]
      simp [WriterCommand.payload]
    · intro inactive
      have queued := (accounts.quiet inactive).2
      rwa [cmds, payloads_cons, append_eq_nil_iff] at queued
  | @writes data _ count pos =>
    refine inv.workerMoves rfl { accounts with total := ?_, quiet := ?_ }
    · rw [pos] at total
      change s.written = (s.wire ++ data.remaining.take count) ++
          (data.advance count _).remaining ++
          payloads s.writerQueue.commands ++ s.staged ++ _
      rw [total]
      simp [Worker.held]
    · intro inactive
      have quiet := accounts.quiet inactive
      rw [pos] at quiet
      have empty : data.remaining = [] := quiet.1
      refine ⟨?_, quiet.2⟩
      change (data.advance count _).remaining = []
      simp [empty]
  | drains pos =>
    refine inv.workerMoves rfl { accounts with total := ?_, quiet := ?_ }
    · rw [pos] at total
      rw [total]
      split <;> rfl
    · intro inactive
      refine ⟨?_, (accounts.quiet inactive).2⟩
      split <;> rfl
  | resumes pos =>
    have advanced : WireOrder { s with worker := .tryReceive } :=
      inv.workerAt (by rw [pos]; rfl)
    exact { advanced with accounts := { advanced.accounts with } }
  | clears pos clearing =>
    rcases clearing with ⟨rfl, rfl⟩ | ⟨rfl, rfl⟩
    all_goals
      obtain ⟨queueEmpty, notPublishing⟩ := timely (by rw [pos]; rfl)
      exact wireOrder_clear inv rfl (by rw [pos]; rfl) queueEmpty notPublishing

end

/-! ## Whole runs -/

/-- An operation starts on top of what waits for it. -/
theorem WireOrder.start (inv : WireOrder s)
    (samePending : after.pendingDirectWrite = s.pendingDirectWrite)
    (sameScheduled : after.directWriteScheduled = s.directWriteScheduled)
    (settled : ∀ frame ∈ s.stack, frame.settled)
    (above : s.stack = [] ∨ new.announces)
    (accounts : Accounts after new.bytes) (ready : new.Ready after) :
    WireOrder (after.proceed [new] s.stack) := by
  refine .proceed settled (by simpa using accounts)
    (flushScheduled inv.scheduled id samePending sameScheduled) ?_ ?_
  · refine pairwise_cons.mpr ⟨fun lower mem _ => ?_, inv.below⟩
    rcases above with idle | announces
    · rw [idle] at mem
      cases mem
    · exact announces
  · intro top mem
    cases mem
    exact ready

theorem wireOrder_step {action : Action Byte} (direct : cfg.directWriter)
    (inv : WireOrder s) (isOpen : Open s) (plain : PlainWrites s action)
    (timely : TimelyClears cfg s action) (moved : step cfg s action = some next) :
    WireOrder next := by
  have accounts := inv.accounts
  have atRest : (∀ frame ∈ s.stack, frame.settled) → Accounts s [] := by
    intro settled
    rwa [flatMap_bytes_of_settled settled] at accounts
  cases openStep_of_step isOpen plain.1 moved with
  | ignored => exact inv
  | wrote writes runs =>
    have idle : s.stack = [] := plain.2 (by cases writes <;> rfl)
    have settled := isOpen.settled_of_applicationRuns runs
    refine inv.start rfl rfl settled (.inl idle) ?_ (by cases writes <;> first | rfl | trivial)
    have total := (atRest settled).total
    refine { atRest settled with total := ?_ }
    rw [append_nil] at total
    rw [total]
    rfl
  | limits _ _ runs =>
    have settled := isOpen.settled_of_applicationRuns runs
    exact inv.start rfl rfl settled (.inr rfl) (atRest settled) trivial
  | flushes idle | delivers idle =>
    exact
      { accounts := { atRest (by simp [idle]) with }
        scheduled := by simpa [idle] using inv.scheduled
        below := pairwise_singleton _ _
        ready := by simp [Frame.Ready] }
  | turns _ _ | switches _ _ => exact { inv with accounts := { accounts with } }
  | frame stack move =>
    exact wireOrder_of_frameMove direct inv isOpen stack (timely _ (by rw [stack]; rfl)) move
  | worker move => exact wireOrder_of_workerMove inv timely move

/-- Where the flag falls in time and the cap refuses nothing, what has reached
the socket is a prefix of what was written. -/
theorem wire_isPrefix_of_timelyClears
    (cfg : TransportConfig) (direct : cfg.directWriter)
    {actions : List (Action Byte)} {s : TransportState Byte}
    (reached : run (step cfg) (.new cfg) actions = some s)
    (plain : Guarded (step cfg) PlainWrites (.new cfg) actions)
    (timely : Guarded (step cfg) (TimelyClears cfg) (.new cfg) actions) :
    s.wire <+: s.written := by
  have invariant : Open s ∧ WireOrder s := by
    refine invariant_of_run (fun current => Open current ∧ WireOrder current) ?_
      ⟨open_new cfg, wireOrder_new cfg⟩ (plain.and timely) reached
    rintro current action next ⟨isOpen, inv⟩ ⟨plainNow, timelyNow⟩ moved
    exact ⟨open_step isOpen plainNow.1 moved,
      wireOrder_step direct inv isOpen plainNow timelyNow moved⟩
  have total := invariant.2.accounts.total
  simp only [append_assoc] at total
  exact ⟨_, total.symm⟩

/-- A write of two bytes of which the socket takes one. The other goes through
the worker, up to the point where it has found the queue empty. -/
def partialWrite : List (Action UInt8) :=
  [.write [1, 2] true, .loop .done, .loop (.wrote 1), .loop .done,
    .loop .done, .loop .done, .loop .done, .worker .done,
    .worker (.wrote 1), .worker .done, .worker .done, .worker .done]

theorem wire_isPrefix_of_partialWrite : ∃ s : TransportState UInt8,
      run (step (socketConfig false)) (.new (socketConfig false))
          (partialWrite ++ ([.worker .done, .worker .done, .write [3] true,
            .loop .done, .loop (.wrote 1)] : List (Action UInt8))) =
            some s ∧
        s.wire = [1, 2, 3] ∧ s.wire <+: s.written := by
  refine exists_run_imp (fun s => s.wire = [1, 2, 3]) (by decide) ?_
  rintro s reached onWire
  refine ⟨onWire, ?_⟩
  exact wire_isPrefix_of_timelyClears (socketConfig false) rfl reached (by decide) (by decide)

/-- A write is queued while the flag is still up, the flag falls, and the next
write goes straight to the socket. -/
def overtakingWrite : List (Action UInt8) :=
  partialWrite ++ ([.write [3] true, .loop .done, .loop .done, .loop .done, .loop .done,
      .worker .done, .write [4] true, .loop .done, .loop (.wrote 1)] : List (Action UInt8))

theorem wire_overtaken_after_clear : ∃ s : TransportState UInt8,
      run (step (socketConfig false)) (.new (socketConfig false)) overtakingWrite = some s ∧
        Guarded (step (socketConfig false)) PlainWrites
          (.new (socketConfig false)) overtakingWrite ∧
        ¬ s.wire <+: s.written :=
  exists_run_of_any _ _ _ _ (by decide)

end Rsloop.Stream
