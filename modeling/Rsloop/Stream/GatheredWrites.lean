import Rsloop.Stream.WriteAccounting

/-!
# Gathered writes

`writelines` hands its segments to `try_write_segments`, which may send a part of
them by a vectored write and a part by a plain one, and queues or stages what is
left. A call is followed from its start until it has nothing in hand, with the
steps of the other threads in between.
-/

namespace Rsloop.Stream

open Transition List TransportState

variable {Byte : Type}

/-! ## What a call moves -/

/-- The frames of a write call that have bytes in hand. -/
def Frame.inWrite : Frame Byte → Bool
  | .tryWriteBytes _ | .tryWriteBytesWithStatus _ _ | .tryDirectWrite _ | .activateQueueWrite _
  | .queueWrite _ | .publish _ _ _ | .stageDirectWriteBuffer _ | .stageOwnedBuffer _ _
  | .tryWriteSegments _ | .tryDirectWriteVectored _ | .activateQueueSegments _ _
  | .queueSegments _ _ | .queueWriteBatch _ | .tryWriteBuffer _ => true
  | _ => false

/-- The loop thread's steps that are left in a write call, at most. -/
def Frame.writeSteps : Frame Byte → Nat
  | .publish .send _ _ => 1
  | .publish .ensureWorker _ _ => 2
  | .publish .activate _ _ => 3
  | .stageOwnedBuffer _ _ => 1
  | .stageDirectWriteBuffer _ => 2
  | .queueWrite _ => 3
  | .queueWriteBatch _ | .activateQueueWrite _ => 4
  | .tryDirectWrite _ => 5
  | .tryWriteBytesWithStatus _ _ | .tryWriteBuffer _ => 6
  | .tryWriteBytes _ | .queueSegments _ _ => 7
  | .activateQueueSegments _ _ => 8
  | .tryDirectWriteVectored _ => 9
  | .tryWriteSegments _ => 10
  | _ => 0

/-- Bytes that have been sent, queued for the worker and staged, and the amount
added to the size of the write buffer. -/
structure Transfer (Byte : Type) where
  sent : List Byte
  queued : List Byte
  staged : List Byte
  recorded : Nat
  deriving DecidableEq

namespace Transfer

def none : Transfer Byte := ⟨[], [], [], 0⟩

def add (first second : Transfer Byte) : Transfer Byte where
  sent := first.sent ++ second.sent
  queued := first.queued ++ second.queued
  staged := first.staged ++ second.staged
  recorded := first.recorded + second.recorded

@[simp]
theorem none_add (moved : Transfer Byte) : none.add moved = moved := by
  simp [add, none]

@[simp]
theorem add_none (moved : Transfer Byte) : moved.add none = moved := by
  simp [add, none]

end Transfer

def TransportState.transfer (s next : TransportState Byte) : Transfer Byte where
  sent := next.wire.drop s.wire.length
  queued := (payloads next.writerQueue.commands).drop (payloads s.writerQueue.commands).length
  staged := next.staged.drop s.staged.length
  recorded := next.writeBuffer.size - s.writeBuffer.size

def Action.isLoop : Action Byte → Bool
  | .loop _ => true
  | _ => false

def transferred (cfg : TransportConfig) (s : TransportState Byte) :
    List (Action Byte) → Transfer Byte
  | [] => .none
  | action :: rest =>
    match step cfg s action with
    | none => .none
    | some next =>
      (if action.isLoop then s.transfer next else .none).add (transferred cfg next rest)

/-- A write call is under way above the given frames. The socket does not fail,
now or earlier, and the bytes are not refused. -/
def InWrite (cfg : TransportConfig) (below : List (Frame Byte))
    (s : TransportState Byte) (action : Action Byte) : Prop :=
  (s.stack.head?.any Frame.inWrite ∧ s.stack.tail = below) ∧
    action ≠ .loop .failed ∧ s.writerQueue.receiverAlive ∧
    ∀ next ∈ step cfg s action, next.refused = s.refused

instance [DecidableEq Byte] (cfg : TransportConfig) (below : List (Frame Byte))
    (s : TransportState Byte) (action : Action Byte) :
    Decidable (InWrite cfg below s action) :=
  inferInstanceAs (Decidable (_ ∧ _))

def WriteEnded (below : List (Frame Byte)) (s : TransportState Byte) : Prop :=
  ∃ frames, s.stack = frames ++ below ∧ ∀ frame ∈ frames, frame.inWrite = false

/-! ## One step -/

variable {cfg : TransportConfig} {s next : TransportState Byte} {frame : Frame Byte}
  {below : List (Frame Byte)} {reply : Reply}

/-- The bytes of a call are all in one place, and those that are not sent are
recorded. -/
structure Settles (frame : Frame Byte) (moved : Transfer Byte) : Prop where
  bytes : moved.sent ++ (moved.queued ++ moved.staged) = frame.bytes
  recorded : moved.recorded + frame.counted = moved.queued.length + moved.staged.length
  onePlace : moved.queued = [] ∨ moved.staged = []

/-- A step of the call: it is over, or goes on in another frame with what has not
been sent. -/
inductive WriteStep (below : List (Frame Byte)) (frame : Frame Byte)
    (s next : TransportState Byte) : Prop
  | ends (ended : WriteEnded below next) (settles : Settles frame (s.transfer next))
  | continues (later : Frame Byte) (stack : next.stack = later :: below)
      (inWrite : later.inWrite)
      (fewer : later.writeSteps < frame.writeSteps)
      (bytes : (s.transfer next).sent ++ later.bytes = frame.bytes)
      (queued : (s.transfer next).queued = [])
      (staged : (s.transfer next).staged = [])
      (recorded : (s.transfer next).recorded + frame.counted = later.counted)

theorem transfer_eq {sent queued staged : List Byte} {recorded : Nat}
    (wire : next.wire = s.wire ++ sent)
    (queue :
      payloads next.writerQueue.commands = payloads s.writerQueue.commands ++ queued)
    (stage : next.staged = s.staged ++ staged)
    (size : next.writeBuffer.size = s.writeBuffer.size + recorded) :
    s.transfer next = ⟨sent, queued, staged, recorded⟩ := by
  unfold transfer
  rw [wire, queue, stage, size]
  simp

theorem transfer_eq_none (wire : next.wire = s.wire)
    (queue : next.writerQueue = s.writerQueue)
    (stage : next.pendingDirectWrite = s.pendingDirectWrite)
    (buf : next.writeBuffer = s.writeBuffer) : s.transfer next = .none := by
  refine transfer_eq ?_ ?_ ?_ ?_
  · rw [wire, append_nil]
  · rw [queue, append_nil]
  · unfold TransportState.staged
    rw [stage, append_nil]
  · rw [buf, Nat.add_zero]

theorem WriteStep.decides {later : Frame Byte}
    (stack : next.stack = later :: below)
    (inWrite : later.inWrite) (fewer : later.writeSteps < frame.writeSteps)
    (bytes : later.bytes = frame.bytes)
    (counted : later.counted = frame.counted)
    (wire : next.wire = s.wire) (queue : next.writerQueue = s.writerQueue)
    (stage : next.pendingDirectWrite = s.pendingDirectWrite)
    (buf : next.writeBuffer = s.writeBuffer) :
    WriteStep below frame s next := by
  have nothing := transfer_eq_none wire queue stage buf
  refine .continues later stack inWrite fewer ?_ ?_ ?_ ?_
  · rwa [nothing]
  · rw [nothing]
    rfl
  · rw [nothing]
    rfl
  · rw [nothing, counted]
    exact Nat.zero_add _

theorem WriteStep.nothing (empty : frame.bytes = [])
    (uncounted : frame.counted = 0) :
    WriteStep below frame s (s.proceed [] below) := by
  have nothing : s.transfer (s.proceed [] below) = .none := transfer_eq_none rfl rfl rfl rfl
  refine .ends ⟨[], rfl, nofun⟩ ?_
  rw [nothing]
  exact ⟨empty.symm, by rw [uncounted]; rfl, .inl rfl⟩

theorem writeStep_sent {count : Nat} {frames : List (Frame Byte)}
    (inWrite : frame.inWrite) (sends : Sends frame count frames) :
    WriteStep below frame s ((s.sent frame.bytes count).proceed frames below) := by
  have sent : s.transfer ((s.sent frame.bytes count).proceed frames below) =
      ⟨frame.bytes.take count, [], [], 0⟩ :=
    transfer_eq rfl (append_nil _).symm (append_nil _).symm rfl
  have bytes := sends.bytes_eq
  have whole (none : frames = []) (uncounted : frame.counted = 0) : WriteStep below frame s
        ((s.sent frame.bytes count).proceed frames below) := by
    subst none
    refine .ends ⟨[], rfl, nofun⟩ ?_
    rw [sent]
    refine ⟨?_, by rw [uncounted]; rfl, .inl rfl⟩
    have split := take_append_drop count frame.bytes
    rwa [← bytes] at split
  have part {later : Frame Byte} (one : frames = [later]) (laterInWrite : later.inWrite)
      (fewer : later.writeSteps < frame.writeSteps)
      (counted : later.counted = frame.counted) :
      WriteStep below frame s ((s.sent frame.bytes count).proceed frames below) := by
    subst one
    refine .continues later rfl laterInWrite fewer ?_ ?_ ?_ ?_
    · rw [sent]
      have split := take_append_drop count frame.bytes
      rwa [← bytes, flatMap_singleton] at split
    · rw [sent]
    · rw [sent]
    · rw [sent, counted]
      exact Nat.zero_add _
  cases sends with
  | write | gather => exact whole rfl rfl
  | writePart | gatherPart => exact part rfl rfl (by simp [Frame.writeSteps]) rfl
  | flush | flushPart => cases inWrite

/-- The bytes are recorded and go on to the queue or the staged buffer. -/
theorem writeStep_recorded {later : Bool → Frame Byte}
    {writeBuffer : StreamWriteBufferState} {signal : WriteBufferSignal}
    (records : Records frame later)
    (accepted : s.writeBuffer.enqueueWriteBuffer frame.bytes.length
      cfg.maxWriteBufferSize = some (writeBuffer, signal)) :
    WriteStep below frame s
      ({ s with writeBuffer := writeBuffer }.proceed
        [later (decide (signal = WriteBufferSignal.pause))] below) := by
  have moved : s.transfer ({ s with writeBuffer := writeBuffer }.proceed
      [later (decide (signal = WriteBufferSignal.pause))] below) =
        ⟨[], [], [], frame.bytes.length⟩ :=
    transfer_eq (append_nil _).symm (append_nil _).symm
      (append_nil _).symm (size_of_enqueueWriteBuffer accepted)
  refine .continues _ rfl ?_ ?_ ?_ ?_ ?_ ?_
  · cases records <;> rfl
  · cases records <;> simp [Frame.writeSteps]
  · rw [moved, records.bytes_eq]
    rfl
  · rw [moved]
  · rw [moved]
  · rw [moved]
    cases records <;> rfl

theorem writeStep_published {what : Publication Byte} {pauses : Bool}
    {queue : QueueState Byte}
    (published : publishTo s.writerQueue what = some queue) :
    WriteStep below (.publish .send what pauses) s
      ({ s with writerQueue := queue }.proceed
        (if pauses then [.notifyPauseWriting] else []) below) := by
  have moved {frames : List (Frame Byte)} :
      s.transfer ({ s with writerQueue := queue }.proceed frames below) =
        ⟨[], what.payload, [], 0⟩ :=
    transfer_eq (append_nil _).symm (payloads_of_publishTo published)
      (append_nil _).symm rfl
  refine .ends ⟨_, rfl, ?_⟩ ?_
  · intro later mem
    cases pauses with
    | false => cases mem
    | true =>
      rw [mem_singleton.mp mem]
      rfl
  · rw [moved]
    exact ⟨append_nil _, Nat.zero_add _, .inr rfl⟩

theorem writeStep_stageOwnedBuffer {data : OwnedWriteBuffer Byte}
    {pauses : Bool} :
    WriteStep below (.stageOwnedBuffer data pauses) s
      (advanceFrame cfg s below (.stageOwnedBuffer data pauses)) := by
  have moved : s.transfer
      (advanceFrame cfg s below (.stageOwnedBuffer data pauses)) =
        ⟨[], [], data.remaining, 0⟩ := by
    refine transfer_eq (append_nil _).symm (append_nil _).symm ?_ rfl
    cases pending : s.pendingDirectWrite with
    | none
    | some => simp [advanceFrame, proceed, TransportState.staged, pending]
  refine .ends ⟨_, rfl, ?_⟩ ?_
  · intro later mem
    cases pauses with
    | false =>
      rw [mem_singleton.mp mem]
      rfl
    | true =>
      rcases mem_cons.mp mem with rfl | last
      · rfl
      · rw [mem_singleton.mp last]
        rfl
  · rw [moved]
    exact ⟨rfl, rfl, .inl rfl⟩

theorem writeStep_frameMove (inWrite : frame.inWrite)
    (kept : next.refused = s.refused)
    (move : FrameMove cfg s below frame next) :
    WriteStep below frame s next := by
  cases move with
  | routed _ routes =>
    refine .decides rfl ?_ ?_ routes.bytes_eq ?_ rfl rfl rfl rfl
    · cases routes <;> rfl
    · cases routes <;> simp [Frame.writeSteps]
      cases inWrite
    · cases routes <;> rfl
  | finished finishes =>
    refine .nothing finishes.bytes_eq ?_
    cases finishes <;> rfl
  | refused _ full =>
    have refused : s.refused ++ frame.bytes = s.refused := kept
    have empty : frame.bytes = [] :=
      append_cancel_left (refused.trans (append_nil _).symm)
    -- Nothing is never over the cap.
    rw [empty] at full
    simp [StreamWriteBufferState.enqueueWriteBuffer] at full
  | recorded records accepted => exact writeStep_recorded records accepted
  | activated activates =>
    refine .decides rfl ?_ ?_ activates.bytes_eq ?_ rfl rfl rfl rfl
    · cases activates <;> rfl
    · cases activates <;> simp [Frame.writeSteps]
    · cases activates <;> rfl
  | started | running =>
    exact .decides rfl rfl (by simp [Frame.writeSteps]) rfl rfl rfl rfl rfl rfl
  | published _ pushed => exact writeStep_published pushed
  | staged data pauses =>
    have staged : WriteStep below (.stageOwnedBuffer data pauses) s
        (advanceFrame cfg s below (.stageOwnedBuffer data pauses)) :=
      writeStep_stageOwnedBuffer
    exact staged
  | sent _ sends => exact writeStep_sent inWrite sends
  | calls announcement | queues announcement | decided announcement =>
    cases announcement <;> cases inWrite
  | scheduled | called | nothingStaged | flushed => cases inWrite

theorem Frame.holdsData_of_inWrite (inWrite : frame.inWrite) :
    frame.holdsData := by
  cases frame <;> first | rfl | cases inWrite

theorem stack_stepWorker (moved : stepWorker cfg s reply = some next) :
    next.stack = s.stack := by
  have dequeued {after : TransportState Byte} (taken : s.dequeued = some after) :
      after.stack = s.stack := by
    unfold TransportState.dequeued at taken
    split at taken <;> cases taken <;> rfl
  have enqueued (kind : ReadEventKind) :
      (s.enqueuePendingReadEvent kind).stack = s.stack := by
    unfold enqueuePendingReadEvent
    split <;> rfl
  unfold stepWorker at moved
  cases position : s.worker with
  | receive =>
    simp only [position] at moved
    exact dequeued moved
  | tryReceive =>
    simp only [position] at moved
    cases taken : s.dequeued with
    | none =>
      rw [taken] at moved
      cases moved
      rfl
    | some =>
      rw [taken] at moved
      cases moved
      exact dequeued taken
  | writing =>
    simp only [position] at moved
    unfold stepWorkerWriting at moved
    repeat' split at moved
    all_goals first | (cases moved; rfl) | cases moved
  | recordDrained =>
    simp only [position] at moved
    split at moved <;> cases moved <;> rfl
  | notifyResume =>
    simp only [position] at moved
    cases moved
    exact enqueued .resume
  | reportLost =>
    simp only [position] at moved
    cases moved
    exact enqueued .lost
  | command cmd => cases cmd <;> simp only [position] at moved <;> cases moved <;> rfl
  | notStarted | exited => simp [position] at moved
  | clearOnEmpty | clearOnIdle | exiting =>
    simp only [position] at moved
    cases moved
    rfl

/-! ## Whole calls -/

variable {final : TransportState Byte}

theorem Frame.writeSteps_pos (inWrite : frame.inWrite) :
    0 < frame.writeSteps := by
  cases frame with
  | publish phase => cases phase <;> simp [writeSteps]
  | _ => first | contradiction | simp [writeSteps]

/-- A call in hand is not over. -/
theorem WriteEnded.not_inWrite (ended : WriteEnded below s)
    (inWrite : s.stack.head?.any Frame.inWrite) : s.stack.tail ≠ below := by
  obtain ⟨frames, stack, settled⟩ := ended
  rw [stack] at inWrite ⊢
  intro rest
  have shorter : (frames ++ below).length - 1 = below.length := by
    rw [← length_tail, rest]
  rw [length_append] at shorter
  cases frames with
  | nil =>
    cases below with
    | nil => cases inWrite
    | cons =>
      simp only [length_nil, length_cons] at shorter
      omega
  | cons top =>
    have written : top.inWrite := inWrite
    cases (settled top mem_cons_self).symm.trans written

/-- Nothing but the loop thread's own step changes its stack during a call. -/
theorem stack_of_not_isLoop {action : Action Byte}
    (stack : s.stack = frame :: below) (inWrite : frame.inWrite)
    (other : action.isLoop = false) (moved : step cfg s action = some next) :
    next.stack = s.stack := by
  have busy : applicationRuns s.stack = false := by
    rw [stack]
    cases frame <;> first | rfl | cases inWrite
  have occupied : s.stack ≠ [] := by simp [stack]
  have uncalled (frames : List (Frame Byte)) : s.call frames = none := by
    unfold call
    rw [busy]
    rfl
  have unwritten (bytes : List Byte) (frames : List (Frame Byte)) :
      s.callWrite cfg bytes frames = none := by
    unfold callWrite
    split
    · exact uncalled []
    · unfold call
      simp [busy]
  cases action with
  | write data exactBytes | writelines segs => simp [step, unwritten] at moved
  | close | abort | writeEof => simp [step, uncalled] at moved
  | setWriteBufferLimits =>
    simp only [step] at moved
    split at moved <;> simp [uncalled] at moved
  | flush | drainEvent | nextTurn | enterRun | leaveRun => simp [step, occupied] at moved
  | peerEof =>
    cases moved
    unfold enqueuePendingReadEvent
    split <;> rfl
  | loop => cases other
  | worker => exact stack_stepWorker moved

/-- What one step sent comes before what the rest of the call moves. -/
theorem Settles.after {later : Frame Byte} {first moved : Transfer Byte}
    (settles : Settles later moved)
    (bytes : first.sent ++ later.bytes = frame.bytes)
    (queued : first.queued = []) (staged : first.staged = [])
    (recorded : first.recorded + frame.counted = later.counted) :
    Settles frame (first.add moved) where
  bytes := by
    rw [← bytes, ← settles.bytes]
    simp [Transfer.add, queued, staged]
  recorded := by
    have rest := settles.recorded
    simp only [Transfer.add, queued, staged, nil_append]
    omega
  onePlace := by
    simp only [Transfer.add, queued, staged, nil_append]
    exact settles.onePlace

/-- Along a call: the steps are bounded, and at its end all bytes are accounted
for. -/
theorem settles_of_run {actions : List (Action Byte)}
    (stack : s.stack = frame :: below) (inWrite : frame.inWrite)
    (guarded : Guarded (step cfg) (InWrite cfg below) s actions)
    (reached : run (step cfg) s actions = some final) :
    actions.countP Action.isLoop ≤ frame.writeSteps ∧
      (WriteEnded below final → Settles frame (transferred cfg s actions)) := by
  induction actions generalizing s frame with
  | nil =>
    cases reached
    refine ⟨Nat.zero_le _, fun ended => ?_⟩
    have rest : final.stack.tail = below := by rw [stack]; rfl
    exact absurd rest (ended.not_inWrite (by rw [stack]; exact inWrite))
  | cons action rest ih =>
    obtain ⟨next, moved, later⟩ := run_cons_eq_some.mp reached
    obtain ⟨⟨-, answered, alive, kept⟩, guardedRest⟩ := guarded
    rw [moved] at guardedRest
    simp only [transferred, moved, countP_cons]
    cases loops : action.isLoop with
    | false =>
      have same := stack_of_not_isLoop stack inWrite loops moved
      simpa using ih (same.trans stack) inWrite guardedRest later
    | true =>
      have stepped : WriteStep below frame s next := by
        cases action with
        | loop =>
          simp only [step, stack] at moved
          refine writeStep_frameMove inWrite ?_
            (frameMove_of_holdsData (Frame.holdsData_of_inWrite inWrite)
              ?_ (fun _ _ _ => alive) moved)
          · refine kept next ?_
            simp only [step, stack]
            exact moved
          · rintro rfl
            exact answered rfl
        | _ => cases loops
      simp only [if_true]
      cases stepped with
      | ends ended settles =>
        -- No further step is a step of this call.
        cases rest with
        | nil =>
          refine ⟨?_, fun _ => ?_⟩
          · exact Frame.writeSteps_pos inWrite
          · simpa [transferred] using settles
        | cons =>
          obtain ⟨⟨⟨top, tail⟩, -⟩, -⟩ := guardedRest
          exact absurd tail (ended.not_inWrite top)
      | continues _ stack inWrite _ bytes queued staged recorded =>
        obtain ⟨bound, settles⟩ := ih stack inWrite guardedRest later
        refine ⟨by omega, fun ended => ?_⟩
        exact (settles ended).after bytes queued staged recorded

/-- A call that is not over can take its next step. -/
theorem loop_isSome_of_inWrite (inWrite : s.stack.head?.any Frame.inWrite)
    (directWriter : s.directWriterOpen) (halfOpen : s.writeHalfShut = false) :
    (step cfg s (.loop .wouldBlock)).isSome := by
  cases stack : s.stack with
  | nil =>
    rw [stack] at inWrite
    cases inWrite
  | cons top =>
    rw [stack] at inWrite
    simp only [step, stack]
    cases top with
    | tryDirectWrite data | tryDirectWriteVectored segs =>
      simp [stepFrame, tryDirectTaskedWrite, directWriter, halfOpen]
    | publish phase => cases phase <;> rfl
    | _ => first | rfl | cases inWrite

theorem flatten_filter_nonempty (segs : List (List Byte)) :
    (segs.filter fun segment => !segment.isEmpty).flatten = segs.flatten := by
  induction segs with
  | nil => rfl
  | cons segment rest ih =>
    cases segment with
    | nil => exact ih
    | cons byte bytes =>
      change (byte :: bytes) ++ (rest.filter fun segment => !segment.isEmpty).flatten = _
      rw [ih]
      rfl

/-- The call takes at most ten steps of its own, none of which can be missing while
the direct writer is open. What it sent, queued and staged is then what it was
given, and the write buffer has grown by what is not sent. -/
theorem writelines_exact {before : TransportState Byte}
    {segs : List (List Byte)}
    {actions : List (Action Byte)}
    (notClosing : before.closing = false) (writable : cfg.writable)
    (called : step cfg before (.writelines segs) = some s)
    (guarded : Guarded (step cfg) (InWrite cfg before.stack) s actions)
    (reached : run (step cfg) s actions = some final) :
    actions.countP Action.isLoop ≤ 10 ∧ (final.stack.head?.any Frame.inWrite →
        final.directWriterOpen → final.writeHalfShut = false →
          (step cfg final (.loop .wouldBlock)).isSome) ∧
      (WriteEnded before.stack final → (transferred cfg s actions).sent ++
            ((transferred cfg s actions).queued ++
              (transferred cfg s actions).staged) = segs.flatten ∧
          (transferred cfg s actions).recorded +
            (transferred cfg s actions).sent.length = segs.flatten.length ∧
          ((transferred cfg s actions).queued = [] ∨
            (transferred cfg s actions).staged = [])) := by
  have stack : s.stack =
      .tryWriteSegments (segs.filter fun segment => !segment.isEmpty) :: before.stack := by
    have writes : ¬(before.closing || !cfg.writable) := by
      simp [notClosing, writable]
    simp only [step, callWrite, call] at called
    rw [if_neg writes] at called
    split at called <;> cases called
    rfl
  obtain ⟨bound, settles⟩ := settles_of_run stack rfl guarded reached
  refine ⟨bound, loop_isSome_of_inWrite, fun ended => ?_⟩
  obtain ⟨bytes, recorded, onePlace⟩ := settles ended
  have whole := bytes.trans (flatten_filter_nonempty segs)
  refine ⟨whole, ?_, onePlace⟩
  have total := congrArg List.length whole
  simp only [length_append] at total
  simp only [Frame.counted] at recorded
  omega

/-- A socket takes two of three bytes; the third is queued. -/
def partialWritelines : List (Action Nat) :=
  [.loop .done, .loop .done, .loop .done, .loop (.wrote 2), .loop .done, .peerEof,
    .loop .done, .loop .done, .loop .done]

theorem writelines_exact_of_partialWrite : ∃ s final : TransportState Nat,
      run (step (socketConfig false)) (TransportState.new (socketConfig false))
          [.writelines [[1], [], [2, 3]]] = some s ∧
        run (step (socketConfig false)) s partialWritelines = some final ∧
        (transferred (socketConfig false) s partialWritelines).sent ++
            ((transferred (socketConfig false) s partialWritelines).queued ++
              (transferred (socketConfig false) s partialWritelines).staged) =
          [1, 2, 3] ∧
        (transferred (socketConfig false) s partialWritelines).recorded = 1 := by
  obtain ⟨s, final, first, second, guarded, ended, sent⟩ :=
    exists_runs_of_any (step (socketConfig false))
      (TransportState.new (socketConfig false)) [.writelines [[1], [], [2, 3]]]
      partialWritelines
      (fun s final =>
        Guarded (step (socketConfig false)) (InWrite (socketConfig false) [])
            s partialWritelines ∧
          final.stack = [] ∧
          (transferred (socketConfig false) s partialWritelines).sent.length = 2)
      (by decide)
  obtain ⟨called, moved, same⟩ := run_cons_eq_some.mp first
  obtain rfl := Option.some.inj same
  obtain ⟨-, -, exact⟩ := writelines_exact rfl rfl moved guarded second
  obtain ⟨bytes, recorded, -⟩ := exact ⟨[], ended, by simp⟩
  refine ⟨called, final, first, second, bytes, ?_⟩
  rw [sent] at recorded
  exact Nat.add_right_cancel recorded

end Rsloop.Stream
