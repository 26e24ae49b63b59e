import Mathlib.Algebra.BigOperators.Group.List.Basic
import Rsloop.Stream.OpenSteps

/-!
# The write-buffer count

Bytes are counted when they are staged or queued and uncounted when they have
been sent, by the flush in prefixes and by the worker in whole buffers. In
between the count is spread over four places: the staged buffer, the writer
queue, the buffer the worker has dequeued, and the operations of the loop thread
that are not over yet.
-/

namespace Rsloop.Stream

open Transition List TransportState

variable {Byte : Type}

/-! ## Where the counted bytes are -/

/-- The bytes that a frame has counted and not yet put anywhere, or has sent
and not yet uncounted. -/
def Frame.counted : Frame Byte → Nat
  | .publish _ what _ => what.payload.length
  | .stageOwnedBuffer data _ | .flushDirectWrite data => data.len
  | .recordWriteBufferDrained len => len
  | _ => 0

def countedFrames (frames : List (Frame Byte)) : Nat :=
  (frames.map Frame.counted).sum

/-- The size of the buffer that the worker has dequeued and not yet reported as
drained, whatever part of it is sent. -/
def Worker.counted : Worker Byte → Nat
  | .writing _ bufferedLen | .recordDrained bufferedLen => bufferedLen
  | _ => 0

@[simp]
theorem Worker.counted_writing (data : OwnedWriteBuffer Byte)
    (bufferedLen : Nat) :
    (Worker.writing data bufferedLen).counted = bufferedLen := rfl

@[simp]
theorem Worker.counted_recordDrained (bufferedLen : Nat) :
    (Worker.recordDrained bufferedLen : Worker Byte).counted = bufferedLen := rfl

/-- The staged, queued and dequeued bytes. -/
def TransportState.buffered (s : TransportState Byte) : Nat :=
  s.staged.length + (payloads s.writerQueue.commands).length + s.worker.counted

/-- The size counts what is buffered, and what frames have counted for it. -/
def Counted (s : TransportState Byte) : Prop :=
  s.writeBuffer.size = s.buffered + countedFrames s.stack

@[simp]
theorem countedFrames_nil : countedFrames ([] : List (Frame Byte)) = 0 := rfl

@[simp]
theorem countedFrames_cons (frame : Frame Byte) (frames : List (Frame Byte)) :
    countedFrames (frame :: frames) = frame.counted + countedFrames frames := by
  simp [countedFrames]

@[simp]
theorem countedFrames_append (upper lower : List (Frame Byte)) :
    countedFrames (upper ++ lower) =
      countedFrames upper + countedFrames lower := by
  simp [countedFrames]

/-! ## The counter -/

theorem size_of_enqueueWriteBuffer
    {s next : StreamWriteBufferState} {signal : WriteBufferSignal}
    {len cap : Nat}
    (accepted : s.enqueueWriteBuffer len cap = some (next, signal)) :
    next.size = s.size + len := by
  unfold StreamWriteBufferState.enqueueWriteBuffer at accepted
  by_cases empty : len = 0
  · cases (if_pos empty).symm.trans accepted
    omega
  · rw [if_neg empty] at accepted
    by_cases exceeds : len > cap - s.size
    · cases (if_pos exceeds).symm.trans accepted
    · rw [if_neg exceeds] at accepted
      split at accepted <;> cases accepted <;> rfl

@[simp]
theorem size_drainWriteBuffer (s : StreamWriteBufferState) (len : Nat) :
    (s.drainWriteBuffer len).1.size = s.size - len := by
  unfold StreamWriteBufferState.drainWriteBuffer
  split <;> rfl

@[simp]
theorem size_reconcileWriteBufferLimits
    (s : StreamWriteBufferState) (lowWater highWater : Nat) :
    (s.reconcileWriteBufferLimits lowWater highWater).1.size = s.size := by
  unfold StreamWriteBufferState.reconcileWriteBufferLimits
  split
  · rfl
  · split <;> rfl

@[simp]
theorem countedFrames_signalFrames (signal : WriteBufferSignal) :
    countedFrames (signalFrames signal : List (Frame Byte)) = 0 := by
  cases signal <;> rfl

/-! ## Steps of the loop thread -/

variable {cfg : TransportConfig} {s : TransportState Byte} {frame : Frame Byte}
  {rest : List (Frame Byte)}

section

variable (counted : Counted s)

include counted

variable {after : TransportState Byte} {frames : List (Frame Byte)}

theorem Counted.proceed (stack : s.stack = frame :: rest)
    (balance : after.writeBuffer.size + (s.buffered + frame.counted) =
      s.writeBuffer.size + (after.buffered + countedFrames frames)) :
    Counted (after.proceed frames rest) := by
  have before : s.writeBuffer.size =
      s.buffered + (frame.counted + countedFrames rest) := by
    rwa [← countedFrames_cons, ← stack]
  have same : (after.proceed frames rest).buffered = after.buffered := rfl
  change after.writeBuffer.size =
    (after.proceed frames rest).buffered + countedFrames (frames ++ rest)
  rw [same, countedFrames_append]
  omega

theorem Counted.replace (stack : s.stack = frame :: rest)
    (sameSize : after.writeBuffer.size = s.writeBuffer.size)
    (sameBuffered : after.buffered = s.buffered)
    (sameCounted : countedFrames frames = frame.counted) :
    Counted (after.proceed frames rest) := by
  apply counted.proceed stack
  rw [sameSize, sameBuffered, sameCounted]

variable {pauses : Bool}

theorem counted_staged {data : OwnedWriteBuffer Byte}
    (stack : s.stack = .stageOwnedBuffer data pauses :: rest) :
    Counted ({ s with
      pendingDirectWrite := some (match s.pendingDirectWrite with
        | some buf => buf.extendFromSlice data.remaining
        | none => data) }.proceed
      (if pauses then [.notifyPauseWriting, .scheduleFlush]
        else [.scheduleFlush]) rest) := by
  have noneCounted : countedFrames (if pauses then [Frame.notifyPauseWriting, .scheduleFlush]
        else [.scheduleFlush] : List (Frame Byte)) = 0 := by
    cases pauses <;> rfl
  apply counted.proceed stack
  cases pending : s.pendingDirectWrite with
  | none =>
    simp only [buffered, TransportState.staged, pending,
      Frame.counted, OwnedWriteBuffer.len, length_nil]
    omega
  | some =>
    simp only [buffered, TransportState.staged, pending,
      Frame.counted, OwnedWriteBuffer.len,
      OwnedWriteBuffer.remaining_extendFromSlice, length_append]
    omega

theorem counted_published {what : Publication Byte} {queue : QueueState Byte}
    (stack : s.stack = .publish .send what pauses :: rest)
    (pushed : publishTo s.writerQueue what = some queue) :
    Counted ({ s with writerQueue := queue }.proceed
      (if pauses then [.notifyPauseWriting] else []) rest) := by
  have length := congrArg List.length (payloads_of_publishTo pushed)
  have noneCounted : countedFrames (if pauses then [Frame.notifyPauseWriting]
        else [] : List (Frame Byte)) = 0 := by
    cases pauses <;> rfl
  apply counted.proceed stack
  simp only [length_append] at length
  simp only [buffered, TransportState.staged, length, Frame.counted]
  omega

theorem counted_drained {len : Nat}
    (stack : s.stack = .recordWriteBufferDrained len :: rest) :
    Counted ({ s with writeBuffer := (s.writeBuffer.drainWriteBuffer len).1 }.proceed
      (signalFrames (s.writeBuffer.drainWriteBuffer len).2) rest) := by
  have enough : len ≤ s.writeBuffer.size := by
    rw [counted, stack, countedFrames_cons]
    change len ≤ s.buffered + (len + countedFrames rest)
    omega
  apply counted.proceed stack
  have sameBuffered : buffered { s with
      writeBuffer := (s.writeBuffer.drainWriteBuffer len).1 } = s.buffered := rfl
  rw [sameBuffered, countedFrames_signalFrames, size_drainWriteBuffer]
  change s.writeBuffer.size - len + (s.buffered + len) = _
  omega

end

variable {next : TransportState Byte}

theorem counted_of_frameMove (isOpen : Open s) (counted : Counted s)
    (stack : s.stack = frame :: rest) (move : FrameMove cfg s rest frame next) :
    Counted next := by
  cases move with
  | routed _ routes | finished routes | refused routes _ | activated routes =>
    exact counted.replace stack rfl rfl (by cases routes <;> rfl)
  | @recorded _ next writeBuffer signal records accepted =>
    -- the next frame has the bytes that the counter grew by in its hands
    have grown := size_of_enqueueWriteBuffer accepted
    have holds : countedFrames [next (decide (signal = .pause))] = frame.bytes.length := by
      cases records <;> rfl
    have uncounted : frame.counted = 0 := by cases records <;> rfl
    have sameBuffered : buffered { s with writeBuffer := writeBuffer } =
          s.buffered := rfl
    apply counted.proceed stack
    change writeBuffer.size + _ = _
    omega
  | started _ _ isLazy =>
    refine counted.replace stack rfl ?_ rfl
    simp only [buffered, isOpen.lazyIdle isLazy]
    rfl
  | published _ pushed => exact counted_published counted stack pushed
  | staged => exact counted_staged counted stack
  | calls announcement _ | queues announcement _ =>
    exact counted.replace stack rfl rfl (by cases announcement <;> rfl)
  | nothingStaged unstaged =>
    refine counted.replace stack rfl ?_ rfl
    simp only [buffered, TransportState.staged, unstaged]
  | flushed _ pending =>
    apply counted.proceed stack
    simp only [buffered, TransportState.staged, pending,
      countedFrames_cons, countedFrames_nil, Frame.counted,
      OwnedWriteBuffer.len, length_nil]
    omega
  | decided decides =>
    cases decides with
    | drain => exact counted_drained counted stack
    | limits =>
      exact counted.replace stack (size_reconcileWriteBufferLimits _ _ _)
        rfl (countedFrames_signalFrames _)
  | sent count sends =>
    refine counted.replace stack rfl rfl ?_
    cases sends with
    | flushPart data _ accepted =>
      -- the unsent suffix and the sent prefix are uncounted separately
      change ((data.advance count accepted).remaining).length + (count + 0) = data.len
      rw [OwnedWriteBuffer.remaining_advance, length_drop]
      change data.len - count + (count + 0) = data.len
      omega
    | _ => rfl
  | _ => exact counted.replace stack rfl rfl rfl

/-! ## Steps of the worker -/

theorem Counted.workerMoves {after : TransportState Byte}
    (counted : Counted s) (stack : after.stack = s.stack)
    (balance : after.writeBuffer.size + s.buffered = s.writeBuffer.size + after.buffered) :
    Counted after := by
  have before : s.writeBuffer.size = s.buffered + countedFrames s.stack := counted
  change after.writeBuffer.size = after.buffered + countedFrames after.stack
  rw [stack]
  omega

theorem Counted.workerAt {after : TransportState Byte}
    (counted : Counted s) (stack : after.stack = s.stack)
    (sameSize : after.writeBuffer = s.writeBuffer)
    (samePending : after.pendingDirectWrite = s.pendingDirectWrite)
    (sameQueue : after.writerQueue = s.writerQueue)
    (samePosition : after.worker.counted = s.worker.counted) :
    Counted after := by
  apply counted.workerMoves stack
  simp only [buffered, TransportState.staged, sameSize,
    samePending, sameQueue, samePosition]

theorem counted_recordDrained {bufferedLen : Nat} (counted : Counted s)
    (pos : s.worker = .recordDrained bufferedLen) :
    Counted { s with
      writeBuffer := (s.writeBuffer.drainWriteBuffer bufferedLen).1
      worker :=
        if (s.writeBuffer.drainWriteBuffer bufferedLen).2 = .resume then
          .notifyResume
        else .tryReceive } := by
  have enough : bufferedLen ≤ s.writeBuffer.size := by
    rw [counted, buffered, pos]
    change bufferedLen ≤ _ + bufferedLen + _
    omega
  have idle : ∀ signal : WriteBufferSignal, (if signal = .resume then Worker.notifyResume
        else .tryReceive : Worker Byte).counted = 0 := by
    intro signal
    split <;> rfl
  refine counted.workerMoves rfl ?_
  simp only [buffered, TransportState.staged, pos, idle,
    Worker.counted_recordDrained, size_drainWriteBuffer]
  omega

theorem counted_of_workerMove (counted : Counted s) (move : WorkerMove s next) :
    Counted next := by
  cases move with
  | waits => exact counted
  | passes pos pass =>
    exact counted.workerAt rfl rfl rfl rfl (by rw [pos]; cases pass <;> rfl)
  | takes pos cmds =>
    have idle : s.worker.counted = 0 := by
      rcases pos with receive | tryReceive
      · rw [receive]
        rfl
      · rw [tryReceive]
        rfl
    refine counted.workerMoves rfl ?_
    simp only [buffered, TransportState.staged, cmds,
      payloads_cons, WriterCommand.payload, length_append, idle,
      Worker.counted_writing, OwnedWriteBuffer.len]
    omega
  | writes pos _ | resumes pos =>
    exact counted.workerAt rfl rfl rfl rfl (by rw [pos]; rfl)
  | drains pos => exact counted_recordDrained counted pos
  | clears pos clearing =>
    refine counted.workerAt rfl rfl rfl rfl ?_
    rw [pos]
    rcases clearing with ⟨rfl, rfl⟩ | ⟨rfl, rfl⟩ <;> rfl

/-! ## Runs -/

theorem counted_step {action : Action Byte} (isOpen : Open s)
    (counted : Counted s)
    (keepsOpen : action.keepsOpen) (moved : step cfg s action = some next) :
    Counted next := by
  have emptyStack : s.stack = [] → s.writeBuffer.size = s.buffered := by
    intro empty
    rw [counted, empty, countedFrames_nil, Nat.add_zero]
  have started : ∀ new : Frame Byte, new.counted = 0 → s.writeBuffer.size =
        s.buffered + countedFrames (new :: s.stack) := by
    intro new uncounted
    rwa [countedFrames_cons, uncounted, Nat.zero_add]
  cases openStep_of_step isOpen keepsOpen moved with
  | wrote writes => exact started _ (by cases writes <;> rfl)
  | limits => exact started _ rfl
  | flushes idle _ | delivers idle _ _ _ => exact emptyStack idle
  | frame stack move => exact counted_of_frameMove isOpen counted stack move
  | worker move => exact counted_of_workerMove counted move
  | _ => exact counted

theorem size_le_of_openStep {action : Action Byte}
    (openStep : OpenStep cfg s action next)
    (bound : s.writeBuffer.size ≤ cfg.maxWriteBufferSize) :
    next.writeBuffer.size ≤ cfg.maxWriteBufferSize := by
  cases openStep with
  | frame _ move =>
    cases move with
    | recorded _ accepted =>
      unfold StreamWriteBufferState.enqueueWriteBuffer at accepted
      grind [proceed]
    | decided decides => cases decides <;> simp [proceed] <;> omega
    | _ => exact bound
  | worker move =>
    cases move with
    | drains => grind [size_drainWriteBuffer]
    | _ => exact bound
  | _ => exact bound

theorem counted_new (cfg : TransportConfig) :
    Counted (TransportState.new cfg : TransportState Byte) := by
  simp only [Counted, TransportState.new, buffered,
    TransportState.staged, QueueState.new, StreamWriteBufferState.new]
  split <;> rfl

/-- What the count says between and during operations: it is the sum of the
three places, and no subtraction cuts it off. -/
structure WriteBufferAccounted (s : TransportState Byte) : Prop where
  size : s.stack = [] → s.writeBuffer.size = s.buffered
  flushDrains : ∀ len, s.stack.head? = some (.recordWriteBufferDrained len) →
      len ≤ s.writeBuffer.size
  workerDrains : ∀ len, s.worker = .recordDrained len → len ≤ s.writeBuffer.size

/-- Between the operations of the loop thread the write-buffer size is the
number of bytes that are staged, queued or dequeued and not yet reported. -/
theorem writeBufferAccounted_of_run (cfg : TransportConfig)
    (actions : List (Action Byte))
    (s : TransportState Byte)
    (keepsOpen : ∀ action ∈ actions, action.keepsOpen)
    (reached : run (step cfg) (.new cfg) actions = some s) :
    WriteBufferAccounted s := by
  have guarded : Guarded (step cfg) (fun _ action => action.keepsOpen)
      (.new cfg) actions :=
    guarded_of_forall fun action member _ => keepsOpen action member
  obtain ⟨-, counted⟩ : Open s ∧ Counted s := by
    apply invariant_of_run (fun s => Open s ∧ Counted s) _
      ⟨open_new cfg, counted_new cfg⟩ guarded reached
    rintro before action after ⟨isOpen, counted⟩ keeps moved
    exact ⟨open_step isOpen keeps moved, counted_step isOpen counted keeps moved⟩
  constructor
  · intro empty
    rw [counted, empty, countedFrames_nil, Nat.add_zero]
  · intro len top
    obtain ⟨rest, stack⟩ : ∃ rest, s.stack = .recordWriteBufferDrained len :: rest := by
      cases stack : s.stack with
      | nil =>
        rw [stack] at top
        cases top
      | cons _ rest =>
        rw [stack] at top
        cases top
        exact ⟨rest, rfl⟩
    rw [counted, stack, countedFrames_cons]
    change len ≤ s.buffered + (len + countedFrames rest)
    omega
  · intro len position
    rw [counted, buffered, position]
    change len ≤ _ + len + _
    omega

/-- Three bytes of which the socket takes one. The worker has dequeued the other
two and sent one of them. -/
def halfWritten : List (Action UInt8) :=
  [.write [1, 2, 3] true, .loop .done, .loop (.wrote 1), .loop .done,
    .loop .done, .loop .done, .loop .done, .worker .done, .worker (.wrote 1)]

theorem writeBufferAccounted_of_halfWritten : ∃ s : TransportState UInt8,
      run (step (socketConfig false)) (.new (socketConfig false)) halfWritten = some s ∧
        (s.stack = [] ∧ s.buffered = 2) ∧
        s.writeBuffer.size = s.buffered := by
  refine exists_run_imp (fun s => s.stack = [] ∧ s.buffered = 2) (by decide) ?_
  rintro s reached between
  refine ⟨between, ?_⟩
  exact (writeBufferAccounted_of_run (socketConfig false) halfWritten s
    (by decide) reached).size between.1

/-- In no interleaving do the staged, queued and dequeued bytes and those that
operations on the stack have counted come to more than the maximum. -/
theorem buffered_le_maxWriteBufferSize {actions : List (Action Byte)}
    (keepsOpen : ∀ action ∈ actions, action.keepsOpen)
    (reached : run (step cfg) (.new cfg) actions = some s) :
    s.buffered + countedFrames s.stack ≤ cfg.maxWriteBufferSize := by
  obtain ⟨-, counted, bound⟩ : Open s ∧ Counted s ∧ _ ≤ cfg.maxWriteBufferSize := by
    refine invariant_of_run (fun s => Open s ∧ Counted s ∧ s.writeBuffer.size ≤
        cfg.maxWriteBufferSize) ?_ ⟨open_new cfg, counted_new cfg, Nat.zero_le _⟩
      (guarded_of_forall fun action member _ => keepsOpen action member) reached
    rintro before action after ⟨isOpen, counted, bound⟩ keeps moved
    exact ⟨open_step isOpen keeps moved, counted_step isOpen counted keeps moved,
      size_le_of_openStep (openStep_of_step isOpen keeps moved) bound⟩
  exact counted.symm.trans_le bound

theorem buffered_le_of_halfWritten : ∃ s,
      run (step (socketConfig false)) (.new (socketConfig false)) halfWritten = some s ∧
        s.buffered = 2 ∧
        s.buffered + countedFrames s.stack ≤ (socketConfig false).maxWriteBufferSize := by
  refine exists_run_imp (fun s => s.buffered = 2) (by decide) ?_
  intro s reached held
  exact ⟨held, buffered_le_maxWriteBufferSize (by decide) reached⟩

end Rsloop.Stream
