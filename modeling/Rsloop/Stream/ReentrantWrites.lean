import Rsloop.Stream.RejectedWrites

/-!
# Writes from inside flow-control callbacks

`pause_writing` and `resume_writing` may write. A call counts after the one
that led to it. While the worker rests, bytes leave the loop thread in call
order as long as a callback that runs between staging and scheduling the flush
does not go to the socket.
-/

namespace Rsloop.Stream

open Transition List TransportState

variable {Byte : Type}

/-! ## Conditions on runs -/

def Action.isWorker : Action Byte → Bool
  | .worker _ => true
  | _ => false

/-- No close, no error and no step of the worker. The cap refuses nothing,
which is all that `TimelyClears` says of the loop thread. -/
def UndisturbedCalls (cfg : TransportConfig) (s : TransportState Byte)
    (action : Action Byte) : Prop :=
  action.keepsOpen ∧ action.isWorker = false ∧ TimelyClears cfg s action

/-- A write called while staged bytes wait for their flush to be scheduled is
staged as well. -/
def StagesBehindStaged (cfg : TransportConfig) (s : TransportState Byte)
    (action : Action Byte) : Prop :=
  action.isWrite → Frame.scheduleFlush ∈ s.stack → s.directWriteScheduled = false →
      triesSocketFirst cfg s action = false

instance decidableUndisturbedCalls (cfg : TransportConfig) (s : TransportState Byte)
    (action : Action Byte) : Decidable (UndisturbedCalls cfg s action) :=
  inferInstanceAs (Decidable (_ ∧ _ ∧ _))

instance decidableStagesBehindStaged [DecidableEq Byte]
    (cfg : TransportConfig) (s : TransportState Byte)
    (action : Action Byte) : Decidable (StagesBehindStaged cfg s action) :=
  inferInstanceAs (Decidable (_ → _ → _ → _))

/-! ## The invariant -/

/-- Whether a write without anything staged goes to the socket, not to the
queue. -/
def TransportState.writesDirectly
    (cfg : TransportConfig) (s : TransportState Byte) : Bool :=
  cfg.directWriter && !s.writeBackpressureActive

/-- What a frame of a write call relies on. Before the call has decided where
its bytes go, this is: if it goes to the socket, nothing is staged. -/
def Frame.Prepared (cfg : TransportConfig) (s : TransportState Byte) : Frame Byte → Prop
  | .tryWriteBytes data =>
    s.attemptsDirectWrite cfg (s.shouldCoalesceSmallWrite cfg data.length) →
        s.pendingDirectWrite = none
  | .tryWriteBytesWithStatus data backpressureActive =>
    s.writeBackpressureActive = backpressureActive ∧ (s.attemptsDirectWrite cfg
        (s.shouldCoalesceSmallWrite cfg data.length) →
          s.pendingDirectWrite = none)
  | .tryDirectWrite _ => s.writesDirectly cfg ∧ s.pendingDirectWrite = none
  | .activateQueueWrite _ => s.pendingDirectWrite = none
  | .queueWrite _ => s.writesDirectly cfg = false
  | .publish .activate _ _ => s.pendingDirectWrite = none
  | .publish _ _ _ => s.writesDirectly cfg = false
  | .stageDirectWriteBuffer _ | .stageOwnedBuffer _ _ => s.writesDirectly cfg
  | .flushDirectWrite _ => s.writesDirectly cfg ∧ s.pendingDirectWrite = none
  | .tryWriteSegments segs =>
    s.attemptsSegments cfg segs → s.pendingDirectWrite = none
  | .tryDirectWriteVectored _ =>
    s.writesDirectly cfg ∧ s.pendingDirectWrite = none
  | .activateQueueSegments _ _ => s.pendingDirectWrite = none
  | .queueSegments segs written =>
    s.attemptsDirectWrite cfg (cfg.coalesceSmallWrites &&
        isWriteBatchCandidate (segs.flatten.length - written)) →
          s.pendingDirectWrite = none
  | .queueWriteBatch _ => s.pendingDirectWrite = none
  | .tryWriteBuffer data =>
    s.attemptsDirectWrite cfg
      (cfg.coalesceSmallWrites && isWriteBatchCandidate data.len) →
        s.pendingDirectWrite = none
  | _ => True

/-- The places of the written bytes in order, and what the backpressure flag
says about them. -/
structure Placed (cfg : TransportConfig) (s : TransportState Byte)
    (hand : List Byte) : Prop where
  total : s.written = s.wire ++ payloads s.writerQueue.commands ++ s.staged ++ hand
  quiet : s.writesDirectly cfg → payloads s.writerQueue.commands = []
  stagedQuiet : s.pendingDirectWrite ≠ none → s.writesDirectly cfg

structure CallOrder (cfg : TransportConfig) (s : TransportState Byte) : Prop where
  placed : Placed cfg s (s.stack.flatMap Frame.bytes)
  scheduled : s.pendingDirectWrite ≠ none →
    s.directWriteScheduled ∨ Frame.scheduleFlush ∈ s.stack
  prepared : ∀ frame ∈ s.stack.head?, frame.Prepared cfg s

theorem Frame.prepared_of_settled {cfg : TransportConfig}
    {s : TransportState Byte}
    {frame : Frame Byte} (settled : frame.settled) : frame.Prepared cfg s := by
  cases frame <;> trivial

theorem callOrder_new (cfg : TransportConfig) :
    CallOrder cfg (TransportState.new cfg : TransportState Byte) where
  placed := { total := rfl, quiet := fun _ => rfl, stagedQuiet := by simp [TransportState.new] }
  scheduled := by simp [TransportState.new]
  prepared := by simp [TransportState.new]

variable {cfg : TransportConfig} {s : TransportState Byte} {hand : List Byte}

theorem Placed.unstaged (placed : Placed cfg s hand)
    (queues : s.writesDirectly cfg = false) : s.pendingDirectWrite = none := by
  by_contra pending
  cases queues.symm.trans (placed.stagedQuiet pending)

theorem Placed.sent (placed : Placed cfg s hand)
    (direct : s.writesDirectly cfg)
    (unstaged : s.pendingDirectWrite = none) (count : Nat) :
    Placed cfg (s.sent hand count) (hand.drop count) := by
  refine { placed with total := ?_ }
  have total := placed.total
  rw [placed.quiet direct, staged_of_none unstaged] at total
  change s.written = (s.wire ++ hand.take count) ++
    payloads s.writerQueue.commands ++ s.staged ++ hand.drop count
  rw [placed.quiet direct, staged_of_none unstaged, total]
  simp

theorem Placed.published {what : Publication Byte} {queue : QueueState Byte}
    (placed : Placed cfg s what.payload) (queues : s.writesDirectly cfg = false)
    (published : publishTo s.writerQueue what = some queue) :
    Placed cfg { s with writerQueue := queue } [] := by
  refine { total := ?_, quiet := fun direct => ?_, stagedQuiet := placed.stagedQuiet }
  · have total := placed.total
    rw [staged_of_none (placed.unstaged queues)] at total
    change s.written = s.wire ++ payloads queue.commands ++ s.staged ++ []
    rw [staged_of_none (placed.unstaged queues), payloads_of_publishTo published, total]
    simp
  · cases queues.symm.trans direct

theorem Placed.activated (placed : Placed cfg s hand)
    (unstaged : s.pendingDirectWrite = none) :
    Placed cfg { s with writerRegistered := true } hand where
  total := placed.total
  quiet := by
    simp [writesDirectly, writeBackpressureActive]
  stagedQuiet := fun pending => absurd unstaged pending

theorem Placed.stage {data : OwnedWriteBuffer Byte}
    (placed : Placed cfg s data.remaining)
    (direct : s.writesDirectly cfg) :
    Placed cfg
      { s with
        pendingDirectWrite := some (match s.pendingDirectWrite with
          | some buf => buf.extendFromSlice data.remaining
          | none => data) } [] := by
  refine { total := ?_, quiet := placed.quiet, stagedQuiet := fun _ => direct }
  have total := placed.total
  simp only [TransportState.staged] at total ⊢
  cases pending : s.pendingDirectWrite with
  | none | some buf =>
    rw [pending] at total
    simpa using total

theorem not_isWriteBatchCandidate_of_long {len : Nat}
    (long : len > smallWriteCoalesceMaxBytes) :
    isWriteBatchCandidate len = false := by
  simp only [isWriteBatchCandidate, Bool.and_eq_false_iff, decide_eq_false_iff_not]
  omega

/-! ## Steps of the loop thread -/

variable {after : TransportState Byte} {frame : Frame Byte} {frames rest : List (Frame Byte)}

theorem CallOrder.proceed (settled : ∀ other ∈ rest, other.settled)
    (placed : Placed cfg after (frames.flatMap Frame.bytes))
    (scheduled : after.pendingDirectWrite ≠ none → after.directWriteScheduled ∨
        Frame.scheduleFlush ∈ frames ++ rest)
    (prepared : ∀ new ∈ frames.head?, new.Prepared cfg after) :
    CallOrder cfg (after.proceed frames rest) where
  placed := by
    rw [flatMap_bytes_proceed settled]
    exact { placed with }
  scheduled := scheduled
  prepared := by
    intro new mem
    cases frames with
    | nil =>
      have inRest : new ∈ rest := mem_of_mem_head? mem
      exact Frame.prepared_of_settled (settled new inRest)
    | cons top =>
      have onTop := prepared top rfl
      cases mem
      cases new <;> exact onTop

variable {new : Frame Byte}

section

variable (inv : CallOrder cfg s)

include inv

theorem CallOrder.placed_top (stack : s.stack = frame :: rest)
    (settled : ∀ other ∈ rest, other.settled) : Placed cfg s frame.bytes := by
  have placed := inv.placed
  rwa [stack, flatMap_cons, flatMap_bytes_of_settled settled, append_nil] at placed

theorem CallOrder.prepared_top (stack : s.stack = frame :: rest) :
    frame.Prepared cfg s :=
  inv.prepared frame (by rw [stack]; rfl)

/-- The operation goes on with other frames and leaves the staged bytes to
their flush. -/
theorem CallOrder.continueWith (stack : s.stack = frame :: rest)
    (settled : ∀ other ∈ rest, other.settled) (other : frame ≠ .scheduleFlush)
    (samePending : after.pendingDirectWrite = s.pendingDirectWrite)
    (sameScheduled : after.directWriteScheduled = s.directWriteScheduled)
    (placed : Placed cfg after (frames.flatMap Frame.bytes))
    (prepared : ∀ new ∈ frames.head?, new.Prepared cfg after) :
    CallOrder cfg (after.proceed frames rest) :=
  .proceed settled placed (flushScheduled inv.scheduled (scheduleFlush_below stack other)
    samePending sameScheduled) prepared

theorem CallOrder.replace (stack : s.stack = frame :: rest)
    (settled : ∀ other ∈ rest, other.settled) (other : frame ≠ .scheduleFlush)
    (samePending : after.pendingDirectWrite = s.pendingDirectWrite)
    (sameScheduled : after.directWriteScheduled = s.directWriteScheduled)
    (placed : Placed cfg after new.bytes) (prepared : new.Prepared cfg after) :
    CallOrder cfg (after.proceed [new] rest) := by
  refine inv.continueWith stack settled other samePending sameScheduled ?_ ?_
  · simpa using placed
  · intro top mem
    cases mem
    exact prepared

theorem CallOrder.finish (stack : s.stack = frame :: rest)
    (settled : ∀ other ∈ rest, other.settled) (other : frame ≠ .scheduleFlush)
    (samePending : after.pendingDirectWrite = s.pendingDirectWrite)
    (sameScheduled : after.directWriteScheduled = s.directWriteScheduled)
    (placed : Placed cfg after []) : CallOrder cfg (after.proceed [] rest) :=
  inv.continueWith stack settled other samePending sameScheduled placed (by simp)

theorem CallOrder.signalFrames (stack : s.stack = frame :: rest)
    (settled : ∀ other ∈ rest, other.settled) (other : frame ≠ .scheduleFlush)
    (empty : frame.bytes = []) (writeBuffer : StreamWriteBufferState)
    (signal : WriteBufferSignal) :
    CallOrder cfg
      ({ s with writeBuffer := writeBuffer }.proceed (signalFrames signal) rest) := by
  have placed := inv.placed_top stack settled
  rw [empty] at placed
  refine inv.continueWith stack settled other rfl rfl ?_ ?_
  · have silent : (Rsloop.Stream.signalFrames signal).flatMap Frame.bytes = ([] : List Byte) := by
      cases signal <;> rfl
    rw [silent]
    exact { placed with }
  · intro new mem
    cases signal <;> cases mem <;> trivial

end

theorem attemptsDirectWrite_eq {coalesces : Bool}
    (direct : s.writesDirectly cfg)
    (unscheduled : s.directWriteScheduled = false) (apart : coalesces = false) :
    s.attemptsDirectWrite cfg coalesces := by
  unfold writesDirectly at direct
  rw [attemptsDirectWrite, direct, unscheduled, apart]
  rfl

theorem not_coalesced_of_long {len : Nat}
    (long : len > smallWriteCoalesceMaxBytes) :
    (cfg.coalesceSmallWrites && isWriteBatchCandidate len) = false := by
  rw [not_isWriteBatchCandidate_of_long long, Bool.and_false]

theorem CallOrder.unstaged_of_batch {segs : List (List Byte)} {written : Nat}
    (inv : CallOrder cfg s)
    (stack : s.stack = .queueSegments segs written :: rest)
    (settled : ∀ other ∈ rest, other.settled)
    (long : segs.flatten.length - written > defaultWriteBufferHighWater)
    (unscheduled : s.directWriteScheduled = false) :
    s.pendingDirectWrite = none := by
  by_cases direct : s.writesDirectly cfg
  · apply inv.prepared_top stack
    have longer : segs.flatten.length - written >
        smallWriteCoalesceMaxBytes :=
      Nat.lt_trans (by decide) long
    exact attemptsDirectWrite_eq direct unscheduled (not_coalesced_of_long longer)
  · exact (inv.placed_top stack settled).unstaged (eq_false_of_ne_true direct)

/-- Each choice gives the next frame what it relies on. -/
theorem CallOrder.prepared_of_routes (inv : CallOrder cfg s)
    (stack : s.stack = frame :: rest) (settled : ∀ other ∈ rest, other.settled)
    (routes : Routes cfg s frame new) : new.Prepared cfg s := by
  have prepared := inv.prepared_top stack
  cases routes with
  | status => exact ⟨rfl, prepared⟩
  | stageBytes data active direct | queueBytes data active direct =>
    obtain ⟨rfl, -⟩ := prepared
    exact direct
  | sendBytes _ _ direct unscheduled apart =>
    obtain ⟨rfl, unstaged⟩ := prepared
    exact ⟨direct, unstaged (attemptsDirectWrite_eq direct unscheduled apart)⟩
  | single => exact prepared
  | gather _ _ long direct unscheduled =>
    simp only [Frame.Prepared, attemptsSegments] at prepared
    exact ⟨direct, prepared (attemptsDirectWrite_eq direct unscheduled
      (not_coalesced_of_long long))⟩
  | join =>
    simp only [Frame.Prepared, attemptsSegments] at prepared
    exact prepared
  | batch _ _ long unscheduled =>
    exact inv.unstaged_of_batch stack settled long unscheduled
  | copy segs written =>
    have sameLength : (joinUnsent .withPooledCapacity segs written).len =
          segs.flatten.length - written := by
      rw [OwnedWriteBuffer.len, remaining_joinUnsent]
      simp
    simp only [Frame.Prepared, sameLength]
    exact prepared
  | stageBuffer data direct | queueBuffer data direct => exact direct
  | sendBuffer _ direct unscheduled apart =>
    exact ⟨direct, prepared (attemptsDirectWrite_eq direct unscheduled apart)⟩
  | _ => exact prepared.2

theorem callOrder_sent {count : Nat} (inv : CallOrder cfg s)
    (stack : s.stack = frame :: rest) (settled : ∀ other ∈ rest, other.settled)
    (sends : Sends frame count frames) :
    CallOrder cfg ((s.sent frame.bytes count).proceed frames rest) := by
  have prepared : s.writesDirectly cfg ∧ s.pendingDirectWrite = none := by
    have top := inv.prepared_top stack
    cases sends <;> exact top
  have sent := (inv.placed_top stack settled).sent prepared.1 prepared.2 count
  rw [← sends.bytes_eq] at sent
  refine inv.continueWith stack settled (by cases sends <;> simp) rfl rfl sent ?_
  intro new mem
  cases sends <;> cases mem <;> first | exact prepared.2 | trivial

theorem Placed.unstage (placed : Placed cfg s []) : Placed cfg
      { s with directWriteScheduled := false, pendingDirectWrite := none }
      s.staged where
  total := by simpa using placed.total
  quiet := placed.quiet
  stagedQuiet := by simp

theorem callOrder_of_frameMove {next : TransportState Byte}
    (inv : CallOrder cfg s) (isOpen : Open s) (stack : s.stack = frame :: rest)
    (fits : (s.writeBuffer.enqueueWriteBuffer frame.recordedBytes.length
      cfg.maxWriteBufferSize).isSome)
    (move : FrameMove cfg s rest frame next) : CallOrder cfg next := by
  have settled := isOpen.settled_below stack
  have placed := inv.placed_top stack settled
  have prepared := inv.prepared_top stack
  cases move with
  | routed noting routes =>
    have onTop := inv.prepared_of_routes stack settled routes
    refine inv.replace stack settled (by cases routes <;> simp) rfl rfl ?_ ?_
    · rw [routes.bytes_eq]
      exact { placed with }
    · rcases noting with ⟨rfl, rfl⟩ | ⟨data, active, rfl⟩
      · exact onTop
      · cases routes <;> exact onTop
  | finished finishes =>
    rw [finishes.bytes_eq] at placed
    exact inv.finish stack settled (by cases finishes <;> simp) rfl rfl placed
  | refused records full =>
    have same : frame.recordedBytes = frame.bytes := by cases records <;> rfl
    rw [same, full] at fits
    cases fits
  | recorded records =>
    refine inv.replace stack settled (by cases records <;> simp) rfl rfl ?_
      (by cases records <;> exact prepared)
    rw [records.bytes_eq]
    exact { placed with }
  | activated activates =>
    refine inv.replace stack settled (by cases activates <;> simp) rfl rfl ?_ ?_
    · rw [activates.bytes_eq]
      exact placed.activated (by cases activates <;> exact prepared)
    · cases activates <;> simp [Frame.Prepared, writesDirectly,
          attemptsDirectWrite,
          writeBackpressureActive]
  | started =>
    exact inv.replace stack settled (by simp) rfl rfl { placed with } prepared
  | running =>
    exact inv.replace stack settled (by simp) rfl rfl placed prepared
  | published pauses pushed =>
    have published := placed.published prepared pushed
    cases pauses with
    | true => exact inv.replace stack settled (by simp) rfl rfl published trivial
    | false => exact inv.finish stack settled (by simp) rfl rfl published
  | staged _ pauses =>
    have staged := placed.stage prepared
    cases pauses with
    | true | false =>
      exact .proceed settled staged (fun _ => .inr (by simp)) (by simp [Frame.Prepared])
  | scheduled _ => exact .proceed settled { placed with } (fun _ => .inl rfl) (by simp)
  | calls announcement =>
    cases announcement <;> exact inv.replace stack settled (by simp) rfl rfl placed trivial
  | queues announcement =>
    cases announcement <;> exact inv.finish stack settled (by simp) rfl rfl { placed with }
  | called => exact inv.replace stack settled (by simp) rfl rfl { placed with } trivial
  | nothingStaged unstaged =>
    have taken := placed.unstage
    rw [staged_of_none unstaged] at taken
    exact .proceed settled taken (by simp) (by simp)
  | flushed _ pending =>
    have taken := placed.unstage
    have direct := placed.stagedQuiet (by simp [pending])
    rw [TransportState.staged, pending] at taken
    refine .proceed settled (by simpa [Frame.bytes] using taken) (by simp) ?_
    intro new mem
    cases mem
    exact ⟨direct, rfl⟩
  | decided decides =>
    exact inv.signalFrames stack settled (by cases decides <;> simp)
      (by cases decides <;> rfl) _ _
  | sent _ sends => exact callOrder_sent inv stack settled sends

/-! ## Whole runs -/

variable {next : TransportState Byte}

/-- A call starts on top of what waits for it. -/
theorem CallOrder.call
    (inv : CallOrder cfg s) (settled : ∀ frame ∈ s.stack, frame.settled)
    (samePending : after.pendingDirectWrite = s.pendingDirectWrite)
    (sameScheduled : after.directWriteScheduled = s.directWriteScheduled)
    (placed : Placed cfg after new.bytes) (prepared : new.Prepared cfg after) :
    CallOrder cfg (after.proceed [new] s.stack) := by
  refine .proceed settled (by simpa using placed)
    (flushScheduled inv.scheduled id samePending sameScheduled) ?_
  intro top mem
  cases mem
  exact prepared

theorem CallOrder.atRest (inv : CallOrder cfg s)
    (settled : ∀ frame ∈ s.stack, frame.settled) : Placed cfg s [] := by
  have placed := inv.placed
  rwa [flatMap_bytes_of_settled settled] at placed

/-- Staged bytes without a scheduled flush belong to a call that is still
running, and the condition keeps others from the socket. -/
theorem CallOrder.unstaged_of_attempt {action : Action Byte}
    (inv : CallOrder cfg s)
    (behind : StagesBehindStaged cfg s action) (writes : action.isWrite)
    (unscheduled :
      triesSocketFirst cfg s action → s.directWriteScheduled = false)
    (attempts : triesSocketFirst cfg s action) :
    s.pendingDirectWrite = none := by
  by_contra pending
  have idle := unscheduled attempts
  rcases inv.scheduled pending with scheduled | mem
  · cases idle.symm.trans scheduled
  · cases attempts.symm.trans (behind writes mem idle)

theorem unscheduled_of_attemptsDirectWrite {coalesces : Bool}
    (attempts : s.attemptsDirectWrite cfg coalesces) :
    s.directWriteScheduled = false := by
  simp only [attemptsDirectWrite, Bool.and_eq_true,
    Bool.not_eq_true', Bool.or_eq_false_iff] at attempts
  exact attempts.2.1

theorem unscheduled_of_attemptsSegments {segs : List (List Byte)}
    (attempts : s.attemptsSegments cfg segs) :
    s.directWriteScheduled = false := by
  unfold attemptsSegments at attempts
  split at attempts
  · exact unscheduled_of_attemptsDirectWrite attempts
  · exact unscheduled_of_attemptsDirectWrite attempts

theorem callOrder_step {action : Action Byte} (inv : CallOrder cfg s)
    (isOpen : Open s)
    (undisturbed : UndisturbedCalls cfg s action)
    (behind : StagesBehindStaged cfg s action)
    (moved : step cfg s action = some next) : CallOrder cfg next := by
  obtain ⟨keepsOpen, noWorker, timely⟩ := undisturbed
  cases openStep_of_step isOpen keepsOpen moved with
  | ignored => exact inv
  | wrote writes runs =>
    have settled := isOpen.settled_of_applicationRuns runs
    have placed := inv.atRest settled
    refine inv.call settled rfl rfl ?_ ?_
    · refine { placed with total := ?_ }
      have total := placed.total
      rw [append_nil] at total
      rw [total]
      rfl
    · cases writes with
      | exactBytes =>
        exact ⟨rfl, inv.unstaged_of_attempt behind rfl unscheduled_of_attemptsDirectWrite⟩
      | bytes =>
        exact inv.unstaged_of_attempt behind rfl unscheduled_of_attemptsDirectWrite
      | lines =>
        exact inv.unstaged_of_attempt behind rfl unscheduled_of_attemptsSegments
  | limits _ _ runs =>
    have settled := isOpen.settled_of_applicationRuns runs
    exact inv.call settled rfl rfl (inv.atRest settled) trivial
  | flushes idle | delivers idle =>
    exact
      { placed := { inv.atRest (by simp [idle]) with }
        scheduled := by simpa [idle] using inv.scheduled
        prepared := by simp [Frame.Prepared] }
  | turns idle _ | switches idle _ =>
    exact { inv with placed := { inv.placed with }, prepared := by simp [idle] }
  | frame stack move =>
    exact callOrder_of_frameMove inv isOpen stack (timely _ (by rw [stack]; rfl)) move
  | worker => cases noWorker

/-- Whenever application code runs, the bytes of all calls so far, in call
order, are those on the socket, then those queued, then those staged. -/
theorem written_eq_of_stagesBehindStaged (cfg : TransportConfig)
    (actions : List (Action Byte))
    (s : TransportState Byte)
    (undisturbed : Guarded (step cfg) (UndisturbedCalls cfg) (.new cfg) actions)
    (behind : Guarded (step cfg) (StagesBehindStaged cfg) (.new cfg) actions)
    (reached : run (step cfg) (.new cfg) actions = some s)
    (runs : applicationRuns s.stack) :
    s.written = s.wire ++ payloads s.writerQueue.commands ++ s.staged := by
  have invariant : Open s ∧ CallOrder cfg s := by
    refine invariant_of_run (fun current => Open current ∧ CallOrder cfg current) ?_
      ⟨open_new cfg, callOrder_new cfg⟩ (undisturbed.and behind) reached
    rintro current action next ⟨isOpen, inv⟩ ⟨calls, staged⟩ moved
    exact ⟨open_step isOpen calls.1 moved, callOrder_step inv isOpen calls staged moved⟩
  have placed := invariant.2.atRest (invariant.1.settled_of_applicationRuns runs)
  rw [placed.total, append_nil]

/-- Two writes of one turn with a high-water mark of zero: the first goes to
the socket, the second is staged and pauses the protocol. The callback writes
`nested` before the flush is scheduled. -/
def writeInsidePause (nested : List Bool) (replies : List Reply) : List (Action Bool) :=
  [.setWriteBufferLimits (some 0) (some 0), .loop .done,
    .write (List.replicate 65 false) true, .loop .done, .loop (.wrote 65),
    .write (List.replicate 65 false) true, .loop .done, .loop .done,
    .loop .done, .loop .done, .loop .done, .write nested true] ++
  replies.map Action.loop

/-- A nested write of the same size is staged as well. -/
theorem written_eq_of_stagedInsidePause :
    ∃ s, run (step (socketConfig true)) (.new (socketConfig true))
        (writeInsidePause (List.replicate 65 true)
          [.done, .done, .done, .done, .returned true, .done]) = some s ∧
      (s.stack = [] ∧ s.staged.length = 130) ∧
      s.written = s.wire ++ payloads s.writerQueue.commands ++ s.staged := by
  refine exists_run_imp (fun s => s.stack = [] ∧ s.staged.length = 130) (by decide) ?_
  rintro s reached facts
  refine ⟨facts, ?_⟩
  exact written_eq_of_stagesBehindStaged (socketConfig true) _ s
    (by decide) (by decide) reached (by rw [facts.1]; rfl)

/-- A nested write of one byte goes to the socket and overtakes the staged
bytes of the call that paused the protocol. -/
theorem written_ne_of_directInsidePause :
    ∃ s, run (step (socketConfig true)) (.new (socketConfig true))
        (writeInsidePause [true] [.done, .wrote 1, .returned true, .done]) = some s ∧
      Guarded (step (socketConfig true)) (UndisturbedCalls (socketConfig true))
        (.new (socketConfig true))
        (writeInsidePause [true] [.done, .wrote 1, .returned true, .done]) ∧
      s.stack = [] ∧
      s.wire = List.replicate 65 false ++ [true] ∧
      s.staged = List.replicate 65 false ∧
      s.written ≠ s.wire ++ payloads s.writerQueue.commands ++ s.staged := by
  refine exists_run_imp (fun s => s.stack = [] ∧ s.wire = List.replicate 65 false ++
      [true] ∧ s.staged = List.replicate 65 false ∧ s.written ≠ s.wire ++ payloads
      s.writerQueue.commands ++ s.staged) (by decide) ?_
  rintro s reached facts
  exact ⟨by decide, facts⟩

end Rsloop.Stream
