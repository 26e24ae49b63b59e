import Rsloop.Stream.WireOrder

/-!
# Writes that the cap refuses

A write call checks the cap on buffered bytes when it stages or queues what it
could not send. A call that goes to the socket first has then already sent a
prefix and raised the backpressure flag; a call that does not is refused as a
whole.
-/

namespace Rsloop.Stream

open Transition List TransportState

variable {Byte : Type}

/-! ## The phases of a write call -/

/-- Whether the next write goes to the socket first, given whether it is small
enough to be held back for a batch. -/
def TransportState.attemptsDirectWrite (cfg : TransportConfig) (s : TransportState Byte)
    (coalesces : Bool) : Bool :=
  cfg.directWriter && !s.writeBackpressureActive &&
    !(s.directWriteScheduled || coalesces)

/-- The same for the nonempty segments of a `writelines` call; a single segment
is written like a byte string. -/
def TransportState.attemptsSegments (cfg : TransportConfig) (s : TransportState Byte) :
    List (List Byte) → Bool
  | [segment] =>
    s.attemptsDirectWrite cfg (s.shouldCoalesceSmallWrite cfg segment.length)
  | segs =>
    s.attemptsDirectWrite cfg (cfg.coalesceSmallWrites &&
        isWriteBatchCandidate segs.flatten.length)

/-- Whether a call in this state tries the socket before the cap is checked. -/
def triesSocketFirst (cfg : TransportConfig) (s : TransportState Byte) : Action Byte → Bool
  | .write data _ =>
    s.attemptsDirectWrite cfg (s.shouldCoalesceSmallWrite cfg data.length)
  | .writelines segs =>
    s.attemptsSegments cfg (segs.filter fun segment => !segment.isEmpty)
  | _ => false

/-- Frames of a call that has not been counted yet. A call that `tries` the socket
has still to go there, or has been there and has raised the flag; another one will
not go there. -/
def Frame.Uncounted (cfg : TransportConfig) (s : TransportState Byte) (tries : Bool) :
    Frame Byte → Prop
  | .tryWriteBytes data =>
    s.attemptsDirectWrite cfg (s.shouldCoalesceSmallWrite cfg data.length) = tries
  | .tryWriteBytesWithStatus data backpressureActive =>
    backpressureActive = s.writeBackpressureActive ∧ s.attemptsDirectWrite cfg
        (s.shouldCoalesceSmallWrite cfg data.length) = tries
  | .tryWriteSegments segs => s.attemptsSegments cfg segs = tries
  | .queueSegments segs written =>
    tries ∧ s.writerRegistered ∨ written = 0 ∧
      (tries → segs.flatten.length ≤ smallWriteCoalesceMaxBytes) ∧
      s.attemptsDirectWrite cfg (cfg.coalesceSmallWrites &&
        isWriteBatchCandidate segs.flatten.length) = tries
  | .tryWriteBuffer data =>
    tries ∧ s.writerRegistered ∨ s.attemptsDirectWrite cfg
      (cfg.coalesceSmallWrites && isWriteBatchCandidate data.len) = tries
  | .queueWrite _ | .queueWriteBatch _ => tries → s.writerRegistered
  | .stageDirectWriteBuffer _ => tries = false
  | .tryDirectWrite _ | .tryDirectWriteVectored _ | .activateQueueWrite _
  | .activateQueueSegments _ _ => tries
  | _ => False

/-- Frames of a call whose bytes have been counted: they can no longer be
refused. -/
def Frame.accepted : Frame Byte → Bool
  | .publish _ _ _ | .stageOwnedBuffer _ _ | .scheduleFlush | .notifyPauseWriting
  | .protocolCall .pauseWriting | .running .pauseWriting | .perform _ | .failWrite => true
  | _ => false

/-- What a refused call must leave as it was. -/
structure Untouched (before after : TransportState Byte) : Prop where
  wire : after.wire = before.wire
  pendingDirectWrite : after.pendingDirectWrite = before.pendingDirectWrite
  writerQueue : after.writerQueue = before.writerQueue
  writeBuffer : after.writeBuffer = before.writeBuffer
  backpressure : after.writerRegistered = before.writerRegistered

/-- How far the call made in state `before` has come. -/
inductive CallProgress (cfg : TransportConfig) (tries : Bool)
    (before now : TransportState Byte) : Prop where
  | uncounted (frame : Frame Byte) (stack : now.stack = frame :: before.stack)
      (untouched : tries = false → Untouched before now)
      (unrefused : now.refused = before.refused)
      (pending : frame.Uncounted cfg now tries)
  | accepted (frames : List (Frame Byte)) (stack : now.stack = frames ++ before.stack)
      (counted : ∀ frame ∈ frames, frame.accepted)
      (unrefused : now.refused = before.refused)
  | refused (stack : now.stack = before.stack)
      (untouched : tries = false → Untouched before now)
      (raised : tries → now.writerRegistered)

variable {s : TransportState Byte} {cfg : TransportConfig}

/-! ## Accepted calls stay accepted -/

theorem refused_enqueuePendingReadEvent (s : TransportState Byte)
    (kind : ReadEventKind) :
    (s.enqueuePendingReadEvent kind).refused = s.refused := by
  unfold enqueuePendingReadEvent
  split <;> rfl

theorem refused_performOperation (s : TransportState Byte) (op : Operation Byte) :
    (performOperation s op).refused = s.refused := by
  cases op with
  | enqueueConnectionLost => exact refused_enqueuePendingReadEvent s .lost
  | _ => rfl

/-- The step of a counted frame refuses nothing and leaves counted frames. -/
def StaysAccepted (s : TransportState Byte) (rest : List (Frame Byte))
    (next : TransportState Byte) : Prop :=
  ∃ frames, next.stack = frames ++ rest ∧
    (∀ frame ∈ frames, frame.accepted) ∧ next.refused = s.refused

theorem StaysAccepted.proceed {changed : TransportState Byte}
    {frames rest : List (Frame Byte)}
    (counted : ∀ frame ∈ frames, frame.accepted)
    (unrefused : changed.refused = s.refused) :
    StaysAccepted s rest (changed.proceed frames rest) :=
  ⟨frames, rfl, counted, unrefused⟩

variable {rest : List (Frame Byte)} {reply : Reply}

theorem staysAccepted_publish {next : TransportState Byte}
    {phase : PublishPhase}
    {what : Publication Byte} {pauses : Bool}
    (moved : stepFrame cfg s rest reply (.publish phase what pauses) = some next) :
    StaysAccepted s rest next := by
  cases phase with
  | activate =>
    cases moved
    exact .proceed (by simp [Frame.accepted]) rfl
  | ensureWorker =>
    cases moved
    unfold stepEnsureWriterWorker
    split
    · split <;> exact .proceed (by simp [Frame.accepted]) rfl
    · exact .proceed (by simp [Frame.accepted]) rfl
  | send =>
    cases moved
    simp only [advanceFrame]
    split
    · exact .proceed (by simp [Frame.accepted]) rfl
    · refine .proceed ?_ rfl
      cases pauses <;> simp [Frame.accepted]

theorem staysAccepted_pauseWriting :
    StaysAccepted s rest (s.callProtocol .pauseWriting rest) := by
  unfold callProtocol
  split
  · exact .proceed (by simp) rfl
  · exact ⟨[.running .pauseWriting], rfl, by simp [Frame.accepted], rfl⟩

variable {frame : Frame Byte}

theorem staysAccepted_stepFrame {next : TransportState Byte}
    (counted : frame.accepted)
    (moved : stepFrame cfg s rest reply frame = some next) :
    StaysAccepted s rest next := by
  cases frame with
  | publish => exact staysAccepted_publish moved
  | stageOwnedBuffer _ pauses =>
    cases moved
    refine .proceed ?_ rfl
    cases pauses <;> simp [Frame.accepted]
  | scheduleFlush =>
    cases moved
    exact .proceed (by simp) rfl
  | notifyPauseWriting =>
    cases moved
    simp only [advanceFrame, stepNotify]
    split
    · exact .proceed (by simp [Frame.accepted]) rfl
    · exact .proceed (by simp) (refused_enqueuePendingReadEvent s .pause)
  | protocolCall cb =>
    cases cb with
    | pauseWriting =>
      cases moved
      exact staysAccepted_pauseWriting
    | _ => cases counted
  | running cb =>
    cases cb with
    | pauseWriting =>
      obtain ⟨frames, answered, rfl⟩ := Option.map_eq_some_iff.mp moved
      -- Whatever `pause_writing` answers, nothing follows it.
      have nothing : frames = [] := by
        cases reply <;> simp [afterCallback] at answered <;> exact answered
      subst nothing
      exact .proceed (by simp) rfl
    | _ => cases counted
  | perform op =>
    cases moved
    exact .proceed (by simp) (refused_performOperation s op)
  | failWrite =>
    cases moved
    simp only [advanceFrame]
    split
    · exact .proceed (by simp) rfl
    · exact .proceed (by simp [Frame.accepted]) rfl
  | _ => cases counted

/-! ## Uncounted calls -/

variable {before next : TransportState Byte} {tries : Bool}

theorem CallProgress.continueWith {changed : TransportState Byte}
    (untouched : tries = false → Untouched before changed)
    (unrefused : changed.refused = before.refused)
    (pending : frame.Uncounted cfg changed tries) :
    CallProgress cfg tries before (changed.proceed [frame] before.stack) := by
  refine .uncounted frame rfl (fun queues => { untouched queues with }) unrefused ?_
  cases frame <;> exact pending

theorem CallProgress.finish (unrefused : s.refused = before.refused) :
    CallProgress cfg tries before (s.proceed [] before.stack) :=
  .accepted [] rfl (by simp) unrefused

theorem attemptsSegments_of_several {segs : List (List Byte)}
    (several : ∀ segment, segs ≠ [segment]) :
    s.attemptsSegments cfg segs = s.attemptsDirectWrite cfg
        (cfg.coalesceSmallWrites && isWriteBatchCandidate segs.flatten.length) := by
  unfold attemptsSegments
  split
  · exact absurd rfl (several _)
  · rfl

/-- The frame that bytes in hand come to next is one of a call that does the same. -/
theorem uncounted_of_attempts (changed : TransportState Byte)
    (data : OwnedWriteBuffer Byte)
    {coalesces : Bool} (attempts : s.attemptsDirectWrite cfg coalesces = tries) :
    (if cfg.directWriter && !s.writeBackpressureActive then
        if s.directWriteScheduled || coalesces then .stageDirectWriteBuffer data
        else .tryDirectWrite data
      else .queueWrite data : Frame Byte).Uncounted cfg changed tries := by
  unfold attemptsDirectWrite at attempts
  split_ifs with direct staged
  · rw [direct, staged] at attempts
    exact attempts.symm
  · rw [direct, eq_false_of_ne_true staged] at attempts
    exact attempts.symm
  · rw [eq_false_of_ne_true direct] at attempts
    exact fun isTrying => nomatch attempts.trans isTrying

section

variable (untouched : tries = false → Untouched before s)
  (unrefused : s.refused = before.refused)

include untouched unrefused

theorem callProgress_record {bytes : List Byte} {publishes : Bool → Frame Byte}
    (raised : tries → s.writerRegistered)
    (counted : ∀ pauses, (publishes pauses).accepted) :
    CallProgress cfg tries before
      (recordWriteBufferEnqueued cfg s bytes before.stack publishes) := by
  unfold recordWriteBufferEnqueued
  split
  · exact .refused rfl (fun queues => { untouched queues with }) raised
  · refine .accepted [_] rfl ?_ unrefused
    intro frame mem
    rw [mem_singleton.mp mem]
    exact counted _

theorem callProgress_tryWriteBytesWithStatus {data : List Byte}
    (attempts : s.attemptsDirectWrite cfg (s.shouldCoalesceSmallWrite cfg data.length) =
      tries) :
    CallProgress cfg tries before (advanceFrame cfg s before.stack
      (.tryWriteBytesWithStatus data s.writeBackpressureActive)) := by
  have noted : (s.noteSmallWrite cfg data.length).refused = before.refused ∧
      (tries = false → Untouched before (s.noteSmallWrite cfg data.length)) := by
    unfold noteSmallWrite
    split
    · exact ⟨unrefused, fun queues => { untouched queues with }⟩
    · exact ⟨unrefused, untouched⟩
  simp only [advanceFrame]
  split
  next direct =>
    have decided := uncounted_of_attempts (s.noteSmallWrite cfg data.length)
      (.fromPython data) attempts
    rw [if_pos direct] at decided
    exact .continueWith noted.2 noted.1 decided
  next queued =>
    have decided := uncounted_of_attempts s (.fromPython data) attempts
    rw [if_neg queued] at decided
    exact .continueWith untouched unrefused decided

theorem callProgress_tryWriteSegments {segs : List (List Byte)}
    (attempts : s.attemptsSegments cfg segs = tries) :
    CallProgress cfg tries before
      (advanceFrame cfg s before.stack (.tryWriteSegments segs)) := by
  simp only [advanceFrame]
  split
  · exact .finish unrefused
  · split
    next => exact .continueWith untouched unrefused attempts
    next several =>
      rw [attemptsSegments_of_several several] at attempts
      split
      next gathers =>
        simp only [Bool.and_eq_true, decide_eq_true_eq, Bool.not_eq_true'] at gathers
        obtain ⟨⟨⟨long, direct⟩, inactive⟩, unscheduled⟩ := gathers
        have short : isWriteBatchCandidate segs.flatten.length = false := by
          simp only [isWriteBatchCandidate, Bool.and_eq_false_iff, decide_eq_false_iff_not]
          omega
        rw [attemptsDirectWrite, direct, inactive, unscheduled, short,
          Bool.and_false] at attempts
        exact .continueWith untouched unrefused attempts.symm
      next joins =>
        refine .continueWith untouched unrefused (.inr ⟨rfl, fun isTrying => ?_, attempts⟩)
        rw [isTrying] at attempts
        simp only [attemptsDirectWrite, Bool.and_eq_true, Bool.not_eq_true',
          Bool.or_eq_false_iff] at attempts
        simpa [attempts.1.1, attempts.1.2, attempts.2.1] using joins

/-- One step inside a call that has not been counted -/
theorem callProgress_stepFrame (pending : frame.Uncounted cfg s tries)
    (moved : stepFrame cfg s before.stack reply frame = some next) :
    CallProgress cfg tries before next := by
  have trying {P : Prop} (isTrying : tries) (queues : tries = false) : P := by
    cases isTrying.symm.trans queues
  cases frame with
  | tryWriteBytes =>
    cases moved
    exact .continueWith untouched unrefused ⟨rfl, pending⟩
  | tryWriteBytesWithStatus data active =>
    cases moved
    obtain ⟨rfl, attempts⟩ := pending
    exact callProgress_tryWriteBytesWithStatus untouched unrefused attempts
  | tryWriteSegments =>
    cases moved
    exact callProgress_tryWriteSegments untouched unrefused pending
  | queueSegments segs written =>
    cases moved
    simp only [advanceFrame]
    split
    next batched =>
      refine .continueWith untouched unrefused ?_
      rcases pending with ⟨-, raised⟩ | ⟨rfl, short, -⟩
      · exact fun _ => raised
      · intro isTrying
        -- A list short enough for a first attempt is joined, so no batch is queued for it.
        simp only [Bool.and_eq_true, decide_eq_true_eq] at batched
        have long : defaultWriteBufferHighWater < segs.flatten.length := batched.1.1
        have bounds : smallWriteCoalesceMaxBytes ≤ defaultWriteBufferHighWater := by decide
        exact absurd (short isTrying) (Nat.not_le.mpr (Nat.lt_of_le_of_lt bounds long))
    next =>
      refine .continueWith untouched unrefused ?_
      rcases pending with raised | ⟨rfl, -, attempts⟩
      · exact .inl raised
      · refine .inr ?_
        have sameLength : (joinUnsent .withPooledCapacity segs 0).len =
            segs.flatten.length := by
          rw [OwnedWriteBuffer.len, remaining_joinUnsent]
          rfl
        rwa [sameLength]
  | tryWriteBuffer data =>
    cases moved
    simp only [advanceFrame]
    split
    · exact .finish unrefused
    · refine .continueWith untouched unrefused ?_
      rcases pending with ⟨-, raised⟩ | attempts
      · rw [writeBackpressureActive, raised, Bool.not_true, Bool.and_false]
        exact fun _ => raised
      · exact uncounted_of_attempts s data attempts
  | queueWrite | queueWriteBatch =>
    cases moved
    exact callProgress_record untouched unrefused pending fun _ => rfl
  | stageDirectWriteBuffer data =>
    cases moved
    simp only [advanceFrame]
    split
    · exact .finish unrefused
    · refine callProgress_record untouched unrefused ?_ fun _ => rfl
      exact fun isTrying => trying isTrying pending
  | activateQueueWrite =>
    cases moved
    exact .continueWith (trying pending) unrefused fun _ => rfl
  | activateQueueSegments =>
    cases moved
    exact .continueWith (trying pending) unrefused (.inl ⟨pending, rfl⟩)
  | tryDirectWrite | tryDirectWriteVectored =>
    obtain ⟨answer, -, rfl⟩ := Option.map_eq_some_iff.mp moved
    cases answer with
    | wrote =>
      simp only [afterDirectWrite, afterDirectWriteVectored]
      split
      · exact .finish unrefused
      · exact .continueWith (trying pending) unrefused pending
    | blocked => exact .continueWith (trying pending) unrefused pending
    | failed => exact .accepted [.failWrite] rfl (by simp [Frame.accepted]) unrefused
  | _ => cases pending

end

/-! ## Refused calls -/

variable {entered : TransportState Byte}

theorem callProgress_callWrite {bytes : List Byte}
    (pending : frame.Uncounted cfg s tries)
    (called : s.callWrite cfg bytes [frame] = some entered) :
    CallProgress cfg tries s entered := by
  unfold callWrite call at called
  split at called
  · split_ifs at called
    cases called
    exact .finish rfl
  · split_ifs at called
    cases called
    refine .uncounted frame rfl (fun _ => ⟨rfl, rfl, rfl, rfl, rfl⟩) rfl ?_
    cases frame <;> exact pending

theorem callProgress_of_call {action : Action Byte} (writes : action.isWrite)
    (called : step cfg s action = some entered) :
    CallProgress cfg (triesSocketFirst cfg s action) s entered := by
  cases action with
  | write _ exactBytes =>
    cases exactBytes with
    | true => exact callProgress_callWrite (by exact ⟨rfl, rfl⟩) called
    | false => exact callProgress_callWrite (by exact rfl) called
  | writelines => exact callProgress_callWrite (by exact rfl) called
  | _ => cases writes

theorem callProgress_loopStep (progress : CallProgress cfg tries before s)
    (inside : before.stack.length < s.stack.length)
    (moved : step cfg s (.loop reply) = some next) :
    CallProgress cfg tries before next := by
  cases progress with
  | uncounted _ stack untouched unrefused pending =>
    simp only [step, stack] at moved
    exact callProgress_stepFrame untouched unrefused pending moved
  | accepted frames stack counted unrefused =>
    cases frames with
    | nil =>
      rw [stack, nil_append] at inside
      exact absurd inside (Nat.lt_irrefl _)
    | cons frame rest =>
      simp only [step, stack, cons_append] at moved
      obtain ⟨frames, nextStack, nextCounted, same⟩ :=
        staysAccepted_stepFrame (counted frame mem_cons_self) moved
      refine .accepted (frames ++ rest) ?_ ?_ (same.trans unrefused)
      · rw [nextStack, append_assoc]
      · intro other mem
        rcases mem_append.mp mem with upper | lower
        · exact nextCounted other upper
        · exact counted other (mem_cons_of_mem _ lower)
  | refused stack =>
    rw [stack] at inside
    exact absurd inside (Nat.lt_irrefl _)

/-- The loop thread is still inside the call that was made on this stack. -/
def InsideCall (stack : List (Frame Byte)) (s : TransportState Byte)
    (_ : Action Byte) : Prop :=
  stack.length < s.stack.length

instance decidableInsideCall (stack : List (Frame Byte)) (s : TransportState Byte)
    (action : Action Byte) : Decidable (InsideCall stack s action) :=
  inferInstanceAs (Decidable (_ < _))

/-- A call that tries the socket first finds the flag down. -/
theorem unraised_of_tries {action : Action Byte}
    (tries : triesSocketFirst cfg s action) :
    s.writerRegistered = false := by
  have unraised {coalesces : Bool} (attempts : s.attemptsDirectWrite cfg coalesces) :
      s.writerRegistered = false := by
    simp only [attemptsDirectWrite, Bool.and_eq_true, Bool.not_eq_true'] at attempts
    exact attempts.1.2
  cases action with
  | write => exact unraised tries
  | writelines =>
    simp only [triesSocketFirst, attemptsSegments] at tries
    split at tries <;> exact unraised tries
  | _ => cases tries

/-- A socket transport whose write buffers may hold two bytes. -/
def cappedConfig : TransportConfig :=
  { socketConfig true with maxWriteBufferSize := 2 }

/-- Backpressure is active and one byte is queued: the next call is queued. -/
def backlogged : TransportState UInt8 :=
  { TransportState.new cappedConfig with
    writerRegistered := true
    lazyWriter := false
    writeBuffer := { StreamWriteBufferState.new with size := 1 }
    writerQueue := ⟨[.data (.fromPython [1])], true⟩
    worker := .receive }

end Rsloop.Stream
