import Rsloop.Stream.OpenSteps

/-!
# Flow-control signalling

The write buffer decides when the protocol is to pause. The loop thread tells
the protocol at once, while a decision of the worker travels through the read
event queue. So a pause of the loop thread can overtake the worker's resume.
The calls follow the decisions in every run in which no decision is made while
an earlier one that would be overtaken, or would overtake it, is still on its
way.
-/

namespace Rsloop.Stream

open Transition List

variable {Byte : Type}

/-! ## What a sequence of calls tells the protocol -/

def FlowSignal.pauses : FlowSignal → Bool
  | .pause => true
  | .resume => false

/-- The state the calls leave a protocol in that was in the given state, or
`none` where a call repeats what the protocol was told before. -/
def heard (paused : Bool) : List FlowSignal → Option Bool
  | [] => some paused
  | signal :: rest => if signal.pauses = paused then none else heard signal.pauses rest

theorem heard_append (paused : Bool) (earlier later : List FlowSignal) :
    heard paused (earlier ++ later) =
      (heard paused earlier).bind fun middle => heard middle later := by
  induction earlier generalizing paused with
  | nil => rfl
  | cons signal _ ih =>
    by_cases repeated : signal.pauses = paused
    · simp [heard, repeated]
    · simp [heard, repeated, ih]

variable {calls : List FlowSignal}

theorem heard_concat {paused told : Bool} {signal : FlowSignal}
    (before : heard paused calls = some told) (changes : signal.pauses ≠ told) :
    heard paused (calls ++ [signal]) = some signal.pauses := by
  rw [heard_append, before]
  simp [heard, changes]

/-- Calls that never repeat each other alternate, and the last one tells the
state they leave. -/
theorem alternates_of_heard {start told : Bool}
    (follows : heard start calls = some told) :
    calls.IsChain (· ≠ ·) ∧ (∀ first ∈ calls.head?, first.pauses ≠ start) ∧
      (calls.getLast?.map FlowSignal.pauses).getD start = told := by
  induction calls generalizing start with
  | nil =>
    refine ⟨List.IsChain.nil, by simp, ?_⟩
    simpa [heard] using follows
  | cons signal rest ih =>
    by_cases repeated : signal.pauses = start
    · simp [heard, repeated] at follows
    · simp only [heard, repeated, if_false] at follows
      obtain ⟨chain, different, last⟩ := ih follows
      refine ⟨?_, by simpa using repeated, ?_⟩
      · cases rest with
        | nil => exact List.IsChain.singleton _
        | cons =>
          refine isChain_cons_cons.mpr ⟨?_, chain⟩
          rintro rfl
          exact different signal rfl rfl
      · cases rest with
        | nil => simpa using last
        | cons second others =>
          cases final : (second :: others).getLast? with
          | none => simp at final
          | some => simpa [final] using last

/-! ## Decisions and their way to the protocol -/

def WriteBufferSignal.announced : WriteBufferSignal → List FlowSignal
  | .none => []
  | .pause => [.pause]
  | .resume => [.resume]

def ReadEventKind.signals : ReadEventKind → List FlowSignal
  | .pause => [.pause]
  | .resume => [.resume]
  | _ => []

/-- The worker has decided and not yet queued its event. -/
def Worker.signals : Worker Byte → List FlowSignal
  | .notifyResume => [.resume]
  | _ => []

/-- Decided in a frame of the loop thread and not yet called or queued. -/
def TransportState.deciding (s : TransportState Byte) : List FlowSignal :=
  s.stack.flatMap Frame.signals

def TransportState.queued (s : TransportState Byte) : List FlowSignal :=
  s.events.flatMap ReadEventKind.signals

/-- Every decision the protocol has not been told yet, in the order in which
it will hear them. Inside a run the loop thread's own decision comes first;
outside of one it is queued behind the others. -/
def TransportState.undelivered (s : TransportState Byte) : List FlowSignal :=
  if s.onRuntimeThread then
    s.deciding ++ s.queued ++ s.worker.signals
  else
    s.queued ++ s.worker.signals ++ s.deciding

def Frame.decision (cfg : TransportConfig) (s : TransportState Byte) :
    Frame Byte → WriteBufferSignal
  | .queueWrite data =>
    (s.writeBuffer.enqueueWriteBuffer data.remaining.length
      cfg.maxWriteBufferSize).elim .none Prod.snd
  | .stageDirectWriteBuffer data =>
    (s.writeBuffer.enqueueWriteBuffer data.remaining.length
      cfg.maxWriteBufferSize).elim .none Prod.snd
  | .queueWriteBatch buffers =>
    (s.writeBuffer.enqueueWriteBuffer (buffers.flatMap OwnedWriteBuffer.remaining).length
      cfg.maxWriteBufferSize).elim .none Prod.snd
  | .recordWriteBufferDrained len =>
    if len = 0 then .none else (s.writeBuffer.drainWriteBuffer len).2
  | .setWriteBufferLimits lowWater highWater =>
    (s.writeBuffer.reconcileWriteBufferLimits lowWater highWater).2
  | _ => .none

def Worker.decision (s : TransportState Byte) : Worker Byte → WriteBufferSignal
  | .recordDrained bufferedLen =>
    if bufferedLen = 0 then .none
    else (s.writeBuffer.drainWriteBuffer bufferedLen).2
  | _ => .none

/-- No decision is made that another one on its way could change places with:
inside a run the loop thread decides only when everything is delivered, and
outside of one neither thread decides before the other has queued its event. -/
def UncrossedDecisions (cfg : TransportConfig) (s : TransportState Byte) :
    Action Byte → Prop
  | .loop _ =>
    ∀ frame ∈ s.stack.head?, frame.decision cfg s ≠ .none → s.worker.signals = [] ∧
        (s.onRuntimeThread → s.queued = [])
  | .worker _ =>
    s.worker.decision s ≠ .none → s.onRuntimeThread ∨ s.deciding = []
  | _ => True

instance decidableUncrossedDecisions (cfg : TransportConfig) (s : TransportState Byte) :
    ∀ action : Action Byte, Decidable (UncrossedDecisions cfg s action)
  | .loop _ => inferInstanceAs (Decidable (∀ _ ∈ s.stack.head?, _ → _))
  | .worker _ => inferInstanceAs (Decidable (_ → _))
  | .write _ _ | .writelines _ | .close | .abort | .writeEof | .setWriteBufferLimits _ _ | .flush
  | .drainEvent | .peerEof | .nextTurn | .enterRun | .leaveRun => .isTrue trivial

/-- The calls made so far, continued by the decisions on their way, follow the
write buffer. -/
structure FlowOrder (s : TransportState Byte) : Prop where
  follows : heard false (s.signals ++ s.undelivered) = some s.writeBuffer.protocolPaused
  exclusive : s.onRuntimeThread = false → s.deciding = [] ∨ s.worker.signals = []
  callsInRun : ∀ cb, .protocolCall cb ∈ s.stack → s.onRuntimeThread

theorem flowOrder_new (cfg : TransportConfig) :
    FlowOrder (TransportState.new cfg : TransportState Byte) where
  follows := by
    simp only [TransportState.new, TransportState.undelivered,
      TransportState.deciding, TransportState.queued, if_true]
    split <;> rfl
  exclusive := by simp [TransportState.new]
  callsInRun := by simp [TransportState.new]

theorem flatMap_signals_of_settled {frames : List (Frame Byte)}
    (settled : ∀ frame ∈ frames, frame.settled) :
    frames.flatMap Frame.signals = [] := by
  rw [flatMap_eq_nil_iff]
  intro frame mem
  exact Frame.signals_of_settled (settled frame mem)

variable {signal : WriteBufferSignal}

theorem StreamWriteBufferState.Announces.heard {before after : Bool}
    (announces : StreamWriteBufferState.Announces before after signal)
    (follows : heard false calls = some before) :
    Stream.heard false (calls ++ signal.announced) = some after := by
  cases signal with
  | none =>
    have same : after = before := announces
    rw [same]
    simpa [WriteBufferSignal.announced] using follows
  | pause =>
    obtain ⟨running, rfl⟩ := announces
    exact heard_concat follows (by simp [FlowSignal.pauses, running])
  | resume =>
    obtain ⟨paused, rfl⟩ := announces
    exact heard_concat follows (by simp [FlowSignal.pauses, paused])

/-! ## Steps of the loop thread -/

variable {cb : ProtocolCallback} {kind : ReadEventKind} {cfg : TransportConfig}
  {s : TransportState Byte} {frame : Frame Byte} {rest : List (Frame Byte)}

theorem deciding_top (stack : s.stack = frame :: rest)
    (settled : ∀ other ∈ rest, other.settled) : s.deciding = frame.signals := by
  rw [TransportState.deciding, stack, flatMap_cons,
    flatMap_signals_of_settled settled, append_nil]

theorem deciding_proceed (frames : List (Frame Byte))
    (settled : ∀ other ∈ rest, other.settled) :
    (s.proceed frames rest).deciding = frames.flatMap Frame.signals := by
  change (frames ++ rest).flatMap Frame.signals = frames.flatMap Frame.signals
  rw [flatMap_append, flatMap_signals_of_settled settled, append_nil]

variable {frames : List (Frame Byte)} {writeBuffer : StreamWriteBufferState}
  {after : TransportState Byte}

section

variable (inv : FlowOrder s)

include inv

theorem FlowOrder.callsInRun_append (stack : s.stack = frame :: rest)
    (newCalls : ∀ cb, .protocolCall cb ∈ frames → s.onRuntimeThread) :
    ∀ cb, .protocolCall cb ∈ frames ++ rest → s.onRuntimeThread := by
  intro cb mem
  rcases mem_append.mp mem with new | old
  · exact newCalls cb new
  · exact inv.callsInRun cb (by rw [stack]; exact mem_cons_of_mem _ old)

section

variable (stack : s.stack = frame :: rest) (settled : ∀ other ∈ rest, other.settled)

include stack settled

/-- A step that decides nothing and tells nobody anything. -/
theorem FlowOrder.keep
    (sameSignals : frames.flatMap Frame.signals = frame.signals)
    (sameRun : after.onRuntimeThread = s.onRuntimeThread)
    (sameEvents : after.events = s.events)
    (sameWorker : after.worker.signals = s.worker.signals)
    (sameCalls : after.signals = s.signals)
    (samePaused :
      after.writeBuffer.protocolPaused = s.writeBuffer.protocolPaused)
    (newCalls : ∀ cb, .protocolCall cb ∈ frames → s.onRuntimeThread) :
    FlowOrder (after.proceed frames rest) := by
  have deciding : (after.proceed frames rest).deciding = s.deciding := by
    rw [deciding_proceed frames settled, sameSignals, deciding_top stack settled]
  have queued : (after.proceed frames rest).queued = s.queued := by
    change after.events.flatMap ReadEventKind.signals = s.queued
    rw [sameEvents]
    rfl
  have undelivered : (after.proceed frames rest).undelivered = s.undelivered := by
    unfold TransportState.undelivered
    rw [deciding, queued]
    change (if after.onRuntimeThread then
      _ ++ _ ++ after.worker.signals else _ ++ after.worker.signals ++ _) = _
    rw [sameRun, sameWorker]
  refine { follows := ?_, exclusive := ?_, callsInRun := ?_ }
  · rw [undelivered]
    change heard false (after.signals ++ s.undelivered) = some after.writeBuffer.protocolPaused
    rw [sameCalls, samePaused]
    exact inv.follows
  · rw [deciding]
    change after.onRuntimeThread = false → s.deciding = [] ∨ after.worker.signals = []
    rw [sameRun, sameWorker]
    exact inv.exclusive
  · intro cb mem
    change after.onRuntimeThread
    rw [sameRun]
    exact inv.callsInRun_append stack newCalls cb mem

/-- A step of the loop thread that decides, with nothing to cross. -/
theorem FlowOrder.decide
    (silent : frame.signals = []) (uncrossed : signal ≠ .none → s.worker.signals = [] ∧
      (s.onRuntimeThread → s.queued = []))
    (announces : StreamWriteBufferState.Announces
      s.writeBuffer.protocolPaused writeBuffer.protocolPaused signal)
    (announced : frames.flatMap Frame.signals = signal.announced)
    (noCalls : ∀ cb, .protocolCall cb ∉ frames) :
    FlowOrder ({ s with writeBuffer := writeBuffer }.proceed frames rest) := by
  have before : s.deciding = [] := by
    rw [deciding_top stack settled, silent]
  let after := { s with writeBuffer := writeBuffer }.proceed frames rest
  have deciding : after.deciding = signal.announced := by
    rw [← announced]
    exact deciding_proceed frames settled
  have undelivered : after.undelivered = s.undelivered ++ signal.announced := by
    unfold TransportState.undelivered
    rw [deciding, before]
    change (if s.onRuntimeThread then
      _ ++ s.queued ++ s.worker.signals
      else s.queued ++ s.worker.signals ++ _) = _
    by_cases quiet : signal = .none
    · subst quiet
      split <;> simp [WriteBufferSignal.announced]
    · obtain ⟨workerQuiet, queueEmpty⟩ := uncrossed quiet
      split
      next inRun => simp [workerQuiet, queueEmpty inRun]
      next => simp
  refine { follows := ?_, exclusive := ?_, callsInRun := ?_ }
  · rw [undelivered, ← append_assoc]
    exact announces.heard inv.follows
  · intro _
    rw [deciding]
    by_cases quiet : signal = .none
    · exact .inl (by rw [quiet]; rfl)
    · exact .inr (uncrossed quiet).1
  · exact inv.callsInRun_append stack fun cb mem => absurd mem (noCalls cb)

/-- Accounting for a write: recorded, or recorded with a pause. -/
theorem flowOrder_recorded {next : Bool → Frame Byte}
    (uncrossed : frame.decision cfg s ≠ .none → s.worker.signals = [] ∧
      (s.onRuntimeThread → s.queued = [])) (records : Records frame next)
    (accepted : s.writeBuffer.enqueueWriteBuffer frame.bytes.length
      cfg.maxWriteBufferSize = some (writeBuffer, signal)) :
    FlowOrder ({ s with writeBuffer := writeBuffer }.proceed
      [next (Decidable.decide (signal = WriteBufferSignal.pause))] rest) := by
  obtain ⟨announces, notResume⟩ := StreamWriteBufferState.enqueueWriteBuffer_announces accepted
  have decision : frame.decision cfg s = signal := by
    cases records <;>
      · simp only [Frame.bytes] at accepted
        simp only [Frame.decision, accepted, Option.elim_some]
  rw [decision] at uncrossed
  refine inv.decide stack settled (by cases records <;> rfl) uncrossed
    announces ?_ (by cases records <;> simp)
  cases signal with
  | none | pause => cases records <;> rfl
  | resume => exact absurd rfl notResume

/-- Outside of a run the decision is told by an event. -/
theorem flowOrder_queued {signal : FlowSignal}
    (announcement : Announcement frame cb kind signal)
    (outside : s.onRuntimeThread = false) :
    FlowOrder ({ s with events := s.events ++ [kind] }.proceed [] rest) := by
  have before : s.deciding = [signal] := by
    rw [deciding_top stack settled]
    cases announcement <;> rfl
  have workerQuiet : s.worker.signals = [] := by
    rcases inv.exclusive outside with empty | quiet
    · cases before.symm.trans empty
    · exact quiet
  let after := { s with events := s.events ++ [kind] }.proceed [] rest
  have deciding : after.deciding = [] := deciding_proceed [] settled
  have queued : after.queued = s.queued ++ [signal] := by
    change (s.events ++ [kind]).flatMap ReadEventKind.signals = _
    rw [flatMap_append]
    cases announcement <;> rfl
  have undelivered : after.undelivered = s.undelivered := by
    unfold TransportState.undelivered
    rw [deciding, queued, before]
    change (if s.onRuntimeThread then
      _ ++ _ ++ s.worker.signals
      else _ ++ s.worker.signals ++ _) = _
    simp [outside, workerQuiet]
  refine { follows := ?_, exclusive := fun _ => .inl deciding, callsInRun := ?_ }
  · rw [undelivered]
    exact inv.follows
  · exact inv.callsInRun_append stack
      fun cb (mem : Frame.protocolCall cb ∈ []) =>
        absurd mem not_mem_nil

end

/-- The protocol is called: the first decision on its way arrives. -/
theorem flowOrder_called {signal : FlowSignal}
    (isOpen : Open s) (stack : s.stack = .protocolCall cb :: rest)
    (told : (Frame.protocolCall cb : Frame Byte).signals = [signal]) :
    FlowOrder { s.proceed [.running cb] rest with
      signals := s.signals ++ [signal] } := by
  have settled := isOpen.settled_below stack
  have inRun : s.onRuntimeThread :=
    inv.callsInRun cb (by rw [stack]; exact mem_cons_self)
  have before : s.deciding = [signal] := by
    rw [deciding_top stack settled, told]
  let after := { s.proceed [.running cb] rest with
    signals := s.signals ++ [signal] }
  have deciding : after.deciding = [] := by
    change (.running cb :: rest).flatMap Frame.signals = []
    rw [flatMap_cons, flatMap_signals_of_settled settled]
    rfl
  have follows := inv.follows
  simp only [TransportState.undelivered, inRun, if_true, before] at follows
  refine { follows := ?_, exclusive := fun _ => .inl deciding, callsInRun := fun _ _ => inRun }
  have undelivered : after.undelivered = s.queued ++ s.worker.signals := by
    unfold TransportState.undelivered
    rw [deciding]
    change (if s.onRuntimeThread then
      [] ++ s.queued ++ s.worker.signals
      else s.queued ++ s.worker.signals ++ []) = _
    rw [if_pos inRun, nil_append]
  change heard false ((s.signals ++ [signal]) ++ after.undelivered) =
    some s.writeBuffer.protocolPaused
  rw [undelivered]
  simpa using follows

end

theorem flatMap_signalFrames (signal : WriteBufferSignal) :
    (signalFrames signal : List (Frame Byte)).flatMap Frame.signals = signal.announced := by
  cases signal <;> rfl

theorem protocolCall_notMem_signalFrames
    (signal : WriteBufferSignal) (cb : ProtocolCallback) :
    (.protocolCall cb : Frame Byte) ∉ signalFrames signal := by
  cases signal <;> simp [signalFrames]

theorem flowOrder_of_frameMove {next : TransportState Byte}
    (inv : FlowOrder s) (isOpen : Open s) (stack : s.stack = frame :: rest)
    (uncrossed : frame.decision cfg s ≠ .none → s.worker.signals = [] ∧
        (s.onRuntimeThread → s.queued = []))
    (move : FrameMove cfg s rest frame next) : FlowOrder next := by
  have settled := isOpen.settled_below stack
  cases move with
  | routed _ routes | finished routes | refused routes _ | sent _ routes =>
    cases routes <;> exact inv.keep stack settled rfl rfl rfl rfl rfl rfl (by simp)
  | recorded records accepted =>
    exact flowOrder_recorded inv stack settled uncrossed records accepted
  | activated activates =>
    cases activates with
    | publication _ pauses =>
      cases pauses <;> exact inv.keep stack settled rfl rfl rfl rfl rfl rfl (by simp)
    | _ => exact inv.keep stack settled rfl rfl rfl rfl rfl rfl (by simp)
  | started _ pauses isLazy =>
    have idle : s.worker.signals = [] := by
      rw [isOpen.lazyIdle isLazy]
      rfl
    cases pauses <;> exact inv.keep stack settled rfl rfl rfl idle.symm rfl rfl (by simp)
  | running _ pauses _ | published pauses _ | staged _ pauses =>
    cases pauses <;> exact inv.keep stack settled rfl rfl rfl rfl rfl rfl (by simp)
  | calls announcement inRun =>
    cases announcement <;> exact inv.keep stack settled rfl rfl rfl rfl rfl rfl fun _ _ => inRun
  | queues announcement outside => exact flowOrder_queued inv stack settled announcement outside
  | called announcement => cases announcement <;> exact flowOrder_called inv isOpen stack rfl
  | decided decides =>
    cases decides with
    | drain len nonzero =>
      simp only [Frame.decision, if_neg nonzero] at uncrossed
      exact inv.decide stack settled rfl uncrossed
        (s.writeBuffer.drainWriteBuffer_announces len).1
        (flatMap_signalFrames _) (protocolCall_notMem_signalFrames _)
    | limits =>
      exact inv.decide stack settled rfl uncrossed
        (s.writeBuffer.reconcileWriteBufferLimits_announces _ _)
        (flatMap_signalFrames _) (protocolCall_notMem_signalFrames _)
  | _ => exact inv.keep stack settled rfl rfl rfl rfl rfl rfl (by simp)

/-! ## Steps of the worker -/

variable {next : TransportState Byte}

section

variable (inv : FlowOrder s)

include inv

theorem FlowOrder.workerMoves (sameStack : after.stack = s.stack)
    (sameRun : after.onRuntimeThread = s.onRuntimeThread)
    (sameEvents : after.events = s.events)
    (sameWorker : after.worker.signals = s.worker.signals)
    (sameCalls : after.signals = s.signals)
    (samePaused : after.writeBuffer.protocolPaused = s.writeBuffer.protocolPaused) :
    FlowOrder after := by
  have deciding : after.deciding = s.deciding := by
    rw [TransportState.deciding, sameStack]
    rfl
  have queued : after.queued = s.queued := by
    rw [TransportState.queued, sameEvents]
    rfl
  refine { follows := ?_, exclusive := ?_, callsInRun := ?_ }
  · unfold TransportState.undelivered
    rw [sameCalls, sameRun, deciding, queued, sameWorker, samePaused]
    exact inv.follows
  · rw [sameRun, deciding, sameWorker]
    exact inv.exclusive
  · rw [sameStack, sameRun]
    exact inv.callsInRun

/-- The worker decides to resume: its decision comes last in both orders. -/
theorem flowOrder_recordDrained (silent : s.worker.signals = [])
    (announces : StreamWriteBufferState.Announces
      s.writeBuffer.protocolPaused writeBuffer.protocolPaused signal)
    (notPause : signal ≠ .pause)
    (uncrossed : signal ≠ .none → s.onRuntimeThread ∨ s.deciding = []) :
    FlowOrder { s with
      writeBuffer := writeBuffer
      worker := if signal = .resume then .notifyResume else .tryReceive } := by
  let after : TransportState Byte :=
    { s with
      writeBuffer := writeBuffer
      worker := if signal = .resume then .notifyResume else .tryReceive }
  have afterWorker : after.worker.signals = signal.announced := by
    cases signal with
    | none | resume => rfl
    | pause => exact absurd rfl notPause
  have undelivered : after.undelivered = s.undelivered ++ signal.announced := by
    unfold TransportState.undelivered
    rw [afterWorker, silent]
    change (if s.onRuntimeThread then
      s.deciding ++ s.queued ++ signal.announced
      else s.queued ++ signal.announced ++ s.deciding) = _
    by_cases quiet : signal = .none
    · subst quiet
      split <;> simp [WriteBufferSignal.announced]
    · rcases uncrossed quiet with inRun | idle
      · simp [inRun]
      · simp [idle]
  refine { follows := ?_, exclusive := ?_, callsInRun := inv.callsInRun }
  · rw [undelivered, ← append_assoc]
    exact announces.heard inv.follows
  · intro outside
    by_cases quiet : signal = .none
    · exact .inr (by rw [afterWorker, quiet]; rfl)
    · rcases uncrossed quiet with inRun | idle
      · cases inRun.symm.trans outside
      · exact .inl idle

/-- The worker queues the event of its decision. -/
theorem flowOrder_notifyResume (pos : s.worker = .notifyResume) :
    FlowOrder { s with events := s.events ++ [.resume], worker := .tryReceive } := by
  let after : TransportState Byte :=
    { s with events := s.events ++ [.resume], worker := .tryReceive }
  have queued : after.queued = s.queued ++ s.worker.signals := by
    change (s.events ++ [ReadEventKind.resume]).flatMap ReadEventKind.signals = _
    rw [flatMap_append, pos]
    rfl
  have undelivered : after.undelivered = s.undelivered := by
    unfold TransportState.undelivered
    rw [queued]
    change (if s.onRuntimeThread then
      s.deciding ++ (s.queued ++ s.worker.signals) ++ []
      else (s.queued ++ s.worker.signals) ++ [] ++ s.deciding) = _
    simp
  refine { follows := ?_, exclusive := fun _ => .inr rfl, callsInRun := inv.callsInRun }
  rw [undelivered]
  exact inv.follows

theorem flowOrder_of_workerMove
    (uncrossed : s.worker.decision s ≠ .none →
      s.onRuntimeThread ∨ s.deciding = []) (move : WorkerMove s next) :
    FlowOrder next := by
  cases move with
  | waits => exact inv
  | passes pos pass =>
    refine inv.workerMoves rfl rfl rfl ?_ rfl rfl
    rw [pos]
    cases pass <;> rfl
  | takes pos =>
    refine inv.workerMoves rfl rfl rfl ?_ rfl rfl
    rcases pos with receive | tryReceive
    · rw [receive]
      rfl
    · rw [tryReceive]
      rfl
  | writes pos => exact inv.workerMoves rfl rfl rfl (by rw [pos]; rfl) rfl rfl
  | @drains bufferedLen pos nonzero =>
    rw [pos, Worker.decision, if_neg nonzero] at uncrossed
    obtain ⟨announces, notPause⟩ := s.writeBuffer.drainWriteBuffer_announces bufferedLen
    exact flowOrder_recordDrained inv (by rw [pos]; rfl) announces notPause uncrossed
  | resumes pos => exact flowOrder_notifyResume inv pos
  | clears pos clearing =>
    refine inv.workerMoves rfl rfl rfl ?_ rfl rfl
    rw [pos]
    rcases clearing with ⟨rfl, rfl⟩ | ⟨rfl, rfl⟩ <;> rfl

end

/-! ## Whole runs -/

/-- The loop thread starts an operation that has nothing to announce yet. -/
theorem FlowOrder.start (inv : FlowOrder s)
    (settled : ∀ frame ∈ s.stack, frame.settled)
    (silent : frames.flatMap Frame.signals = [])
    (noCalls : ∀ cb, .protocolCall cb ∉ frames)
    (sameStack : after.stack = frames ++ s.stack)
    (sameRun : after.onRuntimeThread = s.onRuntimeThread)
    (sameEvents : after.events = s.events)
    (sameWorker : after.worker = s.worker)
    (sameCalls : after.signals = s.signals)
    (sameBuffer : after.writeBuffer = s.writeBuffer) : FlowOrder after := by
  have before : s.deciding = [] := flatMap_signals_of_settled settled
  have deciding : after.deciding = [] := by
    rw [TransportState.deciding, sameStack, flatMap_append, silent,
      flatMap_signals_of_settled settled, append_nil]
  have queued : after.queued = s.queued := by
    rw [TransportState.queued, sameEvents]
    rfl
  refine { follows := ?_, exclusive := fun _ => .inl deciding, callsInRun := ?_ }
  · have follows := inv.follows
    unfold TransportState.undelivered at follows ⊢
    rw [before] at follows
    rwa [sameCalls, sameRun, deciding, queued, sameWorker, sameBuffer]
  · intro cb mem
    rw [sameStack] at mem
    rw [sameRun]
    rcases mem_append.mp mem with new | old
    · exact absurd new (noCalls cb)
    · exact inv.callsInRun cb old

section

variable (inv : FlowOrder s) (idle : s.stack = [])

include inv idle

theorem flowOrder_drainEvent {rest : List ReadEventKind}
    (inRun : s.onRuntimeThread)
    (events : s.events = kind :: rest)
    (delivers : (Frame.protocolCall cb : Frame Byte).signals = kind.signals) :
    FlowOrder { s with events := rest, stack := [.protocolCall cb] } := by
  have before : s.deciding = [] := by
    rw [TransportState.deciding, idle]
    rfl
  have queued : s.queued = kind.signals ++ rest.flatMap ReadEventKind.signals := by
    rw [TransportState.queued, events, flatMap_cons]
  let after : TransportState Byte :=
    { s with events := rest, stack := [.protocolCall cb] }
  have deciding : after.deciding = kind.signals := by
    rw [← delivers]
    exact append_nil _
  have undelivered : after.undelivered = s.undelivered := by
    unfold TransportState.undelivered
    rw [deciding, before, queued]
    change (if s.onRuntimeThread then
      kind.signals ++ rest.flatMap ReadEventKind.signals ++ s.worker.signals
      else _) = _
    simp [inRun]
  refine { follows := ?_, exclusive := ?_, callsInRun := fun _ _ => inRun }
  · rw [undelivered]
    exact inv.follows
  · intro outside
    cases (show s.onRuntimeThread = false from outside).symm.trans inRun

theorem flowOrder_switchRun (inRun : Bool) :
    FlowOrder { s with onRuntimeThread := inRun } := by
  have before : s.deciding = [] := by
    rw [TransportState.deciding, idle]
    rfl
  have undelivered :
      { s with onRuntimeThread := inRun }.undelivered = s.undelivered := by
    unfold TransportState.undelivered
    change (if inRun then
      s.deciding ++ s.queued ++ s.worker.signals
      else s.queued ++ s.worker.signals ++ s.deciding) = _
    rw [before]
    cases inRun <;> split <;> simp
  refine { follows := ?_, exclusive := fun _ => .inl before, callsInRun := ?_ }
  · rw [undelivered]
    exact inv.follows
  · intro cb mem
    have onStack : Frame.protocolCall cb ∈ s.stack := mem
    rw [idle] at onStack
    exact absurd onStack not_mem_nil

end

theorem flowOrder_step {action : Action Byte} (inv : FlowOrder s)
    (isOpen : Open s)
    (keepsOpen : action.keepsOpen) (uncrossed : UncrossedDecisions cfg s action)
    (moved : step cfg s action = some next) : FlowOrder next := by
  cases openStep_of_step isOpen keepsOpen moved with
  | ignored => exact inv
  | wrote writes runs =>
    exact inv.start (isOpen.settled_of_applicationRuns runs)
      (by cases writes <;> rfl) (by cases writes <;> simp)
      rfl rfl rfl rfl rfl rfl
  | limits _ _ runs =>
    exact inv.start (isOpen.settled_of_applicationRuns runs) rfl (by simp) rfl rfl rfl rfl rfl rfl
  | flushes idle =>
    have started : [Frame.flushPendingDirectWrite] =
        [Frame.flushPendingDirectWrite] ++ s.stack := by
      rw [idle]
      rfl
    exact inv.start (by simp [idle]) rfl (by simp) started rfl rfl rfl rfl rfl
  | delivers idle inRun announcement events =>
    exact flowOrder_drainEvent inv idle inRun events (by cases announcement <;> rfl)
  | turns => exact { inv with }
  | switches idle inRun => exact flowOrder_switchRun inv idle inRun
  | frame stack move =>
    exact flowOrder_of_frameMove inv isOpen stack (uncrossed _ (by rw [stack]; rfl)) move
  | worker move => exact flowOrder_of_workerMove inv uncrossed move

/-- Where no decision crosses another one, pauses and resumes alternate,
beginning with a pause, and once every decision has arrived the protocol was
last told what the write buffer says. -/
theorem signals_alternate_of_uncrossedDecisions (cfg : TransportConfig)
    {actions : List (Action Byte)} {s : TransportState Byte}
    (reached : run (step cfg) (.new cfg) actions = some s)
    (keepsOpen : Guarded (step cfg)
      (fun _ action => action.keepsOpen) (.new cfg) actions)
    (uncrossed : Guarded (step cfg) (UncrossedDecisions cfg) (.new cfg) actions) :
    s.signals.IsChain (· ≠ ·) ∧ s.signals.head? ≠ some .resume ∧ (s.undelivered = [] →
        (s.signals.getLast?.map FlowSignal.pauses).getD false =
          s.writeBuffer.protocolPaused) := by
  have invariant : Open s ∧ FlowOrder s := by
    refine invariant_of_run (fun current => Open current ∧ FlowOrder current) ?_
      ⟨open_new cfg, flowOrder_new cfg⟩ (keepsOpen.and uncrossed) reached
    rintro current action next ⟨isOpen, inv⟩ ⟨keepsOpenNow, uncrossedNow⟩ moved
    exact ⟨open_step isOpen keepsOpenNow moved,
      flowOrder_step inv isOpen keepsOpenNow uncrossedNow moved⟩
  have follows := invariant.2.follows
  rw [heard_append] at follows
  obtain ⟨told, heardSoFar, later⟩ := Option.bind_eq_some_iff.mp follows
  obtain ⟨alternating, begins, last⟩ := alternates_of_heard heardSoFar
  refine ⟨alternating, ?_, ?_⟩
  · intro resumedFirst
    exact begins .resume resumedFirst rfl
  · intro allDelivered
    rw [allDelivered] at later
    rw [last]
    exact Option.some.inj later

/-- A write over the high-water mark that the worker drains; the protocol hears
of it through the event queue. -/
def pausedAndResumed : List (Action UInt8) :=
  [.setWriteBufferLimits (some 1) (some 0), .loop .done, .write [1, 2] true,
    .loop .done, .loop .wouldBlock, .loop .done, .loop .done, .loop .done,
    .loop .done, .loop .done, .loop .done, .loop (.returned true),
    .worker .done, .worker (.wrote 2), .worker .done, .worker .done,
    .worker .done, .drainEvent, .loop .done]

theorem signals_alternate_of_pausedAndResumed : ∃ s : TransportState UInt8,
      run (step (socketConfig false)) (.new (socketConfig false)) pausedAndResumed = some s ∧
        (s.signals = [.pause, .resume] ∧ s.undelivered = []) ∧
        s.signals.IsChain (· ≠ ·) := by
  refine exists_run_imp
    (fun s => s.signals = [.pause, .resume] ∧ s.undelivered = []) (by decide) ?_
  rintro s reached told
  refine ⟨told, ?_⟩
  exact (signals_alternate_of_uncrossedDecisions (socketConfig false) reached
    (by decide) (by decide)).1

/-! ## A pause that overtakes a resume -/

variable {s : TransportState UInt8} {rest : List (Frame UInt8)}
  {writeBuffer : StreamWriteBufferState}

theorem step_queueWrite {data : OwnedWriteBuffer UInt8}
    (stack : s.stack = .queueWrite data :: rest)
    (accepted : s.writeBuffer.enqueueWriteBuffer data.remaining.length
      cfg.maxWriteBufferSize = some (writeBuffer, .pause)) :
    step cfg s (.loop .done) =
      some ({ s with writeBuffer := writeBuffer }.proceed
        [.publish .ensureWorker (.one data) true] rest) := by
  simp [step, stack, stepFrame, advanceFrame, recordWriteBufferEnqueued, accepted]

theorem step_writeAll (data : OwnedWriteBuffer UInt8)
    (pos : s.worker = .writing data data.len)
    (notShut : s.writeHalfShut = false) (nonempty : 0 < data.len) :
    step cfg s (.worker (.wrote data.len)) = some { s.sent data.remaining data.len with
        worker := .writing (data.advance data.len Nat.le.refl) data.len } := by
  have notEmpty : data.isEmpty = false := by
    rw [OwnedWriteBuffer.isEmpty, isEmpty_eq_false_iff]
    exact length_pos_iff.mp nonempty
  simp [step, stepWorker, pos, stepWorkerWriting, notEmpty, notShut, nonempty]

theorem step_written {data : OwnedWriteBuffer UInt8} {bufferedLen : Nat}
    (pos : s.worker = .writing data bufferedLen) (written : data.remaining = []) :
    step cfg s (.worker .done) =
      some { s with worker := .recordDrained bufferedLen } := by
  simp [step, stepWorker, pos, stepWorkerWriting, OwnedWriteBuffer.isEmpty, written]

theorem step_recordDrained {bufferedLen : Nat}
    (pos : s.worker = .recordDrained bufferedLen)
    (nonempty : 0 < bufferedLen)
    (drained : s.writeBuffer.drainWriteBuffer bufferedLen = (writeBuffer, .resume)) :
    step cfg s (.worker .done) = some { s with
        writeBuffer := writeBuffer
        worker := .notifyResume } := by
  simp [step, stepWorker, pos, Nat.ne_of_gt nonempty, drained]

/-- A write that blocks goes through the worker. The worker has written it and
decided to resume when the next write pauses again. -/
def overtakenResume (data : List UInt8) : List (Action UInt8) :=
  [.write data true, .loop .done, .loop .wouldBlock, .loop .done,
    .loop .done, .loop .done, .loop .done, .loop .done, .loop .done,
    .loop (.returned true), .worker .done, .worker (.wrote data.length),
    .worker .done, .worker .done, .write data true, .loop .done, .loop .done,
    .loop .done, .loop .done, .loop .done, .loop .done]

theorem keepsOpen_overtakenResume (data : List UInt8) :
    ∀ action ∈ overtakenResume data, action.keepsOpen := by
  simp [overtakenResume, Action.keepsOpen]

/-- Every write over the high-water mark leads to two pauses in a row. -/
theorem run_overtakenResume (data : List UInt8)
    (high : defaultWriteBufferHighWater < data.length)
    (fits : data.length ≤ defaultMaxWriteBufferSize) :
    ∃ s : TransportState UInt8, run (step (socketConfig false)) (.new (socketConfig false))
          (overtakenResume data) = some s ∧
        s.signals = [.pause, .pause] := by
  have nonempty : 0 < data.length := Nat.zero_lt_of_lt high
  have paused : StreamWriteBufferState.new.enqueueWriteBuffer
          (OwnedWriteBuffer.fromPython data).remaining.length
          (socketConfig false).maxWriteBufferSize =
        some ({ StreamWriteBufferState.new with
          size := data.length, protocolPaused := true }, .pause) := by
    simp [StreamWriteBufferState.enqueueWriteBuffer, StreamWriteBufferState.new,
      length_pos_iff.mp nonempty, high, Nat.not_lt.mpr fits, socketConfig]
  have resumed : StreamWriteBufferState.drainWriteBuffer
          { StreamWriteBufferState.new with
            size := data.length, protocolPaused := true } data.length =
        (StreamWriteBufferState.new, .resume) := by
    simp [StreamWriteBufferState.drainWriteBuffer, StreamWriteBufferState.new]
  simp only [overtakenResume, run_cons_eq_some]
  refine ⟨_, ⟨_, rfl, _, rfl, _, rfl, _, rfl, _, step_queueWrite rfl paused,
    _, rfl, _, rfl, _, rfl, _, rfl, _, rfl, _, rfl,
    _, step_writeAll (.fromPython data) rfl rfl nonempty,
    _, step_written rfl ?_, _, step_recordDrained rfl nonempty resumed,
    _, rfl, _, rfl, _, step_queueWrite rfl paused,
    _, rfl, _, rfl, _, rfl, _, rfl, rfl⟩, rfl⟩
  rw [OwnedWriteBuffer.remaining_advance]
  exact drop_length

theorem pause_repeated_before_resume : ∃ s : TransportState UInt8,
      run (step (socketConfig false)) (.new (socketConfig false))
          (overtakenResume (List.replicate 70000 0)) = some s ∧
        Guarded (step (socketConfig false))
          (fun _ action => action.keepsOpen) (.new (socketConfig false))
          (overtakenResume (List.replicate 70000 0)) ∧
        ¬ s.signals.IsChain (· ≠ ·) := by
  obtain ⟨s, reached, told⟩ :=
    run_overtakenResume (List.replicate 70000 0) (by rw [length_replicate]; decide)
      (by rw [length_replicate]; decide)
  refine ⟨s, reached, ?_, ?_⟩
  · exact guarded_of_forall fun action member _ =>
      keepsOpen_overtakenResume _ action member
  · rw [told]
    decide

end Rsloop.Stream
