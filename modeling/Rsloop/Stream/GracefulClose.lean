import Mathlib.Algebra.Order.Group.Multiset
import Mathlib.Tactic.Abel
import Rsloop.Stream.OpenSteps

/-!
# Graceful closing

`close`, `write_eof` and a peer EOF that the protocol answers with a falsy value
end the transport without dropping accepted bytes only where nothing is staged
when the transport ends: a flush that runs on a closing transport throws the
staged bytes away. Under that condition, and where nobody writes after
`write_eof`, every byte is on the socket or in front of the command that shuts
the write half.
-/

namespace Rsloop.Stream

open Transition List TransportState

variable {Byte : Type}

/-! ## Conditions on runs -/

/-- No `abort`, and no socket operation fails. -/
def Action.graceful : Action Byte → Bool
  | .abort | .loop .failed | .worker .failed => false
  | _ => true

/-- Frames that end the transport: no write call is accepted after them. -/
def Frame.ends : Frame Byte → Bool
  | .perform .setClosing | .perform .markWriteEof | .connectionLost => true
  | _ => false

/-- Nothing is staged when the transport ends, and nobody writes between
`write_eof` and the loss of the connection. -/
def FlushedEnds (s : TransportState Byte) : Action Byte → Prop
  | .loop _ => ∀ frame ∈ s.stack.head?, frame.ends → s.pendingDirectWrite = none
  | .write _ _ | .writelines _ => s.closing ∨ s.writeEofRequested = false
  | _ => True

instance decidableFlushedEnds (s : TransportState Byte) :
    ∀ action : Action Byte, Decidable (FlushedEnds s action)
  | .loop _ =>
    inferInstanceAs (Decidable (∀ _ ∈ s.stack.head?, _ → s.pendingDirectWrite = none))
  | .write _ _ | .writelines _ => inferInstanceAs (Decidable (_ ∨ _))
  | .worker _ | .close | .abort | .writeEof | .setWriteBufferLimits _ _ | .flush | .drainEvent
  | .peerEof | .nextTurn | .enterRun | .leaveRun => .isTrue trivial

/-! ## Where the bytes of a closed transport are -/

/-- The queued bytes in front of the first control command. -/
def ahead (cmds : List (WriterCommand Byte)) : List Byte :=
  payloads (cmds.takeWhile WriterCommand.isData)

/-- The bytes the worker will still write before it shuts the write half. -/
def TransportState.deliverable (s : TransportState Byte) : List Byte :=
  if s.writeHalfShut then []
  else s.worker.held ++ ahead s.writerQueue.commands

/-- Every byte of a call that was not refused has reached the socket or is in
front of the command that shuts the write half. -/
def NothingDiscarded (s : TransportState Byte) : Prop :=
  (s.written : Multiset Byte) ≤ s.wire + s.deliverable + s.refused

/-! ## Stacks of a graceful run -/

/-- Frames that shut the write half or tell the worker to. -/
def Frame.controls : Frame Byte → Bool
  | .finishClose | .finishWriteEof | .perform .shutdownDirectWriter
  | .perform (.sendControl _) => true
  | _ => false

/-- Frames of runs without `abort` and without failures. -/
def Frame.graceful : Frame Byte → Bool
  | .discardPendingDirectWrite | .finishAbort | .failWrite | .perform .clearBackpressure
  | .perform .dropPendingDirectWrite | .perform .clearWriteBuffer => false
  | .perform (.sendControl cmd) => !cmd.isData
  | _ => true

/-- Every frame that shuts the write half stands below one that ends the
transport, unless it has ended already. -/
def Orderly : Bool → List (Frame Byte) → Prop
  | _, [] => True
  | ended, frame :: rest =>
    (frame.controls → ended) ∧ Orderly (ended || frame.ends) rest

theorem Frame.bytes_of_holdsData {frame : Frame Byte}
    (empty : frame.holdsData = false) :
    frame.bytes = [] := by
  cases frame <;> first | rfl | cases empty

theorem Frame.holdsData_of_settled {frame : Frame Byte}
    (settled : frame.settled) :
    frame.holdsData = false := by
  cases frame <;> first | rfl | cases settled

theorem Orderly.mono {ended later : Bool} {frames : List (Frame Byte)}
    (orderly : Orderly ended frames) (implied : ended → later) :
    Orderly later frames := by
  induction frames generalizing ended later with
  | nil => trivial
  | cons _ _ ih =>
    refine ⟨fun controls => implied (orderly.1 controls), ?_⟩
    apply ih orderly.2
    intro before
    rw [Bool.or_eq_true] at before ⊢
    exact before.imp_left implied

theorem Orderly.append {ended : Bool} {upper lower : List (Frame Byte)}
    (orderlyUpper : Orderly ended upper) (orderlyLower : Orderly ended lower) :
    Orderly ended (upper ++ lower) := by
  induction upper generalizing ended with
  | nil => exact orderlyLower
  | cons _ _ ih =>
    refine ⟨orderlyUpper.1, ?_⟩
    apply ih orderlyUpper.2
    exact orderlyLower.mono fun before => by rw [before, Bool.true_or]

/-! ## New frames -/

/-- Graceful frames, with bytes at most in the one on top. -/
def soundFrames (frames : List (Frame Byte)) : Bool :=
  frames.all Frame.graceful && frames.tail.all Frame.settled

def calmFrames (frames : List (Frame Byte)) : Bool :=
  frames.all fun frame => !frame.controls

def emptyFrames (frames : List (Frame Byte)) : Bool :=
  frames.all fun frame => !frame.holdsData

variable {frames : List (Frame Byte)} {frame : Frame Byte}

theorem controls_of_calm (calm : calmFrames frames) (mem : frame ∈ frames) :
    frame.controls = false := by
  simpa using all_eq_true.mp calm frame mem

theorem holdsData_of_empty (empty : emptyFrames frames) (mem : frame ∈ frames) :
    frame.holdsData = false := by
  simpa using all_eq_true.mp empty frame mem

theorem bytes_of_empty (empty : emptyFrames frames) :
    frames.flatMap Frame.bytes = [] :=
  flatMap_eq_nil_iff.mpr fun _ mem =>
    Frame.bytes_of_holdsData (holdsData_of_empty empty mem)

theorem orderly_of_calm {ended : Bool} (calm : calmFrames frames) :
    Orderly ended frames := by
  induction frames generalizing ended with
  | nil => trivial
  | cons _ _ ih =>
    refine ⟨?_, ih (Bool.and_eq_true_iff.mp calm).2⟩
    intro controls
    cases (controls_of_calm calm mem_cons_self).symm.trans controls

theorem orderly_true (frames : List (Frame Byte)) : Orderly true frames := by
  induction frames with
  | nil => trivial
  | cons frame rest ih => exact ⟨fun _ => rfl, ih⟩

theorem belowTop_append {rest : List (Frame Byte)}
    (newSettled : frames.tail.all Frame.settled)
    (settled : ∀ other ∈ rest, other.settled) :
    ∀ other ∈ (frames ++ rest).tail, other.settled := by
  cases frames with
  | nil => exact fun other mem => settled other (mem_of_mem_tail mem)
  | cons => exact forall_mem_append.mpr ⟨all_eq_true.mp newSettled, settled⟩

/-! ## The invariant -/

def TransportState.ended (s : TransportState Byte) : Bool :=
  s.closing || s.writeEofRequested

/-- Where the bytes of the accepted calls are, the given ones in the loop
thread's hand. -/
def Conserves (s : TransportState Byte) (hand : List Byte) : Prop :=
  (s.written : Multiset Byte) =
    s.wire + s.worker.held + payloads s.writerQueue.commands +
      s.staged + hand + s.refused

/-- Before the end the queue and the worker see data only. -/
structure Writing (s : TransportState Byte) : Prop where
  dataOnly : ∀ cmd ∈ s.writerQueue.commands, cmd.isData
  receiver : s.writerQueue.receiverAlive
  workerLoop : s.worker.keepsOpen
  notShut : s.writeHalfShut = false

/-- After the end nothing is staged, no data is queued behind a control
command, and the write half is shut only after the last byte. -/
structure Ending (s : TransportState Byte) : Prop where
  unstaged : s.pendingDirectWrite = none
  dataFirst : s.writerQueue.commands.Pairwise fun earlier later =>
    later.isData → earlier.isData
  workerDone : s.worker.keepsOpen = false → payloads s.writerQueue.commands = []
  shut : s.writeHalfShut →
    payloads s.writerQueue.commands = [] ∧ s.worker.held = []

/-- The invariant of a transport that may be closed gracefully -/
structure Graceful (s : TransportState Byte) : Prop where
  frames : ∀ frame ∈ s.stack, frame.graceful
  belowTop : ∀ frame ∈ s.stack.tail, frame.settled
  orderly : Orderly s.ended s.stack
  lost : s.lostCalled → s.closing
  lazyIdle : s.lazyWriter →
    payloads s.writerQueue.commands = [] ∧ s.worker = .notStarted
  started : ∀ what pauses,
    .publish .send what pauses ∈ s.stack → s.lazyWriter = false
  noData : s.ended → ∀ frame ∈ s.stack, frame.holdsData = false
  shutdown : .perform .shutdownDirectWriter ∈ s.stack →
    s.ended ∧ payloads s.writerQueue.commands = [] ∧ s.worker.held = []
  writing : s.ended = false → Writing s
  ending : s.ended → Ending s
  conserves : Conserves s (s.stack.flatMap Frame.bytes)

theorem graceful_new (cfg : TransportConfig) :
    Graceful (TransportState.new cfg : TransportState Byte) where
  frames := by simp [TransportState.new]
  belowTop := by simp [TransportState.new]
  orderly := trivial
  lost := by simp [TransportState.new]
  lazyIdle := by
    intro lazyWriter
    change cfg.directWriter at lazyWriter
    refine ⟨rfl, ?_⟩
    simp only [TransportState.new]
    rw [if_pos lazyWriter]
  started := by simp [TransportState.new]
  noData := by simp [TransportState.new]
  shutdown := by simp [TransportState.new]
  writing := fun _ =>
    { dataOnly := by simp [TransportState.new, QueueState.new]
      receiver := rfl
      workerLoop := by
        simp only [TransportState.new]
        split <;> rfl
      notShut := rfl }
  ending := nofun
  conserves := by
    have held : (TransportState.new cfg : TransportState Byte).worker.held = [] := by
      simp only [TransportState.new]
      split <;> rfl
    unfold Conserves
    rw [held]
    rfl

/-! ## Steps of the loop thread -/

variable {reply : Reply} {data : OwnedWriteBuffer Byte} {cfg : TransportConfig}
  {s after : TransportState Byte} {rest : List (Frame Byte)}

section

variable (inv : Graceful s)

include inv

section

variable (stack : s.stack = frame :: rest)

include stack

theorem Graceful.settled_rest : ∀ other ∈ rest, other.settled := by
  have belowTop := inv.belowTop
  rwa [stack] at belowTop

theorem Graceful.conserves_top : Conserves s frame.bytes := by
  have conserves := inv.conserves
  rw [stack, flatMap_cons,
    flatMap_bytes_of_settled (inv.settled_rest stack), append_nil]
    at conserves
  exact conserves

theorem Graceful.orderly_top :
    (frame.controls → s.ended) ∧ Orderly (s.ended || frame.ends) rest := by
  have orderly := inv.orderly
  rwa [stack] at orderly

theorem Graceful.not_ended (holds : frame.holdsData) : s.ended = false := by
  cases ended : s.ended with
  | false => rfl
  | true =>
    have empty := inv.noData ended frame (by rw [stack]; exact mem_cons_self)
    cases holds.symm.trans empty

/-- What remains to be shown when the frame on top makes room for new ones. -/
theorem Graceful.advance (sound : soundFrames frames)
    (newOrderly : Orderly after.ended frames)
    (stillEnded : (s.ended || frame.ends) → after.ended)
    (lost : after.lostCalled → after.closing) (lazyIdle : after.lazyWriter →
      payloads after.writerQueue.commands = [] ∧ after.worker = .notStarted)
    (newStarted : ∀ what pauses,
      .publish .send what pauses ∈ frames → after.lazyWriter = false)
    (newNoData : after.ended → emptyFrames frames)
    (shutdown : .perform .shutdownDirectWriter ∈ frames ++ rest →
      after.ended ∧ payloads after.writerQueue.commands = [] ∧ after.worker.held = [])
    (writing : after.ended = false → Writing after)
    (ending : after.ended → Ending after)
    (conserves : Conserves after (frames.flatMap Frame.bytes)) :
    Graceful (after.proceed frames rest) := by
  have settled := inv.settled_rest stack
  have restGraceful : ∀ other ∈ rest, other.graceful :=
    fun other mem => inv.frames other (by rw [stack]; exact mem_cons_of_mem _ mem)
  obtain ⟨newGraceful, newSettled⟩ := Bool.and_eq_true_iff.mp sound
  refine
    { frames := ?_
      belowTop := belowTop_append newSettled settled
      orderly := newOrderly.append ((inv.orderly_top stack).2.mono stillEnded)
      lost := lost
      lazyIdle := lazyIdle
      started := ?_
      noData := ?_
      shutdown := shutdown
      writing := fun notEnded => { writing notEnded with }
      ending := fun ended => { ending ended with }
      conserves := ?_ }
  · exact forall_mem_append.mpr ⟨all_eq_true.mp newGraceful, restGraceful⟩
  · intro what pauses mem
    rcases mem_append.mp mem with new | old
    · exact newStarted what pauses new
    · cases settled _ old
  · exact fun ended => forall_mem_append.mpr ⟨fun _ => holdsData_of_empty (newNoData ended),
      fun other old => Frame.holdsData_of_settled (settled other old)⟩
  · change Conserves after ((frames ++ rest).flatMap Frame.bytes)
    rwa [flatMap_append, flatMap_bytes_of_settled settled, append_nil]

/-- A step of a write or a flush: bytes move, nothing ends. -/
theorem Graceful.write (notEnded : s.ended = false)
    (sameEnd : after.ended = s.ended)
    (sameLost : after.lostCalled = s.lostCalled)
    (sameClosing : after.closing = s.closing)
    (sound : soundFrames frames) (calm : calmFrames frames)
    (silent : frame.ends = false) (lazyIdle : after.lazyWriter →
      payloads after.writerQueue.commands = [] ∧ after.worker = .notStarted)
    (newStarted : ∀ what pauses,
      .publish .send what pauses ∈ frames → after.lazyWriter = false) (writing : Writing after)
    (conserves : Conserves after (frames.flatMap Frame.bytes)) :
    Graceful (after.proceed frames rest) := by
  have afterNotEnded : after.ended = false := sameEnd.trans notEnded
  have contradiction : ∀ {conclusion : Prop}, after.ended → conclusion := by
    intro conclusion ended
    cases afterNotEnded.symm.trans ended
  refine inv.advance stack sound (orderly_of_calm calm)
    ?_ ?_ lazyIdle newStarted contradiction ?_ (fun _ => writing)
    contradiction conserves
  · intro ended
    rw [notEnded, silent] at ended
    cases ended
  · rw [sameLost, sameClosing]
    exact inv.lost
  · intro mem
    rcases mem_append.mp mem with new | old
    · cases controls_of_calm calm new
    · have ended := (inv.shutdown (by rw [stack]; exact mem_cons_of_mem _ old)).1
      cases notEnded.symm.trans ended

end

/-- Nothing that the invariant speaks of changes but the stack. -/
def TransportState.KeepsPlaces (s after : TransportState Byte) : Prop :=
  after = { s with
    writerRegistered := after.writerRegistered
    directWriteScheduled := after.directWriteScheduled
    writeBuffer := after.writeBuffer
    directWriterOpen := after.directWriterOpen
    protocolReleased := after.protocolReleased
    smallWriteTurn := after.smallWriteTurn
    smallWritesThisTurn := after.smallWritesThisTurn
    currentTurn := after.currentTurn
    flushCommands := after.flushCommands
    events := after.events
    readEventState := after.readEventState
    onRuntimeThread := after.onRuntimeThread
    signals := after.signals }

/-- A step that moves no bytes and ends nothing. -/
theorem Graceful.keep (stack : s.stack = frame :: rest)
    (same : s.KeepsPlaces after)
    (sound : soundFrames frames) (newOrderly : Orderly s.ended frames)
    (silent : frame.ends = false)
    (newStarted : ∀ what pauses,
      .publish .send what pauses ∈ frames → s.lazyWriter = false)
    (newNoData : s.ended → emptyFrames frames)
    (newShutdown : .perform .shutdownDirectWriter ∈ frames →
      s.ended ∧ payloads s.writerQueue.commands = [] ∧ s.worker.held = [])
    (sameBytes : frames.flatMap Frame.bytes = frame.bytes) :
    Graceful (after.proceed frames rest) := by
  rw [same]
  refine inv.advance stack sound newOrderly ?_ inv.lost inv.lazyIdle newStarted newNoData ?_
    (fun notEnded => { inv.writing notEnded with })
    (fun ended => { inv.ending ended with }) ?_
  · intro ended
    rwa [silent, Bool.or_false] at ended
  · intro mem
    rcases mem_append.mp mem with new | old
    · exact newShutdown new
    · exact inv.shutdown (by rw [stack]; exact mem_cons_of_mem _ old)
  · rw [sameBytes]
    exact inv.conserves_top stack

end

theorem Frame.ends_of_holdsData (holds : frame.holdsData) :
    frame.ends = false := by
  cases frame <;> first | rfl | cases holds

theorem Frame.graceful_of_holdsData (holds : frame.holdsData) :
    frame.graceful := by
  cases frame <;> first | rfl | cases holds

theorem Frame.controls_of_holdsData (holds : frame.holdsData) :
    frame.controls = false := by
  cases frame <;> first | rfl | cases holds

section

variable (inv : Graceful s)

include inv

section

variable (stack : s.stack = frame :: rest)

include stack

theorem Graceful.carryOn {new : Frame Byte} (holds : frame.holdsData)
    (same : s.KeepsPlaces after) (newHolds : new.holdsData)
    (notSent : ∀ what pauses, new ≠ .publish .send what pauses)
    (sameBytes : new.bytes = frame.bytes) : Graceful (after.proceed [new] rest) := by
  have notEnded := inv.not_ended stack holds
  have calm := Frame.controls_of_holdsData newHolds
  have sound : soundFrames [new] := by
    simpa [soundFrames] using Frame.graceful_of_holdsData newHolds
  refine inv.keep stack same sound (orderly_of_calm (by simpa [calmFrames] using calm))
    (Frame.ends_of_holdsData holds) ?_ ?_ ?_ (by simpa using sameBytes)
  · intro what pauses mem
    exact absurd (mem_singleton.mp mem).symm (notSent what pauses)
  · intro ended
    cases notEnded.symm.trans ended
  · intro mem
    rw [← mem_singleton.mp mem] at calm
    cases calm

/-- Frames without bytes follow one without bytes. -/
theorem Graceful.quiet (same : s.KeepsPlaces after) (empty : frame.bytes = [])
    (silent : frame.ends = false) (sound : soundFrames frames)
    (calm : calmFrames frames) (newNoData : emptyFrames frames) :
    Graceful (after.proceed frames rest) := by
  refine inv.keep stack same sound (orderly_of_calm calm) silent ?_ (fun _ => newNoData) ?_ ?_
  · intro what pauses mem
    cases holdsData_of_empty newNoData mem
  · intro mem
    cases controls_of_calm calm mem
  · rw [empty]
    exact bytes_of_empty newNoData

theorem Graceful.done (same : s.KeepsPlaces after) (empty : frame.bytes = [])
    (silent : frame.ends = false) : Graceful (after.proceed [] rest) :=
  inv.quiet stack same empty silent rfl rfl rfl

theorem Graceful.writing_top (holds : frame.holdsData) : Writing s :=
  inv.writing (inv.not_ended stack holds)

end

end

theorem coe_take_add_coe_drop (bytes : List Byte) (count : Nat) :
    (bytes.take count : Multiset Byte) + bytes.drop count = bytes := by
  rw [Multiset.coe_add, take_append_drop]

section

variable (inv : Graceful s)

include inv

theorem Graceful.sent (stack : s.stack = frame :: rest)
    (holds : frame.holdsData)
    (count : Nat) (sound : soundFrames frames) (calm : calmFrames frames)
    (notSent : ∀ what pauses, .publish .send what pauses ∉ frames)
    (unsent : frames.flatMap Frame.bytes = frame.bytes.drop count) :
    Graceful ((s.sent frame.bytes count).proceed frames rest) := by
  have conserves := inv.conserves_top stack
  refine inv.write stack (inv.not_ended stack holds) rfl rfl rfl
    sound calm (Frame.ends_of_holdsData holds) inv.lazyIdle
    (fun what pauses mem => absurd mem (notSent what pauses))
    { inv.writing_top stack holds with } ?_
  unfold Conserves at conserves ⊢
  rw [unsent, TransportState.sent]
  rw [← coe_take_add_coe_drop frame.bytes count] at conserves
  change (s.written : Multiset Byte) =
    (s.wire ++ frame.bytes.take count : List Byte) + s.worker.held +
      payloads s.writerQueue.commands + s.staged +
      frame.bytes.drop count + s.refused
  rw [conserves, ← Multiset.coe_add]
  abel

theorem Graceful.refuse (stack : s.stack = frame :: rest)
    (holds : frame.holdsData) :
    Graceful ({ s with refused := s.refused ++ frame.bytes }.proceed [] rest) := by
  have conserves := inv.conserves_top stack
  refine inv.write stack (inv.not_ended stack holds) rfl rfl rfl
    rfl rfl (Frame.ends_of_holdsData holds) inv.lazyIdle (by simp)
    { inv.writing_top stack holds with } ?_
  change (s.written : Multiset Byte) =
    s.wire + s.worker.held + payloads s.writerQueue.commands +
      s.staged + ([] : List Byte) +
      (s.refused ++ frame.bytes : List Byte)
  rw [conserves, ← Multiset.coe_add, Multiset.coe_nil, add_zero]
  abel

variable {pauses : Bool} {what : Publication Byte}

theorem graceful_send
    {queue : QueueState Byte}
    (stack : s.stack = .publish .send what pauses :: rest)
    (published : publishTo s.writerQueue what = some queue) :
    Graceful
      ({ s with writerQueue := queue }.proceed
        (if pauses then [.notifyPauseWriting] else []) rest) := by
  have writing := inv.writing_top stack rfl
  have conserves := inv.conserves_top stack
  have notLazy : s.lazyWriter = false :=
    inv.started what pauses (by rw [stack]; exact mem_cons_self)
  refine inv.write stack (inv.not_ended stack rfl) rfl rfl rfl ?_ ?_ rfl ?_ ?_ ?_ ?_
  · cases pauses <;> rfl
  · cases pauses <;> rfl
  · intro lazyWriter
    cases notLazy.symm.trans lazyWriter
  · exact fun _ _ _ => notLazy
  · exact { writing with
      dataOnly := isData_of_publishTo published writing.dataOnly
      receiver := (receiverAlive_of_publishTo published).trans writing.receiver }
  · have noBytes : (if pauses then [Frame.notifyPauseWriting]
        else []).flatMap Frame.bytes = ([] : List Byte) := by
      cases pauses <;> rfl
    rw [noBytes]
    change (s.written : Multiset Byte) =
      s.wire + s.worker.held + payloads queue.commands +
        s.staged + ([] : List Byte) + s.refused
    rw [payloads_of_publishTo published, conserves, ← Multiset.coe_add, Multiset.coe_nil]
    change _ + (what.payload : Multiset Byte) + _ = _
    abel

theorem graceful_ensureWorker
    (stack : s.stack = .publish .ensureWorker what pauses :: rest)
    (lazyWriter : s.lazyWriter) :
    Graceful
      ({ s with lazyWriter := false, worker := .receive }.proceed
        [.publish .send what pauses] rest) := by
  have conserves := inv.conserves_top stack
  have idle : s.worker.held = [] := by
    rw [(inv.lazyIdle lazyWriter).2]
    rfl
  refine inv.write stack (inv.not_ended stack rfl) rfl rfl rfl rfl rfl rfl
    (by simp) (fun _ _ _ => rfl) { inv.writing_top stack rfl with workerLoop := rfl } ?_
  unfold Conserves at conserves ⊢
  rw [idle] at conserves
  change (s.written : Multiset Byte) =
    s.wire + ([] : List Byte) + payloads s.writerQueue.commands +
      s.staged + (what.payload ++ [] : List Byte) + s.refused
  rwa [append_nil]

theorem graceful_stageOwnedBuffer
    (stack : s.stack = .stageOwnedBuffer data pauses :: rest) :
    Graceful (advanceFrame cfg s rest (.stageOwnedBuffer data pauses)) := by
  have conserves := inv.conserves_top stack
  have staged : (advanceFrame cfg s rest (.stageOwnedBuffer data pauses)).staged =
      s.staged ++ data.remaining := by
    simp only [advanceFrame, proceed, TransportState.staged]
    cases s.pendingDirectWrite with
    | none => rfl
    | some => simp
  have noBytes : (if pauses then
      [Frame.notifyPauseWriting, Frame.scheduleFlush]
      else [Frame.scheduleFlush]).flatMap Frame.bytes = ([] : List Byte) := by
    cases pauses <;> rfl
  refine inv.write stack (inv.not_ended stack rfl) rfl rfl rfl
    ?_ ?_ rfl inv.lazyIdle ?_ { inv.writing_top stack rfl with } ?_
  · cases pauses <;> rfl
  · cases pauses <;> rfl
  · cases pauses <;> simp
  · rw [noBytes]
    change (s.written : Multiset Byte) =
      s.wire + s.worker.held + payloads s.writerQueue.commands +
        (advanceFrame cfg s rest (.stageOwnedBuffer data pauses)).staged +
        ([] : List Byte) + s.refused
    rw [staged, conserves, ← Multiset.coe_add, Multiset.coe_nil]
    change _ + (data.remaining : Multiset Byte) + _ = _
    abel

theorem graceful_frameMove (stack : s.stack = frame :: rest)
    (holds : frame.holdsData) (move : FrameMove cfg s rest frame after) :
    Graceful after := by
  cases move with
  | routed _ routes | recorded routes | activated routes =>
    refine inv.carryOn stack holds rfl ?_ ?_ routes.bytes_eq
    · cases routes <;> rfl
    · cases routes <;> simp
  | finished finishes =>
    exact inv.done stack rfl finishes.bytes_eq (Frame.ends_of_holdsData holds)
  | refused => exact inv.refuse stack holds
  | started _ _ isLazy => exact graceful_ensureWorker inv stack isLazy
  | running _ _ notLazy =>
    refine inv.write stack (inv.not_ended stack holds) rfl rfl rfl rfl rfl rfl
      inv.lazyIdle (fun _ _ _ => notLazy) (inv.writing_top stack holds) ?_
    simpa [Frame.bytes] using inv.conserves_top stack
  | published _ pushed => exact graceful_send inv stack pushed
  | staged data pauses =>
    have staged : Graceful (advanceFrame cfg s rest
        (.stageOwnedBuffer data pauses)) :=
      graceful_stageOwnedBuffer inv stack
    exact staged
  | sent count sends =>
    refine inv.sent stack holds count ?_ ?_ ?_ sends.bytes_eq
    · cases sends <;> rfl
    · cases sends <;> rfl
    · cases sends <;> simp
  | calls announcement | queues announcement | decided announcement =>
    cases announcement <;> cases holds
  | scheduled | called | nothingStaged | flushed => cases holds

theorem graceful_flushPendingDirectWrite
    (stack : s.stack = .flushPendingDirectWrite :: rest) :
    Graceful (advanceFrame cfg s rest .flushPendingDirectWrite) := by
  have conserves := inv.conserves_top stack
  simp only [advanceFrame]
  split
  next => exact inv.done stack rfl rfl rfl
  next data pending =>
    have notEnded : s.ended = false := by
      cases ended : s.ended with
      | false => rfl
      | true =>
        have unstaged := (inv.ending ended).unstaged
        cases pending.symm.trans unstaged
    have notClosing : s.closing = false := (Bool.or_eq_false_iff.mp notEnded).1
    have flushed : (if s.closing then
        Frame.recordWriteBufferDrained data.len
        else .flushDirectWrite data) = .flushDirectWrite data := by
      rw [notClosing]
      rfl
    rw [flushed]
    refine inv.write stack notEnded rfl rfl rfl rfl rfl rfl
      inv.lazyIdle (by simp) { inv.writing notEnded with } ?_
    unfold Conserves at conserves ⊢
    rw [TransportState.staged, pending] at conserves
    change (s.written : Multiset Byte) =
      s.wire + s.worker.held + payloads s.writerQueue.commands +
        ([] : List Byte) + (data.remaining ++ [] : List Byte) + s.refused
    rw [conserves, append_nil]
    abel

/-- From now on no write is accepted. -/
theorem Graceful.ending_of_unstaged (unstaged : s.pendingDirectWrite = none) :
    Ending s := by
  cases ended : s.ended with
  | true => exact inv.ending ended
  | false =>
    have writing := inv.writing ended
    refine { unstaged := unstaged, dataFirst := ?_, workerDone := ?_, shut := ?_ }
    · refine pairwise_of_forall_mem_list ?_
      exact fun earlier mem _ _ _ => writing.dataOnly earlier mem
    · intro stopped
      cases writing.workerLoop.symm.trans stopped
    · intro shut
      cases writing.notShut.symm.trans shut

/-- A step that ends the transport, or would. -/
theorem Graceful.end (stack : s.stack = frame :: rest)
    (unstaged : s.pendingDirectWrite = none) (ended : after.ended)
    (lost : after.lostCalled → after.closing)
    (same : after = { s with
      closing := after.closing
      lostCalled := after.lostCalled
      writeEofRequested := after.writeEofRequested
      writeBuffer := after.writeBuffer }) (empty : frame.bytes = [])
    (sound : soundFrames frames) (calm : calmFrames frames)
    (newNoData : emptyFrames frames) : Graceful (after.proceed frames rest) := by
  have ending := inv.ending_of_unstaged unstaged
  have conserves := inv.conserves_top stack
  refine inv.advance stack sound (orderly_of_calm calm)
    (fun _ => ended) lost ?_ ?_ (fun _ => newNoData) ?_ ?_ ?_ ?_
  · rw [same]
    exact inv.lazyIdle
  · intro what pauses mem
    cases holdsData_of_empty newNoData mem
  · intro mem
    rcases mem_append.mp mem with new | old
    · cases controls_of_calm calm new
    · refine ⟨ended, ?_⟩
      rw [same]
      exact (inv.shutdown (by rw [stack]; exact mem_cons_of_mem _ old)).2
  · intro notEnded
    cases ended.symm.trans notEnded
  · intro _
    rw [same]
    exact { ending with }
  · rw [empty] at conserves
    rwa [bytes_of_empty newNoData, same]

end

variable {cmd : WriterCommand Byte}

theorem QueueState.enqueue_control (queue : QueueState Byte)
    (control : cmd.isData = false) :
    (queue.enqueue cmd).getD queue = queue ∨ (queue.enqueue cmd).getD queue =
        { queue with commands := queue.commands ++ [cmd] } := by
  cases sent : queue.enqueue cmd with
  | none => exact .inl rfl
  | some =>
    obtain ⟨-, rfl | ⟨_, _, incoming, _, rfl, _⟩⟩ := QueueState.enqueue_cases sent
    · exact .inr rfl
    · cases control

section

variable (inv : Graceful s)

include inv

theorem graceful_sendControl
    (stack : s.stack = .perform (.sendControl cmd) :: rest)
    (control : cmd.isData = false) :
    Graceful ((performOperation s (.sendControl cmd)).proceed [] rest) := by
  have ended : s.ended := (inv.orderly_top stack).1 rfl
  have ending := inv.ending ended
  rcases s.writerQueue.enqueue_control control with dropped | queued
  · simp only [performOperation, dropped]
    exact inv.done stack rfl rfl rfl
  · simp only [performOperation, queued]
    have samePayloads : payloads (s.writerQueue.commands ++ [cmd]) =
        payloads s.writerQueue.commands := by
      cases cmd with
      | data => cases control
      | writeEof | close | abort | stop => simp [WriterCommand.payload]
    have dataFirst : (s.writerQueue.commands ++ [cmd]).Pairwise
        fun earlier later => later.isData → earlier.isData := by
      refine pairwise_append.mpr ⟨ending.dataFirst, pairwise_singleton _ _, ?_⟩
      intro earlier _ later mem isData
      rw [mem_singleton.mp mem, control] at isData
      cases isData
    refine inv.advance stack rfl trivial (fun _ => ended)
      inv.lost ?_ (by simp) (fun _ => rfl) ?_ ?_ ?_ ?_
    · rw [samePayloads]
      exact inv.lazyIdle
    · intro mem
      rw [samePayloads]
      exact inv.shutdown (by rw [stack]; exact mem_cons_of_mem _ mem)
    · intro notEnded
      cases ended.symm.trans notEnded
    · intro _
      refine { unstaged := ending.unstaged, dataFirst := dataFirst, workerDone := ?_, shut := ?_ }
      · rw [samePayloads]
        exact ending.workerDone
      · rw [samePayloads]
        exact ending.shut
    · have conserves := inv.conserves_top stack
      unfold Conserves at conserves ⊢
      rwa [samePayloads]

theorem graceful_shutdownDirectWriter
    (stack : s.stack = .perform .shutdownDirectWriter :: rest) :
    Graceful ((performOperation s .shutdownDirectWriter).proceed [] rest) := by
  obtain ⟨ended, nothingLeft⟩ := inv.shutdown (by rw [stack]; exact mem_cons_self)
  have ending := inv.ending ended
  refine inv.advance stack rfl trivial (fun _ => ended)
    inv.lost inv.lazyIdle (by simp) (fun _ => rfl)
    (fun _ => ⟨ended, nothingLeft⟩) ?_ ?_ (inv.conserves_top stack)
  · intro notEnded
    cases ended.symm.trans notEnded
  · intro _
    exact
      { unstaged := ending.unstaged
        dataFirst := ending.dataFirst
        workerDone := ending.workerDone
        shut := fun _ => nothingLeft }

theorem graceful_perform {op : Operation Byte}
    (stack : s.stack = .perform op :: rest)
    (flushed : (Frame.perform op).ends → s.pendingDirectWrite = none) :
    Graceful ((performOperation s op).proceed [] rest) := by
  have allowed : (Frame.perform op).graceful :=
    inv.frames _ (by rw [stack]; exact mem_cons_self)
  cases op with
  | setClosing =>
    exact inv.end stack (flushed rfl) rfl (fun _ => rfl) rfl rfl rfl rfl rfl
  | markWriteEof =>
    have ended : (performOperation s .markWriteEof).ended := by
      simp [performOperation, TransportState.ended]
    exact inv.end stack (flushed rfl) ended inv.lost rfl rfl rfl rfl rfl
  | shutdownDirectWriter => exact graceful_shutdownDirectWriter inv stack
  | sendControl cmd =>
    have control : cmd.isData = false := by
      simpa [Frame.graceful] using allowed
    exact graceful_sendControl inv stack control
  | enqueueConnectionLost =>
    simp only [performOperation, enqueuePendingReadEvent]
    split <;> exact inv.done stack rfl rfl rfl
  | releaseProtocol => exact inv.done stack rfl rfl rfl
  | clearBackpressure | dropPendingDirectWrite | clearWriteBuffer => cases allowed

/-- The closing operations go on: through the worker, or directly where there
is none. -/
theorem Graceful.finish (stack : s.stack = frame :: rest)
    (controls : frame.controls) (silent : frame.ends = false)
    (empty : frame.bytes = [])
    (sound : soundFrames frames) (newNoData : emptyFrames frames)
    (direct : .perform .shutdownDirectWriter ∈ frames → s.lazyWriter) :
    Graceful (s.proceed frames rest) := by
  have ended : s.ended := (inv.orderly_top stack).1 controls
  refine inv.keep stack rfl sound ?_ silent ?_ (fun _ => newNoData) ?_ ?_
  · rw [ended]
    exact orderly_true frames
  · intro what pauses mem
    cases holdsData_of_empty newNoData mem
  · intro mem
    obtain ⟨noPayload, notStarted⟩ := inv.lazyIdle (direct mem)
    refine ⟨ended, noPayload, ?_⟩
    rw [notStarted]
    rfl
  · rw [empty]
    exact bytes_of_empty newNoData

theorem graceful_connectionLost (stack : s.stack = .connectionLost :: rest)
    (unstaged : s.pendingDirectWrite = none) :
    Graceful (advanceFrame cfg s rest .connectionLost) := by
  simp only [advanceFrame]
  split
  next lostBefore =>
    have closing := inv.lost lostBefore
    have ended : s.ended := by
      rw [TransportState.ended, closing, Bool.true_or]
    exact inv.end stack unstaged ended inv.lost rfl rfl rfl rfl rfl
  next => exact inv.end stack unstaged rfl (fun _ => rfl) rfl rfl rfl rfl rfl

variable {cb : ProtocolCallback}

section

variable (stack : s.stack = frame :: rest) (empty : frame.bytes = [])
  (silent : frame.ends = false)

include stack empty silent

theorem graceful_stepNotify {kind : ReadEventKind} :
    Graceful (stepNotify s cb kind rest) := by
  unfold stepNotify
  split
  · exact inv.quiet stack rfl empty silent rfl rfl rfl
  · unfold enqueuePendingReadEvent
    split <;> exact inv.done stack rfl empty silent

theorem Graceful.signalFrames (writeBuffer : StreamWriteBufferState)
    (signal : WriteBufferSignal) :
    Graceful ({ s with writeBuffer := writeBuffer }.proceed (signalFrames signal) rest) := by
  refine inv.quiet stack rfl empty silent ?_ ?_ ?_ <;> cases signal <;> rfl

theorem graceful_closeAfterEof : Graceful (s.proceed closeAfterEof rest) := by
  refine inv.keep stack rfl rfl ?_ silent ?_ (fun _ => rfl) ?_ ?_
  · refine ⟨by simp [Frame.controls], ?_⟩
    rw [show (Frame.perform .setClosing : Frame Byte).ends from rfl, Bool.or_true]
    exact orderly_true _
  · simp [closeAfterEof]
  · simp [closeAfterEof]
  · rw [empty]
    rfl

end

theorem graceful_callProtocol (stack : s.stack = .protocolCall cb :: rest) :
    Graceful (s.callProtocol cb rest) := by
  have called : ∀ next : TransportState Byte, s.KeepsPlaces next →
      Graceful (next.proceed [.running cb] rest) := by
    intro next same
    exact inv.quiet stack same rfl rfl rfl rfl rfl
  unfold callProtocol
  split
  · split
    · exact graceful_closeAfterEof inv stack rfl rfl
    · exact inv.done stack rfl rfl rfl
  · split
    · exact called { s with signals := s.signals ++ [.pause] } rfl
    · exact called { s with signals := s.signals ++ [.resume] } rfl
    · exact called s rfl

section

variable (stack : s.stack = frame :: rest)
  (flushed : frame.ends → s.pendingDirectWrite = none)

include stack flushed

theorem graceful_advanceFrame (empty : frame.holdsData = false) :
    Graceful (advanceFrame cfg s rest frame) := by
  have allowed : frame.graceful := inv.frames frame (by rw [stack]; exact mem_cons_self)
  cases frame with
  | scheduleFlush => exact inv.done stack rfl rfl rfl
  | notifyPauseWriting | notifyResumeWriting => exact graceful_stepNotify inv stack rfl rfl
  | protocolCall => exact graceful_callProtocol inv stack
  | flushPendingDirectWrite => exact graceful_flushPendingDirectWrite inv stack
  | recordWriteBufferDrained =>
    simp only [advanceFrame]
    split
    · exact inv.done stack rfl rfl rfl
    · exact inv.signalFrames stack rfl rfl _ _
  | setWriteBufferLimits => exact inv.signalFrames stack rfl rfl _ _
  | perform => exact graceful_perform inv stack flushed
  | finishClose =>
    simp only [advanceFrame]
    split
    next direct =>
      have lazyWriter : s.lazyWriter := (Bool.and_eq_true_iff.mp direct).2
      exact inv.finish stack rfl rfl rfl rfl rfl fun _ => lazyWriter
    next => exact inv.finish stack rfl rfl rfl rfl rfl (by simp)
  | finishWriteEof =>
    simp only [advanceFrame]
    split
    next direct =>
      have lazyWriter : s.lazyWriter := (Bool.and_eq_true_iff.mp direct).2
      split <;> exact inv.finish stack rfl rfl rfl rfl rfl fun _ => lazyWriter
    next => exact inv.finish stack rfl rfl rfl rfl rfl (by simp)
  | connectionLost => exact graceful_connectionLost inv stack (flushed rfl)
  | running => exact inv
  | discardPendingDirectWrite | finishAbort | failWrite => cases allowed
  | _ => cases empty

theorem graceful_stepFrame {next : TransportState Byte}
    (answered : reply ≠ .failed)
    (moved : stepFrame cfg s rest reply frame = some next) : Graceful next := by
  by_cases holds : frame.holdsData
  · have receiver := (inv.writing_top stack holds).receiver
    exact graceful_frameMove inv stack holds
      (frameMove_of_holdsData holds answered (fun _ _ _ => receiver) moved)
  · cases frame with
    | running =>
      obtain ⟨frames, returned, rfl⟩ := Option.map_eq_some_iff.mp moved
      unfold afterCallback at returned
      split at returned <;> cases returned
      · exact inv.done stack rfl rfl rfl
      · exact graceful_closeAfterEof inv stack rfl rfl
      · exact inv.quiet stack rfl rfl rfl rfl rfl rfl
      · exact inv.done stack rfl rfl rfl
      · exact inv.done stack rfl rfl rfl
    | _ =>
      first
      | exact absurd rfl holds
      | (cases moved
         exact graceful_advanceFrame inv stack flushed rfl)

end

end

/-! ## Steps of the worker -/

variable {next : TransportState Byte}

section

variable (inv : Graceful s)

include inv

/-- The worker moves; the loop thread's part of the state is left alone. -/
theorem Graceful.workerMoves (running : s.worker ≠ .notStarted)
    (same : after = { s with
      worker := after.worker
      writerQueue := after.writerQueue
      wire := after.wire
      writeHalfShut := after.writeHalfShut
      writerRegistered := after.writerRegistered
      writeBuffer := after.writeBuffer
      events := after.events
      readEventState := after.readEventState })
    (nothingComes : payloads s.writerQueue.commands = [] → s.worker.held = [] →
        payloads after.writerQueue.commands = [] ∧ after.worker.held = [])
    (writing : Writing s → Writing after)
    (ending : s.ended → Ending s → Ending after)
    (conserves : ∀ hand, Conserves s hand → Conserves after hand) :
    Graceful after := by
  have notLazy : s.lazyWriter = false := by
    cases lazyWriter : s.lazyWriter with
    | false => rfl
    | true => exact absurd (inv.lazyIdle lazyWriter).2 running
  rw [same] at writing ending conserves ⊢
  exact
    { inv with
      lazyIdle := fun lazyWriter => nomatch notLazy.symm.trans lazyWriter
      started := fun _ _ _ => notLazy
      shutdown := fun mem =>
        (inv.shutdown mem).imp_right fun nothing => nothingComes nothing.1 nothing.2
      writing := fun notEnded => writing (inv.writing notEnded)
      ending := fun ended => ending ended (inv.ending ended)
      conserves := conserves _ inv.conserves }

variable {readEventState : ReadEventState} {events : List ReadEventKind}

/-- Only the worker's position in its data loop changes. -/
theorem Graceful.workerAt {pos : Worker Byte} {writerRegistered : Bool}
    {writeBuffer : StreamWriteBufferState} (running : s.worker ≠ .notStarted)
    (inLoop : pos.keepsOpen) (sameHeld : pos.held = s.worker.held) :
    Graceful { s with
      worker := pos
      events := events
      readEventState := readEventState
      writerRegistered := writerRegistered
      writeBuffer := writeBuffer } := by
  refine inv.workerMoves running rfl ?_ ?_ ?_ ?_
  · exact fun noPayload notHeld => ⟨noPayload, sameHeld.trans notHeld⟩
  · exact fun writing => { writing with workerLoop := inLoop }
  · exact fun _ ending => { ending with
      workerDone := fun stopped => nomatch inLoop.symm.trans stopped
      shut := fun shut => (ending.shut shut).imp_right sameHeld.trans }
  · intro hand conserves
    unfold Conserves at conserves ⊢
    rwa [sameHeld]

/-- The worker has left its data loop: nothing is left to be written. -/
theorem Graceful.workerLeaves {pos : Worker Byte}
    {writeHalfShut receiverAlive : Bool}
    (left : s.worker.keepsOpen = false) (holdsNothing : pos.held = []) :
    Graceful { s with
      worker := pos
      events := events
      readEventState := readEventState
      writeHalfShut := writeHalfShut
      writerQueue := { s.writerQueue with receiverAlive := receiverAlive } } := by
  have notHeld : s.worker.held = [] := by
    cases pos : s.worker with
    | writing =>
      rw [pos] at left
      cases left
    | _ => rfl
  refine inv.workerMoves ?_ rfl ?_ ?_ ?_ ?_
  · intro notStarted
    rw [notStarted] at left
    cases left
  · exact fun noPayload _ => ⟨noPayload, holdsNothing⟩
  · intro writing
    cases writing.workerLoop.symm.trans left
  · intro _ ending
    have noPayload := ending.workerDone left
    exact
      { unstaged := ending.unstaged
        dataFirst := ending.dataFirst
        workerDone := fun _ => noPayload
        shut := fun _ => ⟨noPayload, holdsNothing⟩ }
  · intro hand conserves
    unfold Conserves at conserves ⊢
    rw [notHeld] at conserves
    rwa [holdsNothing]

theorem graceful_dequeued (running : s.worker ≠ .notStarted)
    (idle : s.worker.held = []) (taken : s.dequeued = some next) :
    Graceful next := by
  unfold dequeued QueueState.tryDequeue at taken
  cases cmds : s.writerQueue.commands with
  | nil => simp [cmds] at taken
  | cons cmd rest =>
    cases isData : cmd.isData with
    | true =>
      cases cmd with
      | data buf =>
        simp only [cmds, Option.some.injEq] at taken
        subst taken
        refine inv.workerMoves running rfl ?_ ?_ ?_ ?_
        · intro noPayload _
          rw [cmds, payloads_cons, append_eq_nil_iff] at noPayload
          exact ⟨noPayload.2, noPayload.1⟩
        · intro writing
          refine { writing with dataOnly := ?_, workerLoop := rfl }
          intro other mem
          exact writing.dataOnly other (by rw [cmds]; exact mem_cons_of_mem _ mem)
        · intro _ ending
          have dataFirst := ending.dataFirst
          have shut := ending.shut
          rw [cmds] at dataFirst shut
          refine
            { unstaged := ending.unstaged
              dataFirst := dataFirst.of_cons
              workerDone := nofun
              shut := ?_ }
          intro isShut
          obtain ⟨noPayload, -⟩ := shut isShut
          rw [payloads_cons, append_eq_nil_iff] at noPayload
          exact ⟨noPayload.2, noPayload.1⟩
        · intro hand conserves
          unfold Conserves at conserves ⊢
          rw [cmds, idle, payloads_cons, ← Multiset.coe_add] at conserves
          change (s.written : Multiset Byte) = s.wire +
            buf.remaining + payloads rest + s.staged + hand +
            s.refused
          rw [conserves, Multiset.coe_nil, add_zero]
          change _ + ((buf.remaining : Multiset Byte) + _) + _ + _ + _ = _
          abel
      | writeEof | close | abort | stop => cases isData
    | false =>
      have after : next = { s with
          writerQueue := { s.writerQueue with commands := rest }
          worker := .command cmd } := by
        cases cmd with
        | data => cases isData
        | _ =>
          simp only [cmds, Option.some.injEq] at taken
          exact taken.symm
      have noPayload : cmd.payload = [] := by
        cases cmd with
        | data => cases isData
        | _ => rfl
      have samePayloads : payloads s.writerQueue.commands = payloads rest := by
        rw [cmds, payloads_cons, noPayload, nil_append]
      rw [after]
      refine inv.workerMoves running rfl ?_ ?_ ?_ ?_
      · intro nothingQueued _
        exact ⟨samePayloads.symm.trans nothingQueued, rfl⟩
      · intro writing
        have onlyData := writing.dataOnly cmd (by rw [cmds]; exact mem_cons_self)
        cases isData.symm.trans onlyData
      · intro _ ending
        have dataFirst := ending.dataFirst
        rw [cmds] at dataFirst
        have controlsBehind : payloads rest = [] := by
          refine flatMap_eq_nil_iff.mpr ?_
          intro other mem
          have noData := (pairwise_cons.mp dataFirst).1 other mem
          cases other with
          | data =>
            rw [isData] at noData
            cases noData rfl
          | _ => rfl
        exact
          { unstaged := ending.unstaged
            dataFirst := dataFirst.of_cons
            workerDone := fun _ => controlsBehind
            shut := fun _ => ⟨controlsBehind, rfl⟩ }
      · intro hand conserves
        unfold Conserves at conserves ⊢
        rwa [samePayloads, idle] at conserves

theorem graceful_writing {bufferedLen : Nat}
    (pos : s.worker = .writing data bufferedLen) (answered : reply ≠ .failed)
    (moved : stepWorkerWriting s data bufferedLen reply = some next) :
    Graceful next := by
  have running : s.worker ≠ .notStarted := by simp [pos]
  unfold stepWorkerWriting at moved
  split at moved
  next empty =>
    cases moved
    refine inv.workerAt running rfl ?_
    rw [pos]
    exact (List.isEmpty_iff.mp empty).symm
  next =>
    cases reply with
    | wrote count =>
      simp only at moved
      split at moved
      next accepted =>
        split_ifs at moved
        cases moved
        have drained (nothing : s.worker.held = []) :
            (data.advance count accepted).remaining = [] := by
          rw [pos] at nothing
          simp [show data.remaining = [] from nothing]
        refine inv.workerMoves running rfl ?_ ?_ ?_ ?_
        · exact fun noPayload notHeld => ⟨noPayload, drained notHeld⟩
        · exact fun writing => { writing with workerLoop := rfl }
        · exact fun _ ending => { ending with
            workerDone := by rintro ⟨⟩
            shut := fun shut => (ending.shut shut).imp_right drained }
        · intro hand conserves
          unfold Conserves at conserves ⊢
          rw [pos] at conserves
          change (s.written : Multiset Byte) = s.wire +
            data.remaining + payloads s.writerQueue.commands +
            s.staged + hand + s.refused at conserves
          change (s.written : Multiset Byte) =
            (s.wire ++ data.remaining.take count : List Byte) +
              (data.advance count accepted).remaining +
              payloads s.writerQueue.commands + s.staged + hand +
              s.refused
          rw [conserves, OwnedWriteBuffer.remaining_advance,
            ← Multiset.coe_add, ← coe_take_add_coe_drop data.remaining count]
          abel
      next => cases moved
    | wouldBlock =>
      cases moved
      exact inv
    | failed => exact absurd rfl answered
    | done | returned truthy | raised => cases moved

theorem graceful_stepWorker (answered : reply ≠ .failed)
    (moved : stepWorker cfg s reply = some next) : Graceful next := by
  unfold stepWorker at moved
  cases pos : s.worker with
  | notStarted | exited => simp [pos] at moved
  | receive =>
    simp only [pos] at moved
    exact graceful_dequeued inv (by simp [pos]) (by rw [pos]; rfl) moved
  | writing =>
    simp only [pos] at moved
    exact graceful_writing inv pos answered moved
  | recordDrained =>
    simp only [pos] at moved
    split at moved
    · cases moved
      exact inv.workerAt (by simp [pos]) rfl (by rw [pos]; rfl)
    · cases moved
      refine inv.workerAt (by simp [pos]) ?_ ?_
      · split <;> rfl
      · rw [pos]
        split <;> rfl
  | notifyResume =>
    simp only [pos] at moved
    cases moved
    unfold enqueuePendingReadEvent
    split <;> exact inv.workerAt (by simp [pos]) rfl (by rw [pos]; rfl)
  | tryReceive =>
    simp only [pos] at moved
    cases taken : s.dequeued with
    | none =>
      rw [taken] at moved
      cases moved
      exact inv.workerAt (by simp [pos]) rfl (by rw [pos]; rfl)
    | some =>
      rw [taken] at moved
      cases moved
      exact graceful_dequeued inv (by simp [pos]) (by rw [pos]; rfl) taken
  | clearOnEmpty | clearOnIdle =>
    simp only [pos] at moved
    cases moved
    exact inv.workerAt (by simp [pos]) rfl (by rw [pos]; rfl)
  | command cmd =>
    have left : s.worker.keepsOpen = false := by rw [pos]; rfl
    cases cmd with
    | data => simp [pos] at moved
    | writeEof =>
      simp only [pos] at moved
      cases moved
      refine inv.workerLeaves left ?_
      split <;> rfl
    | close | abort | stop =>
      simp only [pos] at moved
      cases moved
      exact inv.workerLeaves left rfl
  | reportLost =>
    have left : s.worker.keepsOpen = false := by rw [pos]; rfl
    simp only [pos] at moved
    cases moved
    unfold enqueuePendingReadEvent
    split <;> exact inv.workerLeaves left rfl
  | exiting =>
    have left : s.worker.keepsOpen = false := by rw [pos]; rfl
    simp only [pos] at moved
    cases moved
    exact inv.workerLeaves left rfl

end

/-! ## Whole runs -/

section

variable (inv : Graceful s)

include inv

section

variable (settled : ∀ frame ∈ s.stack, frame.settled) (sound : soundFrames frames)
  (newOrderly : Orderly s.ended frames)

include settled sound newOrderly

theorem Graceful.start
    (newStarted : ∀ what pauses, .publish .send what pauses ∉ frames)
    (newNoData : s.ended → emptyFrames frames)
    (newShutdown : .perform .shutdownDirectWriter ∉ frames) :
    Graceful { s with
      stack := frames ++ s.stack
      written := s.written ++ frames.flatMap Frame.bytes } := by
  obtain ⟨newGraceful, newSettled⟩ := Bool.and_eq_true_iff.mp sound
  refine
    { frames := ?_
      belowTop := belowTop_append newSettled settled
      orderly := newOrderly.append inv.orderly
      lost := inv.lost
      lazyIdle := inv.lazyIdle
      started := ?_
      noData := ?_
      shutdown := ?_
      writing := fun notEnded => { inv.writing notEnded with }
      ending := fun ended => { inv.ending ended with }
      conserves := ?_ }
  · exact forall_mem_append.mpr ⟨all_eq_true.mp newGraceful, inv.frames⟩
  · intro what pauses mem
    rcases mem_append.mp mem with new | old
    · exact absurd new (newStarted what pauses)
    · exact inv.started what pauses old
  · exact fun ended => forall_mem_append.mpr
      ⟨fun _ => holdsData_of_empty (newNoData ended), inv.noData ended⟩
  · intro mem
    rcases mem_append.mp mem with new | old
    · exact absurd new newShutdown
    · exact inv.shutdown old
  · have conserves := inv.conserves
    rw [flatMap_bytes_of_settled settled] at conserves
    change ((s.written ++ frames.flatMap Frame.bytes : List Byte) : Multiset Byte) =
      s.wire + s.worker.held + payloads s.writerQueue.commands +
        s.staged + ((frames ++ s.stack).flatMap Frame.bytes) +
        s.refused
    rw [flatMap_append, flatMap_bytes_of_settled settled,
      append_nil, ← Multiset.coe_add, conserves, Multiset.coe_nil]
    abel

theorem Graceful.startEmpty (newNoData : emptyFrames frames)
    (newShutdown : .perform .shutdownDirectWriter ∉ frames) :
    Graceful (s.proceed frames s.stack) := by
  have notSent : ∀ what pauses, .publish .send what pauses ∉ frames := by
    intro what pauses mem
    cases holdsData_of_empty newNoData mem
  have started := inv.start settled sound newOrderly notSent (fun _ => newNoData) newShutdown
  rwa [bytes_of_empty newNoData, append_nil] at started

end

end

theorem graceful_call (inv : Graceful s) (sound : soundFrames frames)
    (newOrderly : Orderly s.ended frames) (newNoData : emptyFrames frames)
    (newShutdown : .perform .shutdownDirectWriter ∉ frames)
    (called : s.call frames = some next) : Graceful next := by
  unfold call at called
  split_ifs at called with runs
  cases called
  exact inv.startEmpty (settled_of_applicationRuns inv.belowTop runs)
    sound newOrderly newNoData newShutdown

theorem graceful_callWrite {bytes : List Byte} (inv : Graceful s)
    (timely : s.closing ∨ s.writeEofRequested = false)
    (sound : soundFrames [frame]) (calm : calmFrames [frame])
    (notSent : ∀ what pauses, frame ≠ .publish .send what pauses)
    (newBytes : frame.bytes = bytes)
    (called : s.callWrite cfg bytes [frame] = some next) : Graceful next := by
  unfold callWrite at called
  split at called
  next =>
    exact graceful_call inv rfl (orderly_of_calm rfl) rfl (by simp) called
  next accepted =>
    have notClosing : s.closing = false := by
      simp only [Bool.or_eq_true, not_or, Bool.not_eq_true] at accepted
      exact accepted.1
    have notEnded : s.ended = false := by
      rcases timely with closing | notRequested
      · cases notClosing.symm.trans closing
      · rw [TransportState.ended, notClosing, notRequested]
        rfl
    unfold call at called
    split_ifs at called with runs
    have sameBytes : [frame].flatMap Frame.bytes = bytes := by
      simpa using newBytes
    cases called
    rw [← sameBytes]
    refine inv.start (settled_of_applicationRuns inv.belowTop runs) sound
      (orderly_of_calm calm) ?_ ?_ ?_
    · intro what pauses mem
      exact notSent what pauses (mem_singleton.mp mem).symm
    · intro ended
      cases notEnded.symm.trans ended
    · intro mem
      cases controls_of_calm calm mem

/-- Close and `write_eof` put the flush and the end in front of the rest. -/
theorem orderly_closing {ended : Bool} {last : Frame Byte}
    (calm : frame.controls = false) (ends : frame.ends) :
    Orderly ended [.flushPendingDirectWrite, frame, last] := by
  refine ⟨fun controls => (by cases controls), ?_, ?_⟩
  · intro controls
    cases calm.symm.trans controls
  · rw [ends, Bool.or_true]
    exact orderly_true [last]

theorem Graceful.congr (inv : Graceful s) (same : s.KeepsPlaces after) :
    Graceful after := by
  rw [same]
  exact { inv with
    writing := fun notEnded => { inv.writing notEnded with }
    ending := fun ended => { inv.ending ended with } }

theorem Graceful.startIdle (frames : List (Frame Byte))
    (inv : Graceful s) (idle : s.stack = [])
    (same : { s with stack := frames }.KeepsPlaces after)
    (sound : soundFrames frames) (calm : calmFrames frames)
    (newNoData : emptyFrames frames) : Graceful after := by
  have started := inv.startEmpty (by simp [idle]) sound
    (orderly_of_calm calm) newNoData fun mem => by cases controls_of_calm calm mem
  rw [proceed, idle, append_nil] at started
  exact started.congr same

theorem graceful_step {action : Action Byte}
    (inv : Graceful s) (allowed : action.graceful)
    (flushed : FlushedEnds s action)
    (moved : step cfg s action = some next) : Graceful next := by
  cases action with
  | write _ exactBytes =>
    cases exactBytes with
    | true | false => exact graceful_callWrite inv flushed rfl rfl (by simp) rfl moved
  | writelines => exact graceful_callWrite inv flushed rfl rfl (by simp) rfl moved
  | close => exact graceful_call inv rfl (orderly_closing rfl rfl) rfl (by simp) moved
  | writeEof =>
    simp only [step] at moved
    split at moved
    · exact graceful_call inv rfl (orderly_closing rfl rfl) rfl (by simp) moved
    · exact graceful_call inv rfl (orderly_of_calm rfl) rfl (by simp) moved
  | setWriteBufferLimits =>
    simp only [step] at moved
    split at moved <;> exact graceful_call inv rfl (orderly_of_calm rfl) rfl (by simp) moved
  | flush =>
    simp only [step] at moved
    split_ifs at moved with enabled
    cases moved
    exact Graceful.startIdle [.flushPendingDirectWrite] inv enabled.1 rfl rfl rfl rfl
  | drainEvent =>
    simp only [step] at moved
    split_ifs at moved with enabled
    split at moved <;> cases moved
    rename_i kind rest events
    refine Graceful.startIdle (deliveryFrames kind) inv enabled.1 rfl ?_ ?_ ?_ <;>
      cases kind <;> rfl
  | peerEof =>
    simp only [step, enqueuePendingReadEvent] at moved
    split at moved
    · cases moved
      exact inv
    · cases moved
      exact inv.congr rfl
  | nextTurn | enterRun | leaveRun =>
    simp only [step] at moved
    split_ifs at moved
    cases moved
    exact inv.congr rfl
  | loop reply =>
    simp only [step] at moved
    have answered : reply ≠ .failed := by
      rintro rfl
      cases allowed
    cases stack : s.stack with
    | nil => simp [stack] at moved
    | cons frame =>
      rw [stack] at moved
      exact graceful_stepFrame inv stack (flushed frame (by rw [stack]; rfl)) answered moved
  | worker reply =>
    have answered : reply ≠ .failed := by
      rintro rfl
      cases allowed
    exact graceful_stepWorker inv answered moved
  | abort => cases allowed

theorem ahead_of_dataFirst {cmds : List (WriterCommand Byte)}
    (dataFirst : cmds.Pairwise fun earlier later =>
      later.isData → earlier.isData) :
    ahead cmds = payloads cmds := by
  induction cmds with
  | nil => rfl
  | cons cmd rest ih =>
    obtain ⟨behind, later⟩ := pairwise_cons.mp dataFirst
    have inductionStep := ih later
    cases cmd with
    | data buf =>
      change payloads (.data buf :: rest.takeWhile _) = _
      rw [payloads_cons, payloads_cons, ← inductionStep]
      rfl
    | _ =>
      refine (flatMap_eq_nil_iff.mpr ?_).symm
      intro other mem
      rcases mem_cons.mp mem with rfl | inRest
      · rfl
      · cases other with
        | data => cases behind _ inRest rfl
        | _ => rfl

/-- Where nothing is staged when the transport ends and nobody writes after
`write_eof`, a closed transport has discarded nothing. -/
theorem nothingDiscarded_of_flushedEnds (cfg : TransportConfig)
    {actions : List (Action Byte)} {s : TransportState Byte}
    (reached : run (step cfg) (.new cfg) actions = some s)
    (allowed :
      Guarded (step cfg) (fun _ action => action.graceful) (.new cfg) actions)
    (flushed : Guarded (step cfg) FlushedEnds (.new cfg) actions) :
    s.closing → s.stack = [] → s.flushCommands = 0 → NothingDiscarded s := by
  intro closing idle _
  have inv : Graceful s := by
    refine invariant_of_run Graceful ?_ (graceful_new cfg) (allowed.and flushed) reached
    rintro current action next ih ⟨allowedNow, flushedNow⟩ moved
    exact graceful_step ih allowedNow flushedNow moved
  have ended : s.ended := by
    rw [TransportState.ended, closing, Bool.true_or]
  have ending := inv.ending ended
  have conserves := inv.conserves
  rw [Conserves, idle, staged_of_none ending.unstaged] at conserves
  have waiting : s.deliverable =
      s.worker.held ++ payloads s.writerQueue.commands := by
    unfold deliverable
    split
    next shut =>
      obtain ⟨noPayload, notHeld⟩ := ending.shut shut
      rw [noPayload, notHeld]
      rfl
    next => rw [ahead_of_dataFirst ending.dataFirst]
  unfold NothingDiscarded
  rw [waiting, conserves, ← Multiset.coe_add]
  refine le_of_eq ?_
  abel

/-- Two small writes in one turn: the first goes to the socket, the second is
staged. -/
def stagedWrite : List (Action UInt8) :=
  [.write (List.replicate 65 0) true, .loop .done, .loop (.wrote 65),
    .write (List.replicate 65 1) true, .loop .done, .loop .done, .loop .done,
    .loop .done]

/-- The staged write is flushed before the peer's EOF arrives. -/
def flushedBeforeEof : List (Action UInt8) :=
  stagedWrite ++ ([.flush, .loop .done, .loop (.wrote 65), .loop .done, .peerEof,
      .drainEvent, .loop .done, .loop (.returned false), .loop .done,
      .loop .done, .loop .done, .loop .done, .loop (.returned false),
      .loop .done] : List (Action UInt8))

theorem nothingDiscarded_of_flushedBeforeEof : ∃ s : TransportState UInt8,
      run (step (socketConfig true)) (.new (socketConfig true)) flushedBeforeEof = some s ∧
        (s.closing ∧ s.stack = [] ∧ s.flushCommands = 0) ∧
        NothingDiscarded s := by
  refine exists_run_imp
    (fun s => s.closing ∧ s.stack = [] ∧ s.flushCommands = 0) (by decide) ?_
  rintro s reached ⟨closing, idle, noFlush⟩
  refine ⟨⟨closing, idle, noFlush⟩, ?_⟩
  exact nothingDiscarded_of_flushedEnds (socketConfig true) reached
    (by decide) (by decide) closing idle noFlush

/-- The peer's EOF is answered while the second write is still staged. -/
def eofBeforeFlush : List (Action UInt8) :=
  stagedWrite ++ ([.peerEof, .drainEvent, .loop .done, .loop (.returned false), .loop .done,
      .loop .done, .loop .done, .loop .done, .loop (.returned false),
      .loop .done, .flush, .loop .done, .loop .done] : List (Action UInt8))

theorem staged_discarded_after_eof : ∃ s : TransportState UInt8,
      run (step (socketConfig true)) (.new (socketConfig true)) eofBeforeFlush = some s ∧
        Guarded (step (socketConfig true))
          (fun _ action => action.graceful) (.new (socketConfig true))
          eofBeforeFlush ∧
        (s.closing ∧ s.stack = [] ∧ s.flushCommands = 0) ∧
        ¬ NothingDiscarded s := by
  refine exists_run_imp (fun s => (s.closing ∧ s.stack = [] ∧ s.flushCommands
      = 0) ∧ s.wire.length + s.deliverable.length + s.refused.length <
      s.written.length) (by decide) ?_
  rintro s reached ⟨closed, shorter⟩
  refine ⟨by decide, closed, ?_⟩
  intro nothingDiscarded
  have counted := Multiset.card_le_card nothingDiscarded
  simp only [Multiset.card_add, Multiset.coe_card] at counted
  omega

end Rsloop.Stream
