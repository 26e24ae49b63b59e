import Rsloop.Stream.PausedReading
import Rsloop.Stream.ReadCompleteness

/-!
# Data after `close()` and `abort()`

Joined data is dropped when the delivery finds the transport closing. Two paths
do not look: the fast path feeds every event that it pops, and the loop over
`get_buffer` hands over the rest of a joined buffer. `close()` and `abort()` do
the same to the read path: they set the closing flag.
-/

namespace Rsloop.Stream

open Transition

variable {Byte : Type}

/-- The loop over `get_buffer` still has bytes to hand over. -/
def Drain.midBuffer : Drain Byte → Bool
  | .gettingBuffer _ _ _ => true
  | .updating _ rest _ => !rest.isEmpty
  | _ => false

/-- The drain feeds a stream reader directly. -/
def Drain.fastPath : Drain Byte → Bool
  | .check d | .pop d | .relieve d _ | .storeReading d _ _ | .join d _
  | .feeding d | .budget d | .flush d _ | .receiving d _
  | .gettingBuffer d _ _ | .updating d _ _ | .flushed d _ | .eofRunning d
  | .pauseRunning d | .resumeRunning d | .report d _
  | .handling d _ => d.fastPath
  | _ => false

/-- With callbacks: the application does not close from inside the loop over
`get_buffer` while bytes are left. With a stream reader: nothing has been read
ahead, no read is under way, and nobody queues data afterwards. -/
def CleanCloses (cfg : ReadConfig) (s : ReadState Byte) : ReadAction Byte → Prop
  | .close =>
    if cfg.protocol = .fastReader then
      s.undelivered = [] ∧ s.reader ≠ .reading
    else
      s.drain.midBuffer = false
  | .enqueue (.data _) => cfg.protocol = .fastReader → s.closing = false
  | _ => True

instance [DecidableEq Byte] (cfg : ReadConfig) (s : ReadState Byte) :
    DecidablePred (CleanCloses cfg s) := fun action =>
  match action with
  | .close =>
    inferInstanceAs (Decidable (if cfg.protocol = .fastReader then
        s.undelivered = [] ∧ s.reader ≠ .reading
      else
        s.drain.midBuffer = false))
  | .enqueue (.data _) => inferInstanceAs (Decidable (_ → _))
  | .enqueue .eof | .enqueue (.connectionLost _) | .enqueue .pauseWriting
  | .enqueue .resumeWriting | .producer _ | .reader _ | .startDrain | .drain _ | .pauseReading
  | .resumeReading | .storeReading => .isTrue trivial

/-! ## Where a drain hands data over -/

structure DataMoves (s next : ReadState Byte) : Prop where
  closing : s.closing → next.closing
  fastPath : next.drain.fastPath → s.drain.fastPath
  midBuffer : next.drain.midBuffer → s.drain.midBuffer ∨ s.closing = false
  bytes : callbackBytes next.log = callbackBytes s.log ∨
    tokenBytes s.drain.inFlight ≠ [] ∧
      (s.drain.fastPath ∨ s.drain.midBuffer ∨ s.closing = false)

variable {cfg : ReadConfig} {s next : ReadState Byte} {reply : CallbackReply}

theorem DataMoves.pass (closing : s.closing → next.closing)
    (fastPath : next.drain.fastPath → s.drain.fastPath)
    (calm : next.drain.midBuffer = false) (log : next.log = s.log) :
    DataMoves s next where
  closing := closing
  fastPath := fastPath
  midBuffer := by
    intro inLoop
    cases calm.symm.trans inLoop
  bytes := .inl (by rw [log])

variable {cb : ReadCallback Byte}

theorem callbackBytes_of_silent (log : List (ReadCallback Byte))
    (silent : tokenBytes cb.tokens = []) :
    callbackBytes (log ++ [cb]) = callbackBytes log := by
  rw [callbackBytes, callbackTokens_append, callbackTokens_singleton,
    tokenBytes_append, silent, List.append_nil]
  rfl

theorem DataMoves.call {drain : Drain Byte}
    (fastPath : drain.fastPath → s.drain.fastPath)
    (calm : drain.midBuffer = false) (silent : tokenBytes cb.tokens = []) :
    DataMoves s (s.invoke cb drain) where
  closing := id
  fastPath := fastPath
  midBuffer := by
    intro inLoop
    cases calm.symm.trans inLoop
  bytes := .inl (callbackBytes_of_silent s.log silent)

theorem DataMoves.handOver {data : List Byte} {drain : Drain Byte}
    (fastPath : drain.fastPath → s.drain.fastPath)
    (midBuffer : drain.midBuffer → s.drain.midBuffer ∨ s.closing = false)
    (held : data ≠ [] → tokenBytes s.drain.inFlight ≠ [])
    (allowed : s.drain.fastPath ∨ s.drain.midBuffer ∨ s.closing = false) :
    DataMoves s (s.invoke (.data data) drain) where
  closing := id
  fastPath := fastPath
  midBuffer := midBuffer
  bytes := by
    by_cases empty : data = []
    · subst empty
      exact .inl (callbackBytes_of_silent s.log rfl)
    · exact .inr ⟨held empty, allowed⟩

variable {before after : Drain Byte}

theorem Hop.fastPath (hop : Hop s before after)
    (fast : after.fastPath) : before.fastPath := by
  cases hop <;> first | exact fast | cases fast

theorem Hop.midBuffer (hop : Hop s before after) : after.midBuffer = false := by
  cases hop <;> rfl

/-- Data goes to the protocol from the fast path, from inside the buffer loop, or
while the transport is not closing. -/
theorem dataMoves_call (pos : s.drain = before) (call : Call s cb before after) :
    DataMoves s (s.invoke cb after) := by
  have opened (heard : (s.closing || s.lostCalled) = false) :
      s.closing = false := (Bool.or_eq_false_iff.mp heard).1
  cases call with
  | @feed _ _ fast =>
    refine .handOver (by rw [pos]; exact id) nofun ?_
      (.inl (by rw [pos]; exact fast))
    intro nonempty empty
    rw [pos] at empty
    have parts := bytes_append_eq_nil.mp empty
    rw [tokenBytes_map_byte] at parts
    exact nonempty parts.2
  | receive joined heard =>
    refine .handOver (by rw [pos]; exact id) nofun ?_
      (.inr (.inr (opened heard)))
    intro nonempty empty
    rw [pos] at empty
    exact nonempty (bytes_of_pendingData joined (bytes_append_eq_nil.mp empty).1)
  | firstBuffer _ heard =>
    exact
      { closing := id
        fastPath := by rw [pos]; exact id
        midBuffer := fun _ => .inr (opened heard)
        bytes := .inl (callbackBytes_of_silent s.log rfl) }
  | nextBuffer left =>
    exact
      { closing := id
        fastPath := by rw [pos]; exact id
        midBuffer := fun _ => .inl (by rw [pos]; simpa [Drain.midBuffer] using left)
        bytes := .inl (callbackBytes_of_silent s.log rfl) }
  | fill =>
    have inLoop : s.drain.midBuffer := by rw [pos]; rfl
    refine .handOver (by rw [pos]; exact id) (fun _ => .inl inLoop) ?_ (.inr (.inl inLoop))
    intro nonempty empty
    rw [pos] at empty
    have parts := bytes_append_eq_nil.mp (bytes_append_eq_nil.mp empty).2
    rw [tokenBytes_map_byte] at parts
    rw [parts.1, List.take_nil] at nonempty
    exact nonempty rfl
  | eof | pause | resume => exact .call (by rw [pos]; exact id) rfl rfl

theorem dataMoves_stepDrain (moved : stepDrain cfg s reply = some next) :
    DataMoves s next := by
  cases drainStep_of_stepDrain moved with
  | hop pos hop => exact .pass id (by rw [pos]; exact hop.fastPath) hop.midBuffer rfl
  | call pos call => exact dataMoves_call pos call
  | fail pos fails failing | flowFail pos failing =>
    exact .pass id (by rw [pos]; cases failing <;> exact id) rfl rfl
  | popData pos _ goes =>
    rcases goes with rfl | rfl
    · exact .pass id (by rw [pos]; exact id) rfl rfl
    · exact .pass id (by rw [pos]; exact id) rfl rfl
  | report pos | swap pos | popEvent pos | relieve pos
  | storeReading pos | reschedule pos =>
    exact .pass id (by rw [pos]; exact id) rfl rfl
  | closeAfterEof => exact .pass (fun _ => rfl) nofun rfl rfl
  | lose =>
    exact
      { closing := fun _ => rfl
        fastPath := nofun
        midBuffer := nofun
        bytes := .inl (callbackBytes_of_silent s.log rfl) }
  -- The other steps leave the drain or finish it.
  | _ => exact .pass id nofun rfl rfl

/-! ## Closed transports -/

/-- A closing transport whose protocol is called for data only through the
check of the closing flag. -/
structure DeafCallbacks (s : ReadState Byte) : Prop where
  closing : s.closing
  slow : s.drain.fastPath = false
  calm : s.drain.midBuffer = false

/-- A closing transport with nothing on its way to the stream reader. -/
structure DeafReader (s : ReadState Byte) : Prop where
  closing : s.closing
  dry : s.undelivered = []
  notReading : s.reader ≠ .reading

theorem bytes_of_deafCallbacks (deaf : DeafCallbacks s)
    (moves : DataMoves s next) :
    DeafCallbacks next ∧ callbackBytes next.log = callbackBytes s.log := by
  refine ⟨⟨moves.closing deaf.closing, ?_, ?_⟩, ?_⟩
  · by_contra fast
    have before := moves.fastPath (by simpa using fast)
    cases deaf.slow.symm.trans before
  · by_contra inLoop
    rcases moves.midBuffer (by simpa using inLoop) with before | opened
    · cases deaf.calm.symm.trans before
    · cases deaf.closing.symm.trans opened
  · rcases moves.bytes with same | ⟨-, fast | inLoop | opened⟩
    · exact same
    · cases deaf.slow.symm.trans fast
    · cases deaf.calm.symm.trans inLoop
    · cases deaf.closing.symm.trans opened

/-- What happens outside of the drain calls nobody. -/
structure KeepsDrain (s next : ReadState Byte) : Prop where
  drain : next.drain = s.drain
  log : next.log = s.log
  closing : s.closing → next.closing

theorem keepsDrain_enqueue (event : PendingReadEvent Byte) (fromReader : Bool) :
    KeepsDrain s (s.enqueuePendingReadEvent event fromReader) := by
  unfold ReadState.enqueuePendingReadEvent
  split <;> exact ⟨rfl, rfl, id⟩

variable {action : ReadAction Byte}

theorem keepsDrain_readStep
    (noDrain : ∀ reply, action ≠ .drain reply) (noStart : action ≠ .startDrain)
    (moved : readStep cfg s action = some next) : KeepsDrain s next := by
  cases readMove_of_readStep moved with
  | enqueue event => exact keepsDrain_enqueue event false
  | producer moves =>
    rw [moves.keeps]
    exact ⟨rfl, rfl, id⟩
  | reader moved =>
    rcases stepReader_cases moved with same | ⟨event, fromReader, enqueued⟩
    · rw [same]
      exact ⟨rfl, rfl, id⟩
    · have keeps : KeepsDrain s _ := keepsDrain_enqueue event fromReader
      rw [enqueued]
      exact ⟨keeps.drain, keeps.log, keeps.closing⟩
  | startDrain => exact absurd rfl noStart
  | drain => exact absurd rfl (noDrain _)
  | close => exact ⟨rfl, rfl, fun _ => rfl⟩
  | _ => exact ⟨rfl, rfl, id⟩

/-- A drain of a callback protocol is not on the fast path. -/
theorem slow_readStep (callbacks : cfg.protocol ≠ .fastReader)
    (slow : s.drain.fastPath = false)
    (moved : readStep cfg s action = some next) :
    next.drain.fastPath = false := by
  have keeps := fun noDrain noStart => keepsDrain_readStep noDrain noStart moved
  cases readMove_of_readStep moved with
  | startDrain => simp [Drain.fastPath, callbacks]
  | drain drained =>
    by_contra fast
    have before := (dataMoves_stepDrain drained).fastPath (by simpa using fast)
    cases slow.symm.trans before
  | _ =>
    rwa [(keeps (by simp) (by simp)).drain]

theorem deafCallbacks_readStep (callbacks : cfg.protocol ≠ .fastReader)
    (deaf : DeafCallbacks s) (moved : readStep cfg s action = some next) :
    DeafCallbacks next ∧ callbackBytes next.log = callbackBytes s.log := by
  have keeps := fun noDrain noStart => keepsDrain_readStep noDrain noStart moved
  cases readMove_of_readStep moved with
  | startDrain => exact ⟨⟨deaf.closing, by simp [Drain.fastPath, callbacks], rfl⟩, rfl⟩
  | drain drained => exact bytes_of_deafCallbacks deaf (dataMoves_stepDrain drained)
  | _ =>
    have keeps := keeps (by simp) (by simp)
    refine ⟨⟨keeps.closing deaf.closing, ?_, ?_⟩, by rw [keeps.log]⟩
    · rw [keeps.drain]
      exact deaf.slow
    · rw [keeps.drain]
      exact deaf.calm

theorem DeafReader.enqueue (deaf : DeafReader s) {event : PendingReadEvent Byte}
    (empty : tokenBytes event.tokens = []) :
    DeafReader (s.enqueuePendingReadEvent event false) := by
  unfold ReadState.enqueuePendingReadEvent
  split
  · exact { deaf with }
  · refine { deaf with dry := ?_ }
    obtain ⟨held, drained, queued⟩ := undelivered_eq_nil.mp deaf.dry
    refine undelivered_eq_nil.mpr ⟨held, drained, ?_⟩
    rw [eventBytes_append, queued]
    exact eventBytes_cons_eq_nil.mpr ⟨empty, rfl⟩

theorem deafReader_stepReader (deaf : DeafReader s) {reply : ReaderReply Byte}
    (moved : stepReader s reply = some next) : DeafReader next := by
  unfold stepReader at moved
  split at moved
  · cases moved
    refine { deaf with notReading := ?_ }
    split <;> simp
  · cases (if_pos deaf.closing).symm.trans moved
    exact { deaf.enqueue rfl with notReading := by simp }
  next pos => exact absurd pos deaf.notReading
  · cases (if_pos deaf.closing).symm.trans moved
    exact { deaf with notReading := by simp }
  · cases moved
  · cases moved

theorem deafReader_readStep (reads : cfg.protocol = .fastReader)
    (deaf : DeafReader s) (clean : CleanCloses cfg s action)
    (moved : readStep cfg s action = some next) :
    DeafReader next ∧ callbackBytes next.log = callbackBytes s.log := by
  have keeps := fun noDrain noStart => keepsDrain_readStep noDrain noStart moved
  cases readMove_of_readStep moved with
  | enqueue event =>
    refine ⟨deaf.enqueue ?_, by rw [(keepsDrain_enqueue event false).log]⟩
    cases event with
    | data =>
      have opened := clean reads
      cases deaf.closing.symm.trans opened
    | _ => rfl
  | producer moves =>
    rw [moves.keeps]
    refine ⟨{ deaf with notReading := ?_ }, rfl⟩
    rcases moves.reader with same | ⟨acquires, -⟩
    · exact same ▸ deaf.notReading
    · rw [acquires]
      simp
  | reader read =>
    exact ⟨deafReader_stepReader deaf read, by rw [(keeps (by simp) (by simp)).log]⟩
  | startDrain =>
    exact ⟨{ deaf with dry := @dry_of_same _ s _ rfl rfl (fun _ => rfl) deaf.dry }, rfl⟩
  | drain drained =>
    have moves := dataMoves_stepDrain drained
    have reading := readingMoves_stepDrain drained
    refine ⟨⟨moves.closing deaf.closing, reading.dry deaf.dry, ?_⟩, ?_⟩
    · rw [reading.reader]
      exact deaf.notReading
    · rcases moves.bytes with same | ⟨held, -⟩
      · exact same
      · exact absurd (undelivered_eq_nil.mp deaf.dry).1 held
  | close => exact ⟨{ deaf with closing := rfl }, rfl⟩
  | _ => exact ⟨{ deaf with }, rfl⟩

/-! ## Whole runs -/

theorem slow_of_run {actions : List (ReadAction Byte)}
    (callbacks : cfg.protocol ≠ .fastReader)
    (reached : run (readStep cfg) (.new cfg) actions = some s) :
    s.drain.fastPath = false := by
  have always : Guarded (readStep cfg) (fun _ _ => True) (.new cfg)
      actions := guarded_of_forall fun _ _ _ => trivial
  refine invariant_of_run (fun s : ReadState Byte => s.drain.fastPath = false) ?_ rfl
    always reached
  intro before action after slow _ moved
  exact slow_readStep callbacks slow moved

/-- Once `close()` or `abort()` has returned, the protocol receives no data, if
the application closes where the read path looks at the flag again. -/
theorem callbackBytes_eq_of_cleanCloses
    (cfg : ReadConfig) (before after : List (ReadAction Byte))
    (closed last : ReadState Byte)
    (clean : Guarded (readStep cfg) (CleanCloses cfg) (.new cfg)
      (before ++ .close :: after))
    (reached : run (readStep cfg) (.new cfg) (before ++ [.close]) = some closed)
    (continued : run (readStep cfg) closed after = some last) :
    callbackBytes last.log = callbackBytes closed.log := by
  rw [run_append] at reached
  obtain ⟨s, earlier, closes⟩ := Option.bind_eq_some_iff.mp reached
  obtain ⟨_, moved, nothing⟩ := run_cons_eq_some.mp closes
  cases nothing
  obtain ⟨cleanClose, cleanAfter⟩ := clean.of_append earlier
  rw [moved] at cleanAfter
  have isClosed : closed = { s with closing := true } := by
    simp only [readStep] at moved
    split at moved
    · exact (Option.some.inj moved).symm
    · cases moved
  by_cases reads : cfg.protocol = .fastReader
  · simp only [CleanCloses, if_pos reads] at cleanClose
    have deaf : DeafReader closed := by
      rw [isClosed]
      exact ⟨rfl, cleanClose.1, cleanClose.2⟩
    have inv : DeafReader last ∧ callbackBytes last.log = callbackBytes closed.log := by
      refine invariant_of_run (fun now => DeafReader now ∧
        callbackBytes now.log = callbackBytes closed.log) ?_ ⟨deaf, rfl⟩
        cleanAfter continued
      rintro now action next ⟨deafNow, same⟩ cleanNow step
      obtain ⟨deafNext, sameNext⟩ := deafReader_readStep reads deafNow cleanNow step
      exact ⟨deafNext, sameNext.trans same⟩
    exact inv.2
  · simp only [CleanCloses, if_neg reads] at cleanClose
    have slow := slow_of_run reads earlier
    have deaf : DeafCallbacks closed := by
      rw [isClosed]
      exact ⟨rfl, slow, cleanClose⟩
    have inv : DeafCallbacks last ∧ callbackBytes last.log = callbackBytes closed.log := by
      refine invariant_of_run (fun now => DeafCallbacks now ∧
        callbackBytes now.log = callbackBytes closed.log) ?_ ⟨deaf, rfl⟩
        cleanAfter continued
      rintro now action next ⟨deafNow, same⟩ - step
      obtain ⟨deafNext, sameNext⟩ := deafCallbacks_readStep reads deafNow step
      exact ⟨deafNext, sameNext.trans same⟩
    exact inv.2

/-- A chunk is queued and announced, and a drain takes its first steps. -/
def chunkDrained (chunk : List UInt8) (steps : Nat) : List (ReadAction UInt8) :=
  List.flatten [[.enqueue (.data chunk)], List.replicate 3 (.producer 0), [.startDrain],
      List.replicate steps (.drain (.returned true))]

/-- `data_received` closes the transport with a second chunk queued. -/
theorem callbackBytes_eq_of_closeInCallback : ∃ closed last,
      run (readStep plainProtocol) (ReadState.new plainProtocol)
          ((chunkDrained [1] 7 ++ [.enqueue (.data [2])]) ++ [.close]) =
        some closed ∧
      run (readStep plainProtocol) closed
          (List.replicate 11 (.drain (.returned true))) = some last ∧
      closed.log = [.data [1]] ∧ last.popped.length = 2 ∧
      callbackBytes last.log = callbackBytes closed.log := by
  obtain ⟨closed, last, reached, continued, log, popped⟩ :=
    exists_runs_of_any (readStep plainProtocol) (ReadState.new plainProtocol)
      ((chunkDrained [1] 7 ++ [.enqueue (.data [2])]) ++ [.close])
      (List.replicate 11 (.drain (.returned true)))
      (fun closed last =>
        closed.log = [.data [1]] ∧ last.popped.length = 2) (by decide)
  refine ⟨closed, last, reached, continued, log, popped, ?_⟩
  exact callbackBytes_eq_of_cleanCloses plainProtocol
    (chunkDrained [1] 7 ++ [.enqueue (.data [2])])
    (List.replicate 11 (.drain (.returned true))) closed last (by decide)
    reached continued

/-- A stream reader is fed a chunk that was queued when the transport was
closed, and `buffer_updated` is called again after it closed the transport. -/
theorem data_received_after_close : (∃ closed last,
      run (readStep { plainProtocol with protocol := .fastReader })
          (ReadState.new { plainProtocol with protocol := .fastReader })
          ([.enqueue (.data [1]), .producer 0, .producer 0, .producer 0] ++
            [.close]) = some closed ∧
        run (readStep { plainProtocol with protocol := .fastReader }) closed
          (.startDrain :: List.replicate 4 (.drain (.returned true))) = some last ∧
        closed.log = [] ∧ last.log = [.data [(1 : UInt8)]]) ∧
    ∃ closed last, run (readStep { plainProtocol with protocol := .buffered })
          (ReadState.new { plainProtocol with protocol := .buffered })
          ((chunkDrained [1, 2] 7 ++ [.drain (.buffer 1)]) ++ [.close]) = some closed ∧
        run (readStep { plainProtocol with protocol := .buffered }) closed
          [.drain (.returned true), .drain (.buffer 1)] = some last ∧
        callbackBytes closed.log = [(1 : UInt8)] ∧
        callbackBytes last.log = [1, 2] := by
  constructor
  · exact exists_runs_of_any _ _ _ _ (fun closed last : ReadState UInt8 =>
        closed.log = [] ∧ last.log = [.data [1]]) (by decide)
  · exact exists_runs_of_any _ _ _ _ (fun closed last : ReadState UInt8 =>
        callbackBytes closed.log = [1] ∧ callbackBytes last.log = [1, 2])
      (by decide)

end Rsloop.Stream
