import Rsloop.Stream.ReadDelivery

/-!
# Data while reading is paused

`pause_reading()` stops the reader, not the drain: data that has been read and
not delivered still reaches the protocol. With nothing read ahead at the time of
the call, the protocol receives nothing until `resume_reading()`.
-/

namespace Rsloop.Stream

open Transition List

variable {Byte : Type}

/-- What has been read and not been handed to the protocol. -/
def ReadState.undelivered (s : ReadState Byte) : List Byte :=
  tokenBytes s.drain.inFlight ++ eventBytes s.readEventDrain ++
    eventBytes s.pendingReadEvents

/-- The reader has passed its gate: it reads, or it may read on behind a post
without another look at the gate. -/
def Reader.isPastGate : Reader → Bool
  | .reading | .posting | .next => true
  | .acquire | .gate | .finished => false

/-- Whenever the application pauses reading, nothing has been read ahead and the
reader, which posts nothing, has not passed its gate; nobody else posts data
while reading is paused. -/
def CleanPauses (s : ReadState Byte) : ReadAction Byte → Prop
  | .pauseReading =>
    s.undelivered = [] ∧ s.reader.isPastGate = false ∧
      ∀ tail ∈ s.tails, tail.fromReader = false
  | .enqueue (.data _) => s.readPaused = false
  | _ => True

instance [DecidableEq Byte] (s : ReadState Byte) :
    DecidablePred (CleanPauses s) := fun action =>
  match action with
  | .pauseReading =>
    inferInstanceAs (Decidable (s.undelivered = [] ∧ s.reader.isPastGate = false ∧
      ∀ tail ∈ s.tails, tail.fromReader = false))
  | .enqueue (.data _) => inferInstanceAs (Decidable (s.readPaused = false))
  | .enqueue .eof | .enqueue (.connectionLost _) | .enqueue .pauseWriting
  | .enqueue .resumeWriting | .producer _ | .reader _ | .startDrain | .drain _ | .resumeReading
  | .storeReading | .close => .isTrue trivial

/-! ## A dry read path -/

@[simp]
theorem tokenBytes_map_byte (data : List Byte) : tokenBytes (data.map .byte) = data := by
  induction data with
  | nil => rfl
  | cons value rest ih =>
    change value :: tokenBytes (rest.map .byte) = _
    rw [ih]

theorem undelivered_eq_nil {s : ReadState Byte} : s.undelivered = [] ↔
      tokenBytes s.drain.inFlight = [] ∧ eventBytes s.readEventDrain = [] ∧
        eventBytes s.pendingReadEvents = [] := by
  rw [ReadState.undelivered, append_eq_nil_iff, append_eq_nil_iff, and_assoc]

theorem dry_of_same {s next : ReadState Byte}
    (drained : next.readEventDrain = s.readEventDrain)
    (queued : next.pendingReadEvents = s.pendingReadEvents)
    (held :
      tokenBytes s.drain.inFlight = [] → tokenBytes next.drain.inFlight = [])
    (dry : s.undelivered = []) : next.undelivered = [] := by
  obtain ⟨holds, noneDrained, noneQueued⟩ := undelivered_eq_nil.mp dry
  rw [undelivered_eq_nil, drained, queued]
  exact ⟨held holds, noneDrained, noneQueued⟩

/-- The drain is about to let the reader read. -/
def Drain.allowsReading : Drain Byte → Bool
  | .storeReading _ _ value => value
  | _ => false

/-- What a step of the drain does to reading. -/
structure ReadingMoves (s next : ReadState Byte) : Prop where
  readPaused : next.readPaused = s.readPaused
  resuming : next.resuming = s.resuming
  reader : next.reader = s.reader
  tails : next.tails = s.tails
  received : s.readPaused = false ∨ s.undelivered = [] →
    next.receivedPaused = s.receivedPaused
  dry : s.undelivered = [] → next.undelivered = []
  reading : s.readPaused → s.drain.allowsReading = false →
    next.drain.allowsReading = false ∧ (next.reading → s.reading)

variable {event : PendingReadEvent Byte} {cfg : ReadConfig} {s next : ReadState Byte}
  {reply : CallbackReply}

theorem ReadingMoves.pass (readPaused : next.readPaused = s.readPaused)
    (resuming : next.resuming = s.resuming) (reader : next.reader = s.reader)
    (tails : next.tails = s.tails)
    (received : next.receivedPaused = s.receivedPaused)
    (dry : s.undelivered = [] → next.undelivered = [])
    (silent : next.drain.allowsReading = false)
    (reading : next.reading = s.reading) : ReadingMoves s next where
  readPaused := readPaused
  resuming := resuming
  reader := reader
  tails := tails
  received := fun _ => received
  dry := dry
  reading := fun _ _ => ⟨silent, fun allowed => reading.symm.trans allowed⟩

theorem ReadingMoves.move (drain : Drain Byte)
    (silent : drain.allowsReading = false)
    (held : tokenBytes s.drain.inFlight = [] → tokenBytes drain.inFlight = []) :
    ReadingMoves s { s with drain := drain } :=
  .pass rfl rfl rfl rfl rfl (dry_of_same rfl rfl held) silent rfl

theorem ReadingMoves.call (cb : ReadCallback Byte) (drain : Drain Byte)
    (silent : drain.allowsReading = false)
    (held : tokenBytes s.drain.inFlight = [] →
      tokenBytes cb.tokens = [] ∧ tokenBytes drain.inFlight = []) :
    ReadingMoves s (s.invoke cb drain) where
  readPaused := rfl
  resuming := rfl
  reader := rfl
  tails := rfl
  received := by
    intro quiet
    cases cb with
    | data =>
      simp only [ReadState.invoke]
      rcases quiet with unpaused | dry
      · rw [if_neg (by simp [unpaused])]
      · have empty := (held (undelivered_eq_nil.mp dry).1).1
        rw [ReadCallback.tokens, tokenBytes_map_byte] at empty
        rw [empty, append_nil, ite_self]
    | _ => rfl
  dry := dry_of_same rfl rfl fun holds => (held holds).2
  reading := fun _ _ => ⟨silent, id⟩

variable {rest : List (PendingReadEvent Byte)}

theorem eventBytes_cons_eq_nil
    :
    eventBytes (event :: rest) = [] ↔ tokenBytes event.tokens = [] ∧ eventBytes rest = [] := by
  rw [eventBytes, eventTokens_cons, tokenBytes_append]
  exact append_eq_nil_iff

theorem bytes_append_eq_nil {earlier later : List (ReadToken Byte)} :
    tokenBytes (earlier ++ later) = [] ↔ tokenBytes earlier = [] ∧ tokenBytes later = [] := by
  rw [tokenBytes_append]
  exact append_eq_nil_iff

variable {d : DrainLocals Byte}

theorem bytes_of_pendingData {data : List Byte}
    (joined : d.pendingData = some data)
    (empty : tokenBytes d.tokens = []) : data = [] := by
  rwa [tokens_of_some joined, tokenBytes_map_byte] at empty

theorem bytes_of_map_byte {data : List Byte}
    (empty : tokenBytes (data.map ReadToken.byte) = []) : data = [] :=
  (tokenBytes_map_byte data).symm.trans empty

variable {before after : Drain Byte}

/-- A hop brings no bytes into the hand of the drain. -/
theorem Hop.dry (hop : Hop s before after)
    (holds : tokenBytes before.inFlight = []) : tokenBytes after.inFlight = [] := by
  cases hop with
  | emptied => exact bytes_append_eq_nil.mpr ⟨holds, rfl⟩
  | joinFirst =>
    rw [bytes_of_map_byte (bytes_append_eq_nil.mp holds).2]
    rfl
  | joinMore _ joined =>
    obtain ⟨empty, none⟩ := bytes_append_eq_nil.mp holds
    rw [bytes_of_map_byte none, bytes_of_pendingData joined empty]
    rfl
  | dropped joined | startBuffer => exact (bytes_append_eq_nil.mp holds).2
  | filled =>
    obtain ⟨joined, later⟩ := bytes_append_eq_nil.mp holds
    exact bytes_append_eq_nil.mpr ⟨joined, later⟩
  | nextBatch => exact (bytes_append_eq_nil.mp holds).1
  | _ => first | exact holds | rfl

theorem Call.dry {cb : ReadCallback Byte} (call : Call s cb before after)
    (holds : tokenBytes before.inFlight = []) :
    tokenBytes cb.tokens = [] ∧ tokenBytes after.inFlight = [] := by
  cases call with
  | feed =>
    obtain ⟨joined, empty⟩ := bytes_append_eq_nil.mp holds
    exact ⟨empty, joined⟩
  | receive joined | firstBuffer joined =>
    obtain ⟨empty, later⟩ := bytes_append_eq_nil.mp holds
    rw [bytes_of_pendingData joined empty]
    exact ⟨rfl, later⟩
  | nextBuffer => exact ⟨rfl, holds⟩
  | fill =>
    obtain ⟨joined, others⟩ := bytes_append_eq_nil.mp holds
    obtain ⟨empty, later⟩ := bytes_append_eq_nil.mp others
    rw [bytes_of_map_byte empty, take_nil, drop_nil]
    exact ⟨rfl, bytes_append_eq_nil.mpr ⟨joined, later⟩⟩
  | eof | pause | resume => exact ⟨rfl, (bytes_append_eq_nil.mp holds).1⟩

theorem dry_pop (drained : s.readEventDrain = event :: rest)
    (sameRest : next.readEventDrain = rest)
    (queued : next.pendingReadEvents = s.pendingReadEvents)
    (held : tokenBytes s.drain.inFlight = [] → tokenBytes event.tokens = [] →
      tokenBytes next.drain.inFlight = [])
    (dry : s.undelivered = []) : next.undelivered = [] := by
  obtain ⟨holds, nothing, waiting⟩ := undelivered_eq_nil.mp dry
  rw [drained] at nothing
  obtain ⟨empty, later⟩ := eventBytes_cons_eq_nil.mp nothing
  rw [undelivered_eq_nil, sameRest, queued]
  exact ⟨held holds empty, later, waiting⟩

theorem Fails.dry {failure : ProtocolFailure} (failing : Fails failure before d)
    (holds : tokenBytes before.inFlight = []) : tokenBytes d.tokens = [] := by
  cases failing with
  | feeding | eofRunning => exact holds
  | _ => exact (bytes_append_eq_nil.mp holds).1

theorem readingMoves_stepDrain (moved : stepDrain cfg s reply = some next) :
    ReadingMoves s next := by
  cases drainStep_of_stepDrain moved with
  | hop pos hop =>
    refine .move _ (by cases hop <;> rfl) ?_
    rw [pos]
    exact hop.dry
  | call pos call =>
    refine .call _ _ (by cases call <;> rfl) ?_
    rw [pos]
    exact call.dry
  | fail pos _ failing =>
    refine .pass rfl rfl rfl rfl rfl (dry_of_same rfl rfl ?_) rfl rfl
    rw [pos]
    exact failing.dry
  | flowFail pos failing =>
    refine .pass rfl rfl rfl rfl rfl (dry_of_same rfl rfl ?_) rfl rfl
    rw [pos]
    intro holds
    cases failing with
    | pauseGone | resumeGone => exact (bytes_append_eq_nil.mp holds).1
    | _ => exact holds
  | report pos =>
    exact .pass rfl rfl rfl rfl rfl (dry_of_same rfl rfl (by rw [pos]; exact id)) rfl rfl
  | swap pos =>
    refine .pass rfl rfl rfl rfl rfl ?_ rfl rfl
    intro dry
    obtain ⟨holds, drained, queued⟩ := undelivered_eq_nil.mp dry
    rw [pos] at holds
    exact undelivered_eq_nil.mpr ⟨holds, queued, drained⟩
  | popData pos drained goes =>
    refine .pass rfl rfl rfl rfl rfl (dry_pop drained rfl rfl ?_)
      (by rcases goes with rfl | rfl <;> rfl) rfl
    rw [pos]
    intro holds empty
    rcases goes with rfl | rfl <;> exact bytes_append_eq_nil.mpr ⟨holds, empty⟩
  | popEvent pos drained behind =>
    refine .pass rfl rfl rfl rfl rfl (dry_pop drained rfl rfl ?_) rfl rfl
    rw [pos]
    intro holds _
    exact bytes_append_eq_nil.mpr ⟨holds, by cases behind <;> rfl⟩
  | relieve pos =>
    exact
      { readPaused := rfl
        resuming := rfl
        reader := rfl
        tails := rfl
        received := fun _ => rfl
        dry := dry_of_same rfl rfl (by rw [pos]; exact id)
        reading := by
          intro paused _
          refine ⟨?_, id⟩
          rw [paused]
          rfl }
  | @storeReading _ _ value pos =>
    exact
      { readPaused := rfl
        resuming := rfl
        reader := rfl
        tails := rfl
        received := fun _ => rfl
        dry := dry_of_same rfl rfl (by rw [pos]; exact id)
        reading := by
          intro _ refused
          rw [pos] at refused
          refine ⟨rfl, ?_⟩
          intro allowed
          rw [show value from allowed] at refused
          cases refused }
  | reschedule pos =>
    refine .pass rfl rfl rfl rfl rfl ?_ rfl rfl
    intro dry
    obtain ⟨holds, drained, queued⟩ := undelivered_eq_nil.mp dry
    rw [pos] at holds
    refine undelivered_eq_nil.mpr ⟨bytes_append_eq_nil.mpr ⟨holds, rfl⟩, rfl, ?_⟩
    rw [eventBytes, eventTokens_append]
    exact bytes_append_eq_nil.mpr ⟨drained, queued⟩
  -- The drain has nothing in its hand any more.
  | _ => exact .pass rfl rfl rfl rfl rfl (dry_of_same rfl rfl fun _ => rfl) rfl rfl

/-! ## Runs -/

/-- While reading is paused nothing waits, and nobody can bring more. -/
structure QuietWhilePaused (s : ReadState Byte) : Prop where
  nothing : s.receivedPaused = []
  dry : s.readPaused → s.undelivered = []
  stopped : s.readPaused → s.reading = false
  atGate : s.readPaused → s.reader.isPastGate = false
  unposted : s.readPaused → ∀ tail ∈ s.tails, tail.fromReader = false
  refused : s.readPaused → s.drain.allowsReading = false
  resumed : s.resuming ≠ none → s.readPaused = false

theorem quietWhilePaused_new (cfg : ReadConfig) :
    QuietWhilePaused (ReadState.new cfg : ReadState Byte) where
  nothing := rfl
  dry := nofun
  stopped := nofun
  atGate := nofun
  unposted := nofun
  refused := nofun
  resumed := fun _ => rfl

section

variable (inv : QuietWhilePaused s)

include inv

theorem QuietWhilePaused.enqueue
    (empty : s.readPaused → tokenBytes event.tokens = []) :
    QuietWhilePaused (s.enqueuePendingReadEvent event false) := by
  unfold ReadState.enqueuePendingReadEvent
  split
  · exact { inv with }
  · refine { inv with dry := ?_, unposted := ?_ }
    · intro paused
      obtain ⟨held, drained, queued⟩ := undelivered_eq_nil.mp (inv.dry paused)
      refine undelivered_eq_nil.mpr ⟨held, drained, ?_⟩
      have last : eventBytes [event] = [] := eventBytes_cons_eq_nil.mpr ⟨empty paused, rfl⟩
      rw [eventBytes, eventTokens_append]
      exact bytes_append_eq_nil.mpr ⟨queued, last⟩
    · intro paused tail mem
      rcases mem_append.mp mem with old | new
      · exact inv.unposted paused tail old
      · rw [mem_singleton.mp new]

theorem QuietWhilePaused.readerAt {reader : Reader}
    (atGate : s.readPaused → reader.isPastGate = false) :
    QuietWhilePaused { s with reader := reader } :=
  { inv with atGate := atGate }

/-- Behind its gate the reader does not meet a pause. -/
theorem QuietWhilePaused.unpaused (past : s.reader.isPastGate) :
    s.readPaused = false := by
  cases paused : s.readPaused with
  | false => rfl
  | true => cases past.symm.trans (inv.atGate paused)

theorem quietWhilePaused_stepReader {reply : ReaderReply Byte}
    (moved : stepReader s reply = some next) : QuietWhilePaused next := by
  have past (reader : Reader) (pos : s.reader.isPastGate) :
      QuietWhilePaused { s with reader := reader } :=
    inv.readerAt fun paused => by cases (inv.unpaused pos).symm.trans paused
  unfold stepReader at moved
  split at moved
  · cases moved
    refine inv.readerAt fun _ => ?_
    split <;> rfl
  · split at moved
    · cases moved
      exact (inv.enqueue (fun _ => rfl)).readerAt fun _ => rfl
    · split_ifs at moved with reading
      cases moved
      refine inv.readerAt fun paused => ?_
      cases (inv.stopped paused).symm.trans reading
  next pos =>
    have unpaused := inv.unpaused (by rw [pos]; rfl)
    have free : ∀ (event : PendingReadEvent Byte) (fromReader : Bool),
        QuietWhilePaused (s.enqueuePendingReadEvent event fromReader) := by
      intro event fromReader
      unfold ReadState.enqueuePendingReadEvent
      split
      · exact past _ (by rw [pos]; rfl)
      · exact
          { inv with
            dry := fun paused => by cases unpaused.symm.trans paused
            atGate := fun paused => by cases unpaused.symm.trans paused
            unposted := fun paused => by cases unpaused.symm.trans paused }
    split at moved
    · split_ifs at moved
      cases moved
      exact free _ true
    · cases moved
      exact (free _ false).readerAt fun _ => rfl
    · cases moved
      exact past _ (by rw [pos]; rfl)
    · cases moved
      exact (free _ false).readerAt fun _ => rfl
  next pos =>
    repeat' split at moved
    all_goals
      cases moved
      exact past _ (by rw [pos]; rfl)
  · cases moved
  · cases moved

theorem quietWhilePaused_stepDrain
    (moved : stepDrain cfg s reply = some next) : QuietWhilePaused next := by
  have moves := readingMoves_stepDrain moved
  have before : next.readPaused → s.readPaused :=
    fun paused => moves.readPaused.symm.trans paused
  have reading : ∀ paused : next.readPaused, next.drain.allowsReading = false ∧
        (next.reading → s.reading) := fun paused =>
    moves.reading (before paused) (inv.refused (before paused))
  refine
    { nothing := ?_
      dry := fun paused => moves.dry (inv.dry (before paused))
      stopped := ?_
      atGate := ?_
      unposted := ?_
      refused := fun paused => (reading paused).1
      resumed := ?_ }
  · rw [← inv.nothing]
    apply moves.received
    by_cases paused : s.readPaused
    · exact .inr (inv.dry paused)
    · exact .inl (by simpa using paused)
  · intro paused
    have stopped := inv.stopped (before paused)
    by_contra allowed
    cases ((reading paused).2 (by simpa using allowed)).symm.trans stopped
  · intro paused
    rw [moves.reader]
    exact inv.atGate (before paused)
  · intro paused
    rw [moves.tails]
    exact inv.unposted (before paused)
  · rw [moves.resuming, moves.readPaused]
    exact inv.resumed

theorem quietWhilePaused_readStep {action : ReadAction Byte}
    (clean : CleanPauses s action)
    (moved : readStep cfg s action = some next) : QuietWhilePaused next := by
  cases readMove_of_readStep moved with
  | enqueue event =>
    refine inv.enqueue fun paused => ?_
    cases event with
    | data => cases paused.symm.trans clean
    | _ => rfl
  | producer moves =>
    rw [moves.keeps]
    refine { inv with stopped := ?_, atGate := ?_, unposted := ?_ }
    · intro paused
      have stopped := inv.stopped paused
      by_contra allowed
      cases (moves.reading (by simpa using allowed)).symm.trans stopped
    · intro paused
      rcases moves.reader with same | ⟨-, tail, mem, own⟩
      · rw [same]
        exact inv.atGate paused
      · cases own.symm.trans (inv.unposted paused tail mem)
    · intro paused tail mem
      obtain ⟨before, old, same⟩ := moves.posted tail mem
      exact same.symm.trans (inv.unposted paused before old)
  | reader read => exact quietWhilePaused_stepReader inv read
  | startDrain =>
    exact
      { inv with
        dry := fun paused =>
          @dry_of_same _ s _ rfl rfl (fun _ => rfl) (inv.dry paused)
        refused := fun _ => rfl }
  | drain drained => exact quietWhilePaused_stepDrain inv drained
  | pauseReading runs calm =>
    obtain ⟨dry, atGate, unposted⟩ := clean
    have refused : s.drain.allowsReading = false := by
      cases pos : s.drain with
      | storeReading =>
        rw [pos] at runs
        cases runs
      | _ => rfl
    exact
      { nothing := inv.nothing
        dry := fun _ => dry
        stopped := fun _ => rfl
        atGate := fun _ => atGate
        unposted := fun _ => unposted
        refused := fun _ => refused
        resumed := fun resuming => absurd calm resuming }
  | resumeReading =>
    exact
      { nothing := inv.nothing
        dry := nofun
        stopped := nofun
        atGate := nofun
        unposted := nofun
        refused := nofun
        resumed := fun _ => rfl }
  | storeReading resuming =>
    have unpaused := inv.resumed (by rw [resuming]; simp)
    exact
      { inv with
        stopped := fun paused => by
          cases unpaused.symm.trans paused
        resumed := fun pending => absurd rfl pending }
  | close => exact { inv with }

end

/-- If nothing has been read ahead and the reader is at its gate whenever the
application pauses reading, the protocol receives no data while reading is
paused. -/
theorem receivedPaused_eq_nil_of_cleanPauses
    (cfg : ReadConfig) {actions : List (ReadAction Byte)}
    {s : ReadState Byte}
    (clean : Guarded (readStep cfg) CleanPauses (ReadState.new cfg) actions)
    (reached : run (readStep cfg) (ReadState.new cfg) actions = some s) :
    s.receivedPaused = [] := by
  have inv : QuietWhilePaused s := by
    refine invariant_of_run QuietWhilePaused ?_ (quietWhilePaused_new cfg) clean reached
    intro before action after inv clean moved
    exact quietWhilePaused_readStep inv clean moved
  exact inv.nothing

/-- The reader posts a chunk, the drain delivers it, and the application pauses
and resumes around a second one. -/
def pausedBetweenChunks : List (ReadAction UInt8) :=
  List.flatten [[.reader .wouldBlock, .reader .wouldBlock, .reader (.data [1])],
      List.replicate 3 (.producer 0), [.startDrain],
      List.replicate 10 (.drain (.returned true)),
      [.reader .wouldBlock, .pauseReading, .resumeReading, .storeReading,
        .reader .wouldBlock, .reader (.data [2])],
      List.replicate 3 (.producer 0), [.startDrain],
      List.replicate 10 (.drain (.returned true))]

theorem receivedPaused_eq_nil_of_pausedBetweenChunks : ∃ s,
      run (readStep plainProtocol) (ReadState.new plainProtocol)
          pausedBetweenChunks = some s ∧
        s.log = [.data [1], .data [2]] ∧ s.receivedPaused = [] := by
  refine exists_run_imp (fun s => s.log = [.data [1], .data [2]]) (by decide) ?_
  rintro s reached log
  exact ⟨log, receivedPaused_eq_nil_of_cleanPauses plainProtocol (by decide) reached⟩

/-- The reader posts a second chunk while `data_received` runs with the first
one, and `data_received` pauses reading. -/
def pausedWithChunkQueued : List (ReadAction UInt8) :=
  List.flatten [[.reader .wouldBlock, .reader .wouldBlock, .reader (.data [1])],
      List.replicate 3 (.producer 0), [.startDrain],
      List.replicate 7 (.drain (.returned true)),
      [.reader .wouldBlock, .reader .wouldBlock, .reader (.data [2]), .pauseReading],
      List.replicate 9 (.drain (.returned true))]

/-- The application pauses with everything delivered, but the reader, which has
not been at its gate since the first chunk, reads a second one. -/
def pausedPastGate : List (ReadAction UInt8) :=
  List.flatten [[.reader .wouldBlock, .reader .wouldBlock, .reader (.data [1])],
      List.replicate 3 (.producer 0), [.startDrain],
      List.replicate 10 (.drain (.returned true)),
      [.pauseReading, .reader .eof, .reader (.data [2])],
      List.replicate 3 (.producer 0), [.startDrain],
      List.replicate 9 (.drain (.returned true))]

/-- Reading is paused, and the protocol has got the second chunk all the same. -/
def ReceivesPaused (actions : List (ReadAction UInt8)) : Prop :=
  ∃ s, run (readStep plainProtocol) (ReadState.new plainProtocol) actions = some s ∧
    s.readPaused ∧ s.log = [.data [1], .data [2]] ∧ s.receivedPaused = [2]

theorem data_received_while_paused :
    ReceivesPaused pausedWithChunkQueued ∧ ReceivesPaused pausedPastGate := by
  constructor <;> exact exists_run_of_any (readStep plainProtocol) (ReadState.new plainProtocol) _
    (fun s => s.readPaused ∧ s.log = [.data [1], .data [2]] ∧ s.receivedPaused = [2]) (by decide)

end Rsloop.Stream
