import Rsloop.Stream.ReadEvents

/-!
# What a step of the read path can do

The branches of the drain, once and for all: the moves that only change the
position, the calls of the protocol, its failures, and the few steps that touch
the lists of events or the flags. Facts about the drain are proved by going
through these.
-/

namespace Rsloop.Stream

variable {Byte : Type}

def ProtocolFailure.fatal : ProtocolFailure → Bool
  | .dataReceived | .eofReceived => true
  | .pauseWriting | .resumeWriting => false

def CallbackReply.fails : CallbackReply → Bool
  | .raised | .buffer 0 => true
  | _ => false

def AfterFlush.escapes : AfterFlush Byte → Bool
  | .returnRescheduled => true
  | _ => false

/-! ## The branches -/

/-- Moves of the drain that change nothing but its position -/
inductive Hop (s : ReadState Byte) : Drain Byte → Drain Byte → Prop
  | emptied {d} (empty : s.readEventDrain = []) :
      Hop s (.pop d) (.flush d .nextBatch)
  | unrelieved {d data} : Hop s (.relieve d data) (.join d data)
  | joinFirst {d data} (slow : d.fastPath = false)
      (joined : d.pendingData = none) :
      Hop s (.join d data) (.budget { d with pendingData := some data })
  | joinMore {d data buf} (slow : d.fastPath = false)
      (joined : d.pendingData = some buf) :
      Hop s (.join d data) (.budget { d with pendingData := some (buf ++ data) })
  | joinFull {d data} (slow : d.fastPath = false) :
      Hop s (.join d data) (.flush d (.startBuffer data))
  | fed {d} : Hop s (.feeding d) (.budget d)
  | withinBudget {d} : Hop s (.budget d) (.pop d)
  | nothingJoined {d after} (joined : d.pendingData = none) :
      Hop s (.flush d after) (.flushed d after)
  | dropped {d after data} (joined : d.pendingData = some data)
      (unheard : (s.closing || s.lostCalled) ∨
        s.callbacksCleared ∨ data = []) :
      Hop s (.flush d after) (.flushed { d with pendingData := none } after)
  | received {d after} : Hop s (.receiving d after) (.flushed d after)
  | filled {d after} : Hop s (.updating d [] after) (.flushed d after)
  | nextBatch {d} : Hop s (.flushed d .nextBatch) (.check d)
  | startBuffer {d data} : Hop s (.flushed d (.startBuffer data))
        (.budget { d with pendingData := some data })
  | eofIgnored {d} : Hop s (.flushed d .deliverEof) .closeAfterEof
  | lostNext {d message} : Hop s (.flushed d (.deliverLost message)) (.lose message)
  | eofKept {d} : Hop s (.eofRunning d) (.pop d)
  | eofTaken {d} : Hop s (.eofRunning d) .closeAfterEof
  | paused {d} : Hop s (.pauseRunning d) (.pop d)
  | resumed {d} : Hop s (.resumeRunning d) (.pop d)
  | handledFatal {d failure} (fatal : failure.fatal) :
      Hop s (.handling d failure) (.lose none)
  | handledFlow {d failure} (mild : failure.fatal = false) :
      Hop s (.handling d failure) (.pop d)
  | alreadyLost {message} (called : s.lostCalled) : Hop s (.lose message) .finish
  | released : Hop s .losing .release

/-- Calls of the protocol, `connection_lost` apart. -/
inductive Call (s : ReadState Byte) : ReadCallback Byte → Drain Byte → Drain Byte → Prop
  | feed {d data} (fast : d.fastPath) :
      Call s (.data data) (.join d data) (.feeding d)
  | receive {d after data} (joined : d.pendingData = some data)
      (opened : (s.closing || s.lostCalled) = false) :
      Call s (.data data) (.flush d after)
        (.receiving { d with pendingData := none } after)
  | firstBuffer {d after data} (joined : d.pendingData = some data)
      (opened : (s.closing || s.lostCalled) = false) :
      Call s (.getBuffer data.length) (.flush d after)
        (.gettingBuffer { d with pendingData := none } data after)
  | nextBuffer {d rest after} (left : rest ≠ []) :
      Call s (.getBuffer rest.length) (.updating d rest after)
        (.gettingBuffer d rest after)
  | fill {d rest after} (size : Nat) :
      Call s (.data (rest.take size)) (.gettingBuffer d rest after)
        (.updating d (rest.drop size) after)
  | eof {d} (present : s.callbacksCleared = false) :
      Call s .eofReceived (.flushed d .deliverEof) (.eofRunning d)
  | pause {d} (present : s.callbacksCleared = false) :
      Call s .pauseWriting (.flushed d .deliverPause) (.pauseRunning d)
  | resume {d} (present : s.callbacksCleared = false) :
      Call s .resumeWriting (.flushed d .deliverResume) (.resumeRunning d)

/-- Data and EOF callbacks whose failure is reported. -/
inductive Fails : ProtocolFailure → Drain Byte → DrainLocals Byte → Prop
  | feeding {d} : Fails .dataReceived (.feeding d) d
  | receiving {d after} (kept : after.escapes = false) :
      Fails .dataReceived (.receiving d after) d
  | gettingBuffer {d rest after} (kept : after.escapes = false) :
      Fails .dataReceived (.gettingBuffer d rest after) d
  | updating {d rest after} (kept : after.escapes = false) :
      Fails .dataReceived (.updating d rest after) d
  | eofRunning {d} : Fails .eofReceived (.eofRunning d) d

/-- Data callbacks whose failure leaves the drain. -/
inductive Escapes : Drain Byte → Prop
  | receiving {d} : Escapes (.receiving d .returnRescheduled)
  | gettingBuffer {d rest} : Escapes (.gettingBuffer d rest .returnRescheduled)
  | updating {d rest} : Escapes (.updating d rest .returnRescheduled)

/-- Flow-control methods that fail or are gone. -/
inductive FlowFails (s : ReadState Byte) (reply : CallbackReply) :
    ProtocolFailure → Drain Byte → DrainLocals Byte → Prop
  | pauseRunning {d} (raised : reply = .raised) :
      FlowFails s reply .pauseWriting (.pauseRunning d) d
  | resumeRunning {d} (raised : reply = .raised) :
      FlowFails s reply .resumeWriting (.resumeRunning d) d
  | pauseGone {d} (cleared : s.callbacksCleared) :
      FlowFails s reply .pauseWriting (.flushed d .deliverPause) d
  | resumeGone {d} (cleared : s.callbacksCleared) :
      FlowFails s reply .resumeWriting (.flushed d .deliverResume) d

/-- What is delivered for an event that is not data. -/
inductive Behind : PendingReadEvent Byte → AfterFlush Byte → Prop
  | eof : Behind .eof .deliverEof
  | lost {message} : Behind (.connectionLost message) (.deliverLost message)
  | pause : Behind .pauseWriting .deliverPause
  | resume : Behind .resumeWriting .deliverResume

def DrainLocals.count (d : DrainLocals Byte) (bytes : List Byte) : DrainLocals Byte :=
  { d with
    drainedEvents := d.drainedEvents + 1
    drainedBytes := d.drainedBytes + bytes.length }

/-- What a step of the drain can do -/
inductive DrainStep (s : ReadState Byte) (reply : CallbackReply) : ReadState Byte → Prop
  | hop {before after} (position : s.drain = before) (hop : Hop s before after) :
      DrainStep s reply { s with drain := after }
  | call {cb before after} (position : s.drain = before)
      (call : Call s cb before after) :
      DrainStep s reply (s.invoke cb after)
  | fail {failure before d} (position : s.drain = before)
      (fails : reply.fails) (failing : Fails failure before d) :
      DrainStep s reply (s.failed failure (.report d failure))
  | escape {before} (position : s.drain = before)
      (fails : reply.fails) (escapes : Escapes before) :
      DrainStep s reply ((s.failed .dataReceived .idle).returned false)
  | flowFail {failure before d} (position : s.drain = before)
      (failing : FlowFails s reply failure before d) :
      DrainStep s reply { s with
        failures := s.failures ++ [failure]
        drain := .report d failure }
  | report {d failure} (position : s.drain = .report d failure) :
      DrainStep s reply { s with
        reports := s.reports ++ [failure]
        drain := .handling d failure }
  | quit {d failure} (position : s.drain = .handling d failure)
      (fails : reply.fails) (mild : failure.fatal = false) :
      DrainStep s reply (s.returned false)
  | rescheduled {d} (position : s.drain = .flushed d .returnRescheduled) :
      DrainStep s reply (s.returned true)
  | done {d} (position : s.drain = .check d)
      (empty : s.pendingReadEvents = []) :
      DrainStep s reply ({ s with readEventsScheduled := false }.returned true)
  | swap {d} (position : s.drain = .check d) : DrainStep s reply { s with
        pendingReadEvents := s.readEventDrain
        readEventDrain := s.pendingReadEvents
        drain := .pop d }
  | popData {d bytes rest after} (position : s.drain = .pop d)
      (drained : s.readEventDrain = .data bytes :: rest)
      (goes : after = .join (d.count bytes) bytes ∨
        after = .relieve (d.count bytes) bytes) :
      DrainStep s reply { s with
        readEventDrain := rest
        popped := s.popped ++ [.data bytes]
        pendingReadBytes := s.pendingReadBytes - bytes.length
        drain := after }
  | popEvent {d event rest after} (position : s.drain = .pop d)
      (drained : s.readEventDrain = event :: rest) (behind : Behind event after) :
      DrainStep s reply { s with
        readEventDrain := rest
        popped := s.popped ++ [event]
        drain := .flush d after }
  | relieve {d data} (position : s.drain = .relieve d data)
      (held : s.readBackpressured) :
      DrainStep s reply { s with
        readBackpressured := false
        stateReading := !s.readPaused && !s.closing
        drain := .storeReading d data (!s.readPaused && !s.closing) }
  | storeReading {d data value} (position : s.drain = .storeReading d data value) :
      DrainStep s reply { s with reading := value, drain := .join d data }
  | reschedule {d} (position : s.drain = .budget d) :
      DrainStep s reply { s with
        pendingReadEvents := s.readEventDrain ++ s.pendingReadEvents
        readEventDrain := []
        streamReadCommands := s.streamReadCommands + 1
        drain := .flush d .returnRescheduled }
  | closeAfterEof (position : s.drain = .closeAfterEof) :
      DrainStep s reply { s with closing := true, drain := .lose none }
  | lose {message} (position : s.drain = .lose message)
      (notCalled : s.lostCalled = false) :
      DrainStep s reply ({ s with lostCalled := true, closing := true }.invoke
        (.connectionLost message) .losing)
  | release (position : s.drain = .release) :
      DrainStep s reply { s with callbacksCleared := true, drain := .finish }
  | finish (position : s.drain = .finish) :
      DrainStep s reply ({ s with readEventsScheduled := false }.returned true)

/-! ## Every step is one of them -/

section Inversion

variable {cfg : ReadConfig} {s next : ReadState Byte} {reply : CallbackReply}
  {d : DrainLocals Byte} {after : AfterFlush Byte}

theorem fails_of_raised (raised : reply = .raised) : reply.fails := by
  rw [raised]
  rfl

theorem of_ended (property : ReadState Byte → Prop)
    {succeeded failed : ReadState Byte}
    (success : property succeeded) (failure : reply = .raised → property failed)
    (moved : ended reply succeeded failed = some next) : property next := by
  cases reply with
  | returned =>
    cases moved
    exact success
  | raised =>
    cases moved
    exact failure rfl
  | buffer => cases moved

theorem drainStep_stepPop (pos : s.drain = .pop d) :
    DrainStep s reply (stepPop s d) := by
  unfold stepPop
  split
  next drained => exact .hop pos (.emptied drained)
  next event rest drained =>
    cases event with
    | data =>
      refine .popData pos drained ?_
      split
      · exact .inl rfl
      · exact .inr rfl
    | eof => exact .popEvent pos drained .eof
    | connectionLost => exact .popEvent pos drained .lost
    | pauseWriting => exact .popEvent pos drained .pause
    | resumeWriting => exact .popEvent pos drained .resume

theorem drainStep_stepJoin {data : List Byte} (pos : s.drain = .join d data) :
    DrainStep s reply (stepJoin s d data) := by
  unfold stepJoin
  by_cases fast : d.fastPath
  · rw [if_pos fast]
    exact .call pos (.feed fast)
  · rw [if_neg fast]
    have slow := Bool.eq_false_iff.mpr fast
    split
    next buf joined =>
      split
      · exact .hop pos (.joinMore slow joined)
      · exact .hop pos (.joinFull slow)
    next joined => exact .hop pos (.joinFirst slow joined)

theorem drainStep_flushFailed (fails : reply.fails)
    {before : Drain Byte} (pos : s.drain = before)
    (escapes : after = .returnRescheduled → Escapes before)
    (failing : after.escapes = false → Fails .dataReceived before d) :
    DrainStep s reply (s.flushFailed d after) := by
  cases after with
  | returnRescheduled => exact .escape pos fails (escapes rfl)
  | _ => exact .fail pos fails (failing rfl)

theorem drainStep_stepFlush (pos : s.drain = .flush d after) :
    DrainStep s reply (stepFlush cfg s d after) := by
  unfold stepFlush
  split
  next joined => exact .hop pos (.nothingJoined joined)
  next data joined =>
    dsimp only
    split
    next unheard => exact .hop pos (.dropped joined (.inl unheard))
    next heard =>
      have opened := Bool.eq_false_iff.mpr heard
      split
      · exact .call pos (.receive joined opened)
      · split
        next cleared => exact .hop pos (.dropped joined (.inr (.inl cleared)))
        next =>
          split
          · unfold ReadState.nextBuffer
            split
            next empty => exact .hop pos (.dropped joined (.inr (.inr empty)))
            next => exact .call pos (.firstBuffer joined opened)
          · exact .call pos (.receive joined opened)
          · exact .call pos (.receive joined opened)

theorem drainStep_stepFlushed (pos : s.drain = .flushed d after) :
    DrainStep s reply (stepFlushed cfg s d after) := by
  cases after with
  | nextBatch => exact .hop pos .nextBatch
  | startBuffer => exact .hop pos .startBuffer
  | returnRescheduled => exact .rescheduled pos
  | deliverLost => exact .hop pos .lostNext
  | deliverEof =>
    simp only [stepFlushed]
    split
    · exact .hop pos .eofIgnored
    next present =>
      simp only [Bool.or_eq_true, not_or, Bool.not_eq_true] at present
      exact .call pos (.eof present.1)
  | deliverPause =>
    simp only [stepFlushed]
    split
    next cleared => exact .flowFail pos (.pauseGone cleared)
    next present => exact .call pos (.pause (Bool.eq_false_iff.mpr present))
  | deliverResume =>
    simp only [stepFlushed]
    split
    next cleared => exact .flowFail pos (.resumeGone cleared)
    next present => exact .call pos (.resume (Bool.eq_false_iff.mpr present))

theorem drainStep_of_stepDrain (moved : stepDrain cfg s reply = some next) :
    DrainStep s reply next := by
  unfold stepDrain at moved
  split at moved
  next => cases moved
  next d pos =>
    split at moved
    next empty =>
      cases moved
      exact .done pos empty
    next =>
      cases moved
      exact .swap pos
  next d pos =>
    cases moved
    exact drainStep_stepPop pos
  next d data pos =>
    split at moved
    next held =>
      cases moved
      exact .relieve pos held
    next =>
      cases moved
      exact .hop pos .unrelieved
  next d data value pos =>
    cases moved
    exact .storeReading pos
  next d data pos =>
    cases moved
    exact drainStep_stepJoin pos
  next d pos =>
    exact of_ended _ (.hop pos .fed)
      (fun raised => .fail pos (fails_of_raised raised) .feeding) moved
  next d pos =>
    cases moved
    unfold stepBudget
    split
    · exact .reschedule pos
    · exact .hop pos .withinBudget
  next d after pos =>
    cases moved
    exact drainStep_stepFlush pos
  next d after pos =>
    refine of_ended _ (.hop pos .received) (fun raised => ?_) moved
    exact drainStep_flushFailed (fails_of_raised raised) pos
      (fun same => same ▸ .receiving) .receiving
  next d rest after pos =>
    have failed (fails : reply.fails) :
        DrainStep s reply (s.flushFailed d after) :=
      drainStep_flushFailed fails pos (fun same => same ▸ .gettingBuffer) .gettingBuffer
    split at moved
    next size =>
      split at moved
      next empty =>
        cases moved
        exact failed (by rw [empty]; rfl)
      next =>
        cases moved
        exact .call pos (.fill size)
    next =>
      cases moved
      exact failed rfl
    next => cases moved
  next d rest after pos =>
    refine of_ended _ ?_ (fun raised => ?_) moved
    · unfold ReadState.nextBuffer
      split
      next empty =>
        subst empty
        exact .hop pos .filled
      next left => exact .call pos (.nextBuffer left)
    · exact drainStep_flushFailed (fails_of_raised raised) pos
        (fun same => same ▸ .updating) .updating
  next d after pos =>
    cases moved
    exact drainStep_stepFlushed pos
  next d pos =>
    split at moved
    · cases moved
      exact .hop pos .eofKept
    · cases moved
      exact .hop pos .eofTaken
    · cases moved
      exact .fail pos rfl .eofRunning
    · cases moved
  next d pos =>
    exact of_ended _ (.hop pos .paused) (fun raised => .flowFail pos (.pauseRunning raised)) moved
  next d pos =>
    exact of_ended _ (.hop pos .resumed) (fun raised => .flowFail pos (.resumeRunning raised)) moved
  next d failure pos =>
    cases moved
    exact .report pos
  next d pos =>
    exact of_ended _ (.hop pos (.handledFatal rfl)) (fun _ => .hop pos (.handledFatal rfl)) moved
  next d pos =>
    exact of_ended _ (.hop pos (.handledFatal rfl)) (fun _ => .hop pos (.handledFatal rfl)) moved
  next d pos =>
    exact of_ended _ (.hop pos (.handledFlow rfl))
      (fun raised => .quit pos (fails_of_raised raised) rfl) moved
  next d pos =>
    exact of_ended _ (.hop pos (.handledFlow rfl))
      (fun raised => .quit pos (fails_of_raised raised) rfl) moved
  next pos =>
    cases moved
    exact .closeAfterEof pos
  next message pos =>
    split at moved
    next called =>
      cases moved
      exact .hop pos (.alreadyLost called)
    next notCalled =>
      cases moved
      exact .lose pos (Bool.eq_false_iff.mpr notCalled)
  next pos =>
    exact of_ended _ (.hop pos .released) (fun _ => .hop pos .released) moved
  next pos =>
    cases moved
    exact .release pos
  next pos =>
    cases moved
    exact .finish pos

end Inversion

/-! ## The other parties -/

/-- What a producer can do behind its push: it wakes the loop, and it takes
reading away but never allows it. -/
structure ProducerMoves (s next : ReadState Byte) : Prop where
  keeps : next =
      { s with
        tails := next.tails
        reader := next.reader
        readEventsScheduled := next.readEventsScheduled
        streamReadCommands := next.streamReadCommands
        readBackpressured := next.readBackpressured
        stateReading := next.stateReading
        reading := next.reading }
  commands : s.streamReadCommands ≤ next.streamReadCommands
  reading : next.reading → s.reading
  posted : ∀ tail ∈ next.tails, ∃ before ∈ s.tails, before.fromReader = tail.fromReader
  reader : next.reader = s.reader ∨
    next.reader = .next ∧ ∃ tail ∈ s.tails, tail.fromReader

theorem producerMoves_of_stepProducer {s next : ReadState Byte} {index : Nat}
    (moved : stepProducer s index = some next) : ProducerMoves s next := by
  unfold stepProducer at moved
  split at moved
  · cases moved
  next tail found =>
    have mem := List.mem_of_getElem? found
    have posted (phase : TailPhase) (other : ProducerTail)
        (changed : other ∈ s.tails.set index { tail with phase := phase }) :
        ∃ before ∈ s.tails, before.fromReader = other.fromReader := by
      rcases List.mem_or_eq_of_mem_set changed with same | rfl
      · exact ⟨other, same, rfl⟩
      · exact ⟨tail, mem, rfl⟩
    have left (other : ProducerTail) (kept : other ∈ s.tails.eraseIdx index) :
        ∃ before ∈ s.tails, before.fromReader = other.fromReader :=
      ⟨other, List.mem_of_mem_eraseIdx kept, rfl⟩
    have reader : (s.finishTail index tail).reader = s.reader ∨
        (s.finishTail index tail).reader = .next ∧ ∃ tail ∈ s.tails, tail.fromReader := by
      unfold ReadState.finishTail
      split
      next own => exact .inr ⟨rfl, tail, mem, own⟩
      next => exact .inl rfl
    cases phase : tail.phase with
    | backpressure =>
      simp only [phase, Option.some.injEq] at moved
      subst moved
      exact ⟨rfl, Nat.le_refl _, id, posted _, .inl rfl⟩
    | apply =>
      simp only [phase, Option.some.injEq] at moved
      subst moved
      unfold ReadState.applyPendingReadBackpressure
      split
      · exact ⟨rfl, Nat.le_refl _, id, posted _, .inl rfl⟩
      · exact ⟨rfl, Nat.le_refl _, nofun, posted _, .inl rfl⟩
    | swap =>
      simp only [phase] at moved
      split at moved
      · cases moved
        exact ⟨rfl, Nat.le_refl _, id, left, reader⟩
      · cases moved
        exact ⟨rfl, Nat.le_refl _, id, posted _, .inl rfl⟩
    | send =>
      simp only [phase, Option.some.injEq] at moved
      subst moved
      exact ⟨rfl, Nat.le_succ _, id, left, reader⟩

/-- A reader moves on its own, or it enqueues one event. -/
theorem stepReader_cases {s next : ReadState Byte} {reply : ReaderReply Byte}
    (moved : stepReader s reply = some next) :
    next = { s with reader := next.reader } ∨ ∃ event fromReader,
        next = { s.enqueuePendingReadEvent event fromReader with reader := next.reader } := by
  unfold stepReader at moved
  split at moved
  · cases moved
    exact .inl rfl
  · split at moved
    · cases moved
      exact .inr ⟨_, false, rfl⟩
    · split_ifs at moved
      cases moved
      exact .inl rfl
  · split at moved
    · split_ifs at moved
      cases moved
      exact .inr ⟨_, true, rfl⟩
    · cases moved
      exact .inr ⟨_, false, rfl⟩
    · cases moved
      exact .inl rfl
    · cases moved
      exact .inr ⟨_, false, rfl⟩
  · repeat' split at moved
    all_goals
      cases moved
      exact .inl rfl
  · cases moved
  · cases moved

inductive ReadMove (cfg : ReadConfig) (s : ReadState Byte) :
    ReadAction Byte → ReadState Byte → Prop
  | enqueue (event : PendingReadEvent Byte) :
      ReadMove cfg s (.enqueue event) (s.enqueuePendingReadEvent event false)
  | producer {index next} (moves : ProducerMoves s next)
      (moved : stepProducer s index = some next) :
      ReadMove cfg s (.producer index) next
  | reader {reply next} (moved : stepReader s reply = some next) :
      ReadMove cfg s (.reader reply) next
  | startDrain (idle : s.drain = .idle) (cmds : 0 < s.streamReadCommands) :
      ReadMove cfg s .startDrain { s with
        streamReadCommands := s.streamReadCommands - 1
        drain := .check
          { fastPath := decide (cfg.protocol = .fastReader) && !s.callbacksCleared
            pendingData := none
            drainedEvents := 0
            drainedBytes := 0 } }
  | drain {reply next} (moved : stepDrain cfg s reply = some next) :
      ReadMove cfg s (.drain reply) next
  | pauseReading (runs : s.drain.applicationRuns) (calm : s.resuming = none) :
      ReadMove cfg s .pauseReading { s with
        readPaused := true
        stateReading := false
        reading := false }
  | resumeReading : ReadMove cfg s .resumeReading { s with
        readPaused := false
        stateReading := !s.readBackpressured && !s.closing
        resuming := some (!s.readBackpressured && !s.closing) }
  | storeReading {value} (resuming : s.resuming = some value) :
      ReadMove cfg s .storeReading { s with reading := value, resuming := none }
  | close : ReadMove cfg s .close { s with closing := true }

theorem readMove_of_readStep
    {cfg : ReadConfig} {s next : ReadState Byte} {action : ReadAction Byte}
    (moved : readStep cfg s action = some next) :
    ReadMove cfg s action next := by
  cases action with
  | enqueue event =>
    cases moved
    exact .enqueue event
  | producer => exact .producer (producerMoves_of_stepProducer moved) moved
  | reader => exact .reader moved
  | startDrain =>
    simp only [readStep] at moved
    split_ifs at moved with ready
    cases moved
    exact .startDrain (isIdle_iff.mp ready.1) ready.2.2
  | drain =>
    simp only [readStep] at moved
    split_ifs at moved
    exact .drain moved
  | pauseReading =>
    simp only [readStep] at moved
    split at moved <;> cases moved
    next ready => exact .pauseReading ready.1 ready.2
  | resumeReading =>
    simp only [readStep] at moved
    split at moved <;> cases moved
    exact .resumeReading
  | storeReading =>
    simp only [readStep] at moved
    split at moved <;> cases moved
    next resuming => exact .storeReading resuming
  | close =>
    simp only [readStep] at moved
    split at moved <;> cases moved
    exact .close

end Rsloop.Stream
