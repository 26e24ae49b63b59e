import Rsloop.Stream.Transport
import Rsloop.Transition

/-!
# The read path of a stream transport

Producers push events into the pending read queue behind a gate and wake the
loop. The loop thread drains the queue: it swaps it into a private list, joins
data into one buffer and calls the protocol. A drain is a program counter, and
a protocol callback takes two steps, so that the application can call the
transport from inside of it and can fail.
-/

namespace Rsloop.Stream

/-! ## Tuning -/

def maxPendingReadCoalesceBytes : Nat := 256 * 1024

def maxReadEventsPerDrain : Nat := 16

def maxReadBytesPerDrain : Nat := 128 * 1024

def pendingReadHighWater : Nat := 1024 * 1024

def pendingReadLowWater : Nat := pendingReadHighWater / 4

def canCoalesceReadData (current incoming limit : Nat) : Bool :=
  decide (incoming ≤ limit - current)

def readDrainBudgetReached (drainedEvents drainedBytes eventBudget byteBudget : Nat) : Bool :=
  decide (drainedEvents ≥ eventBudget) || decide (drainedBytes ≥ byteBudget)

/-! ## Events and callbacks -/

inductive PendingReadEvent (Byte : Type) where
  | data (bytes : List Byte)
  | eof
  | connectionLost (message : Option String)
  | pauseWriting
  | resumeWriting
  deriving DecidableEq

/-- The protocols a stream transport calls for data: a stream reader that is
fed directly, `get_buffer`/`buffer_updated`, or `data_received`. -/
inductive ReadProtocol where
  | fastReader
  | buffered
  | plain
  deriving DecidableEq, Repr

structure ReadConfig where
  protocol : ReadProtocol
  hasEofReceived : Bool
  reading : Bool
  deriving DecidableEq, Repr

/-- A protocol with every callback, read through `data_received`. -/
def plainProtocol : ReadConfig where
  protocol := .plain
  hasEofReceived := true
  reading := true

/-- A call that reaches the protocol. `data` is a fed chunk, the argument of
`data_received`, or the chunk that `buffer_updated` announces. -/
inductive ReadCallback (Byte : Type) where
  | data (bytes : List Byte)
  | getBuffer (sizeHint : Nat)
  | eofReceived
  | pauseWriting
  | resumeWriting
  | connectionLost (message : Option String)
  deriving DecidableEq

/-- How a callback or the exception handler ends. -/
inductive CallbackReply where
  | returned (truthy : Bool)
  | buffer (size : Nat)
  | raised
  deriving DecidableEq, Repr

/-- A failure of the protocol, as it is reported to the exception handler. -/
inductive ProtocolFailure where
  | dataReceived
  | eofReceived
  | pauseWriting
  | resumeWriting
  deriving DecidableEq, Repr

variable {Byte : Type}

def readEventKind : PendingReadEvent Byte → ReadEventKind
  | .data _ => .data
  | .eof => .eof
  | .connectionLost _ => .lost
  | .pauseWriting => .pause
  | .resumeWriting => .resume

def PendingReadEvent.dataLen : PendingReadEvent Byte → Nat
  | .data bytes => bytes.length
  | _ => 0

/-! ## Program counters and the state -/

/-- The local variables of `drain_pending_read_events_with_py`. -/
structure DrainLocals (Byte : Type) where
  fastPath : Bool
  pendingData : Option (List Byte)
  drainedEvents : Nat
  drainedBytes : Nat
  deriving DecidableEq

/-- What the drain does once the joined data has been delivered. -/
inductive AfterFlush (Byte : Type) where
  | nextBatch
  | startBuffer (data : List Byte)
  | returnRescheduled
  | deliverEof
  | deliverLost (message : Option String)
  | deliverPause
  | deliverResume
  deriving DecidableEq

/-- Where the loop thread is in a drain. In the positions named after a running
callback the application has control. -/
inductive Drain (Byte : Type) where
  | idle
  | check (d : DrainLocals Byte)
  | pop (d : DrainLocals Byte)
  | relieve (d : DrainLocals Byte) (data : List Byte)
  | storeReading (d : DrainLocals Byte) (data : List Byte) (value : Bool)
  | join (d : DrainLocals Byte) (data : List Byte)
  | feeding (d : DrainLocals Byte)
  | budget (d : DrainLocals Byte)
  | flush (d : DrainLocals Byte) (after : AfterFlush Byte)
  | receiving (d : DrainLocals Byte) (after : AfterFlush Byte)
  | gettingBuffer (d : DrainLocals Byte) (rest : List Byte) (after : AfterFlush Byte)
  | updating (d : DrainLocals Byte) (rest : List Byte) (after : AfterFlush Byte)
  | flushed (d : DrainLocals Byte) (after : AfterFlush Byte)
  | eofRunning (d : DrainLocals Byte)
  | pauseRunning (d : DrainLocals Byte)
  | resumeRunning (d : DrainLocals Byte)
  | report (d : DrainLocals Byte) (failure : ProtocolFailure)
  | handling (d : DrainLocals Byte) (failure : ProtocolFailure)
  | closeAfterEof
  | lose (message : Option String)
  | losing
  | release
  | finish
  deriving DecidableEq

/-- The rest of `enqueue_pending_read_event` after the push. -/
inductive TailPhase where
  | backpressure
  | apply
  | swap
  | send
  deriving DecidableEq, Repr

structure ProducerTail where
  phase : TailPhase
  fromReader : Bool
  deriving DecidableEq, Repr

/-- `next` is behind a post, where the reader takes its next buffer. -/
inductive Reader where
  | acquire
  | gate
  | reading
  | posting
  | next
  | finished
  deriving DecidableEq, Repr

/-- How a drain came back: its result, whether events were left, whether the
connection was lost, and whether another drain was scheduled. -/
structure DrainReturn where
  ok : Bool
  leftover : Bool
  lost : Bool
  rescheduled : Bool
  deriving DecidableEq, Repr

structure ReadState (Byte : Type) where
  pendingReadEvents : List (PendingReadEvent Byte)
  readEventDrain : List (PendingReadEvent Byte)
  readEventState : ReadEventState
  pendingReadBytes : Nat
  readEventsScheduled : Bool
  streamReadCommands : Nat
  closing : Bool
  lostCalled : Bool
  callbacksCleared : Bool
  readPaused : Bool
  readBackpressured : Bool
  stateReading : Bool
  /-- The atomic mirror of `stateReading`. -/
  reading : Bool
  reader : Reader
  tails : List ProducerTail
  /-- `resume_reading` between its lock section and its store. -/
  resuming : Option Bool
  drain : Drain Byte
  /-- Every call the protocol has received. -/
  log : List (ReadCallback Byte)
  /-- Every event that passed the gate, in queue-lock order. -/
  accepted : List (PendingReadEvent Byte)
  /-- Every event a drain has taken off its list. -/
  popped : List (PendingReadEvent Byte)
  failures : List ProtocolFailure
  reports : List ProtocolFailure
  /-- The length of the log when a data or EOF callback failed. -/
  failedAt : Option Nat
  returns : List DrainReturn
  /-- The bytes the protocol has received while reading was paused. -/
  receivedPaused : List Byte
  deriving DecidableEq

def ReadState.new (cfg : ReadConfig) : ReadState Byte where
  pendingReadEvents := []
  readEventDrain := []
  readEventState := .opened
  pendingReadBytes := 0
  readEventsScheduled := false
  streamReadCommands := 0
  closing := false
  lostCalled := false
  callbacksCleared := false
  readPaused := false
  readBackpressured := false
  stateReading := cfg.reading
  reading := cfg.reading
  reader := .acquire
  tails := []
  resuming := none
  drain := .idle
  log := []
  accepted := []
  popped := []
  failures := []
  reports := []
  failedAt := none
  returns := []
  receivedPaused := []

/-! ## Producers -/

/-- The lock-protected part of `enqueue_pending_read_event`: whoever takes the
lock first decides the order, and the gate refuses what comes too late. -/
def ReadState.enqueuePendingReadEvent (s : ReadState Byte) (event : PendingReadEvent Byte)
    (fromReader : Bool) : ReadState Byte :=
  match transitionReadEventState s.readEventState (readEventKind event) with
  | none => { s with reader := if fromReader then .next else s.reader }
  | some next =>
    { s with
      readEventState := next
      pendingReadBytes := s.pendingReadBytes + event.dataLen
      pendingReadEvents := s.pendingReadEvents ++ [event]
      accepted := s.accepted ++ [event]
      tails := s.tails ++
        [{ phase := if event.dataLen > 0 then .backpressure else .swap
           fromReader := fromReader }]
      reader := if fromReader then .posting else s.reader }

/-- The lock section of `apply_pending_read_backpressure`. -/
def ReadState.applyPendingReadBackpressure (s : ReadState Byte) : ReadState Byte :=
  if s.readBackpressured || s.closing then
    s
  else
    { s with readBackpressured := true, stateReading := false, reading := false }

def ReadState.finishTail (s : ReadState Byte) (index : Nat) (tail : ProducerTail) :
    ReadState Byte :=
  { s with
    tails := s.tails.eraseIdx index
    reader := if tail.fromReader then .next else s.reader }

def stepProducer (s : ReadState Byte) (index : Nat) : Option (ReadState Byte) :=
  match s.tails[index]? with
  | none => none
  | some tail =>
    let proceed (phase : TailPhase) (s : ReadState Byte) :=
      { s with tails := s.tails.set index { tail with phase := phase } }
    match tail.phase with
    | .backpressure =>
      some (proceed (if s.pendingReadBytes < pendingReadHighWater then .swap
          else .apply) s)
    | .apply => some (proceed .swap s.applyPendingReadBackpressure)
    | .swap =>
      if s.readEventsScheduled then
        some (s.finishTail index tail)
      else
        some (proceed .send { s with readEventsScheduled := true })
    | .send =>
      some { s.finishTail index tail with streamReadCommands := s.streamReadCommands + 1 }

/-- What a read on the socket brings. -/
inductive ReaderReply (Byte : Type) where
  | data (bytes : List Byte)
  | eof
  | wouldBlock
  | failed (message : String)
  deriving DecidableEq

/-- One step of the reader task. A closing transport gives no more buffers and
answers the gate with a loss. Behind a post the reader goes back to the gate, or
reads on without a look at it, as `spin_read_stream` and `drain_tls_plaintext`
do; here it goes back where the reply is `wouldBlock`. -/
def stepReader (s : ReadState Byte) (reply : ReaderReply Byte) : Option (ReadState Byte) :=
  match s.reader with
  | .acquire => some { s with reader := if s.closing then .finished else .gate }
  | .gate =>
    if s.closing then
      some { s.enqueuePendingReadEvent (.connectionLost none) false with reader := .finished }
    else if s.reading then
      some { s with reader := .reading }
    else
      none
  | .reading =>
    match reply with
    | .data bytes =>
      if bytes = [] then none
      else some (s.enqueuePendingReadEvent (.data bytes) true)
    | .eof => some { s.enqueuePendingReadEvent .eof false with reader := .finished }
    | .wouldBlock => some { s with reader := .gate }
    | .failed message =>
      some { s.enqueuePendingReadEvent (.connectionLost (some message)) false with
        reader := .finished }
  | .next =>
    if s.closing then
      some { s with reader := .finished }
    else
      match reply with
      | .wouldBlock => some { s with reader := .gate }
      | _ => some { s with reader := .reading }
  | .posting | .finished => none

/-! ## The drain -/

def ReadState.invoke (s : ReadState Byte) (cb : ReadCallback Byte)
    (drain : Drain Byte) : ReadState Byte :=
  { s with
    log := s.log ++ [cb]
    receivedPaused :=
      match cb with
      | .data bytes =>
        if s.readPaused then s.receivedPaused ++ bytes
        else s.receivedPaused
      | _ => s.receivedPaused
    drain := drain }

def ReadState.returned (s : ReadState Byte) (ok : Bool) : ReadState Byte :=
  { s with
    drain := .idle
    returns := s.returns ++
      [{ ok := ok
         leftover := !(s.pendingReadEvents ++ s.readEventDrain).isEmpty
         lost := s.lostCalled
         rescheduled := decide (0 < s.streamReadCommands) }] }

def ReadState.failed (s : ReadState Byte) (failure : ProtocolFailure)
    (drain : Drain Byte) : ReadState Byte :=
  { s with
    failures := s.failures ++ [failure]
    failedAt := some s.log.length
    drain := drain }

/-- `flush_pending_data_with_py` has failed. On the budget path the error leaves
the drain; everywhere else it is reported. -/
def ReadState.flushFailed (s : ReadState Byte) (d : DrainLocals Byte)
    (after : AfterFlush Byte) : ReadState Byte :=
  match after with
  | .returnRescheduled => (s.failed .dataReceived .idle).returned false
  | _ => s.failed .dataReceived (.report d .dataReceived)

/-- The loop over `get_buffer`. -/
def ReadState.nextBuffer (s : ReadState Byte) (d : DrainLocals Byte) (rest : List Byte)
    (after : AfterFlush Byte) : ReadState Byte :=
  if rest = [] then
    { s with drain := .flushed d after }
  else
    s.invoke (.getBuffer rest.length) (.gettingBuffer d rest after)

/-- Take the next event off the drain list. Removing a data event and
`record_pending_read_drained`'s update of the counter are one step: nobody else
sees the drain list. -/
def stepPop (s : ReadState Byte) (d : DrainLocals Byte) : ReadState Byte :=
  match s.readEventDrain with
  | [] => { s with drain := .flush d .nextBatch }
  | event :: rest =>
    let s :=
      { s with readEventDrain := rest, popped := s.popped ++ [event] }
    match event with
    | .data bytes =>
      let d :=
        { d with
          drainedEvents := d.drainedEvents + 1
          drainedBytes := d.drainedBytes + bytes.length }
      { s with
        pendingReadBytes := s.pendingReadBytes - bytes.length
        drain :=
          if s.pendingReadBytes - bytes.length > pendingReadLowWater then
            .join d bytes
          else
            .relieve d bytes }
    | .eof => { s with drain := .flush d .deliverEof }
    | .connectionLost message => { s with drain := .flush d (.deliverLost message) }
    | .pauseWriting => { s with drain := .flush d .deliverPause }
    | .resumeWriting => { s with drain := .flush d .deliverResume }

/-- Feed the fast reader, or join the data to what waits. -/
def stepJoin (s : ReadState Byte) (d : DrainLocals Byte) (data : List Byte) :
    ReadState Byte :=
  if d.fastPath then
    s.invoke (.data data) (.feeding d)
  else
    match d.pendingData with
    | some buf =>
      if canCoalesceReadData buf.length data.length maxPendingReadCoalesceBytes then
        { s with drain := .budget { d with pendingData := some (buf ++ data) } }
      else
        { s with drain := .flush d (.startBuffer data) }
    | none => { s with drain := .budget { d with pendingData := some data } }

/-- The budget test and `reschedule_pending_read_events`, which puts what is
left of the drain list back in front of the queue. -/
def stepBudget (s : ReadState Byte) (d : DrainLocals Byte) : ReadState Byte :=
  if readDrainBudgetReached d.drainedEvents d.drainedBytes
      maxReadEventsPerDrain maxReadBytesPerDrain &&
      !(s.readEventDrain.isEmpty && s.pendingReadEvents.isEmpty) then
    { s with
      pendingReadEvents := s.readEventDrain ++ s.pendingReadEvents
      readEventDrain := []
      streamReadCommands := s.streamReadCommands + 1
      drain := .flush d .returnRescheduled }
  else
    { s with drain := .pop d }

/-- `flush_pending_data_with_py` up to the first call of the protocol. -/
def stepFlush (cfg : ReadConfig) (s : ReadState Byte)
    (d : DrainLocals Byte) (after : AfterFlush Byte) : ReadState Byte :=
  match d.pendingData with
  | none => { s with drain := .flushed d after }
  | some data =>
    let d := { d with pendingData := none }
    if s.closing || s.lostCalled then
      { s with drain := .flushed d after }
    else if d.fastPath then
      s.invoke (.data data) (.receiving d after)
    else if s.callbacksCleared then
      { s with drain := .flushed d after }
    else
      match cfg.protocol with
      | .buffered => s.nextBuffer d data after
      | .plain | .fastReader => s.invoke (.data data) (.receiving d after)

/-- The event behind the delivered data. Without a protocol the flow-control
methods are Python's `None`, and calling them fails. -/
def stepFlushed (cfg : ReadConfig) (s : ReadState Byte)
    (d : DrainLocals Byte) : AfterFlush Byte → ReadState Byte
  | .nextBatch => { s with drain := .check d }
  | .startBuffer data => { s with drain := .budget { d with pendingData := some data } }
  | .returnRescheduled => s.returned true
  | .deliverEof =>
    if s.callbacksCleared ||
        !(decide (cfg.protocol = .fastReader) || cfg.hasEofReceived) then
      { s with drain := .closeAfterEof }
    else
      s.invoke .eofReceived (.eofRunning d)
  | .deliverLost message => { s with drain := .lose message }
  | .deliverPause =>
    if s.callbacksCleared then
      { s with
        failures := s.failures ++ [.pauseWriting]
        drain := .report d .pauseWriting }
    else
      s.invoke .pauseWriting (.pauseRunning d)
  | .deliverResume =>
    if s.callbacksCleared then
      { s with
        failures := s.failures ++ [.resumeWriting]
        drain := .report d .resumeWriting }
    else
      s.invoke .resumeWriting (.resumeRunning d)

/-- A callback for which only success and failure count has ended. -/
def ended (reply : CallbackReply) (succeeded failed : ReadState Byte) : Option (ReadState Byte) :=
  match reply with
  | .returned _ => some succeeded
  | .raised => some failed
  | .buffer _ => none

def stepDrain (cfg : ReadConfig) (s : ReadState Byte) (reply : CallbackReply) :
    Option (ReadState Byte) :=
  match s.drain with
  | .idle => none
  | .check d =>
    if s.pendingReadEvents = [] then
      some ({ s with readEventsScheduled := false }.returned true)
    else
      some { s with
        pendingReadEvents := s.readEventDrain
        readEventDrain := s.pendingReadEvents
        drain := .pop d }
  | .pop d => some (stepPop s d)
  | .relieve d data =>
    if s.readBackpressured then
      some { s with
        readBackpressured := false
        stateReading := !s.readPaused && !s.closing
        drain := .storeReading d data (!s.readPaused && !s.closing) }
    else
      some { s with drain := .join d data }
  | .storeReading d data value =>
    some { s with reading := value, drain := .join d data }
  | .join d data => some (stepJoin s d data)
  | .feeding d =>
    ended reply { s with drain := .budget d }
      (s.failed .dataReceived (.report d .dataReceived))
  | .budget d => some (stepBudget s d)
  | .flush d after => some (stepFlush cfg s d after)
  | .receiving d after =>
    ended reply { s with drain := .flushed d after } (s.flushFailed d after)
  | .gettingBuffer d rest after =>
    match reply with
    | .buffer size =>
      if size = 0 then
        some (s.flushFailed d after)
      else
        some (s.invoke (.data (rest.take size)) (.updating d (rest.drop size) after))
    | .raised => some (s.flushFailed d after)
    | .returned _ => none
  | .updating d rest after =>
    ended reply (s.nextBuffer d rest after) (s.flushFailed d after)
  | .flushed d after => some (stepFlushed cfg s d after)
  | .eofRunning d =>
    match reply with
    | .returned true => some { s with drain := .pop d }
    | .returned false => some { s with drain := .closeAfterEof }
    | .raised => some (s.failed .eofReceived (.report d .eofReceived))
    | .buffer _ => none
  | .pauseRunning d =>
    ended reply { s with drain := .pop d }
      { s with
        failures := s.failures ++ [.pauseWriting]
        drain := .report d .pauseWriting }
  | .resumeRunning d =>
    ended reply { s with drain := .pop d }
      { s with
        failures := s.failures ++ [.resumeWriting]
        drain := .report d .resumeWriting }
  | .report d failure =>
    some { s with reports := s.reports ++ [failure], drain := .handling d failure }
  | .handling _ .dataReceived =>
    ended reply { s with drain := .lose none } { s with drain := .lose none }
  | .handling _ .eofReceived =>
    ended reply { s with drain := .lose none } { s with drain := .lose none }
  | .handling d .pauseWriting =>
    ended reply { s with drain := .pop d } (s.returned false)
  | .handling d .resumeWriting =>
    ended reply { s with drain := .pop d } (s.returned false)
  | .closeAfterEof => some { s with closing := true, drain := .lose none }
  | .lose message =>
    if s.lostCalled then
      some { s with drain := .finish }
    else
      some ({ s with lostCalled := true, closing := true }.invoke
        (.connectionLost message) .losing)
  | .losing => ended reply { s with drain := .release } { s with drain := .release }
  | .release => some { s with callbacksCleared := true, drain := .finish }
  | .finish => some ({ s with readEventsScheduled := false }.returned true)

/-! ## Interleavings -/

inductive ReadAction (Byte : Type) where
  | enqueue (event : PendingReadEvent Byte)
  | producer (index : Nat)
  | reader (reply : ReaderReply Byte)
  | startDrain
  | drain (reply : CallbackReply)
  | pauseReading
  | resumeReading
  | storeReading
  | close
  deriving DecidableEq

def Drain.isIdle : Drain Byte → Bool
  | .idle => true
  | _ => false

theorem isIdle_iff {drain : Drain Byte} : drain.isIdle ↔ drain = .idle := by
  cases drain <;> simp [Drain.isIdle]

/-- The application has control on the loop thread between drains, in protocol
callbacks and in the exception handler. -/
def Drain.applicationRuns : Drain Byte → Bool
  | .idle | .feeding _ | .receiving _ _ | .gettingBuffer _ _ _ | .updating _ _ _ | .eofRunning _
  | .pauseRunning _ | .resumeRunning _ | .handling _ _ | .losing => true
  | _ => false

def readStep (cfg : ReadConfig) (s : ReadState Byte) :
    ReadAction Byte → Option (ReadState Byte)
  | .enqueue event => some (s.enqueuePendingReadEvent event false)
  | .producer index => stepProducer s index
  | .reader reply => stepReader s reply
  | .startDrain =>
    if s.drain.isIdle ∧ s.resuming = none ∧ 0 < s.streamReadCommands then
      some { s with
        streamReadCommands := s.streamReadCommands - 1
        drain := .check
          { fastPath := decide (cfg.protocol = .fastReader) && !s.callbacksCleared
            pendingData := none
            drainedEvents := 0
            drainedBytes := 0 } }
    else
      none
  | .drain reply => if s.resuming = none then stepDrain cfg s reply else none
  | .pauseReading =>
    if s.drain.applicationRuns ∧ s.resuming = none then
      some { s with readPaused := true, stateReading := false, reading := false }
    else
      none
  | .resumeReading =>
    if s.drain.applicationRuns ∧ s.resuming = none then
      some { s with
        readPaused := false
        stateReading := !s.readBackpressured && !s.closing
        resuming := some (!s.readBackpressured && !s.closing) }
    else
      none
  | .storeReading =>
    match s.resuming with
    | none => none
    | some value => some { s with reading := value, resuming := none }
  | .close =>
    if s.drain.applicationRuns ∧ s.resuming = none then
      some { s with closing := true }
    else
      none

end Rsloop.Stream
