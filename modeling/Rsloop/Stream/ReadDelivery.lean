import Rsloop.Stream.DrainSteps

/-!
# Delivery of read events

Events reach the protocol in the order in which they passed the gate, however
producers and drains interleave. What a drain has taken off its list is partly
in its hand: in the joined data, in the chunk that a buffered protocol is
taking, and in the event behind it. A connection that is over makes no more
calls than its `connection_lost`.
-/

namespace Rsloop.Stream

open Transition List

variable {Byte : Type}

/-! ## Byte streams with marks -/

/-- One position of the stream of read events. -/
inductive ReadToken (Byte : Type) where
  | byte (value : Byte)
  | eof
  | lost
  | pause
  | resume
  deriving DecidableEq

def PendingReadEvent.tokens : PendingReadEvent Byte → List (ReadToken Byte)
  | .data bytes => bytes.map .byte
  | .eof => [.eof]
  | .connectionLost _ => [.lost]
  | .pauseWriting => [.pause]
  | .resumeWriting => [.resume]

/-- What the protocol has been told. `connection_lost` is not a position of
the stream: a failure or an EOF can lead to it as well. -/
def ReadCallback.tokens : ReadCallback Byte → List (ReadToken Byte)
  | .data bytes => bytes.map .byte
  | .getBuffer _ => []
  | .eofReceived => [.eof]
  | .pauseWriting => [.pause]
  | .resumeWriting => [.resume]
  | .connectionLost _ => []

def eventTokens (events : List (PendingReadEvent Byte)) : List (ReadToken Byte) :=
  events.flatMap PendingReadEvent.tokens

def callbackTokens (log : List (ReadCallback Byte)) : List (ReadToken Byte) :=
  log.flatMap ReadCallback.tokens

def ReadToken.byte? : ReadToken Byte → Option Byte
  | .byte value => some value
  | _ => none

def tokenBytes (tokens : List (ReadToken Byte)) : List Byte :=
  tokens.filterMap ReadToken.byte?

/-- The data among accepted events, and the data handed to the protocol. -/
def eventBytes (events : List (PendingReadEvent Byte)) : List Byte :=
  tokenBytes (eventTokens events)

def callbackBytes (log : List (ReadCallback Byte)) : List Byte :=
  tokenBytes (callbackTokens log)

def dataLength (events : List (PendingReadEvent Byte)) : Nat :=
  (events.map PendingReadEvent.dataLen).sum

@[simp]
theorem eventTokens_nil : eventTokens ([] : List (PendingReadEvent Byte)) = [] :=
  rfl

@[simp]
theorem eventTokens_cons (event : PendingReadEvent Byte)
    (rest : List (PendingReadEvent Byte)) :
    eventTokens (event :: rest) = event.tokens ++ eventTokens rest := rfl

@[simp]
theorem eventTokens_append (earlier later : List (PendingReadEvent Byte)) :
    eventTokens (earlier ++ later) = eventTokens earlier ++ eventTokens later := by
  simp [eventTokens]

@[simp]
theorem callbackTokens_append (earlier later : List (ReadCallback Byte)) :
    callbackTokens (earlier ++ later) = callbackTokens earlier ++ callbackTokens later := by
  simp [callbackTokens]

@[simp]
theorem callbackTokens_singleton (cb : ReadCallback Byte) :
    callbackTokens [cb] = cb.tokens := by
  simp [callbackTokens]

@[simp]
theorem tokenBytes_append (earlier later : List (ReadToken Byte)) :
    tokenBytes (earlier ++ later) = tokenBytes earlier ++ tokenBytes later := by
  simp [tokenBytes]

@[simp]
theorem dataLength_append (earlier later : List (PendingReadEvent Byte)) :
    dataLength (earlier ++ later) = dataLength earlier + dataLength later := by
  simp [dataLength]

def PendingReadEvent.reads : PendingReadEvent Byte → Bool
  | .data _ | .eof => true
  | _ => false

variable {event : PendingReadEvent Byte}

theorem tokenBytes_of_quiet (quiet : event.reads = false) :
    tokenBytes event.tokens = [] := by
  cases event with
  | data => cases quiet
  | _ => rfl

variable {events : List (PendingReadEvent Byte)}

theorem eventBytes_of_quiet (quiet : ∀ event ∈ events, event.reads = false) :
    eventBytes events = [] := by
  induction events with
  | nil => rfl
  | cons event _ ih =>
    have later := ih fun other mem =>
      quiet other (mem_cons_of_mem _ mem)
    rw [eventBytes, eventTokens_cons, tokenBytes_append,
      tokenBytes_of_quiet (quiet event mem_cons_self)]
    exact later

theorem eof_mem_of_token (mem : ReadToken.eof ∈ eventTokens events) :
    PendingReadEvent.eof ∈ events := by
  obtain ⟨event, inEvents, inTokens⟩ := mem_flatMap.mp mem
  cases event with
  | eof => exact inEvents
  | data bytes | connectionLost message | pauseWriting | resumeWriting =>
    simp [PendingReadEvent.tokens] at inTokens

theorem lost_mem_of_token (mem : ReadToken.lost ∈ eventTokens events) :
    ∃ message, PendingReadEvent.connectionLost message ∈ events := by
  obtain ⟨event, inEvents, inTokens⟩ := mem_flatMap.mp mem
  cases event with
  | connectionLost message => exact ⟨message, inEvents⟩
  | data bytes | eof | pauseWriting | resumeWriting => simp [PendingReadEvent.tokens] at inTokens

/-! ## The gate -/

/-- The gate after the listed events, if it lets all of them pass. -/
def gateAfter (s : ReadEventState) : List (PendingReadEvent Byte) → Option ReadEventState
  | [] => some s
  | event :: rest =>
    match transitionReadEventState s (readEventKind event) with
    | none => none
    | some next => gateAfter next rest

theorem gateAfter_append (s : ReadEventState)
    (earlier later : List (PendingReadEvent Byte)) :
    gateAfter s (earlier ++ later) =
      (gateAfter s earlier).bind fun middle => gateAfter middle later := by
  induction earlier generalizing s with
  | nil => rfl
  | cons event _ ih =>
    simp only [cons_append, gateAfter]
    cases transitionReadEventState s (readEventKind event) with
    | none => rfl
    | some next => exact ih next

/-- A gate that is not open lets no data and no EOF pass, and stays so. -/
theorem transition_of_not_opened {s next : ReadEventState}
    (notOpened : s ≠ .opened)
    (passed : transitionReadEventState s (readEventKind event) = some next) :
    next ≠ .opened ∧ event.reads = false := by
  cases event with
  | data bytes | eof => simp [readEventKind, transitionReadEventState, notOpened] at passed
  | connectionLost =>
    simp only [readEventKind, transitionReadEventState] at passed
    split at passed <;> cases passed
    exact ⟨nofun, rfl⟩
  | pauseWriting | resumeWriting =>
    simp only [readEventKind, transitionReadEventState] at passed
    split at passed <;> cases passed
    exact ⟨notOpened, rfl⟩

variable {last : ReadEventState}

theorem gateAfter_of_not_opened {s : ReadEventState} (notOpened : s ≠ .opened)
    (passed : gateAfter s events = some last) :
    last ≠ .opened ∧ ∀ event ∈ events, event.reads = false := by
  induction events generalizing s with
  | nil =>
    cases passed
    exact ⟨notOpened, by simp⟩
  | cons event _ ih =>
    rw [gateAfter] at passed
    cases moved : transitionReadEventState s (readEventKind event) with
    | none => simp [moved] at passed
    | some =>
      rw [moved] at passed
      obtain ⟨stillClosed, quiet⟩ := transition_of_not_opened notOpened moved
      obtain ⟨lastClosed, later⟩ := ih stillClosed passed
      refine ⟨lastClosed, ?_⟩
      intro other mem
      rcases mem_cons.mp mem with rfl | inRest
      · exact quiet
      · exact later other inRest

/-- An EOF or a loss closes the gate for data and EOF. -/
def PendingReadEvent.closesGate : PendingReadEvent Byte → Bool
  | .eof | .connectionLost _ => true
  | _ => false

theorem gateAfter_of_closesGate {s : ReadEventState}
    (mem : event ∈ events) (closes : event.closesGate)
    (passed : gateAfter s events = some last) : last ≠ .opened := by
  obtain ⟨earlier, later, rfl⟩ := append_of_mem mem
  rw [gateAfter_append] at passed
  obtain ⟨middle, -, passedLater⟩ := Option.bind_eq_some_iff.mp passed
  rw [gateAfter] at passedLater
  cases moved : transitionReadEventState middle (readEventKind event) with
  | none => simp [moved] at passedLater
  | some next =>
    rw [moved] at passedLater
    have closed : next ≠ .opened := by
      cases event with
      | eof | connectionLost =>
        simp only [readEventKind, transitionReadEventState] at moved
        split at moved <;> cases moved
        nofun
      | data bytes | pauseWriting | resumeWriting => cases closes
    exact (gateAfter_of_not_opened closed passedLater).1

theorem quiet_behind_closesGate {earlier later : List (PendingReadEvent Byte)}
    (mem : event ∈ earlier) (closes : event.closesGate)
    (passed : gateAfter .opened (earlier ++ later) = some last) :
    last ≠ .opened ∧ ∀ other ∈ later, other.reads = false := by
  rw [gateAfter_append] at passed
  obtain ⟨middle, passedEarlier, passedLater⟩ := Option.bind_eq_some_iff.mp passed
  exact gateAfter_of_not_opened (gateAfter_of_closesGate mem closes passedEarlier) passedLater

/-! ## What a drain has in hand -/

def DrainLocals.tokens (d : DrainLocals Byte) : List (ReadToken Byte) :=
  (d.pendingData.getD []).map .byte

def AfterFlush.tokens : AfterFlush Byte → List (ReadToken Byte)
  | .startBuffer data => data.map .byte
  | .deliverEof => [.eof]
  | .deliverLost _ => [.lost]
  | .deliverPause => [.pause]
  | .deliverResume => [.resume]
  | .nextBatch | .returnRescheduled => []

/-- What has been taken off the drain list and not been handed over. -/
def Drain.inFlight : Drain Byte → List (ReadToken Byte)
  | .check d | .pop d => d.tokens
  | .relieve d data | .storeReading d data _
  | .join d data => d.tokens ++ data.map .byte
  | .feeding d | .budget d => d.tokens
  | .flush d after | .receiving d after => d.tokens ++ after.tokens
  | .gettingBuffer d rest after
  | .updating d rest after => d.tokens ++ (rest.map .byte ++ after.tokens)
  | .flushed d after => d.tokens ++ after.tokens
  | .eofRunning d | .pauseRunning d | .resumeRunning d | .report d _
  | .handling d _ => d.tokens
  | _ => []

/-- The fast path feeds every chunk at once and joins nothing. -/
def DrainLocals.Suited (d : DrainLocals Byte) : Prop :=
  d.fastPath → d.pendingData = none

/-- A new buffer is only started off the fast path. -/
def AfterFlush.Suits (after : AfterFlush Byte) (d : DrainLocals Byte) : Prop :=
  match after with
  | .startBuffer _ => d.fastPath = false
  | _ => True

/-- The joined data is gone once it is being delivered. A live connection is not
in the positions behind `connection_lost`. -/
def Drain.WellFormed : Drain Byte → Prop
  | .check d => d.pendingData = none
  | .pop d | .relieve d _ | .storeReading d _ _ | .join d _ => d.Suited
  | .feeding d => d.pendingData = none
  | .budget d => d.Suited
  | .flush d after => d.Suited ∧ after.Suits d
  | .receiving d after | .gettingBuffer d _ after | .updating d _ after
  | .flushed d after => d.pendingData = none ∧ after.Suits d
  | .eofRunning d | .pauseRunning d | .resumeRunning d | .report d _
  | .handling d _ => d.pendingData = none
  | .idle | .closeAfterEof | .lose _ => True
  | .losing | .release | .finish => False

def AfterFlush.reads : AfterFlush Byte → Bool
  | .startBuffer _ | .deliverEof => true
  | _ => false

/-- The drain still has data or an EOF for the protocol. -/
def Drain.holdsRead : Drain Byte → Bool
  | .check d | .pop d => d.pendingData.isSome
  | .relieve _ _ | .storeReading _ _ _ | .join _ _ | .feeding _ | .budget _ => true
  | .flush d after => d.pendingData.isSome || after.reads
  | .receiving _ _ | .gettingBuffer _ _ _ | .updating _ _ _ => true
  | .flushed _ after => after.reads
  | _ => false

def AfterFlush.endsBatch : AfterFlush Byte → Bool
  | .nextBatch | .returnRescheduled => true
  | _ => false

/-- Between two batches the drain list is empty. -/
def Drain.betweenBatches : Drain Byte → Bool
  | .idle | .check _ => true
  | .flush _ after | .receiving _ after | .gettingBuffer _ _ after | .updating _ _ after
  | .flushed _ after => after.endsBatch
  | _ => false

def Drain.eofRuns : Drain Byte → Bool
  | .eofRunning _ => true
  | _ => false

/-- The drain is on its way to `connection_lost`. -/
def Drain.leaves : Drain Byte → Bool
  | .report _ failure | .handling _ failure => failure.fatal
  | .closeAfterEof | .lose _ => true
  | _ => false

/-- Positions from which a drain calls no protocol whose callbacks are gone. -/
def Drain.quiet : Drain Byte → Bool
  | .idle => true
  | .check d | .pop d | .relieve d _ | .storeReading d _ _ | .join d _
  | .budget d | .flush d _ | .flushed d _ => !d.fastPath
  | .report d failure | .handling d failure => !d.fastPath && !failure.fatal
  | .closeAfterEof | .lose _ | .finish => true
  | _ => false

/-! ## Failures that leave the drain -/

/-- A failure in these positions leaves the drain as its result. -/
def Drain.escapes : Drain Byte → Bool
  | .receiving _ after | .gettingBuffer _ _ after | .updating _ _ after => after.escapes
  | .handling _ failure => !failure.fatal
  | _ => false

/-- Failures leave a drain only on a connection that is lost. -/
def EscapesWhenLost (s : ReadState Byte) : ReadAction Byte → Prop
  | .drain reply => reply.fails → s.drain.escapes → s.lostCalled
  | _ => True

/-! ## The invariant -/

def ReadCallback.isLost : ReadCallback Byte → Bool
  | .connectionLost _ => true
  | _ => false

def ReadCallback.reads : ReadCallback Byte → Bool
  | .data _ | .getBuffer _ | .eofReceived => true
  | _ => false

/-- Which callback may come behind which: nothing behind `connection_lost`, and
neither data nor another EOF behind `eof_received`. -/
def ReadCallback.Precedes (earlier later : ReadCallback Byte) : Prop :=
  earlier.isLost = false ∧ (earlier = .eofReceived → later.reads = false)

/-- `connection_lost` has been called or is on its way. -/
def ReadState.isOver (s : ReadState Byte) : Bool :=
  s.lostCalled || s.drain.leaves

/-- What holds whatever the protocol answers: the gate has let the accepted
events pass, no event gets lost or doubled, and the counter tells how much data
waits. -/
structure ReadAccounts (s : ReadState Byte) : Prop where
  gate : gateAfter .opened s.accepted = some s.readEventState
  counted : s.pendingReadBytes =
      dataLength s.readEventDrain + dataLength s.pendingReadEvents
  kept : (s.popped ++ s.readEventDrain ++ s.pendingReadEvents).Perm s.accepted

/-- The connection is up. A transport that is closing drops data, so what it
hands over is only a part of what it popped. -/
structure Live (s : ReadState Byte) : Prop where
  events : s.popped ++ s.readEventDrain ++ s.pendingReadEvents = s.accepted
  delivered : s.closing = false → callbackTokens s.log ++ s.drain.inFlight =
        eventTokens s.popped
  inOrder : (callbackTokens s.log ++ s.drain.inFlight).Sublist (eventTokens s.popped)
  wellFormed : s.drain.WellFormed
  emptied : s.drain.betweenBatches → s.readEventDrain = []
  notFailed : s.failedAt = none
  notLost : ∀ cb ∈ s.log, cb.isLost = false
  late : .eofReceived ∈ s.log → s.drain.holdsRead = false
  eofCalled : s.drain.eofRuns → .eofReceived ∈ s.log

/-- `connection_lost` will be the next callback. -/
structure Leaving (s : ReadState Byte) : Prop where
  notCalled : s.lostCalled = false
  notLost : ∀ cb ∈ s.log, cb.isLost = false
  failed : s.failedAt = none ∨ s.failedAt = some s.log.length

/-- `connection_lost` was the last callback. -/
structure Lost (s : ReadState Byte) : Prop where
  called : s.lostCalled
  lostLast : ∃ body message, s.log = body ++ [ReadCallback.connectionLost message] ∧
      (∀ cb ∈ body, cb.isLost = false) ∧
      (s.failedAt = none ∨ s.failedAt = some body.length)
  position : s.drain = .losing ∨ s.drain = .release ∨
      s.callbacksCleared ∧ s.drain.quiet

structure Ended (s : ReadState Byte) : Prop where
  inOrder : (callbackTokens s.log).Sublist (eventTokens s.accepted)
  phase : Leaving s ∨ Lost s

/-- Events are delivered in order, before and after the loss of the connection. -/
structure Delivers (s : ReadState Byte) : Prop where
  accounts : ReadAccounts s
  ordered : s.log.Pairwise ReadCallback.Precedes
  cleared : s.callbacksCleared → s.lostCalled
  live : s.isOver = false → Live s
  ended : s.isOver → Ended s

/-! ## Accounts -/

theorem accounts_new (cfg : ReadConfig) :
    ReadAccounts (ReadState.new cfg : ReadState Byte) where
  gate := rfl
  counted := rfl
  kept := List.Perm.refl _

section

variable {s : ReadState Byte} (accounts : ReadAccounts s)

include accounts

theorem ReadAccounts.enqueue (event : PendingReadEvent Byte) (fromReader : Bool) :
    ReadAccounts (s.enqueuePendingReadEvent event fromReader) := by
  unfold ReadState.enqueuePendingReadEvent
  split
  · exact { accounts with }
  · rename_i next passed
    refine ⟨?_, ?_, ?_⟩
    · change gateAfter .opened (s.accepted ++ [event]) = some next
      rw [gateAfter_append, accounts.gate]
      change gateAfter s.readEventState [event] = some next
      rw [gateAfter, passed]
      rfl
    · change s.pendingReadBytes + event.dataLen = _
      rw [accounts.counted, dataLength_append, Nat.add_assoc]
      simp [dataLength]
    · rw [← append_assoc]
      exact accounts.kept.append_right [event]

section

variable {rest : List (PendingReadEvent Byte)} (drained : s.readEventDrain = event :: rest)

include drained

theorem ReadAccounts.pop (drain : Drain Byte) :
    ReadAccounts { s with
      readEventDrain := rest
      popped := s.popped ++ [event]
      pendingReadBytes := s.pendingReadBytes - event.dataLen
      drain := drain } := by
  refine ⟨accounts.gate, ?_, ?_⟩
  · change s.pendingReadBytes - event.dataLen = dataLength rest + _
    rw [accounts.counted, drained]
    simp only [dataLength, map_cons, sum_cons]
    omega
  · have kept := accounts.kept
    rw [drained] at kept
    simpa using kept

theorem ReadAccounts.popEvent {after : AfterFlush Byte}
    (behind : Behind event after)
    (drain : Drain Byte) :
    ReadAccounts { s with
      readEventDrain := rest
      popped := s.popped ++ [event]
      drain := drain } := by
  have popped := accounts.pop drained drain
  have uncounted : event.dataLen = 0 := by cases behind <;> rfl
  rwa [uncounted] at popped

end

theorem ReadAccounts.reschedule (streamReadCommands : Nat) (drain : Drain Byte) :
    ReadAccounts { s with
      pendingReadEvents := s.readEventDrain ++ s.pendingReadEvents
      readEventDrain := []
      streamReadCommands := streamReadCommands
      drain := drain } := by
  refine ⟨accounts.gate, ?_, by simpa using accounts.kept⟩
  change s.pendingReadBytes = _
  rw [accounts.counted, dataLength_append]
  simp [dataLength]

theorem ReadAccounts.swap (drain : Drain Byte) :
    ReadAccounts
      { s with
        pendingReadEvents := s.readEventDrain
        readEventDrain := s.pendingReadEvents
        drain := drain } := by
  refine ⟨accounts.gate, accounts.counted.trans (Nat.add_comm _ _), ?_⟩
  refine List.Perm.trans ?_ accounts.kept
  rw [append_assoc, append_assoc]
  exact perm_append_comm.append_left s.popped

end

/-! ## Changes the invariant does not see -/

variable {s : ReadState Byte}

/-- Flags, counters of commands and the logs of failures and returns are free to
change. -/
theorem Delivers.frame (inv : Delivers s)
    {readEventsScheduled readPaused readBackpressured stateReading reading : Bool}
    {streamReadCommands : Nat} {reader : Reader} {tails : List ProducerTail}
    {resuming : Option Bool} {failures reports : List ProtocolFailure}
    {returns : List DrainReturn} {receivedPaused : List Byte} :
    Delivers
      { s with
        readEventsScheduled := readEventsScheduled
        streamReadCommands := streamReadCommands
        readPaused := readPaused
        readBackpressured := readBackpressured
        stateReading := stateReading
        reading := reading
        reader := reader
        tails := tails
        resuming := resuming
        failures := failures
        reports := reports
        returns := returns
        receivedPaused := receivedPaused } where
  accounts := { inv.accounts with }
  ordered := inv.ordered
  cleared := inv.cleared
  live := fun up => { inv.live up with }
  ended := fun isOver =>
    have ended := inv.ended isOver
    { inOrder := ended.inOrder
      phase := ended.phase.imp (fun leaving => { leaving with }) (fun lost => { lost with }) }

theorem Live.inOrderAll (live : Live s) :
    (callbackTokens s.log).Sublist (eventTokens s.accepted) := by
  have popped : (callbackTokens s.log).Sublist (eventTokens s.popped) :=
    (sublist_append_left _ _).trans live.inOrder
  rw [← live.events, eventTokens_append, eventTokens_append]
  exact popped.trans ((sublist_append_left _ _).trans (sublist_append_left _ _))

theorem Delivers.enqueue (inv : Delivers s)
    (event : PendingReadEvent Byte) (fromReader : Bool) :
    Delivers (s.enqueuePendingReadEvent event fromReader) := by
  have accounts := inv.accounts.enqueue event fromReader
  revert accounts
  unfold ReadState.enqueuePendingReadEvent
  split
  · intro _
    exact inv.frame
  · intro accounts
    refine ⟨accounts, inv.ordered, inv.cleared, ?_, ?_⟩
    · intro up
      have live := inv.live up
      refine { live with events := ?_ }
      rw [← append_assoc, live.events]
    · intro isOver
      have ended := inv.ended isOver
      refine ⟨?_, ended.phase.imp (fun leaving => { leaving with }) (fun lost => { lost with })⟩
      rw [eventTokens_append]
      exact ended.inOrder.trans (sublist_append_left _ _)

/-! ## Steps on a live connection -/

variable {cb : ReadCallback Byte} {s : ReadState Byte}

theorem Live.late_of (live : Live s) (called : .eofReceived ∈ s.log)
    {drain : Drain Byte}
    (late : drain.holdsRead → s.drain.holdsRead) : drain.holdsRead = false := by
  cases holds : drain.holdsRead with
  | false => rfl
  | true => cases (late holds).symm.trans (live.late called)

theorem Live.move (live : Live s) (drain : Drain Byte)
    (tokens : drain.inFlight = s.drain.inFlight) (wellFormed : drain.WellFormed)
    (emptied : drain.betweenBatches → s.readEventDrain = [])
    (late : drain.holdsRead → s.drain.holdsRead)
    (eofRuns : drain.eofRuns = false) : Live { s with drain := drain } :=
  { live with
    delivered := tokens ▸ live.delivered
    inOrder := tokens ▸ live.inOrder
    wellFormed := wellFormed
    emptied := emptied
    late := fun called => live.late_of called late
    eofCalled := fun runs => nomatch eofRuns.symm.trans runs }

/-- The drain hands the head of what it holds to the protocol. -/
theorem Live.call (live : Live s) (cb : ReadCallback Byte) (drain : Drain Byte)
    (tokens : cb.tokens ++ drain.inFlight = s.drain.inFlight)
    (wellFormed : drain.WellFormed)
    (emptied : drain.betweenBatches → s.readEventDrain = [])
    (notLost : cb.isLost = false)
    (late : drain.holdsRead → s.drain.holdsRead ∧ cb ≠ .eofReceived)
    (eofCalled : drain.eofRuns → cb = .eofReceived) :
    Live (s.invoke cb drain) := by
  have regroup : callbackTokens (s.log ++ [cb]) ++ drain.inFlight =
        callbackTokens s.log ++ s.drain.inFlight := by
    rw [callbackTokens_append, callbackTokens_singleton, append_assoc, tokens]
  exact
    { events := live.events
      delivered := by
        change _ → callbackTokens (s.log ++ [cb]) ++ drain.inFlight = _
        rw [regroup]
        exact live.delivered
      inOrder := regroup ▸ live.inOrder
      wellFormed := wellFormed
      emptied := emptied
      notFailed := live.notFailed
      notLost := forall_mem_append.mpr ⟨live.notLost, forall_mem_singleton.mpr notLost⟩
      late := by
        intro mem
        cases holds : drain.holdsRead with
        | false => exact holds
        | true =>
          obtain ⟨before, notEof⟩ := late holds
          rcases mem_append.mp mem with inLog | isLast
          · cases before.symm.trans (live.late inLog)
          · exact absurd (mem_singleton.mp isLast).symm notEof
      eofCalled := by
        intro runs
        rw [eofCalled runs]
        exact mem_append_right _ mem_cons_self }

/-- A callback may follow if it reads only while the drain holds something to
read. -/
theorem Live.ordered (live : Live s)
    (ordered : s.log.Pairwise ReadCallback.Precedes)
    (reads : cb.reads → s.drain.holdsRead) :
    (s.log ++ [cb]).Pairwise ReadCallback.Precedes := by
  rw [pairwise_append]
  refine ⟨ordered, pairwise_singleton _ _, ?_⟩
  intro earlier mem later isCallback
  rw [mem_singleton.mp isCallback]
  refine ⟨live.notLost earlier mem, ?_⟩
  intro isEof
  cases holds : cb.reads with
  | false => rfl
  | true => cases (reads holds).symm.trans (live.late (isEof ▸ mem))

theorem over_eq_false : s.isOver = false ↔
      s.lostCalled = false ∧ s.drain.leaves = false := by
  simp [ReadState.isOver]

section

variable (accounts : ReadAccounts s) (ordered : s.log.Pairwise ReadCallback.Precedes)
  (cleared : s.callbacksCleared → s.lostCalled)

include accounts ordered cleared

theorem Delivers.ofLive (up : s.isOver = false) (live : Live s) :
    Delivers s where
  accounts := accounts
  ordered := ordered
  cleared := cleared
  live := fun _ => live
  ended := fun isOver => by rw [up] at isOver; cases isOver

theorem Delivers.ofEnded (isOver : s.isOver) (ended : Ended s) :
    Delivers s where
  accounts := accounts
  ordered := ordered
  cleared := cleared
  live := fun up => by rw [isOver] at up; cases up
  ended := fun _ => ended

end

variable {reply : CallbackReply} {cfg : ReadConfig} {drain : Drain Byte}

theorem Delivers.up_of (up : s.isOver = false) (stays : drain.leaves = false) :
    ({ s with drain := drain } : ReadState Byte).isOver = false :=
  over_eq_false.mpr ⟨(over_eq_false.mp up).1, stays⟩

variable {failure : ProtocolFailure}

section

variable (inv : Delivers s) (up : s.isOver = false)

include inv up

theorem Delivers.move (drain : Drain Byte) (stays : drain.leaves = false)
    (tokens : drain.inFlight = s.drain.inFlight) (wellFormed : drain.WellFormed)
    (emptied : drain.betweenBatches → s.readEventDrain = [])
    (late : drain.holdsRead → s.drain.holdsRead)
    (eofRuns : drain.eofRuns = false) : Delivers { s with drain := drain } :=
  .ofLive { inv.accounts with } inv.ordered inv.cleared (Delivers.up_of up stays)
    ((inv.live up).move _ tokens wellFormed emptied late eofRuns)

theorem Delivers.call (cb : ReadCallback Byte) (drain : Drain Byte)
    (stays : drain.leaves = false)
    (tokens : cb.tokens ++ drain.inFlight = s.drain.inFlight)
    (wellFormed : drain.WellFormed)
    (emptied : drain.betweenBatches → s.readEventDrain = [])
    (notLost : cb.isLost = false)
    (reads : cb.reads → s.drain.holdsRead)
    (late : drain.holdsRead → s.drain.holdsRead ∧ cb ≠ .eofReceived)
    (eofCalled : drain.eofRuns → cb = .eofReceived) :
    Delivers (s.invoke cb drain) :=
  .ofLive { inv.accounts with } ((inv.live up).ordered inv.ordered reads)
    inv.cleared (Delivers.up_of up stays)
    ((inv.live up).call _ _ tokens wellFormed emptied notLost late eofCalled)

/-- The drain turns towards `connection_lost`. -/
theorem Delivers.leave (leaves : drain.leaves)
    {failures : List ProtocolFailure} {failedAt : Option Nat}
    (failed : failedAt = none ∨ failedAt = some s.log.length) :
    Delivers { s with failures := failures, failedAt := failedAt, drain := drain } := by
  have live := inv.live up
  refine .ofEnded { inv.accounts with } inv.ordered inv.cleared ?_ ?_
  · change (s.lostCalled || drain.leaves)
    rw [leaves, Bool.or_true]
  · exact
      { inOrder := live.inOrderAll
        phase := .inl
          { notCalled := (over_eq_false.mp up).1
            notLost := live.notLost
            failed := failed } }

end

theorem Live.eof_popped (live : Live s) (called : .eofReceived ∈ s.log) :
    PendingReadEvent.eof ∈ s.popped := by
  have told : ReadToken.eof ∈ callbackTokens s.log :=
    mem_flatMap.mpr ⟨_, called, mem_singleton_self _⟩
  exact eof_mem_of_token (live.inOrder.subset (mem_append_left _ told))

variable {rest : List (PendingReadEvent Byte)}

theorem Live.pop (live : Live s)
    (gate : gateAfter .opened s.accepted = some s.readEventState)
    (drained : s.readEventDrain = event :: rest) (pendingReadBytes : Nat)
    (tokens : drain.inFlight = s.drain.inFlight ++ event.tokens)
    (wellFormed : drain.WellFormed)
    (inside : drain.betweenBatches = false)
    (late : drain.holdsRead → s.drain.holdsRead ∨ event.reads)
    (eofRuns : drain.eofRuns = false) :
    Live { s with
      readEventDrain := rest
      popped := s.popped ++ [event]
      pendingReadBytes := pendingReadBytes
      drain := drain } := by
  exact
    { live with
      events := by
        rw [← live.events, drained]
        simp
      delivered := by
        intro opened
        change _ ++ drain.inFlight = _
        rw [tokens, ← append_assoc, live.delivered opened, eventTokens_append]
        simp
      inOrder := by
        change (_ ++ drain.inFlight).Sublist _
        rw [tokens, ← append_assoc, eventTokens_append]
        refine live.inOrder.append ?_
        simp
      wellFormed := wellFormed
      emptied := fun between => nomatch inside.symm.trans between
      late := by
        refine fun called => live.late_of called fun holds => ?_
        rcases late holds with held | reads
        · exact held
        · -- the gate lets nothing to read pass behind an EOF
          have behind := gate
          rw [← live.events, append_assoc, drained] at behind
          have quiet := (quiet_behind_closesGate (live.eof_popped called) rfl behind).2
          cases reads.symm.trans (quiet event (by simp))
      eofCalled := fun runs => nomatch eofRuns.symm.trans runs }

variable {d : DrainLocals Byte}

theorem tokens_of_none (none : d.pendingData = none) : d.tokens = [] := by
  simp [DrainLocals.tokens, none]

theorem append_tokens_of_none (none : d.pendingData = none)
    (tokens : List (ReadToken Byte)) :
    tokens ++ d.tokens = d.tokens ++ tokens := by
  rw [tokens_of_none none, append_nil]
  rfl

theorem tokens_of_some {data : List Byte} (some : d.pendingData = some data) :
    d.tokens = data.map .byte := by
  simp [DrainLocals.tokens, some]

variable {before : Drain Byte}

theorem Live.wellFormed_at (live : Live s) (pos : s.drain = before) :
    before.WellFormed :=
  pos ▸ live.wellFormed

variable {after : AfterFlush Byte}

theorem AfterFlush.Suits.taken (suits : after.Suits d) :
    after.Suits { d with pendingData := none } := by
  cases after with
  | startBuffer => exact suits
  | _ => trivial

/-- A closing transport drops the data it has joined. -/
theorem Live.drop (live : Live s) (closing : s.closing) {data : List Byte}
    (pos : s.drain = .flush d after) (joined : d.pendingData = some data) :
    Live { s with drain := .flushed { d with pendingData := none } after } := by
  have wellFormed := live.wellFormed_at pos
  have held : s.drain.holdsRead := by
    rw [pos]
    simp [Drain.holdsRead, joined]
  have tokens : s.drain.inFlight = d.tokens ++ after.tokens := by
    rw [pos]
    rfl
  exact
    { live with
      delivered := fun opened => by
        cases closing.symm.trans opened
      inOrder := by
        refine List.Sublist.trans ?_ live.inOrder
        rw [tokens]
        exact ((nil_sublist _).append (List.Sublist.refl _)).append_left _
      wellFormed := ⟨rfl, wellFormed.2.taken⟩
      emptied := fun ends => live.emptied (by rw [pos]; exact ends)
      late := fun called => nomatch held.symm.trans (live.late called)
      eofCalled := nofun }

section

variable (inv : Delivers s) (up : s.isOver = false)

include inv up

theorem delivers_hop {after : Drain Byte} (pos : s.drain = before)
    (hop : Hop s before after) : Delivers { s with drain := after } := by
  have live := inv.live up
  have wellFormed := live.wellFormed_at pos
  have emptied := live.emptied
  obtain ⟨notCalled, stays⟩ := over_eq_false.mp up
  rw [pos] at emptied stays
  cases hop with
  | @dropped d after _ joined unheard =>
    rcases unheard with unheard | cleared | rfl
    · have closing : s.closing := by simpa [notCalled] using unheard
      exact .ofLive { inv.accounts with } inv.ordered inv.cleared
        (Delivers.up_of up rfl) (live.drop closing pos joined)
    · cases (inv.cleared cleared).symm.trans notCalled
    · refine inv.move up _ rfl ?_ ⟨rfl, wellFormed.2.taken⟩ emptied ?_ rfl
      · rw [pos]
        change [] ++ after.tokens = d.tokens ++ after.tokens
        rw [tokens_of_some joined]
        rfl
      · rw [pos]
        simp [Drain.holdsRead, joined]
  | eofIgnored | lostNext | eofTaken => exact inv.leave up rfl (.inl live.notFailed)
  | handledFatal fatal => simp [Drain.leaves, fatal] at stays
  | alreadyLost => cases stays
  | released => cases wellFormed
  -- The joined data and the list stay as they are.
  | _ =>
    refine inv.move up _ rfl ?_ ?_ ?_ ?_ rfl
    · simp_all [Drain.inFlight, DrainLocals.tokens, AfterFlush.tokens, Drain.WellFormed]
    · simp_all [Drain.WellFormed, DrainLocals.Suited, AfterFlush.Suits]
    · first | exact emptied | exact fun _ => ‹_›
    · simp_all [Drain.holdsRead, AfterFlush.reads, Drain.WellFormed]

theorem delivers_call {after : Drain Byte}
    (pos : s.drain = before) (call : Call s cb before after) :
    Delivers (s.invoke cb after) := by
  have live := inv.live up
  have wellFormed := live.wellFormed_at pos
  have emptied := live.emptied
  rw [pos] at emptied
  -- a call with data: the drain holds what the protocol is given
  have reads {drain : Drain Byte} {cb : ReadCallback Byte}
      (held : before.holdsRead) (notEof : cb ≠ .eofReceived)
      (stays : drain.leaves = false)
      (tokens : cb.tokens ++ drain.inFlight = before.inFlight)
      (wellFormed : drain.WellFormed) (notLost : cb.isLost = false)
      (emptied : drain.betweenBatches → s.readEventDrain = [])
      (eofRuns : drain.eofRuns = false) :
      Delivers (s.invoke cb drain) := by
    rw [← pos] at held tokens
    exact inv.call up _ _ stays tokens wellFormed emptied notLost (fun _ => held)
      (fun _ => ⟨held, notEof⟩) (fun runs => by rw [eofRuns] at runs; cases runs)
  cases call with
  | feed fast =>
    have joined := wellFormed fast
    exact reads rfl (by simp) rfl (append_tokens_of_none joined _) joined rfl nofun rfl
  | @receive d after data joined =>
    refine reads (by simp [Drain.holdsRead, joined]) (by simp) rfl ?_
      ⟨rfl, wellFormed.2.taken⟩ rfl emptied rfl
    change data.map .byte ++ ([] ++ after.tokens) = d.tokens ++ after.tokens
    rw [tokens_of_some joined]
    rfl
  | @firstBuffer d after data joined =>
    refine reads (by simp [Drain.holdsRead, joined]) (by simp) rfl ?_
      ⟨rfl, wellFormed.2.taken⟩ rfl emptied rfl
    change data.map .byte ++ after.tokens = d.tokens ++ after.tokens
    rw [tokens_of_some joined]
  | nextBuffer => exact reads rfl (by simp) rfl rfl wellFormed rfl emptied rfl
  | @fill d rest after size =>
    refine reads rfl (by simp) rfl ?_ wellFormed rfl emptied rfl
    change (rest.take size).map .byte ++
      (d.tokens ++ ((rest.drop size).map .byte ++ after.tokens)) =
        d.tokens ++ (rest.map .byte ++ after.tokens)
    rw [tokens_of_none wellFormed.1, nil_append, nil_append,
      ← append_assoc, ← map_append, take_append_drop]
  | eof =>
    refine inv.call up _ _ rfl ?_ wellFormed.1 nofun rfl (fun _ => by rw [pos]; rfl) nofun
      (fun _ => rfl)
    rw [pos]
    exact append_tokens_of_none wellFormed.1 _
  | pause | resume =>
    refine inv.call up _ _ rfl ?_ wellFormed.1 nofun rfl nofun nofun nofun
    rw [pos]
    exact append_tokens_of_none wellFormed.1 _

theorem delivers_swap (pos : s.drain = .check d) :
    Delivers { s with
      pendingReadEvents := s.readEventDrain
      readEventDrain := s.pendingReadEvents
      drain := .pop d } := by
  have live := inv.live up
  have joined : d.pendingData = none := live.wellFormed_at pos
  have emptied : s.readEventDrain = [] := live.emptied (by rw [pos]; rfl)
  have moved := live.move (.pop d) (by rw [pos]; rfl) (fun _ => joined) nofun
    (fun holds => by simp [Drain.holdsRead, joined] at holds) rfl
  refine .ofLive (inv.accounts.swap _) inv.ordered inv.cleared (Delivers.up_of up rfl)
    { moved with events := ?_, emptied := nofun }
  rw [← live.events, emptied]
  simp

theorem delivers_popData {bytes : List Byte} {after : Drain Byte}
    (pos : s.drain = .pop d) (drained : s.readEventDrain = .data bytes :: rest)
    (goes : after = .join (d.count bytes) bytes ∨
      after = .relieve (d.count bytes) bytes) :
    Delivers { s with
      readEventDrain := rest
      popped := s.popped ++ [.data bytes]
      pendingReadBytes := s.pendingReadBytes - bytes.length
      drain := after } := by
  have live := inv.live up
  have suited : d.Suited := live.wellFormed_at pos
  have tokens : s.drain.inFlight = d.tokens := by rw [pos]; rfl
  rcases goes with rfl | rfl
  all_goals
    refine .ofLive (inv.accounts.pop drained _) inv.ordered inv.cleared (Delivers.up_of up rfl) ?_
    exact live.pop inv.accounts.gate drained _ (by rw [tokens]; rfl) suited rfl
      (fun _ => .inr rfl) rfl

/-- An event that is not data waits behind what has been joined. -/
theorem delivers_popEvent (pos : s.drain = .pop d)
    (drained : s.readEventDrain = event :: rest) (behind : Behind event after) :
    Delivers { s with
      readEventDrain := rest
      popped := s.popped ++ [event]
      drain := .flush d after } := by
  have live := inv.live up
  have suited : d.Suited := live.wellFormed_at pos
  have tokens : s.drain.inFlight = d.tokens := by rw [pos]; rfl
  have same : after.tokens = event.tokens := by cases behind <;> rfl
  refine .ofLive (inv.accounts.popEvent drained behind _) inv.ordered inv.cleared
    (Delivers.up_of up rfl) ?_
  refine live.pop inv.accounts.gate drained _ ?_ ⟨suited, ?_⟩ ?_ ?_ rfl
  · rw [tokens, ← same]
    rfl
  · cases behind <;> trivial
  · cases behind <;> rfl
  · intro holds
    rw [pos]
    rcases Bool.or_eq_true_iff.mp holds with joined | later
    · exact .inl joined
    · exact .inr (by cases behind <;> first | rfl | cases later)

theorem delivers_reschedule (pos : s.drain = .budget d) :
    Delivers { s with
      pendingReadEvents := s.readEventDrain ++ s.pendingReadEvents
      readEventDrain := []
      streamReadCommands := s.streamReadCommands + 1
      drain := .flush d .returnRescheduled } := by
  have live := inv.live up
  have held : s.drain.holdsRead := by
    rw [pos]
    rfl
  have tokens : (Drain.flush d .returnRescheduled).inFlight = s.drain.inFlight := by
    rw [pos]
    exact append_nil _
  refine .ofLive (inv.accounts.reschedule _ _) inv.ordered inv.cleared (Delivers.up_of up rfl) ?_
  exact
    { live with
      events := by
        rw [← live.events]
        simp
      delivered := tokens ▸ live.delivered
      inOrder := tokens ▸ live.inOrder
      wellFormed := ⟨live.wellFormed_at pos, trivial⟩
      emptied := fun _ => rfl
      late := fun called => nomatch held.symm.trans (live.late called)
      eofCalled := nofun }

theorem Delivers.flowFailed (joined : d.pendingData = none)
    (tokens : s.drain.inFlight = d.tokens) (failures : List ProtocolFailure)
    (mild : failure.fatal = false) :
    Delivers { s with failures := failures, drain := .report d failure } :=
  (inv.move up (.report d failure) mild tokens.symm joined
    nofun nofun
    rfl).frame

theorem delivers_stepDrain_up {next : ReadState Byte}
    (kept : reply.fails → s.drain.escapes = false)
    (moved : stepDrain cfg s reply = some next) : Delivers next := by
  have live := inv.live up
  obtain ⟨notCalled, stays⟩ := over_eq_false.mp up
  cases drainStep_of_stepDrain moved with
  | hop pos hop => exact delivers_hop inv up pos hop
  | call pos call => exact delivers_call inv up pos call
  | fail _ _ failing => cases failing <;> exact inv.leave up rfl (.inr rfl)
  | escape pos fails escapes =>
    rw [pos] at kept
    cases escapes <;> cases kept fails
  | flowFail pos failing =>
    have wellFormed := live.wellFormed_at pos
    cases failing with
    | pauseRunning | resumeRunning =>
      exact inv.flowFailed up wellFormed (by rw [pos]; rfl) _ rfl
    | pauseGone cleared | resumeGone cleared =>
      cases (inv.cleared cleared).symm.trans notCalled
  | @report d failure pos =>
    have wellFormed := live.wellFormed_at pos
    rw [pos] at stays
    exact (inv.move up (.handling d failure) stays (by rw [pos]; rfl)
      wellFormed nofun
      nofun rfl).frame
  | quit pos fails mild =>
    have inside := kept fails
    rw [pos] at inside
    simp [Drain.escapes, mild] at inside
  | rescheduled pos =>
    refine (inv.move up .idle rfl ?_ trivial (fun _ => live.emptied (by rw [pos]; rfl))
      nofun rfl).frame
    rw [pos]
    exact (congrArg (· ++ []) (tokens_of_none (live.wellFormed_at pos).1)).symm
  | done pos =>
    refine (inv.move up .idle rfl ?_ trivial (fun _ => live.emptied (by rw [pos]; rfl))
      nofun rfl).frame
    rw [pos]
    exact (tokens_of_none (live.wellFormed_at pos)).symm
  | swap pos => exact delivers_swap inv up pos
  | popData pos drained goes => exact delivers_popData inv up pos drained goes
  | popEvent pos drained behind => exact delivers_popEvent inv up pos drained behind
  | @relieve d data pos =>
    have wellFormed := live.wellFormed_at pos
    exact (inv.move up (.storeReading d data _) rfl (by rw [pos]; rfl)
      wellFormed nofun
      (fun _ => by rw [pos]; rfl) rfl).frame
  | @storeReading d data _ pos =>
    have wellFormed := live.wellFormed_at pos
    exact (inv.move up (.join d data) rfl (by rw [pos]; rfl)
      wellFormed nofun
      (fun _ => by rw [pos]; rfl) rfl).frame
  | reschedule pos => exact delivers_reschedule inv up pos
  | closeAfterEof pos | lose pos =>
    rw [pos] at stays
    cases stays
  | release pos | finish pos => cases live.wellFormed_at pos

end

/-! ## Steps on a connection that is over -/

variable {next : ReadState Byte}

section

variable (inv : Delivers s) (isOver : s.isOver)

include inv isOver

/-- The drain goes on towards `connection_lost`. -/
theorem Delivers.keepLeaving (leaving : Leaving s) (closing : Bool)
    (reports : List ProtocolFailure) (drain : Drain Byte)
    (leaves : drain.leaves) :
    Delivers { s with closing := closing, reports := reports, drain := drain } := by
  refine .ofEnded { inv.accounts with } inv.ordered inv.cleared ?_ ?_
  · change (s.lostCalled || drain.leaves)
    rw [leaves, Bool.or_true]
  · exact { inOrder := (inv.ended isOver).inOrder, phase := .inl { leaving with } }

theorem delivers_connectionLost (leaving : Leaving s) (message : Option String) :
    Delivers ({ s with lostCalled := true, closing := true }.invoke
      (.connectionLost message) .losing) := by
  have ordered : (s.log ++ [ReadCallback.connectionLost message]).Pairwise
        ReadCallback.Precedes := by
    rw [pairwise_append]
    refine ⟨inv.ordered, pairwise_singleton _ _, ?_⟩
    intro earlier mem later isLast
    rw [mem_singleton.mp isLast]
    exact ⟨leaving.notLost earlier mem, fun _ => rfl⟩
  refine .ofEnded { inv.accounts with } ordered (fun _ => rfl) rfl ⟨?_, .inr ?_⟩
  · change (callbackTokens (s.log ++ [.connectionLost message])).Sublist _
    rw [callbackTokens_append, callbackTokens_singleton]
    exact (append_nil _).symm ▸ (inv.ended isOver).inOrder
  · exact ⟨rfl, ⟨s.log, message, rfl, leaving.notLost, leaving.failed⟩, .inl rfl⟩

theorem delivers_stepDrain_leaving (leaving : Leaving s)
    (moved : stepDrain cfg s reply = some next) : Delivers next := by
  have leaves : s.drain.leaves := by
    simpa [ReadState.isOver, leaving.notCalled] using isOver
  cases pos : s.drain with
  | report d failure =>
    rw [pos] at leaves
    simp only [stepDrain, pos, Option.some.injEq] at moved
    exact moved ▸ inv.keepLeaving isOver leaving _ _ (.handling d failure) leaves
  | handling _ failure =>
    rw [pos] at leaves
    have lose := inv.keepLeaving isOver leaving s.closing s.reports (.lose none) rfl
    simp only [stepDrain, pos] at moved
    -- whatever the handler does with the failure, the connection is lost
    cases failure with
    | dataReceived | eofReceived => exact of_ended Delivers lose (fun _ => lose) moved
    | pauseWriting | resumeWriting => cases leaves
  | closeAfterEof =>
    simp only [stepDrain, pos, Option.some.injEq] at moved
    exact moved ▸ inv.keepLeaving isOver leaving _ _ (.lose none) rfl
  | lose message =>
    simp only [stepDrain, pos, leaving.notCalled, Bool.false_eq_true,
      if_false, Option.some.injEq] at moved
    exact moved ▸ delivers_connectionLost inv isOver leaving message
  | _ =>
    rw [pos] at leaves
    cases leaves

/-- Nothing that a quiet drain does shows to the protocol. -/
theorem Delivers.stayLost (lost : Lost s) (accounts : ReadAccounts next)
    (sameLog : next.log = s.log) (sameAccepted : next.accepted = s.accepted)
    (sameFailed : next.failedAt = s.failedAt) (called : next.lostCalled)
    (cleared : next.callbacksCleared) (quiet : next.drain.quiet) :
    Delivers next := by
  refine .ofEnded accounts (sameLog ▸ inv.ordered) (fun _ => called) ?_ ⟨?_, .inr ?_⟩
  · simp [ReadState.isOver, called]
  · rw [sameLog, sameAccepted]
    exact (inv.ended isOver).inOrder
  · refine ⟨called, ?_, .inr (.inr ⟨cleared, quiet⟩)⟩
    rw [sameLog, sameFailed]
    exact lost.lostLast

end

theorem Hop.quiet {after : Drain Byte} (hop : Hop s before after)
    (quiet : before.quiet) : after.quiet := by
  cases hop <;> first | exact quiet | rfl | cases quiet | skip
  next mild => exact (Bool.and_eq_true_iff.mp quiet).1

theorem Call.not_quiet {after : Drain Byte}
    (call : Call s cb before after) (lost : s.lostCalled)
    (cleared : s.callbacksCleared) : before.quiet = false := by
  cases call with
  | feed fast => simp [Drain.quiet, fast]
  | receive joined opened | firstBuffer joined opened => simp [lost] at opened
  | eof present | pause present | resume present => simp [cleared] at present
  | _ => rfl

theorem delivers_stepDrain_quiet
    (inv : Delivers s) (isOver : s.isOver) (lost : Lost s)
    (cleared : s.callbacksCleared) (quiet : s.drain.quiet)
    (moved : stepDrain cfg s reply = some next) : Delivers next := by
  have still {next : ReadState Byte} (accounts : ReadAccounts next) :=
    inv.stayLost isOver lost accounts
  cases drainStep_of_stepDrain moved with
  | hop pos hop =>
    rw [pos] at quiet
    exact still { inv.accounts with } rfl rfl rfl lost.called cleared (hop.quiet quiet)
  | call pos call =>
    rw [pos, call.not_quiet lost.called cleared] at quiet
    cases quiet
  | fail pos fails failing | escape pos fails failing =>
    rw [pos] at quiet
    cases failing <;> cases quiet
  | flowFail pos failing =>
    rw [pos] at quiet
    refine still { inv.accounts with } rfl rfl rfl lost.called cleared ?_
    cases failing <;> first | cases quiet | exact (Bool.and_true _).trans quiet
  | swap pos =>
    rw [pos] at quiet
    exact still (inv.accounts.swap _) rfl rfl rfl lost.called cleared quiet
  | popData pos drained goes =>
    rw [pos] at quiet
    refine still (inv.accounts.pop drained _) rfl rfl rfl lost.called cleared ?_
    rcases goes with rfl | rfl <;> exact quiet
  | popEvent pos drained behind =>
    rw [pos] at quiet
    exact still (inv.accounts.popEvent drained behind _) rfl rfl rfl lost.called cleared quiet
  | reschedule pos =>
    rw [pos] at quiet
    exact still (inv.accounts.reschedule _ _) rfl rfl rfl lost.called cleared quiet
  | report pos | relieve pos | storeReading pos =>
    rw [pos] at quiet
    exact still { inv.accounts with } rfl rfl rfl lost.called cleared quiet
  | lose _ notCalled =>
    rw [lost.called] at notCalled
    cases notCalled
  | release pos =>
    rw [pos] at quiet
    cases quiet
  -- The drain returns or goes on towards its end.
  | _ => exact still { inv.accounts with } rfl rfl rfl lost.called cleared rfl

theorem delivers_stepDrain_lost
    (inv : Delivers s) (isOver : s.isOver) (lost : Lost s)
    (moved : stepDrain cfg s reply = some next) : Delivers next := by
  have ended := inv.ended isOver
  rcases lost.position with position | position | ⟨cleared, quiet⟩
  · have released : Delivers { s with drain := .release } :=
      .ofEnded { inv.accounts with } inv.ordered inv.cleared
        (by simp [ReadState.isOver, lost.called])
        { inOrder := ended.inOrder, phase := .inr { lost with position := .inr (.inl rfl) } }
    simp only [stepDrain, position] at moved
    exact of_ended Delivers released (fun _ => released) moved
  · simp only [stepDrain, position, Option.some.injEq] at moved
    subst moved
    exact inv.stayLost isOver lost { inv.accounts with } rfl rfl rfl lost.called rfl rfl
  · exact delivers_stepDrain_quiet inv isOver lost cleared quiet moved

/-! ## Runs -/

theorem delivers_new (cfg : ReadConfig) :
    Delivers (ReadState.new cfg : ReadState Byte) := by
  refine .ofLive (accounts_new cfg) List.Pairwise.nil nofun rfl ?_
  exact
    { events := rfl
      delivered := fun _ => rfl
      inOrder := List.Sublist.refl _
      wellFormed := trivial
      emptied := fun _ => rfl
      notFailed := rfl
      notLost := nofun
      late := nofun
      eofCalled := nofun }

theorem delivers_stepDrain (inv : Delivers s)
    (kept : EscapesWhenLost s (.drain reply))
    (moved : stepDrain cfg s reply = some next) : Delivers next := by
  by_cases isOver : s.isOver
  · rcases (inv.ended isOver).phase with leaving | lost
    · exact delivers_stepDrain_leaving inv isOver leaving moved
    · exact delivers_stepDrain_lost inv isOver lost moved
  · have up : s.isOver = false := by simpa using isOver
    refine delivers_stepDrain_up inv up ?_ moved
    intro fails
    by_contra escapes
    have called := kept fails (by simpa using escapes)
    cases ((over_eq_false.mp up).1).symm.trans called

theorem delivers_startDrain (inv : Delivers s)
    (idle : s.drain.isIdle) (joined : d.pendingData = none)
    (slow : s.callbacksCleared → d.fastPath = false) (streamReadCommands : Nat) :
    Delivers { s with streamReadCommands := streamReadCommands, drain := .check d } := by
  have pos : s.drain = .idle := isIdle_iff.mp idle
  by_cases isOver : s.isOver
  · rcases (inv.ended isOver).phase with leaving | lost
    · rw [ReadState.isOver, leaving.notCalled, pos] at isOver
      cases isOver
    · have cleared : s.callbacksCleared := by
        rcases lost.position with wrong | wrong | ⟨cleared, -⟩
        · cases pos.symm.trans wrong
        · cases pos.symm.trans wrong
        · exact cleared
      exact inv.stayLost isOver lost { inv.accounts with } rfl rfl rfl lost.called
        cleared (by simp [Drain.quiet, slow cleared])
  · have up : s.isOver = false := by simpa using isOver
    have live := inv.live up
    have emptied := live.emptied (by rw [pos]; rfl)
    refine (inv.move up (.check d) rfl ?_ joined (fun _ => emptied) ?_ rfl).frame
    · rw [pos]
      exact tokens_of_none joined
    · intro holds
      simp [Drain.holdsRead, joined] at holds

/-- `close()` makes a live connection drop what it has not handed over. -/
theorem delivers_close (inv : Delivers s) : Delivers { s with closing := true } where
  accounts := { inv.accounts with }
  ordered := inv.ordered
  cleared := inv.cleared
  live := fun up =>
    { inv.live up with delivered := nofun }
  ended := fun isOver =>
    have ended := inv.ended isOver
    { inOrder := ended.inOrder
      phase := ended.phase.imp (fun leaving => { leaving with }) (fun lost => { lost with }) }

theorem delivers_readStep {action : ReadAction Byte}
    (inv : Delivers s) (kept : EscapesWhenLost s action)
    (moved : readStep cfg s action = some next) : Delivers next := by
  cases readMove_of_readStep moved with
  | enqueue event => exact inv.enqueue event false
  | producer moves =>
    rw [moves.keeps]
    exact inv.frame
  | reader read =>
    rcases stepReader_cases read with same | ⟨event, fromReader, enqueued⟩
    · rw [same]
      exact inv.frame
    · rw [enqueued]
      exact (inv.enqueue event fromReader).frame
  | startDrain idle =>
    exact delivers_startDrain inv (isIdle_iff.mpr idle) rfl (fun cleared => by simp [cleared]) _
  | drain drained => exact delivers_stepDrain inv kept drained
  | close => exact delivers_close inv
  | _ => exact inv.frame

end Rsloop.Stream
