import Rsloop.Stream.ReadDelivery

/-!
# End-to-end read delivery

Without failing callbacks and without a `close()` of the application, the
protocol receives exactly the data that passed the gate: a part of it at every
moment, and all of it before the EOF and the loss.
-/

namespace Rsloop.Stream

open Transition List

variable {Byte : Type}

def Drain.handles : Drain Byte → Bool
  | .handling _ _ => true
  | _ => false

def Drain.reporting : Drain Byte → Bool
  | .report _ _ | .handling _ _ => true
  | _ => false

/-- The application does not close the transport and its protocol does not
fail. The exception handler may. -/
def Undisturbed (s : ReadState Byte) : ReadAction Byte → Prop
  | .close => False
  | .drain reply => reply.fails → s.drain.handles
  | _ => True

instance (s : ReadState Byte) : DecidablePred (Undisturbed s) :=
  fun action =>
    match action with
    | .close => .isFalse id
    | .drain reply =>
      inferInstanceAs (Decidable (reply.fails → s.drain.handles))
    | .enqueue _ | .producer _ | .reader _ | .startDrain | .pauseReading | .resumeReading
    | .storeReading => .isTrue trivial

/-- What a drain has taken off its list and not handed over. -/
def Drain.heldBytes (drain : Drain Byte) : List Byte :=
  tokenBytes drain.inFlight

structure ReadsEndToEnd (s : ReadState Byte) : Prop where
  /-- What the protocol has received is the beginning of what was accepted. -/
  isPrefix : callbackBytes s.log <+: eventBytes s.accepted
  /-- Once nothing waits anywhere, it is all of it. -/
  delivered : s.pendingReadEvents = [] → s.readEventDrain = [] →
      s.drain.heldBytes = [] →
      callbackBytes s.log = eventBytes s.accepted
  /-- Nothing comes behind `connection_lost`, and neither data nor another EOF
  behind an EOF. -/
  ordered : s.log.Pairwise ReadCallback.Precedes
  /-- All data comes before the EOF and before the loss. -/
  dataFirst : ∀ earlier callback later, s.log = earlier ++ callback :: later →
      callback = .eofReceived ∨ callback.isLost →
      callbackBytes earlier = eventBytes s.accepted
  /-- Events are popped at most once and in all, and the counter tells how much
  of the accepted data has not been popped. -/
  kept : (s.popped ++ s.readEventDrain ++ s.pendingReadEvents).Perm s.accepted
  counted : s.pendingReadBytes =
      dataLength s.readEventDrain + dataLength s.pendingReadEvents

/-! ## What a step of the drain can do -/

/-- The positions in which the connection turns towards its loss without a
failure. -/
def Drain.turns : Drain Byte → Bool
  | .flushed _ .deliverEof | .flushed _ (.deliverLost _) | .eofRunning _ => true
  | _ => false

structure DrainMoves (reply : CallbackReply) (s next : ReadState Byte) : Prop where
  accepted : next.accepted = s.accepted
  readEventState : next.readEventState = s.readEventState
  log : next.log = s.log ∨ ∃ cb, next.log = s.log ++ [cb]
  failedAt : (reply.fails → s.drain.handles) → next.failedAt = s.failedAt
  closing : next.closing = s.closing ∨ next.isOver
  lostCalled : s.lostCalled → next.lostCalled
  called : next.lostCalled → s.isOver
  reporting : next.drain.reporting → s.drain.reporting ∨
      reply.fails ∧ s.drain.handles = false ∨
      s.callbacksCleared
  leaves : next.drain.leaves → s.drain.leaves ∨
      reply.fails ∧ s.drain.handles = false ∨
      s.drain.turns

variable {cfg : ReadConfig} {s next : ReadState Byte} {reply : CallbackReply}

/-- A step that neither reports nor turns towards the loss. -/
theorem DrainMoves.plain (accepted : next.accepted = s.accepted)
    (readEventState : next.readEventState = s.readEventState)
    (log : next.log = s.log ∨ ∃ cb, next.log = s.log ++ [cb])
    (failedAt : next.failedAt = s.failedAt) (closing : next.closing = s.closing)
    (lostCalled : next.lostCalled = s.lostCalled)
    (silent : next.drain.reporting = false)
    (stays : next.drain.leaves = false) : DrainMoves reply s next where
  accepted := accepted
  readEventState := readEventState
  log := log
  failedAt := fun _ => failedAt
  closing := .inl closing
  lostCalled := fun called => lostCalled.trans called
  called := fun called => by simp [ReadState.isOver, lostCalled.symm.trans called]
  reporting := fun reports => by simp [silent] at reports
  leaves := fun leaves => by simp [stays] at leaves

theorem DrainMoves.ofFailure (fails : reply.fails)
    (proto : s.drain.handles = false)
    (accepted : next.accepted = s.accepted)
    (readEventState : next.readEventState = s.readEventState)
    (log : next.log = s.log)
    (closing : next.closing = s.closing)
    (lostCalled : next.lostCalled = s.lostCalled) :
    DrainMoves reply s next where
  accepted := accepted
  readEventState := readEventState
  log := .inl log
  failedAt := fun undisturbed => by
    cases (undisturbed fails).symm.trans proto
  closing := .inl closing
  lostCalled := fun called => lostCalled.trans called
  called := fun called => by simp [ReadState.isOver, lostCalled.symm.trans called]
  reporting := fun _ => .inr (.inl ⟨fails, proto⟩)
  leaves := fun _ => .inr (.inl ⟨fails, proto⟩)

variable {before after : Drain Byte}

theorem Hop.reporting (hop : Hop s before after) : after.reporting = false := by
  cases hop <;> rfl

theorem Hop.leaves (hop : Hop s before after)
    (leaves : after.leaves) : before.leaves ∨ before.turns := by
  cases hop with
  | handledFatal fatal => exact .inl fatal
  | eofIgnored | lostNext | eofTaken => exact .inr rfl
  | _ => cases leaves

theorem drainMoves_hop (pos : s.drain = before) (hop : Hop s before after) :
    DrainMoves reply s { s with drain := after } where
  accepted := rfl
  readEventState := rfl
  log := .inl rfl
  failedAt := fun _ => rfl
  closing := .inl rfl
  lostCalled := id
  called := fun called => by
    change s.lostCalled at called
    simp [ReadState.isOver, called]
  reporting := fun reports => by
    cases hop.reporting.symm.trans reports
  leaves := fun leaves => by
    rw [pos]
    exact (hop.leaves leaves).imp_right .inr

/-- Without a protocol the flow-control call fails on its own. -/
theorem DrainMoves.ofCleared (cleared : s.callbacksCleared)
    (d : DrainLocals Byte)
    {failure : ProtocolFailure} (mild : failure.fatal = false)
    (failures : List ProtocolFailure) :
    DrainMoves reply s { s with
      failures := failures
      drain := .report d failure } where
  accepted := rfl
  readEventState := rfl
  log := .inl rfl
  failedAt := fun _ => rfl
  closing := .inl rfl
  lostCalled := id
  called := fun called => by
    change s.lostCalled at called
    simp [ReadState.isOver, called]
  reporting := fun _ => .inr (.inr cleared)
  leaves := fun leaves => by
    change failure.fatal at leaves
    cases mild.symm.trans leaves

/-- A step on the way to `connection_lost` or behind it. -/
theorem DrainMoves.ofLeaving (leaves : s.drain.leaves)
    (accepted : next.accepted = s.accepted)
    (readEventState : next.readEventState = s.readEventState)
    (log : next.log = s.log ∨ ∃ cb, next.log = s.log ++ [cb])
    (failedAt : next.failedAt = s.failedAt)
    (closing : next.closing = s.closing ∨ next.isOver)
    (lostCalled : s.lostCalled → next.lostCalled)
    (silent : next.drain.reporting → s.drain.reporting) :
    DrainMoves reply s next where
  accepted := accepted
  readEventState := readEventState
  log := log
  failedAt := fun _ => failedAt
  closing := closing
  lostCalled := lostCalled
  called := fun _ => by simp [ReadState.isOver, leaves]
  reporting := fun reports => .inl (silent reports)
  leaves := fun _ => .inl leaves

theorem drainMoves_stepDrain (moved : stepDrain cfg s reply = some next) :
    DrainMoves reply s next := by
  cases drainStep_of_stepDrain moved with
  | hop pos hop => exact drainMoves_hop pos hop
  | call _ call =>
    refine .plain rfl rfl (.inr ⟨_, rfl⟩) rfl rfl rfl ?_ ?_
    · cases call <;> rfl
    · cases call <;> rfl
  | fail pos fails failing | escape pos fails failing =>
    exact .ofFailure fails (by rw [pos]; cases failing <;> rfl) rfl rfl rfl rfl rfl
  | flowFail pos failing =>
    cases failing with
    | pauseRunning raised | resumeRunning raised =>
      exact .ofFailure (fails_of_raised raised) (by rw [pos]; rfl) rfl rfl rfl rfl rfl
    | pauseGone cleared | resumeGone cleared => exact .ofCleared cleared _ rfl _
  | report pos =>
    exact
      { accepted := rfl
        readEventState := rfl
        log := .inl rfl
        failedAt := fun _ => rfl
        closing := .inl rfl
        lostCalled := id
        called := fun called => by
          change s.lostCalled at called
          simp [ReadState.isOver, called]
        reporting := fun _ => .inl (by rw [pos]; rfl)
        leaves := fun leaves => .inl (by rw [pos]; exact leaves) }
  | popData _ _ goes =>
    rcases goes with rfl | rfl
    · exact .plain rfl rfl (.inl rfl) rfl rfl rfl rfl rfl
    · exact .plain rfl rfl (.inl rfl) rfl rfl rfl rfl rfl
  | closeAfterEof pos =>
    exact .ofLeaving (by rw [pos]; rfl) rfl rfl (.inl rfl) rfl
      (.inr (Bool.or_true _)) id (by rintro ⟨⟩)
  | lose pos =>
    exact .ofLeaving (by rw [pos]; rfl) rfl rfl (.inr ⟨_, rfl⟩) rfl
      (.inr rfl) (fun _ => rfl) (by rintro ⟨⟩)
  | _ => exact .plain rfl rfl (.inl rfl) rfl rfl rfl rfl rfl

/-! ## The invariant -/

structure Complete (s : ReadState Byte) : Prop where
  calm : s.drain.reporting → s.lostCalled
  notFailed : s.failedAt = none
  opened : s.closing → s.isOver
  told : s.isOver → callbackBytes s.log = eventBytes s.accepted ∧
      s.readEventState ≠ .opened

theorem complete_new (cfg : ReadConfig) :
    Complete (ReadState.new cfg : ReadState Byte) where
  calm := nofun
  notFailed := rfl
  opened := nofun
  told := fun isOver => by cases isOver

theorem callbackBytes_append (earlier later : List (ReadCallback Byte)) :
    callbackBytes (earlier ++ later) = callbackBytes earlier ++ callbackBytes later := by
  rw [callbackBytes, callbackTokens_append, tokenBytes_append]
  rfl

theorem eventBytes_append (earlier later : List (PendingReadEvent Byte)) :
    eventBytes (earlier ++ later) = eventBytes earlier ++ eventBytes later := by
  rw [eventBytes, eventTokens_append, tokenBytes_append]
  rfl

/-- Once an EOF or a loss has been popped and the drain holds no bytes, all
accepted data has been delivered. -/
theorem Live.told (live : Live s)
    (gate : gateAfter .opened s.accepted = some s.readEventState)
    (opened : s.closing = false) {event : PendingReadEvent Byte}
    (mem : event ∈ s.popped)
    (closes : event.closesGate) (held : s.drain.heldBytes = []) :
    callbackBytes s.log = eventBytes s.accepted ∧ s.readEventState ≠ .opened := by
  rw [← live.events, append_assoc] at gate
  obtain ⟨notOpened, quiet⟩ := quiet_behind_closesGate mem closes gate
  have waiting : eventBytes (s.readEventDrain ++ s.pendingReadEvents) = [] :=
    eventBytes_of_quiet quiet
  have popped : callbackBytes s.log = eventBytes s.popped := by
    rw [eventBytes, ← live.delivered opened, tokenBytes_append]
    exact (append_nil _).symm.trans (by rw [← held]; rfl)
  refine ⟨?_, notOpened⟩
  rw [popped, ← live.events, append_assoc, eventBytes_append, waiting, append_nil]

theorem Live.token_popped (live : Live s) {token : ReadToken Byte}
    (mem : token ∈ s.drain.inFlight) : token ∈ eventTokens s.popped :=
  live.inOrder.subset (mem_append_right _ mem)

/-- A connection that turns towards its loss has delivered everything. -/
theorem Live.told_of_turns (live : Live s)
    (gate : gateAfter .opened s.accepted = some s.readEventState)
    (opened : s.closing = false) (turns : s.drain.turns) :
    callbackBytes s.log = eventBytes s.accepted ∧ s.readEventState ≠ .opened := by
  have wellFormed := live.wellFormed
  cases pos : s.drain with
  | flushed d after =>
    rw [pos] at turns wellFormed
    have tokens : s.drain.inFlight = after.tokens := by
      rw [pos]
      change d.tokens ++ after.tokens = _
      rw [tokens_of_none wellFormed.1]
      rfl
    cases after with
    | deliverEof =>
      have popped := eof_mem_of_token
        (live.token_popped (by rw [tokens]; exact mem_singleton_self _))
      exact live.told gate opened popped rfl (by rw [Drain.heldBytes, tokens]; rfl)
    | deliverLost =>
      obtain ⟨_, popped⟩ := lost_mem_of_token
        (live.token_popped (by rw [tokens]; exact mem_singleton_self _))
      exact live.told gate opened popped rfl (by rw [Drain.heldBytes, tokens]; rfl)
    | _ => cases turns
  | eofRunning d =>
    rw [pos] at wellFormed
    have called := live.eofCalled (by rw [pos]; rfl)
    have held : s.drain.heldBytes = [] := by
      rw [pos]
      change tokenBytes d.tokens = []
      rw [tokens_of_none wellFormed]
      rfl
    exact live.told gate opened (live.eof_popped called) rfl held
  | _ =>
    rw [pos] at turns
    cases turns

theorem over_of_stepDrain (isOver : s.isOver)
    (moved : stepDrain cfg s reply = some next) : next.isOver := by
  have moves := drainMoves_stepDrain moved
  by_cases called : s.lostCalled
  · simp [ReadState.isOver, moves.lostCalled called]
  · have leaves : s.drain.leaves := by
      simpa [ReadState.isOver, called] using isOver
    have lose : ended reply { s with drain := .lose none }
        { s with drain := .lose none } = some next → next.isOver := by
      intro answered
      cases reply with
      | buffer => cases answered
      | _ =>
        cases answered
        exact Bool.or_true _
    cases pos : s.drain with
    | report _ failure =>
      rw [pos] at leaves
      simp only [stepDrain, pos, Option.some.injEq] at moved
      subst moved
      change (s.lostCalled || failure.fatal)
      rw [show failure.fatal from leaves, Bool.or_true]
    | handling _ failure =>
      rw [pos] at leaves
      simp only [stepDrain, pos] at moved
      cases failure with
      | dataReceived | eofReceived => exact lose moved
      | pauseWriting | resumeWriting => cases leaves
    | closeAfterEof =>
      simp only [stepDrain, pos, Option.some.injEq] at moved
      subst moved
      exact Bool.or_true _
    | lose =>
      simp only [stepDrain, pos] at moved
      rw [if_neg called, Option.some.injEq] at moved
      subst moved
      rfl
    | _ =>
      rw [pos] at leaves
      cases leaves

/-- Behind the end of the data no callback brings bytes. -/
theorem bytes_unchanged (delivers : Delivers next) (isOver : next.isOver)
    (accepted : next.accepted = s.accepted)
    (log : next.log = s.log ∨ ∃ cb, next.log = s.log ++ [cb])
    (told : callbackBytes s.log = eventBytes s.accepted) :
    callbackBytes next.log = eventBytes next.accepted := by
  rcases log with same | ⟨cb, called⟩
  · rw [same, accepted, told]
  · have inOrder := (delivers.ended isOver).inOrder
    have bytes : (callbackBytes next.log).Sublist (eventBytes next.accepted) := inOrder.filterMap _
    rw [accepted, ← told, called, callbackBytes_append] at bytes
    have short := bytes.length_le
    rw [length_append] at short
    have nothing : callbackBytes [cb] = [] := length_eq_zero_iff.mp (by omega)
    rw [accepted, ← told, called, callbackBytes_append, nothing, append_nil]

theorem complete_stepDrain
    (delivers : Delivers s) (after : Delivers next) (inv : Complete s)
    (undisturbed : reply.fails → s.drain.handles)
    (moved : stepDrain cfg s reply = some next) : Complete next := by
  have moves := drainMoves_stepDrain moved
  have noFailure : ¬ (reply.fails ∧ s.drain.handles = false) := by
    rintro ⟨fails, proto⟩
    cases (undisturbed fails).symm.trans proto
  refine ⟨?_, (moves.failedAt undisturbed).trans inv.notFailed, ?_, ?_⟩
  · intro reports
    rcases moves.reporting reports with before | failed | cleared
    · exact moves.lostCalled (inv.calm before)
    · exact absurd failed noFailure
    · exact moves.lostCalled (delivers.cleared cleared)
  · intro closing
    rcases moves.closing with same | isOver
    · exact over_of_stepDrain (inv.opened (same.symm.trans closing)) moved
    · exact isOver
  · intro isOver
    rw [moves.readEventState]
    by_cases before : s.isOver
    · obtain ⟨told, notOpened⟩ := inv.told before
      exact ⟨bytes_unchanged after isOver moves.accepted moves.log told, notOpened⟩
    · have up : s.isOver = false := by simpa using before
      have opened : s.closing = false := by
        by_contra closing
        exact before (inv.opened (by simpa using closing))
      have notCalled : next.lostCalled = false := by
        by_contra called
        exact before (moves.called (by simpa using called))
      have leaves : next.drain.leaves := by
        simpa [ReadState.isOver, notCalled] using isOver
      have turns : s.drain.turns := by
        rcases moves.leaves leaves with already | failed | turns
        · cases ((over_eq_false.mp up).2).symm.trans already
        · exact absurd failed noFailure
        · exact turns
      obtain ⟨told, notOpened⟩ := (delivers.live up).told_of_turns
        delivers.accounts.gate opened turns
      exact ⟨bytes_unchanged after isOver moves.accepted moves.log told, notOpened⟩

theorem Complete.enqueue (inv : Complete s) (event : PendingReadEvent Byte)
    (fromReader : Bool) : Complete (s.enqueuePendingReadEvent event fromReader) := by
  unfold ReadState.enqueuePendingReadEvent
  split
  · exact { inv with }
  · rename_i next passed
    have told : s.isOver →
        callbackBytes s.log = eventBytes (s.accepted ++ [event]) ∧ next ≠ .opened := by
      intro isOver
      obtain ⟨told, notOpened⟩ := inv.told isOver
      obtain ⟨stillClosed, quiet⟩ := transition_of_not_opened notOpened passed
      have nothing : eventBytes [event] = [] := by
        refine eventBytes_of_quiet ?_
        intro other mem
        rwa [mem_singleton.mp mem]
      rw [eventBytes_append, nothing, append_nil]
      exact ⟨told, stillClosed⟩
    exact { inv with told := told }

theorem complete_readStep {action : ReadAction Byte} (delivers : Delivers s)
    (after : Delivers next) (inv : Complete s)
    (undisturbed : Undisturbed s action)
    (moved : readStep cfg s action = some next) : Complete next := by
  cases readMove_of_readStep moved with
  | enqueue event => exact inv.enqueue event false
  | producer moves =>
    rw [moves.keeps]
    exact { inv with }
  | reader read =>
    rcases stepReader_cases read with same | ⟨event, fromReader, enqueued⟩
    · rw [same]
      exact { inv with }
    · rw [enqueued]
      exact { inv.enqueue event fromReader with }
  | startDrain idle =>
    have isOver : s.isOver = (s.lostCalled || false) := by
      rw [ReadState.isOver, idle]
      rfl
    exact
      { calm := by rintro ⟨⟩
        notFailed := inv.notFailed
        opened := fun closing => isOver.symm.trans (inv.opened closing)
        told := fun called => inv.told (isOver.trans called) }
  | drain drained => exact complete_stepDrain delivers after inv undisturbed drained
  | close => cases undisturbed
  | _ => exact { inv with }

theorem Complete.escapesWhenLost (inv : Complete s) {action : ReadAction Byte}
    (undisturbed : Undisturbed s action) : EscapesWhenLost s action := by
  cases action with
  | drain =>
    intro fails _
    have handles := undisturbed fails
    refine inv.calm ?_
    cases pos : s.drain with
    | handling => rfl
    | _ =>
      rw [pos] at handles
      cases handles
  | _ => trivial

/-! ## Results -/

/-- A drain on a live connection that holds nothing to read holds no bytes. -/
theorem heldBytes_of_not_holdsRead {drain : Drain Byte}
    (wellFormed : drain.WellFormed)
    (stays : drain.leaves = false) (holds : drain.holdsRead = false) :
    drain.heldBytes = [] := by
  have joined : ∀ d : DrainLocals Byte, d.pendingData.isSome = false →
      d.tokens = [] := fun d none =>
    tokens_of_none (Option.not_isSome_iff_eq_none.mp (by simp [none]))
  have quiet : ∀ after : AfterFlush Byte, after.reads = false → tokenBytes after.tokens = [] := by
    intro after reads
    cases after with
    | startBuffer => cases reads
    | _ => rfl
  unfold Drain.heldBytes
  cases drain with
  | check d | pop d => rw [Drain.inFlight, joined d holds]; rfl
  | flush d after =>
    obtain ⟨none, reads⟩ := Bool.or_eq_false_iff.mp holds
    rw [Drain.inFlight, joined d none]
    exact quiet after reads
  | flushed _ after =>
    rw [Drain.inFlight, tokens_of_none wellFormed.1]
    exact quiet after holds
  | eofRunning d | pauseRunning d | resumeRunning d | report d failure
  | handling => rw [Drain.inFlight, tokens_of_none wellFormed]; rfl
  | idle => rfl
  | closeAfterEof | lose message => cases stays
  | losing | release | finish => cases wellFormed
  | _ => cases holds

/-- Behind an EOF or a loss no callback brings bytes. -/
theorem callbackBytes_of_precedes {cb : ReadCallback Byte}
    {later : List (ReadCallback Byte)}
    (ends : cb = .eofReceived ∨ cb.isLost)
    (behind : ∀ other ∈ later, cb.Precedes other) : callbackBytes later = [] := by
  induction later with
  | nil => rfl
  | cons other _ ih =>
    have laterBytes := ih fun next mem =>
      behind next (mem_cons_of_mem _ mem)
    obtain ⟨notLost, quiet⟩ := behind other mem_cons_self
    rcases ends with isEof | isLost
    · have noRead := quiet isEof
      rw [← singleton_append, callbackBytes_append, laterBytes, append_nil]
      cases other with
      | data => cases noRead
      | _ => rfl
    · cases isLost.symm.trans notLost

/-- All data has been delivered as soon as the protocol has heard of the EOF
or of the loss. -/
theorem Complete.told_of_ended (inv : Complete s) (delivers : Delivers s)
    {cb : ReadCallback Byte} (mem : cb ∈ s.log)
    (ends : cb = .eofReceived ∨ cb.isLost) :
    callbackBytes s.log = eventBytes s.accepted := by
  by_cases isOver : s.isOver
  · exact (inv.told isOver).1
  · have up : s.isOver = false := by simpa using isOver
    have live := delivers.live up
    have opened : s.closing = false := by
      by_contra closing
      exact isOver (inv.opened (by simpa using closing))
    rcases ends with rfl | isLost
    · have held := heldBytes_of_not_holdsRead live.wellFormed
        (over_eq_false.mp up).2 (live.late mem)
      exact (live.told delivers.accounts.gate opened (live.eof_popped mem) rfl held).1
    · cases (live.notLost cb mem).symm.trans isLost

theorem Complete.readsEndToEnd (inv : Complete s) (delivers : Delivers s) :
    ReadsEndToEnd s := by
  have live : s.isOver = false → Live s ∧
      callbackBytes s.log ++ s.drain.heldBytes = eventBytes s.popped := by
    intro up
    have live := delivers.live up
    have opened : s.closing = false := by
      by_contra closing
      cases (inv.opened (by simpa using closing)).symm.trans up
    refine ⟨live, ?_⟩
    rw [eventBytes, ← live.delivered opened, tokenBytes_append]
    rfl
  refine ⟨?_, ?_, delivers.ordered, ?_, delivers.accounts.kept, delivers.accounts.counted⟩
  · by_cases isOver : s.isOver
    · exact (inv.told isOver).1 ▸ prefix_rfl
    · obtain ⟨live, popped⟩ := live (by simpa using isOver)
      rw [← live.events, append_assoc, eventBytes_append, ← popped, append_assoc]
      exact prefix_append _ _
  · intro noneQueued noneDrained noneHeld
    by_cases isOver : s.isOver
    · exact (inv.told isOver).1
    · obtain ⟨live, popped⟩ := live (by simpa using isOver)
      rw [noneHeld, append_nil] at popped
      rw [← live.events, noneQueued, noneDrained, popped]
      simp
  · intro earlier cb later log ends
    have told := inv.told_of_ended delivers (by rw [log]; simp) ends
    have ordered := delivers.ordered
    rw [log, pairwise_append] at ordered
    have behind := (pairwise_cons.mp ordered.2.1).1
    have noBytes : callbackBytes (cb :: later) = [] := by
      rw [← singleton_append, callbackBytes_append,
        callbackBytes_of_precedes ends behind, append_nil]
      cases cb with
      | data => simp [ReadCallback.isLost] at ends
      | _ => rfl
    rw [← told, log, callbackBytes_append, noBytes, append_nil]

/-- End-to-end read delivery, for every interleaving of producers, the reader
and drains without failing callbacks and without `close()`. -/
theorem readsEndToEnd_of_undisturbed (cfg : ReadConfig)
    {actions : List (ReadAction Byte)}
    {s : ReadState Byte}
    (undisturbed :
      Guarded (readStep cfg) Undisturbed (ReadState.new cfg) actions)
    (reached : run (readStep cfg) (ReadState.new cfg) actions = some s) :
    ReadsEndToEnd s := by
  obtain ⟨delivers, inv⟩ : Delivers s ∧ Complete s := by
    refine invariant_of_run (fun s => Delivers s ∧ Complete s)
      ?_ ⟨delivers_new cfg, complete_new cfg⟩ undisturbed reached
    rintro before action after ⟨delivers, inv⟩ calm moved
    have delivered := delivers_readStep delivers (inv.escapesWhenLost calm) moved
    exact ⟨delivered, complete_readStep delivers delivered inv calm moved⟩
  exact inv.readsEndToEnd delivers

/-- Two chunks and an EOF arrive and are drained; the protocol closes. -/
def drainedToEof : List (ReadAction UInt8) :=
  List.flatten [[.enqueue (.data [1, 2]), .enqueue (.data [3])],
      List.replicate 3 (.producer 0), [.enqueue .eof, .startDrain],
      List.replicate 13 (.drain (.returned true)),
      List.replicate 6 (.drain (.returned false))]

theorem readsEndToEnd_of_drainedToEof : ∃ s,
      run (readStep plainProtocol) (ReadState.new plainProtocol) drainedToEof = some s ∧
        s.log = [.data [1, 2, 3], .eofReceived, .connectionLost none] ∧
        ReadsEndToEnd s := by
  refine exists_run_imp
    (fun s => s.log = [.data [1, 2, 3], .eofReceived, .connectionLost none]) (by decide) ?_
  rintro s reached log
  exact ⟨log, readsEndToEnd_of_undisturbed plainProtocol (by decide) reached⟩

/-- One chunk arrives, and the drain has only popped it. -/
def chunkInHand : List (ReadAction UInt8) :=
  [.enqueue (.data [1]), .producer 0, .producer 0, .producer 0, .startDrain,
    .drain (.returned true), .drain (.returned true)]

/-- With the queue and the drain list empty, data can still be in the hand of
the drain. -/
theorem undelivered_with_empty_lists : ∃ s,
      run (readStep plainProtocol) (ReadState.new plainProtocol) chunkInHand = some s ∧
        s.pendingReadEvents = [] ∧ s.readEventDrain = [] ∧
        callbackBytes s.log = [] ∧ eventBytes s.accepted = [1] :=
  exists_run_of_any _ _ _ _ (by decide)

end Rsloop.Stream
