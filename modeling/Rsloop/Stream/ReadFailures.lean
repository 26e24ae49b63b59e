import Rsloop.Stream.ReadDelivery

/-!
# Failing protocol callbacks

A failure of a data or EOF callback ends the connection, a failure of a
flow-control callback is only reported. Two paths let a failure out of the
drain instead: the delivery before the drain gives way to others, and an
exception handler that fails while a flow-control failure is reported.
-/

namespace Rsloop.Stream

open Transition List

variable {Byte : Type}

def ContainedFailures (s : ReadState Byte) : ReadAction Byte → Prop
  | .drain reply => reply.fails → s.drain.escapes = false
  | _ => True

instance (s : ReadState Byte) : DecidablePred (ContainedFailures s) := fun action =>
  match action with
  | .drain reply => inferInstanceAs (Decidable (reply.fails → s.drain.escapes = false))
  | .enqueue _ | .producer _ | .reader _ | .startDrain | .pauseReading | .resumeReading
  | .storeReading | .close => .isTrue trivial

structure FailuresStayInside (s : ReadState Byte) : Prop where
  /-- Every drain has returned without an error. -/
  drainsSucceed : ∀ drainReturn ∈ s.returns, drainReturn.ok
  /-- Events are only left behind on a lost connection or with another drain
  on its way. -/
  leftoverScheduled : ∀ drainReturn ∈ s.returns, drainReturn.leftover →
      drainReturn.lost ∨ drainReturn.rescheduled
  /-- Behind a failing data or EOF callback the protocol hears `connection_lost`
  and nothing else, and it hears it before the drain returns. -/
  lostAfterFailure : ∀ length, s.failedAt = some length →
    (∀ cb ∈ s.log.take length, cb.isLost = false) ∧
      (s.log.drop length = [] ∧ s.drain.isIdle = false ∨
        ∃ message, s.log.drop length = [.connectionLost message])
  /-- Every failure is reported before the drain returns. -/
  reported : s.drain.isIdle → s.failures = s.reports
  /-- A drain on an open connection that is up has delivered, in order, all
  that it took. -/
  deliveredInOrder : s.lostCalled = false → s.closing = false →
      s.drain.isIdle →
      callbackTokens s.log ++ eventTokens s.pendingReadEvents = eventTokens s.accepted
  /-- Nothing is ever delivered out of order. -/
  neverReordered : (callbackTokens s.log).Sublist (eventTokens s.accepted)

/-! ## Returns and reports -/

def Drain.unreported : Drain Byte → List ProtocolFailure
  | .report _ failure => [failure]
  | _ => []

/-- The positions in which another drain has just been scheduled. -/
def Drain.reschedules : Drain Byte → Bool
  | .flush _ after | .receiving _ after | .gettingBuffer _ _ after | .updating _ _ after
  | .flushed _ after => after.escapes
  | _ => false

/-- A return that leaves nothing unattended. -/
def DrainReturn.Sound (drainReturn : DrainReturn) : Prop :=
  drainReturn.ok ∧ (drainReturn.leftover →
      drainReturn.lost ∨ drainReturn.rescheduled)

structure Contained (s : ReadState Byte) : Prop where
  returned : ∀ drainReturn ∈ s.returns, drainReturn.Sound
  rescheduled : s.drain.reschedules → 0 < s.streamReadCommands
  accounted : s.failures = s.reports ++ s.drain.unreported

variable {cfg : ReadConfig} {s next : ReadState Byte}

theorem contained_new (cfg : ReadConfig) :
    Contained (ReadState.new cfg : ReadState Byte) where
  returned := nofun
  rescheduled := nofun
  accounted := rfl

section

variable (inv : Contained s) (nothing : s.drain.unreported = [])

include inv nothing

section

variable (returns : next.returns = s.returns) (reports : next.reports = s.reports)

include returns reports

theorem Contained.keep
    (failures : next.failures = s.failures ++ next.drain.unreported)
    (rescheduled : next.drain.reschedules → 0 < next.streamReadCommands) :
    Contained next := by
  refine ⟨?_, rescheduled, ?_⟩
  · rw [returns]
    exact inv.returned
  · rw [failures, reports, inv.accounted, nothing, append_nil]

theorem Contained.keepQuiet (failures : next.failures = s.failures)
    (silent : next.drain.unreported = [])
    (rescheduled : next.drain.reschedules → 0 < next.streamReadCommands) :
    Contained next := by
  refine inv.keep nothing returns reports ?_ rescheduled
  rw [failures, silent, append_nil]

theorem Contained.pass (failures : next.failures = s.failures)
    (silent : next.drain.unreported = [])
    (calm : next.drain.reschedules = false) :
    Contained next :=
  inv.keepQuiet nothing returns reports failures silent
    (fun reschedules => by simp [calm] at reschedules)

end

theorem Contained.ofReturn
    (attended : s.pendingReadEvents ++ s.readEventDrain ≠ [] →
      s.lostCalled ∨ 0 < s.streamReadCommands) :
    Contained (s.returned true) := by
  refine ⟨?_, nofun, ?_⟩
  · intro drainReturn mem
    rcases mem_append.mp mem with earlier | isLast
    · exact inv.returned drainReturn earlier
    · rw [mem_singleton.mp isLast]
      refine ⟨rfl, ?_⟩
      intro leftover
      have left : s.pendingReadEvents ++ s.readEventDrain ≠ [] := by
        intro empty
        simp [empty] at leftover
      exact (attended left).imp_right fun scheduled => by simpa using scheduled
  · have accounted := inv.accounted
    rwa [nothing] at accounted

end

theorem leaves_of_betweenBatches {drain : Drain Byte}
    (between : drain.betweenBatches) :
    drain.leaves = false := by
  cases drain with
  | report d failure | handling d failure | closeAfterEof | lose message =>
    cases between
  | _ => rfl

theorem Delivers.emptied_or_lost
    (inv : Delivers s) (between : s.drain.betweenBatches) :
    s.readEventDrain = [] ∨ s.lostCalled := by
  by_cases called : s.lostCalled
  · exact .inr called
  · have up : s.isOver = false :=
      over_eq_false.mpr ⟨by simpa using called, leaves_of_betweenBatches between⟩
    exact .inl ((inv.live up).emptied between)

theorem Delivers.lost_of_finish (inv : Delivers s) (pos : s.drain = .finish) :
    s.lostCalled := by
  by_contra called
  have up : s.isOver = false := over_eq_false.mpr ⟨by simpa using called, by rw [pos]; rfl⟩
  have wellFormed := (inv.live up).wellFormed
  rw [pos] at wellFormed
  cases wellFormed

theorem Hop.reschedules {before after : Drain Byte} (hop : Hop s before after)
    (reschedules : after.reschedules) : before.reschedules := by
  cases hop <;> exact reschedules

theorem Call.reschedules {cb : ReadCallback Byte} {before after : Drain Byte}
    (call : Call s cb before after)
    (reschedules : after.reschedules) : before.reschedules := by
  cases call <;> exact reschedules

theorem contained_stepDrain
    (delivers : Delivers s) (inv : Contained s) {reply : CallbackReply}
    (kept : reply.fails → s.drain.escapes = false)
    (moved : stepDrain cfg s reply = some next) : Contained next := by
  have scheduled := inv.rescheduled
  have unscheduled : Contained { s with readEventsScheduled := false } := { inv with }
  cases drainStep_of_stepDrain moved with
  | hop pos hop | call pos hop =>
    rw [pos] at scheduled
    refine inv.keepQuiet (by rw [pos]; cases hop <;> rfl) rfl rfl rfl ?_
      (fun reschedules => scheduled (hop.reschedules reschedules))
    cases hop <;> rfl
  | fail pos fails failing | flowFail pos failing =>
    exact inv.keep (by rw [pos]; cases failing <;> rfl) rfl rfl rfl
      nofun
  | escape pos fails escapes =>
    rw [pos] at kept
    cases escapes <;> cases kept fails
  | report pos =>
    have accounted := inv.accounted
    rw [pos] at accounted
    exact ⟨inv.returned, nofun, accounted.trans (append_nil _).symm⟩
  | quit pos fails mild =>
    have inside := kept fails
    rw [pos] at inside
    simp [Drain.escapes, mild] at inside
  | rescheduled pos =>
    rw [pos] at scheduled
    exact inv.ofReturn (by rw [pos]; rfl) (fun _ => .inr (scheduled rfl))
  | done pos empty =>
    refine unscheduled.ofReturn (by rw [pos]; rfl) ?_
    intro left
    rcases delivers.emptied_or_lost (by rw [pos]; rfl) with none | lost
    · exact absurd (by rw [empty, none]; rfl) left
    · exact .inl lost
  | finish pos =>
    exact unscheduled.ofReturn (by rw [pos]; rfl)
      (fun _ => .inl (delivers.lost_of_finish pos))
  | popData pos drained goes =>
    rcases goes with rfl | rfl
    · exact inv.pass (by rw [pos]; rfl) rfl rfl rfl rfl rfl
    · exact inv.pass (by rw [pos]; rfl) rfl rfl rfl rfl rfl
  | popEvent pos drained behind =>
    refine inv.pass (by rw [pos]; rfl) rfl rfl rfl rfl ?_
    cases behind <;> rfl
  | reschedule pos =>
    exact inv.keepQuiet (by rw [pos]; rfl) rfl rfl rfl rfl (fun _ => Nat.succ_pos _)
  | swap pos | relieve pos | storeReading pos | closeAfterEof pos
  | lose pos | release pos => exact inv.pass (by rw [pos]; rfl) rfl rfl rfl rfl rfl

theorem Contained.enqueue (inv : Contained s) (event : PendingReadEvent Byte)
    (fromReader : Bool) : Contained (s.enqueuePendingReadEvent event fromReader) := by
  unfold ReadState.enqueuePendingReadEvent
  split
  · exact { inv with }
  · exact { inv with }

theorem contained_readStep {action : ReadAction Byte} (delivers : Delivers s)
    (inv : Contained s) (kept : ContainedFailures s action)
    (moved : readStep cfg s action = some next) : Contained next := by
  cases readMove_of_readStep moved with
  | enqueue event => exact inv.enqueue event false
  | producer moves =>
    rw [moves.keeps]
    exact { inv with
      rescheduled := fun reschedules =>
        Nat.lt_of_lt_of_le (inv.rescheduled reschedules) moves.commands }
  | reader read =>
    rcases stepReader_cases read with same | ⟨event, fromReader, enqueued⟩
    · rw [same]
      exact { inv with }
    · rw [enqueued]
      exact { inv.enqueue event fromReader with }
  | startDrain idle => exact inv.pass (by rw [idle]; rfl) rfl rfl rfl rfl rfl
  | drain drained => exact contained_stepDrain delivers inv kept drained
  | _ => exact { inv with }

/-! ## Results -/

section

variable (delivers : Delivers s)

include delivers

theorem lostAfterFailure_of_delivers {length : Nat}
    (failed : s.failedAt = some length) :
    (∀ cb ∈ s.log.take length, cb.isLost = false) ∧
      (s.log.drop length = [] ∧ s.drain.isIdle = false ∨
        ∃ message, s.log.drop length = [.connectionLost message]) := by
  by_cases isOver : s.isOver
  · rcases (delivers.ended isOver).phase with leaving | lost
    · have leaves : s.drain.leaves := by
        simpa [ReadState.isOver, leaving.notCalled] using isOver
      have busy : s.drain.isIdle = false := by
        cases pos : s.drain with
        | idle =>
          rw [pos] at leaves
          cases leaves
        | _ => rfl
      rcases leaving.failed with none | here
      · cases none.symm.trans failed
      · cases here.symm.trans failed
        rw [take_length, drop_length]
        exact ⟨leaving.notLost, .inl ⟨rfl, busy⟩⟩
    · obtain ⟨body, message, log, notLost, pos⟩ := lost.lostLast
      rcases pos with none | here
      · cases none.symm.trans failed
      · cases here.symm.trans failed
        rw [log, take_left, drop_left]
        exact ⟨notLost, .inr ⟨message, rfl⟩⟩
  · have live := delivers.live (by simpa using isOver)
    cases live.notFailed.symm.trans failed

theorem delivered_of_idle (up : s.lostCalled = false)
    (opened : s.closing = false)
    (idle : s.drain = .idle) :
    callbackTokens s.log ++ eventTokens s.pendingReadEvents = eventTokens s.accepted := by
  have live := delivers.live (over_eq_false.mpr ⟨up, by rw [idle]; rfl⟩)
  have emptied := live.emptied (by rw [idle]; rfl)
  have delivered := live.delivered opened
  rw [idle] at delivered
  rw [← live.events, emptied, eventTokens_append, eventTokens_append, ← delivered]
  simp [Drain.inFlight]

theorem neverReordered_of_delivers :
    (callbackTokens s.log).Sublist (eventTokens s.accepted) := by
  by_cases isOver : s.isOver
  · exact (delivers.ended isOver).inOrder
  · exact (delivers.live (by simpa using isOver)).inOrderAll

end

/-- If no failure meets one of the two paths that let it out, failures stay
inside the transport, however events, drains, failures and the application's
own calls interleave. -/
theorem failuresStayInside_of_containedFailures
    (cfg : ReadConfig) {actions : List (ReadAction Byte)}
    {s : ReadState Byte}
    (contained :
      Guarded (readStep cfg) ContainedFailures (ReadState.new cfg) actions)
    (reached : run (readStep cfg) (ReadState.new cfg) actions = some s) :
    FailuresStayInside s := by
  obtain ⟨delivers, inv⟩ : Delivers s ∧ Contained s := by
    refine invariant_of_run (fun s => Delivers s ∧ Contained s)
      ?_ ⟨delivers_new cfg, contained_new cfg⟩ contained reached
    rintro before action after ⟨delivers, inv⟩ kept moved
    refine ⟨delivers_readStep delivers ?_ moved, contained_readStep delivers inv kept moved⟩
    -- a failure that escapes would break the condition
    cases action with
    | drain reply =>
      intro fails escapes
      cases (kept fails).symm.trans escapes
    | _ => trivial
  exact
    { drainsSucceed := fun drainReturn member =>
        (inv.returned drainReturn member).1
      leftoverScheduled := fun drainReturn member =>
        (inv.returned drainReturn member).2
      lostAfterFailure := fun _ failed =>
        lostAfterFailure_of_delivers delivers failed
      reported := by
        intro idle
        have accounted := inv.accounted
        rw [isIdle_iff.mp idle] at accounted
        exact accounted.trans (append_nil _)
      deliveredInOrder := fun up opened idle =>
        delivered_of_idle delivers up opened (isIdle_iff.mp idle)
      neverReordered := neverReordered_of_delivers delivers }

/-- `pause_writing` fails with another event behind it, then `data_received`
fails, and the handler fails with it. -/
def reportedFailures : List (ReadAction UInt8) :=
  List.flatten [[.enqueue .pauseWriting, .enqueue (.data [1, 2])],
      List.replicate 2 (.producer 0), [.startDrain],
      List.replicate 4 (.drain (.returned true)),
      -- pause_writing fails, and its failure is reported
      [.drain .raised],
      List.replicate 8 (.drain (.returned true)),
      -- data_received fails, and so does the handler
      [.drain .raised, .drain (.returned true), .drain .raised],
      List.replicate 4 (.drain (.returned true))]

theorem failuresStayInside_of_reportedFailures : ∃ s,
      run (readStep plainProtocol) (ReadState.new plainProtocol) reportedFailures = some s ∧
        s.log = [.pauseWriting, .data [1, 2], .connectionLost none] ∧
        s.reports = [.pauseWriting, .dataReceived] ∧
        FailuresStayInside s := by
  refine exists_run_imp (fun s => s.log = [.pauseWriting, .data [1, 2], .connectionLost
      none] ∧ s.reports = [.pauseWriting, .dataReceived]) (by decide) ?_
  rintro s reached ⟨log, reports⟩
  exact ⟨log, reports, failuresStayInside_of_containedFailures plainProtocol (by decide) reached⟩

/-- Seventeen chunks wait. The drain gives way after sixteen, and the
`data_received` call before it returns fails. -/
def failureOnBudget : List (ReadAction UInt8) :=
  List.flatten [List.replicate 17 (.enqueue (.data [0])), List.replicate 3 (.producer 0),
      [.startDrain], List.replicate 66 (.drain (.returned true)),
      [.drain .raised]]

/-- `pause_writing` fails, and so does the handler. -/
def failureOfHandler : List (ReadAction UInt8) :=
  List.flatten [[.enqueue .pauseWriting, .enqueue .resumeWriting],
      List.replicate 2 (.producer 0), [.startDrain],
      List.replicate 4 (.drain (.returned true)),
      [.drain .raised, .drain (.returned true), .drain .raised]]

/-- Both failures leave the drain. The first is not reported and the connection
is not lost, the second strands an event. -/
theorem failures_escape_drain : (∃ s,
      run (readStep plainProtocol) (ReadState.new plainProtocol) failureOnBudget = some s ∧
        s.returns = [⟨false, true, false, true⟩] ∧
        s.failures = [.dataReceived] ∧ s.reports = [] ∧
        s.log = [.data (List.replicate 16 0)] ∧
        s.drain = .idle) ∧
    ∃ s, run (readStep plainProtocol) (ReadState.new plainProtocol)
          failureOfHandler = some s ∧
        s.returns = [⟨false, true, false, false⟩] ∧
        s.drain = .idle := by
  constructor
  · exact exists_run_of_any _ _ _ _ (by decide)
  · exact exists_run_of_any _ _ _ _ (by decide)

end Rsloop.Stream
