import Rsloop.Process.Lifecycle

/-!
# Subprocess callbacks that fail

A failed callback ends the drain with `connection_lost`. That is the one call of it,
and a late enough one, if the child has exited, its pipes are closed, and nothing is
queued behind the batch of the failed callback that would ask the released protocol
for another callback.
-/

namespace Rsloop.Process

open Transition PendingProcessEvent List ProcessTransportCore

/-- Waiting for the child does not fail, and a callback fails only at the end of the
lifecycle. -/
def FailsLast (core : ProcessTransportCore) : ProcessAction → Prop
  | .deliver raises =>
    ∀ event ∈ core.drain.drained.head?, event.isConnectionLost = false →
      raises ∨ event.hasPayload core.textConfig = false →
        core.exited ∧ core.openPipes = [] ∧
          ∀ other ∈ core.pendingEvents, other.isConnectionLost
  | .failWait => False
  | _ => True

instance decidableFailsLast (core : ProcessTransportCore) :
    ∀ action, Decidable (FailsLast core action)
  | .deliver raises =>
    inferInstanceAs (Decidable
      (∀ event ∈ core.drain.drained.head?, event.isConnectionLost = false →
        raises ∨ event.hasPayload core.textConfig = false →
          core.exited ∧ core.openPipes = [] ∧
            ∀ other ∈ core.pendingEvents, other.isConnectionLost))
  | .failWait => .isFalse id
  | .read _ _ | .announceData _ | .closePipe _ _ | .loseStdin | .exitAfterStdin
  | .observeExit _ | .checkStdin | .reportExit | .disconnect | .publish | .startDrain
  | .take => .isTrue trivial

variable {pipes : List Nat} {core next : ProcessTransportCore} {action : ProcessAction}

/-! ## Nothing queued is forgotten -/

/-- Every event that the holder of the lock pushes is announced behind it. -/
def Announced : List Publication → Prop
  | [] => True
  | .push _ :: rest => .announce ∈ rest ∧ Announced rest
  | .announce :: rest => Announced rest

theorem announced_append_enqueuePendingEvent {publications : List Publication}
    (announced : Announced publications) (event : PendingProcessEvent) :
    Announced (publications ++ enqueuePendingEvent event) := by
  induction publications with
  | nil => exact ⟨mem_cons_self, trivial⟩
  | cons publication _ ih =>
    cases publication with
    | push => exact ⟨mem_append_left _ announced.1, ih announced.2⟩
    | announce => exact ih announced

theorem announced_finishIf (announced : Announced core.publishing)
    (shouldFinish : Bool) :
    Announced (core.finishIf shouldFinish).publishing := by
  cases shouldFinish with
  | false => exact announced
  | true =>
    rw [finishIf, if_pos rfl, enqueueConnectionLostLocked]
    by_cases called : core.connectionLostCalled
    · rwa [if_pos called]
    · rw [if_neg called]
      exact announced_append_enqueuePendingEvent announced _

theorem announced_pipeConnectionLostMessage {fd : Nat} {exc : Option String}
    (announced : Announced core.publishing) :
    Announced (core.pipeConnectionLostMessage fd exc).publishing := by
  rw [pipeConnectionLostMessage]
  by_cases isOpen : fd ∈ core.openPipes
  · rw [if_pos isOpen]
    refine announced_finishIf ?_ _
    exact ⟨mem_cons_self, trivial⟩
  · rwa [if_neg isOpen]

theorem announced_processExited {code : Int}
    (announced : Announced core.publishing) :
    Announced (core.processExited code).publishing := by
  rcases Bool.eq_false_or_eq_true core.exited with exited | running
  · rwa [processExited_of_exited exited]
  · rw [processExited_of_running running]
    refine announced_finishIf ?_ _
    exact ⟨mem_cons_self, trivial⟩

/-- A scheduled drain is on its way or running, and what is queued has one or is
about to be announced. -/
structure Scheduled (core : ProcessTransportCore) : Prop where
  announced : Announced core.publishing
  drained : core.eventsScheduled → core.commands = 0 → core.drain ≠ .idle
  pending : core.pendingEvents ≠ [] → core.eventsScheduled ∨
    .announce ∈ core.publishing ∨ ∃ fd, core.readers fd = .announcing

namespace Scheduled

/-- The lock is free when something is recorded, so nothing else has to be announced
under it. -/
theorem record (scheduled : Scheduled core) (free : core.publishing = [])
    {readers : Nat → Reader}
    (readers_eq :
      ∀ fd, core.readers fd = .announcing → readers fd = .announcing)
    (same : next.eventsScheduled = core.eventsScheduled ∧ next.commands = core.commands ∧
      next.drain = core.drain ∧ next.pendingEvents = core.pendingEvents ∧
      next.readers = readers)
    (announced : Announced next.publishing) : Scheduled next := by
  obtain ⟨flag, cmds, drain, pending, reading⟩ := same
  refine ⟨announced, ?_, ?_⟩
  · rw [flag, cmds, drain]
    exact scheduled.drained
  · rw [flag, pending, reading]
    intro some
    rcases scheduled.pending some with set | announcing | ⟨fd, announcing⟩
    · exact Or.inl set
    · rw [free] at announcing
      cases announcing
    · exact Or.inr (Or.inr ⟨fd, readers_eq fd announcing⟩)

theorem announce_drained (scheduled : Scheduled core) :
    core.announce.eventsScheduled → core.announce.commands = 0 →
      core.announce.drain ≠ .idle := by
  intro _ none
  have none : (if core.eventsScheduled then core.commands else core.commands + 1) = 0 := none
  by_cases set : core.eventsScheduled
  · rw [if_pos set] at none
    exact scheduled.drained set none
  · cases (if_neg set).symm.trans none

theorem step (scheduled : Scheduled core) (move : ProcessMove core action next)
    (waits : action ≠ .failWait) (present : next.hasProtocol) :
    Scheduled next := by
  cases move with
  | read =>
    exact { scheduled with pending := fun _ => Or.inr (Or.inr ⟨_, Function.update_self ..⟩) }
  | announceData =>
    exact ⟨scheduled.announced, scheduled.announce_drained, fun _ => Or.inl rfl⟩
  | @closePipe fd exc reading free =>
    obtain ⟨_, _, _, _, _, same⟩ := pipeConnectionLostMessage_eq
      { core with readers := Function.update core.readers fd .finished } fd exc
    refine scheduled.record free ?_ (by rw [same]; exact ⟨rfl, rfl, rfl, rfl, rfl⟩)
      (announced_pipeConnectionLostMessage scheduled.announced)
    intro other announcing
    have apart : other ≠ fd := by
      rintro rfl
      cases reading.symm.trans announcing
    exact (Function.update_of_ne apart _ _).trans announcing
  | loseStdin _ free =>
    obtain ⟨_, _, _, _, _, same⟩ := core.pipeConnectionLostMessage_eq 0 none
    exact scheduled.record free (fun _ => id) (by rw [same]; exact ⟨rfl, rfl, rfl, rfl, rfl⟩)
      (announced_pipeConnectionLostMessage scheduled.announced)
  | @exitAfterStdin code _ free =>
    obtain ⟨_, _, _, _, _, same⟩ :=
      processExited_eq { core with stdinExit := none } code
    exact scheduled.record free (fun _ => id) (by rw [same]; exact ⟨rfl, rfl, rfl, rfl, rfl⟩)
      (announced_processExited scheduled.announced)
  | observeExit waiting | deferExit observed isOpen | beginExit observed
  | disconnect => exact { scheduled with }
  | @reportExit code _ free =>
    obtain ⟨_, _, _, _, _, same⟩ :=
      processExited_eq { core with waiter := .waiting } code
    exact scheduled.record free (fun _ => id) (by rw [same]; exact ⟨rfl, rfl, rfl, rfl, rfl⟩)
      (announced_processExited scheduled.announced)
  | failWait => exact absurd rfl waits
  | push publishing =>
    have announced := scheduled.announced
    rw [publishing] at announced
    exact { scheduled with
      announced := announced.2, pending := fun _ => Or.inr (Or.inl announced.1) }
  | announce publishing =>
    have announced := scheduled.announced
    rw [publishing] at announced
    exact ⟨announced, scheduled.announce_drained, fun _ => Or.inl rfl⟩
  | startDrain idle commanded => exact { scheduled with drained := fun _ _ => Drain.noConfusion }
  | takeNone _ empty =>
    exact ⟨scheduled.announced, fun set => Bool.noConfusion set, fun some => absurd empty some⟩
  | takeAll =>
    exact ⟨scheduled.announced, fun _ _ => Drain.noConfusion, fun some => absurd rfl some⟩
  | endBatch holding | call holding other =>
    exact { scheduled with drained := fun _ _ => Drain.noConfusion }
  | lose holding | raise holding other free | refuse holding other free refused => cases present

end Scheduled

/-! ## The call that ends a drain -/

theorem Alive.fail {event : PendingProcessEvent}
    {delivered : List PendingProcessEvent}
    (alive : Alive pipes core) (free : core.publishing = [])
    (last : core.exited ∧ core.openPipes = [] ∧
      ∀ other ∈ core.pendingEvents, other.isConnectionLost)
    (uncalled : ∀ other ∈ delivered, other.isConnectionLost = false) :
    Over (failDrain { core with delivered := delivered } event) ∧
      (failDrain { core with delivered := delivered } event).delivered.countP
          isConnectionLost = 1 ∧
      (failDrain { core with delivered := delivered } event).reported.length =
        1 := by
  obtain ⟨exited, closed, pending⟩ := last
  have called : (failDrain { core with delivered := delivered }
      event).delivered = delivered ++ [connectionLost none] := if_pos alive.hasProtocol
  refine ⟨⟨rfl, exited, closed, alive.finishing exited closed,
    alive.finished_of_closed closed, pending, ?_⟩, ?_, ?_⟩
  · rw [free]
    exact fun other mem => absurd mem not_mem_nil
  · rw [called, countP_append, countP_eq_zero.mpr]
    · rfl
    · intro other mem
      rw [uncalled other mem]
      exact Bool.false_ne_true
  · rw [alive.unreported]
    rfl

theorem Alive.isConnectionLost_of_mem_delivered (alive : Alive pipes core)
    {event : PendingProcessEvent} (mem : event ∈ core.delivered) :
    event.isConnectionLost = false := by
  cases event with
  | connectionLost exc => exact absurd mem (alive.undelivered exc)
  | pipeDataReceived fd data | pipeConnectionLost fd exc | processExited code => rfl

/-! ## Runs -/

/-- The transport has its protocol, or has called `connection_lost` once. -/
inductive Contained (pipes : List Nat) (core : ProcessTransportCore) : Prop where
  | alive (alive : Alive pipes core) (scheduled : Scheduled core)
  | isOver (isOver : Over core) (once : core.delivered.countP isConnectionLost = 1)
      (reported : core.reported.length ≤ 1)

theorem Contained.step (contained : Contained pipes core)
    (moved : processStep core action = some next)
    (guarded : FailsLast core action) :
    Contained pipes next := by
  have move := processMove_processStep moved
  have waits : action ≠ .failWait := by
    rintro rfl
    exact guarded
  cases contained with
  | alive alive scheduled =>
    rcases keeps_or_release move with kept | released
    · have present := kept.trans alive.hasProtocol
      exact .alive (alive.step move waits present) (scheduled.step move waits present)
    · cases released with
      | lose holding =>
        obtain ⟨isOver, delivered, -⟩ := alive.lose holding
        refine .isOver isOver ?_ ?_
        · rw [delivered, countP_append, countP_eq_zero.mpr]
          · rfl
          · intro other mem
            rw [alive.isConnectionLost_of_mem_delivered mem]
            exact Bool.false_ne_true
        · change core.reported.length ≤ 1
          rw [alive.unreported]
          exact Nat.zero_le 1
      | @raise event _ holding other free =>
        have last := guarded _ (by rw [holding]; rfl) other
        have uncalled : ∀ earlier ∈ core.delivered ++ [event],
            earlier.isConnectionLost = false := by
          intro earlier mem
          rcases mem_append.mp mem with old | new
          · exact alive.isConnectionLost_of_mem_delivered old
          · rwa [mem_singleton.mp new]
        obtain ⟨isOver, once, reported⟩ := alive.fail free (last (Or.inl rfl)) uncalled
        exact .isOver isOver once (Nat.le_of_eq reported)
      | refuse holding other free refused =>
        have last := guarded _ (by rw [holding]; rfl) other
        have undecodable := refused.resolve_right
          (by rw [alive.hasProtocol]; exact Bool.noConfusion)
        obtain ⟨isOver, once, reported⟩ :=
          alive.fail free (last (Or.inr undecodable))
            fun _ => alive.isConnectionLost_of_mem_delivered
        exact .isOver isOver once (Nat.le_of_eq reported)
  | isOver gone once reported =>
    obtain ⟨isOver, unchanged⟩ := gone.step move waits
    refine .isOver isOver ?_ ?_
    · rwa [unchanged.delivered]
    · rwa [unchanged.reported]

/-! ## One call of `connection_lost` -/

/-- The exit has been observed, all pipes are closed, and nothing is on its way any
more. -/
structure Settled (core : ProcessTransportCore) : Prop where
  observed : core.hasObservedExit
  waiter : ∀ code, core.waiter ≠ .observed code ∧ core.waiter ≠ .exiting code
  stdin : core.stdinExit = none
  closed : core.openPipes = []
  published : core.publishing = []
  uncommanded : core.commands = 0
  idle : core.drain = .idle

structure LostOnce (core : ProcessTransportCore) : Prop where
  once : core.delivered.countP isConnectionLost ≤ 1
  late : ∀ exc, connectionLost exc ∈ core.delivered → core.exited ∧ core.openPipes = []
  settled : Settled core → core.delivered.countP isConnectionLost = 1
  reported : core.reported.length ≤ 1

/-- A settled transport has no protocol left to tell. -/
theorem not_settled_of_alive (alive : Alive pipes core)
    (scheduled : Scheduled core) :
    ¬ Settled core := by
  intro settled
  have unscheduled : core.eventsScheduled ≠ true :=
    fun set => scheduled.drained set settled.uncommanded settled.idle
  have empty : core.pendingEvents = [] := by
    by_contra some
    rcases scheduled.pending some with set | announcing | ⟨fd, announcing⟩
    · exact unscheduled set
    · rw [settled.published] at announcing
      cases announcing
    · cases (alive.finished_of_closed settled.closed fd).symm.trans announcing
  have exited : core.exited := by
    rcases alive.tidy.observed settled.observed with exited | ⟨code, busy⟩ | ⟨-, isOpen⟩ | taken
    · exact exited
    · exact absurd busy (not_or.mpr (settled.waiter code))
    · rw [settled.closed] at isOpen
      cases isOpen
    · rw [settled.stdin] at taken
      cases taken
  obtain ⟨exc, mem⟩ := alive.tidy.lost_iff.mp (alive.finishing exited settled.closed)
  rw [history, queued, settled.published,
    settled.idle, empty] at mem
  simp only [Drain.drained, pushes, filterMap_nil, append_nil] at mem
  exact alive.undelivered exc mem

/-- `connection_lost` is called once, not before the child has exited and its pipes
are closed, and one failure at most is reported. -/
theorem lostOnce_of_failsLast (pipes : ProcessPipes)
    (textConfig : Option ProcessTextConfig)
    (actions : List ProcessAction) (core : ProcessTransportCore)
    (guarded :
      Guarded processStep FailsLast (spawnProcessTransport pipes textConfig) actions)
    (reached : run processStep (spawnProcessTransport pipes textConfig) actions = some core) :
    LostOnce core := by
  have contained : Contained pipes.openPipes core := by
    refine invariant_of_run (Contained pipes.openPipes) ?_ ?_ guarded reached
    · intro before action after contained guarded moved
      exact contained.step moved guarded
    · exact .alive (Alive.spawn pipes textConfig)
        ⟨trivial, Bool.noConfusion, fun some => absurd rfl some⟩
  cases contained with
  | alive alive scheduled =>
    have none : core.delivered.countP isConnectionLost = 0 := by
      refine countP_eq_zero.mpr ?_
      intro event member
      rw [alive.isConnectionLost_of_mem_delivered member]
      exact Bool.false_ne_true
    refine ⟨?_, fun exc member => absurd member (alive.undelivered exc),
      fun settled => absurd settled (not_settled_of_alive alive scheduled), ?_⟩
    · rw [none]
      exact Nat.zero_le 1
    · rw [alive.unreported]
      exact Nat.zero_le 1
  | isOver isOver once reported =>
    exact ⟨Nat.le_of_eq once, fun _ _ => ⟨isOver.exited, isOver.closed⟩, fun _ => once, reported⟩

/-- A child without pipes exits, and `process_exited` raises. -/
theorem lostOnce_of_exitRaises :
    ∃ core, run processStep (spawnProcessTransport ⟨false, false, false⟩ none)
        [.observeExit 1, .checkStdin, .reportExit, .publish, .publish, .publish, .publish,
          .startDrain, .take, .deliver true] = some core ∧
      core.delivered = [processExited 1, connectionLost none] ∧ LostOnce core := by
  refine exists_run_imp
    (fun core => core.delivered = [processExited 1, connectionLost none]) (by decide) ?_
  rintro core reached delivered
  exact ⟨delivered, lostOnce_of_failsLast ⟨false, false, false⟩ none _ core (by decide) reached⟩

/-- `pipe_data_received` raises while the child runs: `connection_lost` is called at
once, and the next chunk is reported as a failure although no callback is called. When
waiting for the child fails, `connection_lost` is called without an exit. -/
theorem connectionLost_early_of_dataRaises :
    (∃ core, run processStep (spawnProcessTransport ⟨false, true, false⟩ none)
        [.read 1 [1], .announceData 1, .startDrain, .take, .deliver true,
          .read 1 [2], .announceData 1, .startDrain, .take, .deliver false] = some core ∧
      core.delivered = [pipeDataReceived 1 [1], connectionLost none] ∧
      core.exited = false ∧ core.openPipes = [1] ∧
      core.reported =
        ["subprocess pipe_data_received failed", "subprocess pipe_data_received failed"]) ∧
    ∃ core, run processStep (spawnProcessTransport ⟨false, true, false⟩ none)
        [.failWait, .publish, .publish, .startDrain, .take, .deliver false] = some core ∧
      core.delivered = [connectionLost none] ∧ core.exited = false ∧ core.openPipes = [1] :=
  ⟨exists_run_of_any processStep (spawnProcessTransport ⟨false, true, false⟩ none)
      [.read 1 [1], .announceData 1, .startDrain, .take, .deliver true,
        .read 1 [2], .announceData 1, .startDrain, .take, .deliver false]
      (fun core => core.delivered = [pipeDataReceived 1 [1], connectionLost none] ∧
        core.exited = false ∧ core.openPipes = [1] ∧
        core.reported =
          ["subprocess pipe_data_received failed", "subprocess pipe_data_received failed"])
      (by decide),
    exists_run_of_any processStep (spawnProcessTransport ⟨false, true, false⟩ none)
      [.failWait, .publish, .publish, .startDrain, .take, .deliver false]
      (fun core => core.delivered = [connectionLost none] ∧ core.exited = false ∧
        core.openPipes = [1]) (by decide)⟩

end Rsloop.Process
