import Rsloop.Process.Lifecycle

/-!
# The order of the subprocess callbacks

In runs in which nothing fails the callbacks come in the order of the lifecycle:
data before the loss of its pipe, each loss and the exit once, and `connection_lost`
behind everything.
-/

namespace Rsloop.Process

open Transition PendingProcessEvent List

/-- No callback raises, waiting for the child does not fail, and the chunks that are
read can be decoded. -/
def Undisturbed (core : ProcessTransportCore) : ProcessAction → Prop
  | .deliver raises => raises = false
  | .failWait => False
  | .read _ data => (payload core.textConfig data).isSome
  | _ => True

instance decidableUndisturbed (core : ProcessTransportCore) :
    ∀ action, Decidable (Undisturbed core action)
  | .deliver raises => inferInstanceAs (Decidable (raises = false))
  | .failWait => .isFalse id
  | .read _ data => inferInstanceAs (Decidable ((payload core.textConfig data).isSome))
  | .announceData _ | .closePipe _ _ | .loseStdin | .exitAfterStdin | .observeExit _
  | .checkStdin | .reportExit | .disconnect | .publish | .startDrain | .take => .isTrue trivial

/-! ## Chunks can be decoded -/

def Decodable (core : ProcessTransportCore) : Prop :=
  ∀ fd, ∀ data ∈ core.chunks fd, (payload core.textConfig data).isSome

variable {pipes : List Nat} {core next : ProcessTransportCore} {action : ProcessAction}

theorem Decodable.step (decodable : Decodable core)
    (move : ProcessMove core action next)
    (guarded : Undisturbed core action) : Decodable next := by
  cases move with
  | @read fd data =>
    intro other chunk mem
    by_cases same : other = fd
    · have grown : Function.update core.chunks fd (core.chunks fd ++ [data]) other =
          core.chunks other ++ [data] := by
        rw [same, Function.update_self]
      have split : chunk ∈ core.chunks other ++ [data] := grown ▸ mem
      rcases mem_append.mp split with old | new
      · exact decodable other chunk old
      · rwa [mem_singleton.mp new]
    · have kept : Function.update core.chunks fd (core.chunks fd ++ [data]) other =
          core.chunks other := Function.update_of_ne same _ _
      exact decodable other chunk (kept ▸ mem)
  | @closePipe fd exc =>
    obtain ⟨_, _, _, _, _, same⟩ := ProcessTransportCore.pipeConnectionLostMessage_eq
      { core with readers := Function.update core.readers fd .finished } fd exc
    rwa [same]
  | loseStdin =>
    obtain ⟨_, _, _, _, _, same⟩ := core.pipeConnectionLostMessage_eq 0 none
    rwa [same]
  | @exitAfterStdin code =>
    obtain ⟨_, _, _, _, _, same⟩ :=
      ProcessTransportCore.processExited_eq { core with stdinExit := none } code
    rwa [same]
  | @reportExit code =>
    obtain ⟨_, _, _, _, _, same⟩ :=
      ProcessTransportCore.processExited_eq { core with waiter := .waiting } code
    rwa [same]
  | failWait => exact guarded.elim
  | _ => exact decodable

variable {textConfig : Option ProcessTextConfig}

theorem hasPayload_of_decodable {event : PendingProcessEvent}
    {rest : List PendingProcessEvent} (present : core.hasProtocol)
    (inOrder : DataInOrder textConfig core) (decodable : Decodable core)
    (holding : core.drain = .delivering (event :: rest)) :
    event.hasPayload core.textConfig := by
  cases event with
  | pipeDataReceived fd data =>
    refine decodable fd data ?_
    rw [← inOrder.queued present fd]
    have held : pipeDataReceived fd data ∈ core.queued := by
      refine mem_append_right _ (mem_append_left _ ?_)
      rw [holding]
      exact mem_cons_self
    exact mem_filterMap.mpr ⟨_, held, if_pos rfl⟩
  | pipeConnectionLost fd exc | processExited code | connectionLost exc => rfl

/-! ## Runs -/

structure Orderly (pipes : List Nat) (textConfig : Option ProcessTextConfig)
    (core : ProcessTransportCore) : Prop where
  decodable : Decodable core
  inOrder : DataInOrder textConfig core
  phase : Alive pipes core ∨ Over core ∧ Tidy pipes core core.delivered

theorem Orderly.step (orderly : Orderly pipes textConfig core)
    (moved : processStep core action = some next)
    (guarded : Undisturbed core action) :
    Orderly pipes textConfig next := by
  have move := processMove_processStep moved
  have waits : action ≠ .failWait := by
    rintro rfl
    exact guarded
  refine ⟨orderly.decodable.step move guarded, orderly.inOrder.step move, ?_⟩
  rcases orderly.phase with alive | ⟨gone, tidy⟩
  · rcases keeps_or_release move with kept | released
    · exact Or.inl (alive.step move waits (kept.trans alive.hasProtocol))
    · cases released with
      | lose holding =>
        obtain ⟨isOver, -, tidy⟩ := alive.lose holding
        exact Or.inr ⟨isOver, tidy⟩
      | raise => cases guarded
      | refuse holding _ _ refused =>
        rw [hasPayload_of_decodable alive.hasProtocol orderly.inOrder orderly.decodable holding,
          alive.hasProtocol] at refused
        rcases refused with refused | refused <;> cases refused
  · obtain ⟨isOver, unchanged⟩ := gone.step move waits
    refine Or.inr ⟨isOver, ?_⟩
    rw [unchanged.delivered]
    exact unchanged.tidy pipes _ tidy

/-! ## The order -/

/-- The exit has been observed, no thread has anything left to do, and no event is
queued or held by the drain. -/
structure Drained (core : ProcessTransportCore) : Prop where
  observed : core.hasObservedExit
  waiter : ∀ code, core.waiter ≠ .observed code ∧ core.waiter ≠ .exiting code
  stdin : core.stdinExit = none
  closed : core.openPipes = []
  published : core.publishing = []
  empty : core.pendingEvents = []
  delivered : core.drain.drained = []

structure InLifecycleOrder (pipes : List Nat) (core : ProcessTransportCore) : Prop where
  ordered : core.delivered.Pairwise MayPrecede
  data : ∀ fd, core.delivered.filterMap (dataOf fd) <+: core.chunks fd
  returncode : core.returncode = core.recorded.head?
  lost : ∀ exc, connectionLost exc ∈ core.delivered →
    (∃ code, processExited code ∈ core.delivered) ∧
      ∀ fd ∈ pipes, ∃ text, pipeConnectionLost fd text ∈ core.delivered
  finished : Drained core → ∃ exc, connectionLost exc ∈ core.delivered

theorem Alive.inLifecycleOrder (alive : Alive pipes core)
    (inOrder : DataInOrder textConfig core) :
    InLifecycleOrder pipes core := by
  have whole : core.history =
      core.delivered ++ (core.drain.drained ++ core.pendingEvents ++ pushes core.publishing) := by
    rw [ProcessTransportCore.history, ProcessTransportCore.queued, append_assoc]
  refine ⟨?_, inOrder.sent, alive.tidy.returncode, ?_, ?_⟩
  · have ordered := alive.tidy.ordered
    rw [whole] at ordered
    exact (pairwise_append.mp ordered).1
  · exact fun exc mem => absurd mem (alive.undelivered exc)
  · intro drained
    have exited : core.exited := by
      rcases alive.tidy.observed drained.observed with exited | ⟨code, busy⟩ | ⟨-, isOpen⟩ | taken
      · exact exited
      · exact absurd busy (not_or.mpr (drained.waiter code))
      · rw [drained.closed] at isOpen
        cases isOpen
      · rw [drained.stdin] at taken
        cases taken
    have called := alive.finishing exited drained.closed
    obtain ⟨exc, mem⟩ := alive.tidy.lost_iff.mp called
    rw [whole, drained.delivered, drained.empty, drained.published] at mem
    rcases mem_append.mp mem with delivered | behind
    · exact ⟨exc, delivered⟩
    · cases behind

theorem Over.inLifecycleOrder (isOver : Over core)
    (tidy : Tidy pipes core core.delivered)
    (inOrder : DataInOrder textConfig core) :
    InLifecycleOrder pipes core := by
  refine ⟨tidy.ordered, inOrder.sent, tidy.returncode, ?_, ?_⟩
  · intro exc _
    refine ⟨tidy.exited_iff.mp isOver.exited, ?_⟩
    intro fd initial
    rcases tidy.closed_lost fd initial with isOpen | lost
    · rw [isOver.closed] at isOpen
      cases isOpen
    · exact lost
  · exact fun _ => tidy.lost_iff.mp isOver.called

/-- The callbacks of a subprocess come in the order of its lifecycle, however its
threads and the drains interleave. -/
theorem inLifecycleOrder_of_undisturbed (pipes : ProcessPipes)
    (textConfig : Option ProcessTextConfig) (actions : List ProcessAction)
    (core : ProcessTransportCore)
    (undisturbed :
      Guarded processStep Undisturbed (spawnProcessTransport pipes textConfig) actions)
    (reached : run processStep (spawnProcessTransport pipes textConfig) actions = some core) :
    InLifecycleOrder pipes.openPipes core := by
  have orderly : Orderly pipes.openPipes textConfig core := by
    refine invariant_of_run (Orderly pipes.openPipes textConfig) ?_ ?_ undisturbed reached
    · intro before action after orderly guarded moved
      exact orderly.step moved guarded
    · exact ⟨fun _ _ member => absurd member not_mem_nil, .spawn pipes textConfig,
        Or.inl (Alive.spawn pipes textConfig)⟩
  rcases orderly.phase with alive | ⟨isOver, tidy⟩
  · exact alive.inLifecycleOrder orderly.inOrder
  · exact isOver.inLifecycleOrder tidy orderly.inOrder

/-- A child writes a line and exits while its stdin is open; stdin closes, then
stdout, and the drain comes to the end in a second round. -/
def exitedBeforeEndOfFile : List ProcessAction :=
  [.read 1 [104, 105], .announceData 1, .observeExit 7, .checkStdin,
    .loseStdin, .publish, .publish, .exitAfterStdin, .publish, .publish,
    .startDrain, .take, .deliver false, .deliver false, .deliver false,
    .closePipe 1 none, .publish, .publish, .publish, .publish,
    .deliver false, .take, .deliver false, .deliver false]

theorem inLifecycleOrder_of_exitedBeforeEndOfFile :
    ∃ core, run processStep (spawnProcessTransport ⟨true, true, false⟩ none)
        exitedBeforeEndOfFile = some core ∧
      core.delivered = [pipeDataReceived 1 [104, 105], pipeConnectionLost 0 none, processExited 7,
          pipeConnectionLost 1 none, connectionLost none] ∧
      InLifecycleOrder [0, 1] core := by
  refine exists_run_imp (fun core => core.delivered = [pipeDataReceived 1 [104, 105],
      pipeConnectionLost 0 none, processExited 7, pipeConnectionLost 1 none, connectionLost none])
      (by decide) ?_
  rintro core reached delivered
  exact ⟨delivered, inLifecycleOrder_of_undisturbed ⟨true, true, false⟩ none exitedBeforeEndOfFile
    core (by decide) reached⟩

/-- Text mode with an encoding of 128 characters and the strict error handler -/
def strictText : ProcessTextConfig where
  decode data :=
    if data.all (· < 128) then
      some (data.map UInt8.toNat)
    else none
  translateNewlines := true

/-- A chunk of output that cannot be decoded is taken for a callback that raised:
`connection_lost` is called while the child runs and its pipe is open. -/
theorem connectionLost_delivered_of_undecodableChunk :
    ∃ core, run processStep (spawnProcessTransport ⟨false, true, false⟩ (some strictText))
        [.read 1 [195], .announceData 1, .startDrain, .take, .deliver false] = some core ∧
      core.delivered = [connectionLost none] ∧ core.exited = false ∧ core.openPipes = [1] :=
  exists_run_of_any _ _ _ _ (by decide)

end Rsloop.Process
