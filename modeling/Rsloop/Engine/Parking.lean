import Rsloop.Engine.LoopQueues

/-!
# Parking

The loop together with what it sleeps on: the flag and the waker of `LoopWake`,
the park future of the loop thread, and the timers that other threads hand over
under a flag of their own. All other steps are those of `loopStep`.

`signal` is two steps, the swap of the flag and the wake, and of the waker only
its contract is used: a registered waker is taken by the next wake, which makes
the runtime poll the park future again. Timers are counted; which of them are
due is decided by the environment.
-/

namespace Rsloop.Engine

open Transition List LoopState

/-! ## The state -/

/-- A thread inside `enqueue_timer`, behind its push. -/
inductive TimerProducer where
  | idle
  | setDirty
  | signal
  deriving DecidableEq

/-- Who may be between the swap and the wake of `signal`. -/
inductive Caller where
  | thread (thread : Nat)
  | dispatcher
  | timerThread (thread : Nat)
  | loopThread
  deriving DecidableEq

/-- The loop thread at the head of a turn, in `LocalTimers::collect`, and from
the last check of a turn into `WaitForWake::poll`. -/
inductive ParkPosition where
  | elsewhere
  | collect
  | appendTimers
  | collected
  | checkTimers
  | polling
  | spinning
  | firstLoad
  | register
  | secondLoad
  | suspended
  deriving DecidableEq

/-- `heap` are the timers of the loop thread, `waking` the callers that owe a
wake, and `woken` says that the runtime is to poll the park future again. -/
structure ParkState where
  loop : LoopState
  park : ParkPosition
  pendingTimers : Nat
  timersDirty : Bool
  heap : Nat
  timerProducers : List TimerProducer
  waking : List Caller
  waker : Bool
  woken : Bool
  spinWindow : Bool
  spinCooldown : Nat
  consecutiveSpins : Nat
  deriving DecidableEq

def ParkState.new (threads timerThreads : Nat) (spinWindow : Bool) : ParkState where
  loop := .new threads
  park := .elsewhere
  pendingTimers := 0
  timersDirty := false
  heap := 0
  timerProducers := List.replicate timerThreads .idle
  waking := []
  waker := false
  woken := false
  spinWindow := spinWindow
  spinCooldown := 0
  consecutiveSpins := 0

/-! ## Steps of the loop -/

def LoopAction.caller : LoopAction → Caller
  | .call tid _ | .producer tid => .thread tid
  | .dispatcher => .dispatcher
  | _ => .loopThread

/-- Whoever finds the flag down and raises it owes a wake. -/
def owesWake (before after : LoopState) (caller : Caller) : List Caller :=
  if before.readyPending = false ∧ after.readyPending then [caller] else []

def Position.parkPosition : Position → ParkPosition
  | .turn => .collect
  | .park => .checkTimers
  | _ => .elsewhere

/-- The loop has moved. Where a run gives up its timers, they go back to those of
the other threads. -/
def ParkState.moveTo (s : ParkState) (caller : Caller) (next : LoopState) : ParkState :=
  let dropped := if s.loop.tlsTimers && !next.tlsTimers then s.heap else 0
  { s with
    loop := next
    park :=
      if next.pc = s.loop.pc then s.park
      else next.pc.parkPosition
    waking := owesWake s.loop next caller ++ s.waking
    pendingTimers := s.pendingTimers + dropped
    timersDirty := s.timersDirty || decide (dropped ≠ 0)
    heap := s.heap - dropped
    spinCooldown := if s.loop.pc = .install then 0 else s.spinCooldown
    consecutiveSpins :=
      if s.loop.pc = .install then 0 else s.consecutiveSpins }

/-- Python code or tasks of the reactor run on the loop thread. -/
def ParkPosition.runsCode : ParkPosition → Bool
  | .elsewhere | .collect | .polling | .suspended => true
  | _ => false

/-- Around its wait the loop thread takes the steps of `stepPark`. -/
def ParkState.permits (s : ParkState) : LoopAction → Bool
  | .enqueue _ => s.park.runsCode
  | .loop (.timersDue count) => s.park = .collected ∧ count ≤ s.heap
  | .loop _ => s.park = .elsewhere
  | _ => true

/-- `LocalTimers::collect` takes the due timers off the heap. -/
def ParkState.takeDue (s : ParkState) : LoopAction → ParkState
  | .loop (.timersDue count) => { s with heap := s.heap - count }
  | _ => s

def stepLoopAction (s : ParkState) (action : LoopAction) : Option ParkState :=
  if action.caller ∈ s.waking ∨ s.permits action = false then
    none
  else
    (loopStep s.loop action).map ((s.takeDue action).moveTo action.caller)

/-! ## Timers and wakes -/

/-- `AtomicWaker::wake` -/
def stepWake (s : ParkState) (caller : Caller) : Option ParkState :=
  if caller ∈ s.waking then
    some
      { s with
        waking := s.waking.erase caller
        woken := s.woken || s.waker
        waker := false }
  else
    none

/-- `enqueue_timer` on another thread begins with the push. -/
def stepCallTimer (s : ParkState) (tid : Nat) : Option ParkState :=
  if .timerThread tid ∈ s.waking ∨ s.timerProducers[tid]? ≠ some .idle then
    none
  else
    some
      { s with
        pendingTimers := s.pendingTimers + 1
        timerProducers := s.timerProducers.set tid .setDirty }

def stepTimerProducer (s : ParkState) (tid : Nat) : Option ParkState :=
  match s.timerProducers[tid]? with
  | some .setDirty =>
    some
      { s with
        timersDirty := true
        timerProducers := s.timerProducers.set tid .signal }
  | some .signal =>
    let raised := { s.loop with readyPending := true }
    some
      { s with
        loop := raised
        waking := owesWake s.loop raised (.timerThread tid) ++ s.waking
        timerProducers := s.timerProducers.set tid .idle }
  | _ => none

/-- `enqueue_timer` on the loop thread. -/
def stepOwnTimer (s : ParkState) : Option ParkState :=
  if .loopThread ∉ s.waking ∧ s.loop.tlsTimers ∧
      s.loop.pc.runsCode ∧ s.park.runsCode then
    some { s with heap := s.heap + 1 }
  else
    none

/-! ## The loop thread around its wait -/

inductive ParkReply where
  | proceed
  | caught
  | missed
  | deadline
  deriving DecidableEq

def maxConsecutiveSpins : Nat := 64

def spinMissCooldownParks : Nat := 8

def ParkState.nextTurn (s : ParkState) : Option ParkState :=
  (loopStep s.loop (.loop .proceed)).map (s.moveTo .loopThread)

/-- `block_on_until` polls its future first. -/
def ParkState.block (s : ParkState) : ParkState :=
  { s with consecutiveSpins := 0, woken := false, park := .firstLoad }

def stepPark (s : ParkState) (reply : ParkReply) : Option ParkState :=
  match s.park, reply with
  | .collect, .proceed =>
    if s.timersDirty then
      some { s with timersDirty := false, park := .appendTimers }
    else
      some { s with park := .collected }
  | .appendTimers, .proceed =>
    some
      { s with
        heap := s.heap + s.pendingTimers
        pendingTimers := 0
        park := .collected }
  | .checkTimers, .proceed =>
    if s.timersDirty then
      s.nextTurn
    else if s.loop.queues.readyBatch ≠ [] ∨
        s.loop.queues.localReady ≠ [] ∨ 0 < s.spinCooldown then
      some { s with park := .polling }
    else
      some { s with park := .spinning }
  | .polling, .proceed =>
    if s.loop.queues.readyBatch ≠ [] ∨
        s.loop.queues.localReady ≠ [] ∨ s.loop.readyPending then
      s.nextTurn
    else
      some { s with park := .spinning }
  | .spinning, .proceed =>
    if s.spinWindow = false ∨ 0 < s.spinCooldown then
      some { s with spinCooldown := s.spinCooldown - 1 }.block
    else
      none
  | .spinning, .caught =>
    if s.spinWindow ∧ s.spinCooldown = 0 ∧ s.loop.readyPending then
      if s.consecutiveSpins < maxConsecutiveSpins then
        { s with consecutiveSpins := s.consecutiveSpins + 1 }.nextTurn
      else
        some s.block
    else
      none
  | .spinning, .missed =>
    if s.spinWindow ∧ s.spinCooldown = 0 then
      some { s with spinCooldown := spinMissCooldownParks }.block
    else
      none
  | .firstLoad, .proceed =>
    if s.loop.readyPending then s.nextTurn
    else some { s with park := .register }
  | .register, .proceed => some { s with waker := true, park := .secondLoad }
  | .secondLoad, .proceed =>
    if s.loop.readyPending then s.nextTurn
    else some { s with park := .suspended }
  | .suspended, .proceed =>
    if s.woken then some { s with woken := false, park := .firstLoad }
    else none
  | .suspended, .deadline => s.nextTurn
  | _, _ => none

/-! ## All together -/

inductive ParkAction where
  | loop (action : LoopAction)
  | wake (caller : Caller)
  | callTimer (tid : Nat)
  | timerProducer (tid : Nat)
  | ownTimer
  | park (reply : ParkReply)
  deriving DecidableEq

def parkStep (s : ParkState) : ParkAction → Option ParkState
  | .loop action => stepLoopAction s action
  | .wake caller => stepWake s caller
  | .callTimer tid => stepCallTimer s tid
  | .timerProducer tid => stepTimerProducer s tid
  | .ownTimer => stepOwnTimer s
  | .park reply => if .loopThread ∈ s.waking then none else stepPark s reply

/-! ## Statement -/

/-- Nobody is between its push and the end of its signal. -/
structure SignalsDone (s : ParkState) : Prop where
  producers : ∀ producer ∈ s.loop.producers, producer ≠ .signal
  dispatcher : ∀ after, s.loop.dispatcher ≠ .releaseHandles after ∧
    s.loop.dispatcher ≠ .signal after
  timers : ∀ producer ∈ s.timerProducers, producer = .idle
  waking : s.waking = []

structure NothingWaits (s : ParkState) : Prop where
  pending : (s.loop.queues.pending s.loop.currentRun).items = []
  localReady : s.loop.queues.localReady = []
  readyBatch : s.loop.queues.readyBatch = []
  timers : s.pendingTimers = 0

/-! ## The flag -/

variable {tid : Nat} {s next : LoopState} {last : Nat}

/-- Somebody has pushed and is about to raise the flag. -/
def LoopState.pushing (s : LoopState) : Prop :=
  .signal ∈ s.producers ∨ ∃ after, s.dispatcher = .releaseHandles after ∨
      s.dispatcher = .signal after

/-- An item in the active queue has been signalled, or its producer is about to. -/
structure Signalled (s : LoopState) : Prop where
  fresh : s.pc = .clearReadyPending → (s.queues.pending s.currentRun).items = []
  pushed : s.pc.mayMerge → (s.queues.pending s.currentRun).items ≠ [] →
      s.readyPending ∨ s.pushing
  drained : s.pc = .checkSignals ∨ s.pc = .park → s.drainActive = false

theorem signalled_new (threads : Nat) : Signalled (.new threads) where
  fresh := nofun
  pushed := nofun
  drained := by
    rintro (pos | pos)
    · cases pos
    · cases pos

theorem Signalled.frame (signalled : Signalled s) (pos : next.pc = s.pc)
    (drainActive : next.drainActive = s.drainActive)
    (fresh : s.pc = .clearReadyPending →
      (s.queues.pending s.currentRun).items = [] →
      (next.queues.pending next.currentRun).items = [])
    (pushed : (next.queues.pending next.currentRun).items ≠ [] →
      (s.queues.pending s.currentRun).items ≠ [] ∨ next.readyPending ∨ next.pushing)
    (raised : s.readyPending ∨ s.pushing →
      next.readyPending ∨ next.pushing) : Signalled next where
  fresh := fun clears =>
    have before := pos.symm.trans clears
    fresh before (signalled.fresh before)
  pushed := by
    intro mayMerge holds
    rw [pos] at mayMerge
    rcases pushed holds with held | now
    · exact raised (signalled.pushed mayMerge held)
    · exact now
  drained := by
    rw [pos, drainActive]
    exact signalled.drained

theorem mem_set_of_getElem?_ne {Entry : Type} {entries : List Entry}
    {entry changed : Entry} {index : Nat} (mem : entry ∈ entries)
    (different : entries[index]? ≠ some entry) :
    entry ∈ entries.set index changed := by
  obtain ⟨pc, found⟩ := getElem?_of_mem mem
  have elsewhere : index ≠ pc := by
    intro same
    rw [same] at different
    exact different found
  refine mem_of_getElem? (i := pc) ?_
  rwa [getElem?_set_ne elsewhere]

variable {producer : Producer}

theorem pushing_of_set (pushing : s.pushing)
    (idle : s.producers[tid]? ≠ some .signal)
    (producers : next.producers = s.producers.set tid producer)
    (dispatcher : next.dispatcher = s.dispatcher) : next.pushing := by
  rcases pushing with mem | ⟨after, busy⟩
  · refine .inl ?_
    rw [producers]
    exact mem_set_of_getElem?_ne mem idle
  · refine .inr ⟨after, ?_⟩
    rwa [dispatcher]

theorem signal_mem_set {producers : List Producer}
    (found : producers[tid]? = some producer) :
    .signal ∈ producers.set tid .signal := by
  have inRange : tid < producers.length := (List.getElem?_eq_some_iff.mp found).choose
  exact mem_of_getElem? (getElem?_set_self inRange)

theorem RunsInOrder.other_of_clearing (inv : RunsInOrder s last)
    (pos : s.pc = .clearReadyPending) {run : Nat}
    (known : 2 * run + 1 ≤ last) : run ≠ s.currentRun := by
  have sent := inv.sent
  rw [pos] at sent
  have number : last + 2 = 2 * s.queues.pendings.length ∨
    s.hasLeftEarly ∧ last + 3 = 2 * s.queues.pendings.length := sent
  have current : s.currentRun = s.queues.pendings.length - 1 := rfl
  omega

theorem raised_of_set {before : Producer}
    (found : s.producers[tid]? = some before) (notSignal : before ≠ .signal)
    (producers : next.producers = s.producers.set tid producer)
    (dispatcher : next.dispatcher = s.dispatcher)
    (flag : next.readyPending = s.readyPending) :
    s.readyPending ∨ s.pushing → next.readyPending ∨ next.pushing := by
  have idle : s.producers[tid]? ≠ some .signal := by
    rw [found]
    exact fun same => notSignal (Option.some.inj same)
  rintro (raised | pushing)
  · exact .inl (flag.trans raised)
  · exact .inr (pushing_of_set pushing idle producers dispatcher)

/-- Somebody pushes to the queue of a run that has been announced. -/
theorem Signalled.push (signalled : Signalled s) (inv : RunsInOrder s last)
    {run : Nat} (received : s.receivedRuns = 2 * run + 1)
    {changed : PendingReady ReadyItem}
    (pos : next.pc = s.pc) (drainActive : next.drainActive = s.drainActive)
    (pendings : next.queues.pendings = s.queues.pendings.set run changed)
    (pushes : next.pushing) : Signalled next := by
  refine signalled.frame pos drainActive ?_ (fun _ => .inr (.inr pushes)) (fun _ => .inr pushes)
  intro clears nothing
  have bounded := inv.received_le
  have other := inv.other_of_clearing clears (by omega : 2 * run + 1 ≤ last)
  have same := Queues.pending_setPending_of_ne s.queues other changed
  unfold currentRun Queues.pending at nothing ⊢
  unfold currentRun Queues.pending Queues.setPending at same
  rwa [pendings, length_set, same]

theorem signalled_producerStep (inv : RunsInOrder s last)
    (signalled : Signalled s)
    (step : ProducerStep s tid next) : Signalled next := by
  cases step with
  | routes found route =>
    exact signalled.frame rfl rfl (fun _ => id) .inl
      (raised_of_set found (by cases route <;> simp) rfl rfl rfl)
  | pushes found isActive =>
    exact signalled.push inv (inv.accepting _ isActive).1 rfl rfl rfl (.inl (signal_mem_set found))
  | counts found | sends found =>
    exact signalled.frame rfl rfl (fun _ => id) .inl
      (raised_of_set found Producer.noConfusion rfl rfl rfl)
  | signals => exact signalled.frame rfl rfl (fun _ => id) .inl (fun _ => .inl rfl)

/-! ### The dispatcher -/

theorem Queues.items_setPending_empty (q : Queues) (run other : Nat) :
    ((q.setPending run .empty).pending other).items = [] ∨
      (q.setPending run .empty).pending other = q.pending other := by
  by_cases same : run = other
  · subst same
    by_cases inRange : run < q.pendings.length
    · rw [q.pending_setPending_self inRange]
      exact .inl rfl
    · refine .inr ?_
      unfold Queues.pending Queues.setPending
      rw [set_eq_of_length_le (Nat.le_of_not_lt inRange)]
  · exact .inr (q.pending_setPending_of_ne same _)

theorem Signalled.emptied (signalled : Signalled s)
    (run : Nat) (pos : next.pc = s.pc)
    (drainActive : next.drainActive = s.drainActive)
    (pendings :
      next.queues.pendings = (s.queues.setPending run .empty).pendings)
    (raised : s.readyPending ∨ s.pushing →
      next.readyPending ∨ next.pushing) : Signalled next := by
  have current : next.currentRun = s.currentRun := by
    unfold currentRun
    rw [pendings, Queues.setPending, length_set]
  have queue : next.queues.pending next.currentRun =
      (s.queues.setPending run .empty).pending s.currentRun := by
    rw [current]
    unfold Queues.pending
    rw [pendings]
  have items := s.queues.items_setPending_empty run s.currentRun
  refine signalled.frame pos drainActive ?_ ?_ raised
  · intro _ nothing
    rw [queue]
    rcases items with none | same
    · exact none
    · rwa [same]
  · intro holds
    rw [queue] at holds
    rcases items with none | same
    · exact absurd none holds
    · rw [same] at holds
      exact .inl holds

theorem raised_of_idle (idle : ∀ after, s.dispatcher ≠ .releaseHandles after ∧
      s.dispatcher ≠ .signal after)
    (producers : next.producers = s.producers)
    (flag : next.readyPending = s.readyPending) :
    s.readyPending ∨ s.pushing → next.readyPending ∨ next.pushing := by
  rintro (raised | mem | ⟨after, releases | signals⟩)
  · exact .inl (flag.trans raised)
  · exact .inr (.inl (producers ▸ mem))
  · exact absurd releases (idle after).1
  · exact absurd signals (idle after).2

theorem signalled_dispatcherStep (inv : RunsInOrder s last)
    (signalled : Signalled s) (step : DispatcherStep s next) :
    Signalled next := by
  cases step with
  | turns pos turn =>
    cases turn <;> exact signalled.frame rfl rfl (fun _ => id) .inl
      (raised_of_idle (by simp [pos]) rfl rfl)
  | receives pos | finishes pos | activates pos | resets pos
  | acknowledges pos =>
    exact signalled.frame rfl rfl (fun _ => id) .inl (raised_of_idle (by simp [pos]) rfl rfl)
  | enters pos _ replaces =>
    cases replaces with
    | none =>
      exact signalled.frame rfl rfl (fun _ => id) .inl (raised_of_idle (by simp [pos]) rfl rfl)
    | some => exact signalled.emptied _ rfl rfl rfl (raised_of_idle (by simp [pos]) rfl rfl)
  | @forwards _ _ after pos active =>
    obtain ⟨_, isActive, received⟩ := inv.active_of_forward pos
    cases active.symm.trans isActive
    exact signalled.push inv received rfl rfl rfl (.inr ⟨after, .inl rfl⟩)
  | @releases after =>
    exact signalled.frame rfl rfl (fun _ => id) .inl (fun _ => .inr (.inr ⟨after, .inr rfl⟩))
  | signals => exact signalled.frame rfl rfl (fun _ => id) .inl (fun _ => .inl rfl)
  | takesBack pos =>
    exact signalled.emptied _ rfl rfl rfl (raised_of_idle (by simp [pos]) rfl rfl)

/-! ### The loop thread -/

/-- The queue of the run stays as it is. The flag is lowered at the start of a
run. -/
structure KeepsPending (s next : LoopState) : Prop where
  before : s.pc.mayMerge
  pendings : next.queues.pendings = s.queues.pendings
  raised : s.pc = .clearReadyPending ∨
    (s.readyPending → next.readyPending)

variable {reply : LoopReply}

theorem RunStep.pending (step : RunStep s reply next)
    (mayMerge : next.pc.mayMerge) :
    (∃ processed, s.pc = .mergeGeneration processed ∧
        next.queues = s.queues.merge s.currentRun) ∨
      KeepsPending s next := by
  have keeps {pos : Position} (here : s.pc = pos)
      (before : pos.mayMerge)
      (pendings : next.queues.pendings = s.queues.pendings)
      (raised : s.readyPending → next.readyPending) :
      KeepsPending s next := ⟨by rw [here]; exact before, pendings, .inr raised⟩
  cases step with
  | clears here => exact .inr ⟨by rw [here]; rfl, rfl, .inl here⟩
  | publishes here | announces here | installs here | pops here | swaps here | stops here
  | endsTurn here | cleans here => exact .inr (keeps here rfl rfl id)
  | collects here => exact .inr (keeps here rfl (Queues.collect_frame _ _).2.1 id)
  | passes here pass => cases pass <;> exact .inr (keeps here rfl rfl id)
  | merges here => exact .inl ⟨_, here, rfl⟩
  | signals here =>
    exact .inr (keeps here rfl rfl fun raised => by
      simp [enqueueLocal, raised])
  | _ => cases mayMerge

theorem RunStep.arrives
    (drained : s.pc = .checkSignals ∨ s.pc = .park → s.drainActive = false)
    (step : RunStep s reply next) :
    next.pc ≠ .clearReadyPending ∧ (next.pc = .checkSignals ∨ next.pc = .park →
        next.drainActive = false) := by
  cases step with
  | swaps pos => simp [pos]
  | passes pos pass =>
    cases pass with
    | executes _ _ continues => cases continues <;> simp
    | parks => exact ⟨by simp, fun _ => drained (.inl pos)⟩
    | _ => simp
  | merges _ arrives => rcases arrives with rfl | rfl <;> simp
  | stops _ _ continues => cases continues <;> simp
  | endsTurn _ ends => exact ⟨by cases ends <;> simp, fun _ => rfl⟩
  | returns | timesOut => simp [returned]
  | _ => simp

theorem signalled_runStep (inv : RunsInOrder s last) (kept : QueuesKept s)
    (signalled : Signalled s) (step : RunStep s reply next) :
    Signalled next := by
  have frame := step.frame
  obtain ⟨elsewhere, drained⟩ := RunStep.arrives signalled.drained step
  refine ⟨fun clears => absurd clears elsewhere, fun mayMerge holds => ?_, drained⟩
  rcases step.pending mayMerge with ⟨_, pos, q⟩ | ⟨before, pendings, flag⟩
  · refine absurd ?_ holds
    have current : next.currentRun = s.currentRun := by
      unfold currentRun
      rw [q, Queues.length_merge]
    rw [current, q, kept.pending_merge inv pos]
    rfl
  · unfold currentRun Queues.pending at holds
    rw [pendings] at holds
    rcases flag with clears | raised
    · exact absurd (signalled.fresh clears) holds
    · refine (signalled.pushed before holds).imp raised ?_
      unfold LoopState.pushing
      rw [frame.producers, frame.dispatcher]
      exact id

theorem signalled_begin : Signalled
      { s with
        queues := s.queues.openRun
        running := true
        stopping := false
        pc := .clearReadyPending } := by
  have nothing : (s.queues.openRun.pending
        (s.queues.openRun.pendings.length - 1)).items = [] := by
    unfold Queues.pending Queues.openRun
    simp [PendingReady.empty]
  exact
    { fresh := fun _ => nothing
      pushed := fun _ holds => absurd nothing holds
      drained := by simp }

theorem signalled_loopStep (inv : RunsInOrder s last) (kept : QueuesKept s)
    (signalled : Signalled s) {action : LoopAction}
    (moved : loopStep s action = some next) : Signalled next := by
  cases loopStep_cases moved with
  | calls idle =>
    exact signalled.frame rfl rfl (fun _ => id) .inl
      (raised_of_set idle Producer.noConfusion rfl rfl rfl)
  | produces step => exact signalled_producerStep inv signalled step
  | dispatches step => exact signalled_dispatcherStep inv signalled step
  | enqueues =>
    refine signalled.frame rfl rfl (fun _ => id) .inl ?_
    rintro (raised | pushing)
    · exact .inl (by simp [enqueueLocal, raised])
    · exact .inr pushing
  | refuses => exact signalled
  | begins => exact signalled_begin
  | runs step => exact signalled_runStep inv kept signalled step

/-! ## The wait -/

variable {s next : ParkState}

/-- The timers of the other threads have been looked at. -/
def ParkPosition.pastTimers : ParkPosition → Bool
  | .polling | .spinning | .firstLoad | .register | .secondLoad | .suspended => true
  | _ => false

/-- The batch and the local queue have been looked at. -/
def ParkPosition.pastQueues : ParkPosition → Bool
  | .polling => false
  | pc => pc.pastTimers

def ParkPosition.home : ParkPosition → Option Position
  | .elsewhere => none
  | .collect | .appendTimers | .collected => some .turn
  | _ => some .park

variable {park : ParkPosition}

theorem ParkPosition.pastTimers_of_pastQueues
    (past : park.pastQueues) : park.pastTimers := by
  cases park with
  | polling => cases past
  | _ => exact past

theorem ParkPosition.home_of_pastTimers
    (past : park.pastTimers) : park.home = some .park := by
  cases park with
  | polling | spinning | firstLoad | register | secondLoad | suspended => rfl
  | _ => cases past

/-- Whatever the loop has not seen when it parks will wake it. -/
structure Watched (s : ParkState) : Prop where
  runs : ∃ last, RunsInOrder s.loop last
  kept : QueuesKept s.loop
  signalled : Signalled s.loop
  placed : ∀ pc, s.park.home = some pc → s.loop.pc = pc
  timers : 0 < s.pendingTimers → s.timersDirty ∨ .setDirty ∈ s.timerProducers ∨
      s.park = .appendTimers
  dirty : s.park.pastTimers → s.timersDirty →
    s.loop.readyPending ∨ .signal ∈ s.timerProducers
  own : s.park.pastQueues → s.loop.queues.readyBatch = [] ∧
      (s.loop.queues.localReady ≠ [] → s.loop.readyPending)
  registered : s.park = .secondLoad ∨ s.park = .suspended →
    s.waker ∨ s.woken
  raised : s.park = .suspended → s.loop.readyPending →
    s.woken ∨ s.waking ≠ []

theorem watched_new (threads timerThreads : Nat) (spinWindow : Bool) :
    Watched (.new threads timerThreads spinWindow) where
  runs := ⟨0, runsInOrder_new threads⟩
  kept := queuesKept_new threads
  signalled := signalled_new threads
  placed := nofun
  timers := fun some => absurd some (Nat.lt_irrefl 0)
  dirty := nofun
  own := nofun
  registered := by
    rintro (park | park)
    · cases park
    · cases park
  raised := fun park => by cases park

/-! ### The other parties -/

/-- A step of the loop that its own thread has no part in. -/
structure OtherMove (s next : LoopState) : Prop where
  pc : next.pc = s.pc
  batch : next.queues.readyBatch = s.queues.readyBatch
  localReady : next.queues.localReady = s.queues.localReady
  tlsTimers : next.tlsTimers = s.tlsTimers
  raised : s.readyPending → next.readyPending

theorem ProducerStep.otherMove {s next : LoopState}
    (step : ProducerStep s tid next) : OtherMove s next := by
  cases step with
  | signals => exact ⟨rfl, rfl, rfl, rfl, fun _ => rfl⟩
  | _ => exact ⟨rfl, rfl, rfl, rfl, id⟩

theorem DispatcherStep.otherMove {s next : LoopState}
    (step : DispatcherStep s next) : OtherMove s next := by
  cases step with
  | enters _ _ replaces => cases replaces <;> exact ⟨rfl, rfl, rfl, rfl, id⟩
  | signals => exact ⟨rfl, rfl, rfl, rfl, fun _ => rfl⟩
  | _ => exact ⟨rfl, rfl, rfl, rfl, id⟩

variable {caller : Caller}

theorem owesWake_ne_nil {before after : LoopState}
    {waking : List Caller} {woken : Bool} (raised : after.readyPending)
    (owed : before.readyPending → woken ∨ waking ≠ []) :
    woken ∨ owesWake before after caller ++ waking ≠ [] := by
  unfold owesWake
  cases flag : before.readyPending with
  | false =>
    rw [if_pos ⟨rfl, raised⟩]
    exact .inr (by simp)
  | true =>
    rcases owed flag with woken | owes
    · exact .inl woken
    · exact .inr (by simp [owes])

theorem Watched.timers_moveTo (inv : Watched s) (caller : Caller)
    (loop : LoopState) (elsewhere : s.park ≠ .appendTimers)
    (some : 0 < (s.moveTo caller loop).pendingTimers) :
    (s.moveTo caller loop).timersDirty ∨ .setDirty ∈ s.timerProducers := by
  unfold ParkState.moveTo at some ⊢
  dsimp only at some ⊢
  rw [Bool.or_eq_true, decide_eq_true_iff]
  generalize (if s.loop.tlsTimers && !loop.tlsTimers then s.heap else 0) = dropped at some ⊢
  by_cases none : dropped = 0
  · rw [none, Nat.add_zero] at some
    rcases inv.timers some with dirty | pushing | appends
    · exact .inl (.inl dirty)
    · exact .inr pushing
    · exact absurd appends elsewhere
  · exact .inl (.inr none)

variable {loop : LoopState}

/-- Another party moves; the loop thread may have queued something for itself. -/
theorem Watched.other (inv : Watched s) (caller : Caller)
    (runs : ∃ last, RunsInOrder loop last)
    (kept : QueuesKept loop) (signalled : Signalled loop)
    (pos : loop.pc = s.loop.pc)
    (batch : loop.queues.readyBatch = s.loop.queues.readyBatch)
    (localReady : s.park.pastQueues →
      loop.queues.localReady = s.loop.queues.localReady ∨ loop.readyPending)
    (tlsTimers : loop.tlsTimers = s.loop.tlsTimers)
    (raised : s.loop.readyPending → loop.readyPending) :
    Watched (s.moveTo caller loop) := by
  have dropped : (s.loop.tlsTimers && !loop.tlsTimers) = false := by
    rw [tlsTimers, Bool.and_not_self]
  have park : (s.moveTo caller loop).park = s.park := if_pos pos
  have pendingTimers : (s.moveTo caller loop).pendingTimers = s.pendingTimers := by
    simp [ParkState.moveTo, dropped]
  have timersDirty : (s.moveTo caller loop).timersDirty = s.timersDirty := by
    simp [ParkState.moveTo, dropped]
  exact
    { runs := runs
      kept := kept
      signalled := signalled
      placed := by
        rw [park]
        exact fun home here => pos.trans (inv.placed home here)
      timers := by
        rw [park, pendingTimers, timersDirty]
        exact inv.timers
      dirty := by
        rw [park, timersDirty]
        exact fun past dirty => (inv.dirty past dirty).imp_left raised
      own := by
        rw [park]
        intro past
        obtain ⟨emptied, owned⟩ := inv.own past
        refine ⟨batch.trans emptied, fun holds => ?_⟩
        rcases localReady past with same | flag
        · exact raised (owned (same ▸ holds))
        · exact flag
      registered := by
        rw [park]
        exact inv.registered
      raised := by
        rw [park]
        exact fun suspended flag =>
          owesWake_ne_nil flag (inv.raised suspended) }

theorem Position.pastTimers_parkPosition (pos : Position) :
    pos.parkPosition.pastTimers = false := by
  cases pos <;> rfl

theorem Position.eq_of_home {pos home : Position}
    (here : pos.parkPosition.home = some home) : pos = home := by
  cases pos with
  | turn | park => exact Option.some.inj here
  | _ => cases here

/-- The loop thread moves outside its wait. -/
theorem Watched.away (inv : Watched s) (caller : Caller)
    (runs : ∃ last, RunsInOrder loop last)
    (kept : QueuesKept loop) (signalled : Signalled loop)
    (elsewhere : s.park ≠ .appendTimers)
    (arrives : (s.moveTo caller loop).park.pastTimers = false) :
    Watched (s.moveTo caller loop) where
  runs := runs
  kept := kept
  signalled := signalled
  placed := by
    intro home here
    simp only [ParkState.moveTo] at here
    split at here
    next same => exact same.trans (inv.placed home here)
    next => exact Position.eq_of_home here
  timers := fun some =>
    (inv.timers_moveTo caller loop elsewhere some).imp_right .inl
  dirty := fun past => by
    cases arrives.symm.trans past
  own := fun past => by
    cases (ParkPosition.pastTimers_of_pastQueues past).symm.trans arrives
  registered := by
    rintro (park | park) <;>
      · rw [park] at arrives
        cases arrives
  raised := fun park => by
    rw [park] at arrives
    cases arrives

theorem pastTimers_moveTo (before : s.park.pastTimers = false) :
    (s.moveTo caller loop).park.pastTimers = false := by
  simp only [ParkState.moveTo]
  split
  · exact before
  · exact loop.pc.pastTimers_parkPosition

variable {spinCooldown : Nat}

section

variable (inv : Watched s)

include inv

theorem Watched.takeDue (action : LoopAction) : Watched (s.takeDue action) := by
  unfold ParkState.takeDue
  split
  · exact { inv with }
  · exact inv

theorem Watched.park_eq_elsewhere (notTurn : s.loop.pc ≠ .turn)
    (notPark : s.loop.pc ≠ .park) : s.park = .elsewhere := by
  cases park : s.park with
  | elsewhere => rfl
  | collect | appendTimers | collected =>
    exact absurd (inv.placed _ (by rw [park]; rfl)) notTurn
  | _ => exact absurd (inv.placed _ (by rw [park]; rfl)) notPark

theorem watched_stepLoopAction {action : LoopAction}
    (moved : stepLoopAction s action = some next) : Watched next := by
  unfold stepLoopAction at moved
  split_ifs at moved with allowed
  rw [not_or, Bool.not_eq_false] at allowed
  obtain ⟨-, permitted⟩ := allowed
  obtain ⟨loop, taken, rfl⟩ := Option.map_eq_some_iff.mp moved
  obtain ⟨last, runs⟩ := inv.runs
  have runs' := runsInOrder_loopStep runs taken
  have kept' := queuesKept_loopStep runs inv.kept taken
  have signalled' := signalled_loopStep runs inv.kept inv.signalled taken
  have other (move : OtherMove s.loop loop) (caller : Caller) :
      Watched (s.moveTo caller loop) :=
    inv.other _ runs' kept' signalled' move.pc move.batch
      (fun _ => .inl move.localReady) move.tlsTimers move.raised
  cases loopStep_cases taken with
  | calls | refuses => exact other ⟨rfl, rfl, rfl, rfl, id⟩ _
  | produces step | dispatches step => exact other step.otherMove _
  | enqueues =>
    refine inv.other _ runs' kept' signalled' rfl rfl ?_ rfl ?_
    · intro past
      have home := ParkPosition.home_of_pastTimers (ParkPosition.pastTimers_of_pastQueues past)
      have drained := inv.signalled.drained (.inr (inv.placed _ home))
      exact .inr (by simp [enqueueLocal, drained])
    · intro raised
      simp [enqueueLocal, raised]
  | begins isOver =>
    have park : s.park = .elsewhere := by
      rcases isOver with outside | early
      · exact inv.park_eq_elsewhere (by simp [outside]) (by simp [outside])
      · exact inv.park_eq_elsewhere (by simp [early]) (by simp [early])
    exact inv.away _ runs' kept' signalled' (by rw [park]; simp)
      (pastTimers_moveTo (by rw [park]; rfl))
  | @runs reply =>
    have park : s.park = .elsewhere ∨ s.park = .collected := by
      cases reply with
      | timersDue => exact .inr (of_decide_eq_true permitted).1
      | _ => exact .inl (of_decide_eq_true permitted)
    have same : (s.takeDue (.loop reply)).park = s.park := by
      cases reply <;> rfl
    refine (inv.takeDue (.loop reply)).away _ runs' kept' signalled' ?_ (pastTimers_moveTo ?_)
    · rw [same]
      rcases park with park | park <;> simp [park]
    · rw [same]
      rcases park with park | park <;> simp [park, ParkPosition.pastTimers]

/-! ### Wakes and timers -/

theorem watched_stepWake (moved : stepWake s caller = some next) :
    Watched next := by
  unfold stepWake at moved
  split_ifs at moved
  cases moved
  have woken (waits : s.park = .secondLoad ∨ s.park = .suspended) :
      (s.woken || s.waker) := by
    rcases inv.registered waits with registered | woken
    · rw [registered, Bool.or_true]
    · rw [woken, Bool.true_or]
  exact
    { inv with
      registered := fun waits => .inr (woken waits)
      raised := fun suspended _ => .inl (woken (.inr suspended)) }

theorem watched_stepCallTimer (moved : stepCallTimer s tid = some next) :
    Watched next := by
  unfold stepCallTimer at moved
  split_ifs at moved with allowed
  rw [not_or, not_not] at allowed
  have idle := allowed.2
  cases moved
  have inRange : tid < s.timerProducers.length := (List.getElem?_eq_some_iff.mp idle).choose
  exact
    { inv with
      timers := fun _ =>
        .inr (.inl (mem_of_getElem? (getElem?_set_self inRange)))
      dirty := fun past dirty => by
        refine (inv.dirty past dirty).imp_right fun signals => ?_
        exact mem_set_of_getElem?_ne signals (by rw [idle]; simp) }

theorem watched_stepTimerProducer
    (moved : stepTimerProducer s tid = some next) : Watched next := by
  unfold stepTimerProducer at moved
  split at moved
  next found =>
    cases moved
    have inRange : tid < s.timerProducers.length :=
      (List.getElem?_eq_some_iff.mp found).choose
    exact
      { inv with
        timers := fun _ => .inl rfl
        dirty := fun _ _ =>
          .inr (mem_of_getElem? (getElem?_set_self inRange)) }
  next found =>
    cases moved
    obtain ⟨last, runs⟩ := inv.runs
    exact
      { runs := ⟨last, { runs with }⟩
        kept := { inv.kept with }
        signalled := { inv.signalled with pushed := fun _ _ => .inl rfl }
        placed := inv.placed
        timers := fun some => by
          rcases inv.timers some with dirty | pushes | appends
          · exact .inl dirty
          · exact .inr (.inl (mem_set_of_getElem?_ne pushes (by rw [found]; simp)))
          · exact .inr (.inr appends)
        dirty := fun _ _ => .inl rfl
        own := fun past => ⟨(inv.own past).1, fun _ => rfl⟩
        registered := inv.registered
        raised := fun suspended _ =>
          owesWake_ne_nil rfl (inv.raised suspended) }
  next => cases moved

theorem watched_stepOwnTimer (moved : stepOwnTimer s = some next) :
    Watched next := by
  unfold stepOwnTimer at moved
  split_ifs at moved
  cases moved
  exact { inv with }

/-! ### The loop thread around its wait -/

theorem Watched.nextTurn (home : s.park.home = some .park)
    (moved : s.nextTurn = some next) : Watched next := by
  have pc := inv.placed _ home
  obtain ⟨loop, taken, rfl⟩ := Option.map_eq_some_iff.mp moved
  obtain ⟨last, runs⟩ := inv.runs
  have runs' := runsInOrder_loopStep runs taken
  have kept' := queuesKept_loopStep runs inv.kept taken
  have signalled' := signalled_loopStep runs inv.kept inv.signalled taken
  have arrives : loop = { s.loop with pc := .turn } := by
    simp only [loopStep, stepLoop, pc, Option.some.injEq] at taken
    exact taken.symm
  refine inv.away _ runs' kept' signalled' ?_ ?_
  · intro appends
    rw [appends] at home
    cases home
  · simp [ParkState.moveTo, arrives, pc, Position.parkPosition, ParkPosition.pastTimers]

theorem Watched.goto (home : park.home = s.park.home)
    (appended : s.park ≠ .appendTimers)
    (dirty : park.pastTimers → s.timersDirty →
      s.loop.readyPending ∨ .signal ∈ s.timerProducers)
    (own : park.pastQueues → s.loop.queues.readyBatch = [] ∧
        (s.loop.queues.localReady ≠ [] → s.loop.readyPending)) {waker woken : Bool}
    {consecutiveSpins : Nat}
    (registered : park = .secondLoad ∨ park = .suspended → waker ∨ woken)
    (raised : park = .suspended → s.loop.readyPending = false) :
    Watched
      { s with
        park := park
        waker := waker
        woken := woken
        spinCooldown := spinCooldown
        consecutiveSpins := consecutiveSpins } :=
  { inv with
    placed := fun pos here => inv.placed pos (home.symm.trans here)
    timers := fun some => (inv.timers some).imp_right (Or.imp_right (absurd · appended))
    dirty := dirty
    own := own
    registered := registered
    raised := fun suspended flag => nomatch (raised suspended).symm.trans flag }

/-- The wait goes on behind its looks at the timers and at the queues. -/
theorem Watched.waits (past : s.park.pastQueues)
    (home : park.home = some .park) {waker woken : Bool}
    {consecutiveSpins : Nat}
    (registered : park = .secondLoad ∨ park = .suspended → waker ∨ woken)
    (raised : park = .suspended → s.loop.readyPending = false) :
    Watched
      { s with
        park := park
        waker := waker
        woken := woken
        spinCooldown := spinCooldown
        consecutiveSpins := consecutiveSpins } := by
  have pastTimers := ParkPosition.pastTimers_of_pastQueues past
  refine inv.goto (home.trans (ParkPosition.home_of_pastTimers pastTimers).symm) ?_
    (fun _ => inv.dirty pastTimers) (fun _ => inv.own past) registered raised
  intro appends
  rw [appends] at past
  cases past

theorem Watched.block (park : s.park = .spinning) :
    Watched { s with spinCooldown := spinCooldown }.block :=
  inv.waits (by rw [park]; rfl) rfl (by simp) (by simp)

theorem watched_stepPark {reply : ParkReply}
    (moved : stepPark s reply = some next) :
    Watched next := by
  unfold stepPark at moved
  split at moved
  next park =>
    split at moved
    · cases moved
      exact
        { inv with
          placed := fun home here => inv.placed home (by rw [park]; exact here)
          timers := fun _ => .inr (.inr rfl)
          dirty := nofun
          own := nofun
          registered := by simp
          raised := nofun }
    · cases moved
      exact inv.goto (by rw [park]; rfl) (by rw [park]; simp)
        (fun past => by cases past) (fun past => by cases past) (by simp) (by simp)
  next park =>
    cases moved
    exact
      { inv with
        placed := fun home here => inv.placed home (by rw [park]; exact here)
        timers := fun some => absurd some (Nat.lt_irrefl 0)
        dirty := nofun
        own := nofun
        registered := by simp
        raised := nofun }
  next park =>
    have home : s.park.home = some .park := by rw [park]; rfl
    split at moved
    · exact inv.nextTurn home moved
    next clean =>
      have dirty : ∀ {goal : Prop}, s.timersDirty → goal := by
        intro goal isDirty
        exact absurd isDirty clean
      split at moved
      · cases moved
        exact inv.goto (by rw [park]; rfl) (by rw [park]; simp) (fun _ => dirty)
          (fun past => by cases past) (by simp) (by simp)
      next nothing =>
        rw [not_or, not_or, not_not, not_not] at nothing
        cases moved
        exact inv.goto (by rw [park]; rfl) (by rw [park]; simp) (fun _ => dirty)
          (fun _ => ⟨nothing.1, fun holds => absurd nothing.2.1 holds⟩)
          (by simp) (by simp)
  next park =>
    have home : s.park.home = some .park := by rw [park]; rfl
    split at moved
    · exact inv.nextTurn home moved
    next nothing =>
      rw [not_or, not_or, not_not, not_not] at nothing
      cases moved
      exact inv.goto (by rw [park]; rfl) (by rw [park]; simp)
        (fun _ => inv.dirty (by rw [park]; rfl))
        (fun _ => ⟨nothing.1, fun holds => absurd nothing.2.1 holds⟩)
        (by simp) (by simp)
  next park =>
    split_ifs at moved
    cases moved
    exact inv.block park
  next park =>
    have home : s.park.home = some .park := by rw [park]; rfl
    split at moved
    · split at moved
      · have counted : Watched
            { s with consecutiveSpins := s.consecutiveSpins + 1 } :=
          { inv with }
        exact counted.nextTurn home moved
      · cases moved
        exact inv.block park
    · cases moved
  next park =>
    split_ifs at moved
    cases moved
    exact inv.block park
  next park =>
    have home : s.park.home = some .park := by rw [park]; rfl
    split at moved
    · exact inv.nextTurn home moved
    · cases moved
      exact inv.waits (by rw [park]; rfl) rfl (by simp) (by simp)
  next park =>
    cases moved
    exact inv.waits (by rw [park]; rfl) rfl (fun _ => .inl rfl) (by simp)
  next park =>
    have home : s.park.home = some .park := by rw [park]; rfl
    split at moved
    · exact inv.nextTurn home moved
    next lowered =>
      cases moved
      exact inv.waits (by rw [park]; rfl) rfl
        (fun _ => inv.registered (.inl park))
        (fun _ => eq_false_of_ne_true lowered)
  next park =>
    split_ifs at moved
    cases moved
    exact inv.waits (by rw [park]; rfl) rfl (by simp) (by simp)
  next park => exact inv.nextTurn (by rw [park]; rfl) moved
  next => cases moved

theorem watched_parkStep {action : ParkAction}
    (moved : parkStep s action = some next) :
    Watched next := by
  cases action with
  | loop => exact watched_stepLoopAction inv moved
  | wake => exact watched_stepWake inv moved
  | callTimer => exact watched_stepCallTimer inv moved
  | timerProducer => exact watched_stepTimerProducer inv moved
  | ownTimer => exact watched_stepOwnTimer inv moved
  | park =>
    simp only [parkStep] at moved
    split_ifs at moved
    exact watched_stepPark inv moved

end

/-! ## Whole runs -/

/-- In every state of every run: when the loop thread is suspended, its waker has
not been called and all signals are done, there is nothing to execute. -/
theorem nothingWaits_of_suspended (threads timerThreads : Nat)
    (spinWindow : Bool)
    {actions : List ParkAction} {s : ParkState}
    (reached :
      run parkStep (.new threads timerThreads spinWindow) actions = some s)
    (suspended : s.park = .suspended) (asleep : s.woken = false)
    (done : SignalsDone s) : NothingWaits s := by
  have always : Guarded parkStep (fun _ _ => True)
      (.new threads timerThreads spinWindow) actions :=
    guarded_of_forall fun _ _ _ => trivial
  have inv : Watched s := by
    refine invariant_of_run Watched ?_ (watched_new threads timerThreads spinWindow) always reached
    intro before action after inv _ moved
    exact watched_parkStep inv moved
  have pc : s.loop.pc = .park := inv.placed _ (by rw [suspended]; rfl)
  have lowered : s.loop.readyPending ≠ true := by
    intro raised
    rcases inv.raised suspended raised with woken | owes
    · cases asleep.symm.trans woken
    · exact owes done.waking
  have idle (producer : TimerProducer) (busy : producer ≠ .idle) :
      producer ∉ s.timerProducers := fun member =>
    busy (done.timers producer member)
  have clean : s.timersDirty ≠ true := by
    intro dirty
    rcases inv.dirty (by rw [suspended]; rfl) dirty with raised | signals
    · exact lowered raised
    · exact idle .signal TimerProducer.noConfusion signals
  obtain ⟨batch, own⟩ := inv.own (by rw [suspended]; rfl)
  exact
    { pending := by
        by_contra holds
        rcases inv.signalled.pushed (by rw [pc]; rfl) holds with
          raised | signals | ⟨after, releases | signals⟩
        · exact lowered raised
        · exact done.producers _ signals rfl
        · exact (done.dispatcher after).1 releases
        · exact (done.dispatcher after).2 signals
      localReady := by
        by_contra holds
        exact lowered (own holds)
      readyBatch := batch
      timers := by
        refine Nat.eq_zero_of_not_pos fun some => ?_
        rcases inv.timers some with dirty | pushes | appends
        · exact clean dirty
        · exact idle .setDirty TimerProducer.noConfusion pushes
        · rw [suspended] at appends
          cases appends }

/-- The loop parks; a timer of another thread wakes it; it is executed and the loop
parks again. -/
def timerWakesLoop : List ParkAction :=
  List.flatten [[.loop .runForever], List.replicate 4 (.loop (.loop .proceed)),
      List.replicate 3 (.loop .dispatcher), [.park .proceed],
      [.loop (.loop (.timersDue 0))], List.replicate 3 (.loop (.loop .proceed)),
      List.replicate 5 (.park .proceed),
      [.callTimer 0, .timerProducer 0, .timerProducer 0, .wake (.timerThread 0)],
      List.replicate 4 (.park .proceed), [.loop (.loop (.timersDue 1))],
      List.replicate 3 (.loop (.loop .proceed)),
      [.loop (.loop (.executed .returned))],
      List.replicate 3 (.loop (.loop .proceed)), List.replicate 5 (.park .proceed)]

theorem nothingWaits_of_timerWakesLoop : ∃ s,
      run parkStep (.new 2 1 false) timerWakesLoop = some s ∧
        s.park = .suspended ∧ s.loop.queues.popped.length = 1 ∧
        NothingWaits s := by
  obtain ⟨s, reached, suspended, popped, asleep, producers, dispatcher, timers, waking⟩ :=
    exists_run_of_any parkStep (.new 2 1 false) timerWakesLoop
      (fun s => s.park = .suspended ∧
        s.loop.queues.popped.length = 1 ∧ s.woken = false ∧
        s.loop.producers = [.idle, .idle] ∧
        s.loop.dispatcher = .drainCommands ∧
        s.timerProducers = [.idle] ∧ s.waking = [])
      (by decide)
  have done : SignalsDone s :=
    { producers := by simp [producers]
      dispatcher := by simp [dispatcher]
      timers := by simp [timers]
      waking := waking }
  exact ⟨s, reached, suspended, popped,
    nothingWaits_of_suspended 2 1 false reached suspended asleep done⟩

end Rsloop.Engine
