import Rsloop.Engine.LoopSteps

/-!
# Runs and the dispatcher

Every run announces itself with `EnterRun` and ends with `FinishRun`. The
dispatcher may be arbitrarily late with either of them, but the channel keeps
them in order. The run commands are therefore numbered, and what the dispatcher
and the loop thread know about each other is a comparison of two numbers.
-/

namespace Rsloop.Engine

open Transition List Queues

/-! ## The run commands on the channel -/

def Command.runNumbers : Command → List Nat
  | .enterRun run localMark => [Command.number (.enterRun run localMark)]
  | .finishRun run => [Command.number (.finishRun run)]
  | _ => []

def Queues.runNumbers (q : Queues) : List Nat :=
  q.channel.flatMap Command.runNumbers

/-- The numbers lead from `first` to `last`. Behind an early return the
`FinishRun` of a run, which has an even number, is missing. -/
def Follows (early : Prop) (first : Nat) : List Nat → Nat → Prop
  | [], last => last = first
  | number :: rest, last =>
    (number = first + 1 ∨ early ∧ first % 2 = 1 ∧ number = first + 2) ∧
      Follows early number rest last

variable {number : Nat} {early : Prop} {first last : Nat} {numbers : List Nat}

theorem Follows.le (follows : Follows early first numbers last) :
    first ≤ last := by
  induction numbers generalizing first with
  | nil => exact Nat.le_of_eq follows.symm
  | cons _ _ ih =>
    have later := ih follows.2
    have larger := follows.1
    omega

theorem Follows.concat (follows : Follows early first numbers last) (nextNumber :
      number = last + 1 ∨ early ∧ last % 2 = 1 ∧ number = last + 2) :
    Follows early first (numbers ++ [number]) number := by
  induction numbers generalizing first with
  | nil =>
    have same : last = first := follows
    subst same
    exact ⟨nextNumber, rfl⟩
  | cons _ _ ih => exact ⟨follows.1, ih follows.2⟩

theorem Follows.mono {weaker : Prop} (implied : early → weaker)
    (follows : Follows early first numbers last) :
    Follows weaker first numbers last := by
  induction numbers generalizing first with
  | nil => exact follows
  | cons _ _ ih =>
    refine ⟨?_, ih follows.2⟩
    exact follows.1.imp_right fun skipped => ⟨implied skipped.1, skipped.2⟩

/-! ## What both sides know -/

def LoopState.hasLeftEarly (s : LoopState) : Prop :=
  none ∈ s.results

/-- The number of the last run command that the loop thread has sent, of
`runs` runs. -/
def Position.Sent (early : Prop) (runs last : Nat) : Position → Prop
  | .outside => last = 2 * runs
  | .clearReadyPending | .publish
  | .sendEnterRun => last + 2 = 2 * runs ∨ early ∧ last + 3 = 2 * runs
  | .awaitFinishRun _ => last = 2 * runs ∧ 0 < runs
  | .leftEarly => early ∧ last + 1 = 2 * runs
  | _ => last + 1 = 2 * runs

/-- The loop thread has taken the run's queue out of reach. -/
def Position.retired : Position → Bool
  | .outside | .sendFinishRun _ | .awaitFinishRun _ => true
  | _ => false

/-- `activeRun` agrees with the last command received. -/
def ServesRun (received : Nat) : Option Nat → Prop
  | some run => received = 2 * run + 1
  | none => received % 2 = 0

def AfterForward.Serves (activeRun : Option Nat) (received : Nat) (batch : List ReadyItem) :
    AfterForward → Prop
  | .drainCommands => ∃ run, activeRun = some run ∧ received = 2 * run + 1
  | .activate run => activeRun = some run ∧ received = 2 * run + 1 ∧ batch = []

def Dispatcher.Serves (activeRun : Option Nat) (received : Nat) (batch : List ReadyItem) :
    Dispatcher → Prop
  | .poll | .drainCommands => ServesRun received activeRun
  | .forward _ after => after.Serves activeRun received []
  | .releaseHandles after | .signal after => after.Serves activeRun received batch
  | .activate run => AfterForward.Serves activeRun received batch (.activate run)
  | .finishRun run => activeRun = some run ∧ received = 2 * run + 2
  | .resetState run | .acknowledge run => activeRun = none ∧ received = 2 * run + 2

/-- Work left by earlier runs has still to be forwarded to the run. -/
def Dispatcher.entering : Dispatcher → Bool
  | .forward _ (.activate _) => true
  | _ => false

/-- The commands that open and close runs are numbered, and both threads keep to
their order; `last` is the last one sent. -/
structure RunsInOrder (s : LoopState) (last : Nat) : Prop where
  commands : Follows s.hasLeftEarly s.receivedRuns s.queues.runNumbers last
  sent : s.pc.Sent s.hasLeftEarly s.queues.pendings.length last
  served : s.dispatcher.Serves s.activeRun s.receivedRuns s.queues.dispatcherBatch
  published : ∀ run accepting, s.activeReadyDispatch = some ⟨run, accepting⟩ →
      s.pc ≠ .sendEnterRun → last = 2 * run + 1
  publishing : s.pc = .sendEnterRun →
    s.activeReadyDispatch = some ⟨s.currentRun, false⟩
  /-- The queue is open only while the dispatcher serves its run. -/
  accepting : ∀ run, s.activeReadyDispatch = some ⟨run, true⟩ →
      s.receivedRuns = 2 * run + 1 ∧ s.dispatcher.entering = false
  retired : s.pc.retired → s.activeReadyDispatch = none

theorem runsInOrder_new (threads : Nat) : RunsInOrder (.new threads) 0 where
  commands := rfl
  sent := rfl
  served := rfl
  published := nofun
  publishing := nofun
  accepting := nofun
  retired := fun _ => rfl

variable {s next : LoopState}

theorem RunsInOrder.received_le (inv : RunsInOrder s last) :
    s.receivedRuns ≤ last :=
  inv.commands.le

theorem RunsInOrder.queues (inv : RunsInOrder s last) {q : Queues}
    (cmds : q.runNumbers = s.queues.runNumbers)
    (runs : q.pendings.length = s.queues.pendings.length) :
    Follows s.hasLeftEarly s.receivedRuns q.runNumbers last ∧
      s.pc.Sent s.hasLeftEarly q.pendings.length last ∧
      (s.pc = .sendEnterRun →
        s.activeReadyDispatch = some ⟨q.pendings.length - 1, false⟩) := by
  rw [cmds, runs]
  exact ⟨inv.commands, inv.sent, inv.publishing⟩

variable {readyPending : Bool}

theorem RunsInOrder.addItems (inv : RunsInOrder s last)
    {q : Queues} {producers : List Producer} {stopRequested : Bool}
    {channelHandles : Nat}
    (cmds : q.runNumbers = s.queues.runNumbers)
    (runs : q.pendings.length = s.queues.pendings.length)
    (batch : q.dispatcherBatch = s.queues.dispatcherBatch) :
    RunsInOrder
      { s with
        queues := q
        producers := producers
        stopRequested := stopRequested
        readyPending := readyPending
        channelHandles := channelHandles } last := by
  obtain ⟨follows, sent, publishing⟩ := inv.queues cmds runs
  exact
    { inv with
      commands := follows
      sent := sent
      served := by
        rw [batch]
        exact inv.served
      publishing := publishing }

theorem Queues.runNumbers_send (q : Queues) (item : ReadyItem) :
    (q.send item).runNumbers = q.runNumbers := by
  have none : (Command.ofItem item).runNumbers = [] := by
    unfold Command.ofItem
    split <;> rfl
  simp [runNumbers, send, none]

theorem Queues.length_pushActive (q : Queues) (run : Nat) (item : ReadyItem) :
    (q.pushActive run item).pendings.length = q.pendings.length := by
  simp [pushActive, setPending]

theorem runsInOrder_producerStep (inv : RunsInOrder s last)
    {tid : Nat} (step : ProducerStep s tid next) : RunsInOrder next last := by
  cases step with
  | pushes => exact inv.addItems rfl (length_pushActive _ _ _) rfl
  | sends => exact inv.addItems (runNumbers_send _ _) rfl rfl
  | _ => exact inv.addItems rfl rfl rfl

variable {activeRun : Option Nat} {run : Nat} {q : Queues} {dispatcher : Dispatcher}

theorem RunsInOrder.serve (inv : RunsInOrder s last)
    {dispatcherHandles channelHandles : Nat}
    {running stopping : Bool} {finished : List Nat}
    (cmds : q.runNumbers = s.queues.runNumbers)
    (runs : q.pendings.length = s.queues.pendings.length)
    (served : dispatcher.Serves activeRun s.receivedRuns q.dispatcherBatch)
    (entered : dispatcher.entering = false ∨ dispatcher.entering = s.dispatcher.entering) :
    RunsInOrder
      { s with
        queues := q
        dispatcher := dispatcher
        dispatcherHandles := dispatcherHandles
        channelHandles := channelHandles
        readyPending := readyPending
        running := running
        stopping := stopping
        finished := finished
        activeRun := activeRun } last := by
  obtain ⟨follows, sent, publishing⟩ := inv.queues cmds runs
  exact
    { inv with
      commands := follows
      sent := sent
      served := served
      publishing := publishing
      accepting := fun run isActive => by
        obtain ⟨received, outside⟩ := inv.accepting run isActive
        refine ⟨received, ?_⟩
        rcases entered with forwarded | same
        · exact forwarded
        · exact same.trans outside }

variable {rest : List Command} {cmd : Command}

theorem Queues.runNumbers_receive (chan : q.channel = cmd :: rest) :
    q.runNumbers = cmd.runNumbers ++ q.receive.runNumbers := by
  simp [runNumbers, receive, chan]

section

variable (inv : RunsInOrder s last)

include inv

/-- No run command is on the channel while the queue is open. -/
theorem RunsInOrder.closed_of_received {rest : List Nat}
    (waits : s.queues.runNumbers = number :: rest) (run : Nat) :
    s.activeReadyDispatch ≠ some ⟨run, true⟩ := by
  intro isActive
  obtain ⟨received, _⟩ := inv.accepting run isActive
  have follows := inv.commands
  rw [waits] at follows
  have later := follows.2.le
  have larger := follows.1
  have different : s.pc ≠ .sendEnterRun := by
    intro isPublishing
    have published := inv.publishing isPublishing
    cases isActive.symm.trans published
  have sent := inv.published run true isActive different
  omega

theorem RunsInOrder.receiveRun (chan : s.queues.channel = cmd :: rest)
    (isRun : cmd.runNumbers = [number])
    (cmds : q.runNumbers = s.queues.receive.runNumbers)
    (runs : q.pendings.length = s.queues.pendings.length)
    (served : dispatcher.Serves activeRun number q.dispatcherBatch) :
    RunsInOrder
      { s with
        queues := q
        dispatcher := dispatcher
        activeRun := activeRun
        receivedRuns := number } last := by
  have waits := runNumbers_receive chan
  rw [isRun, singleton_append] at waits
  have closed := inv.closed_of_received waits
  exact
    { inv with
      commands := by
        have follows := inv.commands
        rw [waits] at follows
        rw [cmds]
        exact follows.2
      sent := by
        rw [runs]
        exact inv.sent
      served := served
      publishing := fun isPublishing => by
        change s.activeReadyDispatch = some ⟨q.pendings.length - 1, false⟩
        rw [runs]
        exact inv.publishing isPublishing
      accepting := fun run isActive => absurd isActive (closed run) }

theorem RunsInOrder.received_next (chan : s.queues.channel = cmd :: rest)
    (isRun : cmd.runNumbers = [number]) :
    number = s.receivedRuns + 1 ∨ s.hasLeftEarly ∧ s.receivedRuns % 2 = 1 ∧
        number = s.receivedRuns + 2 := by
  have waits := runNumbers_receive chan
  rw [isRun, singleton_append] at waits
  have follows := inv.commands
  rw [waits] at follows
  exact follows.1

theorem RunsInOrder.received_enterRun {localMark : Nat}
    (chan : s.queues.channel = .enterRun run localMark :: rest) :
    2 * run + 1 = s.receivedRuns + 1 ∨ s.hasLeftEarly ∧ s.receivedRuns % 2 = 1 ∧
        2 * run + 1 = s.receivedRuns + 2 :=
  inv.received_next chan rfl

theorem RunsInOrder.received_finishRun
    (chan : s.queues.channel = .finishRun run :: rest) :
    2 * run + 2 = s.receivedRuns + 1 ∨ s.hasLeftEarly ∧ s.receivedRuns % 2 = 1 ∧
        2 * run + 2 = s.receivedRuns + 2 :=
  inv.received_next chan rfl

end

theorem Queues.dispatcherBatch_receive (chan : q.channel = cmd :: rest) :
    q.receive.dispatcherBatch = q.dispatcherBatch ++ cmd.readyItem := by
  simp [receive, chan]

theorem Replaces.frame (replaces : Replaces s q) :
    q.channel = s.queues.receive.channel ∧
      q.pendings.length = s.queues.pendings.length ∧
      q.dispatcherBatch = s.queues.receive.dispatcherBatch := by
  cases replaces with
  | none => exact ⟨rfl, rfl, rfl⟩
  | some => exact ⟨rfl, length_set, rfl⟩

theorem RunsInOrder.enter (inv : RunsInOrder s last) {localMark : Nat}
    {after : Dispatcher}
    (chan : s.queues.channel = .enterRun run localMark :: rest)
    (replaces : Replaces s q) (opens : Opens s run localMark after) :
    RunsInOrder
      { s with
        queues := q
        activeRun := some run
        receivedRuns := 2 * run + 1
        dispatcher := after } last := by
  obtain ⟨sameChannel, runs, batch⟩ := replaces.frame
  refine inv.receiveRun chan rfl (congrArg (List.flatMap _) sameChannel) runs ?_
  cases opens with
  | idle nothing =>
    refine ⟨rfl, rfl, ?_⟩
    rw [batch, dispatcherBatch_receive chan, nothing]
    rfl
  | behind => exact ⟨rfl, rfl, rfl⟩

theorem RunsInOrder.finish (inv : RunsInOrder s last)
    (pos : s.dispatcher = .drainCommands)
    (chan : s.queues.channel = .finishRun run :: rest) :
    RunsInOrder
      { s with
        queues := s.queues.receive
        receivedRuns := 2 * run + 2
        dispatcher := .finishRun run } last := by
  have received := inv.received_finishRun chan
  have served := inv.served
  rw [pos] at served
  refine inv.receiveRun chan rfl rfl rfl ⟨?_, rfl⟩
  cases active : s.activeRun with
  | none =>
    rw [active] at served
    have even : s.receivedRuns % 2 = 0 := served
    omega
  | some current =>
    rw [active] at served
    have odd : s.receivedRuns = 2 * current + 1 := served
    have same : current = run := by omega
    rw [same]

variable {received : Nat}

theorem ServesRun.active
    (serves : ServesRun received activeRun) (isSome : activeRun.isSome) :
    ∃ run, activeRun = some run ∧ received = 2 * run + 1 := by
  cases activeRun with
  | none => cases isSome
  | some run => exact ⟨run, rfl, serves⟩

theorem AfterForward.Serves.pc {batch : List ReadyItem}
    {after : AfterForward} (serves : after.Serves activeRun received batch) :
    after.pc.Serves activeRun received batch := by
  cases after with
  | drainCommands =>
    obtain ⟨run, active, isReceived⟩ := serves
    rwa [active]
  | activate => exact serves

theorem AfterForward.entering_position (after : AfterForward) :
    after.pc.entering = false := by
  cases after <;> rfl

theorem AfterForward.Serves.forwarded {after : AfterForward}
    (serves : after.Serves activeRun received []) :
    ∃ run, activeRun = some run ∧ received = 2 * run + 1 := by
  cases after with
  | drainCommands => exact serves
  | activate run => exact ⟨run, serves.1, serves.2.1⟩

theorem RunsInOrder.activate (inv : RunsInOrder s last)
    (pos : s.dispatcher = .activate run) :
    RunsInOrder
      { s with
        activeReadyDispatch := s.activeReadyDispatch.map fun dispatch =>
          if dispatch.run = run then { dispatch with acceptingReady := true } else dispatch
        dispatcher := .drainCommands } last := by
  have served := inv.served
  rw [pos] at served
  obtain ⟨active, received, -⟩ := served
  have bounded := inv.received_le
  exact
    { inv with
      served := by
        rwa [active]
      published := by
        intro other accepting isActive different
        obtain ⟨dispatch, found, same⟩ := Option.map_eq_some_iff.mp isActive
        have sameRun : dispatch.run = other := by
          have runs := congrArg ActiveReadyDispatch.run same
          split at runs <;> exact runs
        subst sameRun
        exact inv.published dispatch.run dispatch.acceptingReady found different
      publishing := by
        intro isPublishing
        change s.activeReadyDispatch.map _ =
          some (ActiveReadyDispatch.mk s.currentRun false)
        have published := inv.publishing isPublishing
        have sent := inv.sent
        rw [isPublishing] at sent
        have number : last + 2 = 2 * s.queues.pendings.length ∨
            s.hasLeftEarly ∧ last + 3 = 2 * s.queues.pendings.length :=
          sent
        have notYet : s.currentRun ≠ run := by
          unfold LoopState.currentRun
          omega
        rw [published, Option.map_some, if_neg notYet]
      accepting := by
        intro other isActive
        obtain ⟨dispatch, found, same⟩ := Option.map_eq_some_iff.mp isActive
        refine ⟨?_, rfl⟩
        split at same
        · have runs := congrArg ActiveReadyDispatch.run same
          change dispatch.run = other at runs
          change s.receivedRuns = 2 * other + 1
          omega
        · have isOpen : s.activeReadyDispatch = some ⟨other, true⟩ := by
            rw [found, same]
          exact (inv.accepting other isOpen).1
      retired := by
        intro isRetired
        rw [inv.retired isRetired]
        rfl }

theorem runsInOrder_dispatcherStep (inv : RunsInOrder s last)
    (step : DispatcherStep s next) : RunsInOrder next last := by
  have served := inv.served
  cases step with
  | turns pos turn =>
    rw [pos] at served
    cases turn with
    | forwards active => exact inv.serve rfl rfl (ServesRun.active served active) (.inl rfl)
    | drains | polls => exact inv.serve rfl rfl served (.inl rfl)
    | finishes inactive => cases served.1.symm.trans inactive
  | @receives _ cmd _ _ pos chan carries =>
    have waits := runNumbers_receive chan
    have none : cmd.runNumbers = [] := by cases carries <;> rfl
    rw [none, nil_append] at waits
    refine inv.serve waits.symm rfl ?_ (.inr rfl)
    rw [pos] at served ⊢
    exact served
  | enters _ chan replaces opens => exact inv.enter chan replaces opens
  | finishes pos chan => exact inv.finish pos chan
  | forwards pos =>
    rw [pos] at served
    exact inv.serve rfl length_set served (.inl rfl)
  | releases pos | resets pos =>
    rw [pos] at served
    exact inv.serve rfl rfl served (.inl rfl)
  | signals pos =>
    rw [pos] at served
    exact inv.serve rfl rfl served.pc (.inl (AfterForward.entering_position _))
  | activates pos => exact inv.activate pos
  | takesBack pos =>
    rw [pos] at served
    exact inv.serve rfl length_set ⟨rfl, served.2⟩ (.inl rfl)
  | acknowledges pos =>
    rw [pos] at served
    refine inv.serve rfl rfl ?_ (.inl rfl)
    rw [served.1]
    have received := served.2
    change s.receivedRuns % 2 = 0
    omega

/-- The run has been announced, and its queue is in reach. -/
def Position.announced : Position → Bool
  | .install | .cleanup _ | .handBack _ | .retire _ => true
  | pc => pc.inTurns

variable {pc : Position}

theorem Position.announced_of_inTurns
    (turns : pc.inTurns) : pc.announced := by
  cases pc with
  | install | cleanup | handBack | retire => rfl
  | _ => exact turns

theorem Position.sent_of_announced (announced : pc.announced) {runs : Nat} :
    pc.Sent early runs last ↔ last + 1 = 2 * runs := by
  cases pc <;> first | exact Iff.rfl | cases announced

theorem Position.retired_of_announced
    (announced : pc.announced) : pc.retired = false := by
  cases pc <;> first | rfl | cases announced

theorem RunsInOrder.advance (inv : RunsInOrder s last)
    {stopping stopRequested drainActive : Bool}
    {tlsCore tlsReadyQueue tlsTimers pendingSignalError : Bool}
    (before : s.pc.announced) (announced : pc.announced)
    (cmds : q.runNumbers = s.queues.runNumbers)
    (runs : q.pendings.length = s.queues.pendings.length)
    (batch : q.dispatcherBatch = s.queues.dispatcherBatch) :
    RunsInOrder
      { s with
        queues := q
        pc := pc
        stopping := stopping
        stopRequested := stopRequested
        readyPending := readyPending
        drainActive := drainActive
        tlsCore := tlsCore
        tlsReadyQueue := tlsReadyQueue
        tlsTimers := tlsTimers
        pendingSignalError := pendingSignalError } last := by
  have number := (Position.sent_of_announced before).mp inv.sent
  have elsewhere : s.pc ≠ .sendEnterRun := by
    intro sends
    rw [sends] at before
    cases before
  exact
    { inv with
      commands := (inv.queues cmds runs).1
      sent := by
        rw [runs]
        exact (Position.sent_of_announced announced).mpr number
      served := by
        rw [batch]
        exact inv.served
      published := fun run accepting isActive _ =>
        inv.published run accepting isActive elsewhere
      publishing := by
        rintro rfl
        cases announced
      retired := fun retired => by
        cases (Position.retired_of_announced announced).symm.trans retired }

theorem Queues.collect_frame (q : Queues) (count : Nat) :
    (q.collect count).channel = q.channel ∧
      (q.collect count).pendings = q.pendings ∧
      (q.collect count).dispatcherBatch = q.dispatcherBatch ∧
      (q.collect count).readyBatch = q.readyBatch := by
  induction count generalizing q with
  | zero => exact ⟨rfl, rfl, rfl, rfl⟩
  | succ _ ih => exact ih _

theorem Queues.length_merge (q : Queues) (run : Nat) :
    (q.merge run).pendings.length = q.pendings.length := by
  simp [merge, setPending]

theorem Queues.length_leave (q : Queues) (run : Nat) :
    (q.leave run).pendings.length = q.pendings.length := by
  simp [leave, setPending]

/-- An early return is remembered in the results and changes nothing else
here. -/
theorem RunsInOrder.leaveEarly (inv : RunsInOrder s last) {item : ReadyItem}
    {processed : Nat}
    (pc : s.pc = .executing item processed) :
    RunsInOrder
      { s with
        queues := s.queues.abandon
        tlsTimers := false
        results := s.results ++ [none]
        pc := .leftEarly } last := by
  have sent := inv.sent
  rw [pc] at sent
  exact
    { inv with
      commands := inv.commands.mono fun early =>
        mem_append_left _ early
      sent := ⟨mem_append_right _ mem_cons_self, sent⟩
      published := fun run accepting isActive _ =>
        inv.published run accepting isActive (by simp [pc])
      publishing := nofun
      retired := nofun }

theorem Queues.runNumbers_sendRun (q : Queues)
    (isRun : cmd.runNumbers = [number]) :
    (q.sendRun cmd).runNumbers = q.runNumbers ++ [number] := by
  simp [runNumbers, sendRun, isRun]

theorem RunsInOrder.sendEnterRun (inv : RunsInOrder s last)
    (pc : s.pc = .sendEnterRun) :
    RunsInOrder
      { s with
        queues := s.queues.sendRun (.enterRun s.currentRun s.queues.localEnqueues)
        pc := .install } (2 * s.currentRun + 1) := by
  have sent : last + 2 = 2 * s.queues.pendings.length ∨
      s.hasLeftEarly ∧ last + 3 = 2 * s.queues.pendings.length := by
    have sent := inv.sent
    rwa [pc] at sent
  have published := inv.publishing pc
  have current : s.currentRun = s.queues.pendings.length - 1 := rfl
  exact
    { inv with
      commands := by
        rw [runNumbers_sendRun _ rfl]
        refine inv.commands.concat ?_
        change 2 * s.currentRun + 1 = last + 1 ∨
          s.hasLeftEarly ∧ last % 2 = 1 ∧ 2 * s.currentRun + 1 = last + 2
        rcases sent with regular | ⟨early, skipped⟩
        · exact .inl (by omega)
        · exact .inr ⟨early, by omega, by omega⟩
      sent := by
        change 2 * s.currentRun + 1 + 1 = 2 * s.queues.pendings.length
        omega
      published := by
        intro run accepting isActive _
        cases published.symm.trans isActive
        rfl
      publishing := nofun
      retired := nofun }

theorem RunsInOrder.sendFinishRun (inv : RunsInOrder s last)
    {result : RunResult} (pc : s.pc = .sendFinishRun result) :
    RunsInOrder
      { s with
        queues := s.queues.sendRun (.finishRun s.currentRun)
        pc := .awaitFinishRun result } (2 * s.currentRun + 2) := by
  have sent : last + 1 = 2 * s.queues.pendings.length := by
    have sent := inv.sent
    rwa [pc] at sent
  have closed := inv.retired (by rw [pc]; rfl)
  have current : s.currentRun = s.queues.pendings.length - 1 := rfl
  exact
    { inv with
      commands := by
        rw [runNumbers_sendRun _ rfl]
        refine inv.commands.concat (.inl ?_)
        change 2 * s.currentRun + 2 = last + 1
        omega
      sent := by
        change 2 * s.currentRun + 2 = 2 * s.queues.pendings.length ∧
          0 < s.queues.pendings.length
        omega
      published := fun run accepting isActive _ => by
        cases closed.symm.trans isActive
      publishing := nofun
      retired := fun _ => closed }

theorem RunsInOrder.return (inv : RunsInOrder s last)
    {waited : RunResult} (pos : s.pc = .awaitFinishRun waited)
    (running stopping : Bool) (result : RunResult) :
    RunsInOrder
      ({ s with running := running, stopping := stopping }.returned result)
      last := by
  have sent : last = 2 * s.queues.pendings.length ∧ 0 < s.queues.pendings.length := by
    have sent := inv.sent
    rwa [pos] at sent
  have closed := inv.retired (by rw [pos]; rfl)
  exact
    { inv with
      commands := inv.commands.mono fun early => mem_append_left _ early
      sent := sent.1
      published := fun run accepting isActive _ => by
        cases closed.symm.trans isActive
      publishing := nofun
      retired := fun _ => closed }

theorem RunsInOrder.begin (inv : RunsInOrder s last)
    (isOver : s.pc = .outside ∨ s.pc = .leftEarly) :
    RunsInOrder
      { s with
        queues := s.queues.openRun
        running := true
        stopping := false
        pc := .clearReadyPending } last := by
  have sent := inv.sent
  have opened : s.queues.openRun.pendings.length = s.queues.pendings.length + 1 := by
    simp [openRun]
  exact
    { inv with
      sent := by
        rw [opened]
        rcases isOver with outside | left
        · rw [outside] at sent
          have number : last = 2 * s.queues.pendings.length := sent
          exact .inl (by omega)
        · rw [left] at sent
          obtain ⟨early, number⟩ : s.hasLeftEarly ∧
            last + 1 = 2 * s.queues.pendings.length := sent
          exact .inr ⟨early, by omega⟩
      published := by
        intro run accepting isActive _
        refine inv.published run accepting isActive fun sends => ?_
        rw [sends] at isOver
        rcases isOver with outside | left
        · cases outside
        · cases left
      publishing := by rintro ⟨⟩
      retired := by rintro ⟨⟩ }

theorem runsInOrder_runStep (inv : RunsInOrder s last)
    {reply : LoopReply} (step : RunStep s reply next) :
    ∃ number, RunsInOrder next number := by
  have sent := inv.sent
  cases step with
  | clears pos =>
    rw [pos] at sent
    exact ⟨last,
      { inv with
        sent := sent
        published := fun run accepting isActive _ =>
          inv.published run accepting isActive (by simp [pos])
        publishing := nofun
        retired := nofun }⟩
  | publishes pos =>
    rw [pos] at sent
    exact ⟨last,
      { inv with
        sent := sent
        published := fun _ _ _ different => absurd rfl different
        publishing := fun _ => rfl
        accepting := fun run isActive => by cases isActive
        retired := nofun }⟩
  | announces pos => exact ⟨_, inv.sendEnterRun pos⟩
  | installs pos | pops pos | signals pos | cleans pos
  | releases pos => exact ⟨last, inv.advance (by rw [pos]; rfl) rfl rfl rfl rfl⟩
  | @collects count pos =>
    obtain ⟨chan, pendings, batch, _⟩ := collect_frame s.queues count
    exact ⟨last, inv.advance (by rw [pos]; rfl) rfl
      (congrArg (List.flatMap _) chan) (congrArg List.length pendings) batch⟩
  | swaps pos =>
    have announced : s.pc.announced := by
      rw [pos]
      rfl
    exact ⟨last, inv.advance announced announced rfl rfl rfl⟩
  | passes pos pass =>
    have announced := Position.announced_of_inTurns pass.inTurns.1
    exact ⟨last, inv.advance (by rw [pos]; exact announced)
      (Position.announced_of_inTurns pass.inTurns.2) rfl rfl rfl⟩
  | merges pos arrives =>
    refine ⟨last, inv.advance (by rw [pos]; rfl) ?_ rfl (length_merge _ _) rfl⟩
    rcases arrives with rfl | rfl <;> rfl
  | stops pos _ continues =>
    exact ⟨last, inv.advance (by rw [pos]; rfl)
      (Position.announced_of_inTurns continues.inTurns) rfl rfl rfl⟩
  | abandons pos => exact ⟨last, inv.leaveEarly pos⟩
  | endsTurn pos ends =>
    exact ⟨last, inv.advance (by rw [pos]; rfl) (by cases ends <;> rfl) rfl rfl rfl⟩
  | leaves pos =>
    exact ⟨last, inv.advance (by rw [pos]; rfl) rfl rfl (length_leave _ _) rfl⟩
  | retires pos =>
    rw [pos] at sent
    exact ⟨last,
      { inv with
        sent := sent
        published := fun _ _ isActive _ => by cases isActive
        publishing := nofun
        accepting := fun run isActive => by cases isActive
        retired := fun _ => rfl }⟩
  | finishes pos => exact ⟨_, inv.sendFinishRun pos⟩
  | returns pos | timesOut pos => exact ⟨last, inv.return pos _ _ _⟩

theorem runsInOrder_loopStep (inv : RunsInOrder s last)
    {action : LoopAction} (moved : loopStep s action = some next) :
    ∃ number, RunsInOrder next number := by
  cases loopStep_cases moved with
  | calls | enqueues => exact ⟨last, inv.addItems rfl rfl rfl⟩
  | produces step => exact ⟨last, runsInOrder_producerStep inv step⟩
  | dispatches step => exact ⟨last, runsInOrder_dispatcherStep inv step⟩
  | refuses => exact ⟨last, inv⟩
  | begins isOver => exact ⟨last, inv.begin isOver⟩
  | runs step => exact runsInOrder_runStep inv step

end Rsloop.Engine
