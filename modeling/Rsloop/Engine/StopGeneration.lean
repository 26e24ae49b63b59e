import Rsloop.Engine.RunStart

/-!
# The generation of a stop

A `Stop` item marks the run as stopping; the turn goes on with the batch that
the item was in, and the run ends where the turn ends. Whether a turn ends with
its batch depends on the count of executed items, which starts again from zero
where a stopping run reaches the budget of a turn.
-/

namespace Rsloop.Engine

open Transition List

variable {s next : LoopState} {last : Nat}

/-! ## Runs that do not overlap -/

/-- The dispatcher has still to reset the loop's state for a run that is over. -/
def LoopState.finishing (s : LoopState) : Prop :=
  (∃ run, Command.finishRun run ∈ s.queues.channel) ∨
    ∃ run, s.dispatcher = .finishRun run ∨ s.dispatcher = .resetState run

def Position.awaits : Position → Bool
  | .awaitFinishRun _ => true
  | _ => false

def Position.processed : Position → Nat
  | .generation processed | .mergeGeneration processed | .executing _ processed => processed
  | _ => 0

/-- The dispatcher is done with the run, or about to be. -/
def LoopState.serves (s : LoopState) (run : Nat) : Prop :=
  run ∈ s.finished ∨ s.dispatcher = .finishRun run ∨
    s.dispatcher = .resetState run ∨ s.dispatcher = .acknowledge run

structure RunsApart (s : LoopState) : Prop where
  acknowledged : ∀ run ∈ s.finished, 2 * run + 2 ≤ s.receivedRuns
  received : ∀ run, s.receivedRuns = 2 * run + 2 → s.serves run
  finishing : s.finishing → s.pc.awaits ∧ s.currentRun ∉ s.finished
  counted : s.pc.processed < maxReadyItemsPerTurn

theorem runsApart_new (threads : Nat) : RunsApart (.new threads) where
  acknowledged := nofun
  received := nofun
  finishing := by
    rintro (⟨run, onChannel⟩ | ⟨run, finishes | resets⟩)
    · cases onChannel
    · cases finishes
    · cases resets
  counted := Nat.zero_lt_succ _

section

variable (apart : RunsApart s)
  (chan : ∀ run, Command.finishRun run ∈ next.queues.channel →
    Command.finishRun run ∈ s.queues.channel)

include apart chan

/-- A step that neither the dispatcher nor `FinishRun` takes part in. -/
theorem RunsApart.advance (dispatcher : next.dispatcher = s.dispatcher)
    (received : next.receivedRuns = s.receivedRuns)
    (finished : next.finished = s.finished)
    (awaits : s.pc.awaits →
      next.pc.awaits ∧ next.currentRun = s.currentRun)
    (counted : next.pc.processed < maxReadyItemsPerTurn) : RunsApart next where
  acknowledged := by
    rw [finished, received]
    exact apart.acknowledged
  received := by
    intro run number
    have served := apart.received run (received.symm.trans number)
    unfold LoopState.serves at served ⊢
    rwa [finished, dispatcher]
  finishing := by
    intro finishing
    have before : s.finishing := by
      unfold LoopState.finishing at finishing ⊢
      rw [dispatcher] at finishing
      refine finishing.imp_left ?_
      rintro ⟨run, onChannel⟩
      exact ⟨run, chan run onChannel⟩
    obtain ⟨wasAwaiting, unfinished⟩ := apart.finishing before
    obtain ⟨isAwaiting, current⟩ := awaits wasAwaiting
    rw [current, finished]
    exact ⟨isAwaiting, unfinished⟩
  counted := counted

theorem RunsApart.frame
    (runs : next.queues.pendings.length = s.queues.pendings.length)
    (dispatcher : next.dispatcher = s.dispatcher)
    (received : next.receivedRuns = s.receivedRuns)
    (finished : next.finished = s.finished)
    (pos : next.pc = s.pc) : RunsApart next := by
  refine apart.advance chan dispatcher received finished ?_ ?_
  · rw [pos]
    exact fun awaits => ⟨awaits, congrArg (· - 1) runs⟩
  · rw [pos]
    exact apart.counted

end

variable {q : Queues} {item : ReadyItem}

theorem finishRun_mem_send {run : Nat}
    (mem : Command.finishRun run ∈ (q.send item).channel) :
    Command.finishRun run ∈ q.channel := by
  rcases mem_append.mp mem with before | sent
  · exact before
  · have same := mem_singleton.mp sent
    unfold Command.ofItem at same
    split at same <;> cases same

theorem runsApart_producerStep (apart : RunsApart s) {tid : Nat}
    (step : ProducerStep s tid next) : RunsApart next := by
  cases step with
  | pushes => exact apart.frame (fun _ => id) (Queues.length_pushActive _ _ _) rfl rfl rfl rfl
  | sends => exact apart.frame (fun _ => finishRun_mem_send) rfl rfl rfl rfl rfl
  | _ => exact apart.frame (fun _ => id) rfl rfl rfl rfl rfl

/-! ### The dispatcher -/

theorem Follows.lt_of_mem {early : Prop} {first number : Nat}
    {numbers : List Nat} (follows : Follows early first numbers last)
    (mem : number ∈ numbers) : first < number := by
  induction numbers generalizing first with
  | nil => cases mem
  | cons _ _ ih =>
    have larger := follows.1
    rcases mem_cons.mp mem with isHead | isLater
    · omega
    · have later := ih follows.2 isLater
      omega

theorem mem_runNumbers_of_finishRun {run : Nat}
    (mem : Command.finishRun run ∈ q.channel) :
    2 * run + 2 ∈ q.runNumbers :=
  mem_flatMap.mpr ⟨_, mem, mem_cons_self⟩

/-- The dispatcher moves without resetting the loop's state. -/
theorem RunsApart.serve (apart : RunsApart s) {dispatcher : Dispatcher}
    {dispatcherHandles channelHandles received : Nat} {readyPending : Bool}
    {activeReadyDispatch : Option ActiveReadyDispatch} {activeRun : Option Nat}
    (chan : ∀ run, Command.finishRun run ∈ q.channel →
      Command.finishRun run ∈ s.queues.channel)
    (runs : q.pendings.length = s.queues.pendings.length)
    (later : s.receivedRuns ≤ received)
    (served : ∀ run, received = 2 * run + 2 →
      LoopState.serves { s with dispatcher := dispatcher } run)
    (finishes : ∀ run, dispatcher = .finishRun run ∨ dispatcher = .resetState run →
      s.finishing) :
    RunsApart
      { s with
        queues := q
        dispatcher := dispatcher
        dispatcherHandles := dispatcherHandles
        channelHandles := channelHandles
        receivedRuns := received
        readyPending := readyPending
        activeReadyDispatch := activeReadyDispatch
        activeRun := activeRun } where
  acknowledged := fun run mem =>
    Nat.le_trans (apart.acknowledged run mem) later
  received := served
  finishing := by
    intro finishing
    have before : s.finishing := by
      rcases finishing with ⟨run, onChannel⟩ | ⟨run, now⟩
      · exact .inl ⟨run, chan run onChannel⟩
      · exact finishes run now
    have current := apart.finishing before
    refine ⟨current.1, ?_⟩
    change q.pendings.length - 1 ∉ s.finished
    rw [runs]
    exact current.2
  counted := apart.counted

theorem RunsApart.pass (apart : RunsApart s) {dispatcher : Dispatcher}
    (idle : ∀ run, s.dispatcher ≠ .finishRun run ∧
      s.dispatcher ≠ .resetState run ∧ s.dispatcher ≠ .acknowledge run)
    (run : Nat) (number : s.receivedRuns = 2 * run + 2) :
    LoopState.serves { s with dispatcher := dispatcher } run := by
  rcases apart.received run number with before | finishes | resets | acknowledges
  · exact .inl before
  · exact absurd finishes (idle run).1
  · exact absurd resets (idle run).2.1
  · exact absurd acknowledges (idle run).2.2

theorem Replaces.mem_channel (replaces : Replaces s q)
    {cmd : Command} (mem : cmd ∈ q.channel) : cmd ∈ s.queues.channel := by
  rw [replaces.frame.1] at mem
  exact mem_of_mem_tail mem

/-- The state is reset while the loop thread waits for it. -/
theorem RunsApart.reset (apart : RunsApart s) {run : Nat}
    (pos : s.dispatcher = .resetState run)
    (received : s.receivedRuns = 2 * run + 2) :
    RunsApart
      { s with running := false, stopping := false, dispatcher := .acknowledge run } where
  acknowledged := apart.acknowledged
  received := by
    intro other number
    have same : other = run := by
      change s.receivedRuns = 2 * other + 2 at number
      omega
    rw [same]
    exact .inr (.inr (.inr rfl))
  finishing := fun _ => apart.finishing (.inr ⟨run, .inr pos⟩)
  counted := apart.counted

theorem RunsApart.acknowledge (apart : RunsApart s) (inv : RunsInOrder s last)
    {run : Nat}
    (received : s.receivedRuns = 2 * run + 2) :
    RunsApart { s with finished := run :: s.finished, dispatcher := .drainCommands } where
  acknowledged := by
    intro other mem
    rcases mem_cons.mp mem with isRun | before
    · rw [isRun]
      exact Nat.le_of_eq received.symm
    · exact apart.acknowledged other before
  received := by
    intro other number
    have same : other = run := by
      change s.receivedRuns = 2 * other + 2 at number
      omega
    rw [same]
    exact .inl mem_cons_self
  finishing := by
    rintro (⟨other, onChannel⟩ | ⟨other, finishes | resets⟩)
    · obtain ⟨awaits, unfinished⟩ := apart.finishing (.inl ⟨other, onChannel⟩)
      refine ⟨awaits, fun mem => ?_⟩
      rcases mem_cons.mp mem with isRun | before
      · -- a later `FinishRun` is on its way, so the current run is a later one
        have number := mem_runNumbers_of_finishRun onChannel
        have after := inv.commands.lt_of_mem number
        have bounded := inv.commands.mem_le number
        have sent := inv.sent
        change s.queues.pendings.length - 1 = run at isRun
        cases current : s.pc with
        | awaitFinishRun =>
          rw [current] at sent
          have known : last = 2 * s.queues.pendings.length := sent.1
          omega
        | _ => simp [current, Position.awaits] at awaits
      · exact unfinished before
    · cases finishes
    · cases resets
  counted := apart.counted

theorem runsApart_dispatcherStep (inv : RunsInOrder s last)
    (apart : RunsApart s) (step : DispatcherStep s next) : RunsApart next := by
  have served := inv.served
  cases step with
  | turns pos turn =>
    cases turn with
    | finishes inactive =>
      rw [pos] at served
      cases served.1.symm.trans inactive
    | _ =>
      exact apart.serve (fun _ => id) rfl (Nat.le_refl _) (apart.pass (by simp [pos])) (by simp)
  | receives => exact apart.frame (fun _ => mem_of_mem_tail) rfl rfl rfl rfl rfl
  | @enters _ _ _ _ _ _ chan replaces opens =>
    have number := inv.received_enterRun chan
    refine apart.serve (fun _ => replaces.mem_channel) replaces.frame.2.1 (by omega) ?_ ?_
    · intro other received
      omega
    · cases opens <;> simp
  | @finishes run _ _ chan =>
    have number := inv.received_finishRun chan
    have finishing : s.finishing := by
      refine .inl ⟨run, ?_⟩
      rw [chan]
      exact mem_cons_self
    refine apart.serve (fun _ => mem_of_mem_tail) rfl (by omega) ?_ (fun _ _ => finishing)
    intro other received
    have same : run = other := by omega
    rw [same]
    exact .inr (.inl rfl)
  | forwards pos =>
    exact apart.serve (fun _ => id) length_set (Nat.le_refl _)
      (apart.pass (by simp [pos])) (by simp)
  | releases pos | activates pos =>
    exact apart.serve (fun _ => id) rfl (Nat.le_refl _) (apart.pass (by simp [pos])) (by simp)
  | @signals after pos =>
    refine apart.serve (fun _ => id) rfl (Nat.le_refl _) (apart.pass (by simp [pos])) ?_
    cases after <;> simp [AfterForward.pc]
  | @takesBack run _ pos =>
    rw [pos] at served
    refine apart.serve (fun _ => id) length_set (Nat.le_refl _) ?_
      (fun _ _ => .inr ⟨run, .inl pos⟩)
    intro other number
    have known := served.2
    have same : other = run := by omega
    rw [same]
    exact .inr (.inr (.inl rfl))
  | resets pos =>
    rw [pos] at served
    exact apart.reset pos served.2
  | acknowledges pos =>
    rw [pos] at served
    exact apart.acknowledge inv served.2

/-! ### The loop thread -/

variable {after : Position}

theorem Continues.processed_lt {stopping : Bool} {processed : Nat}
    (continues : Continues stopping processed after) :
    after.processed < maxReadyItemsPerTurn := by
  cases continues with
  | within budget => exact budget
  | again | full => exact Nat.zero_lt_succ _

variable {reply : LoopReply}

theorem Passes.processed_lt {before : Position}
    (pass : Passes s reply before after)
    (counted : before.processed < maxReadyItemsPerTurn) :
    after.processed < maxReadyItemsPerTurn := by
  cases pass with
  | merges => exact counted
  | executes _ _ continues => exact continues.processed_lt
  | _ => exact Nat.zero_lt_succ _

variable {result : RunResult}

theorem RunsApart.sendFinishRun (apart : RunsApart s) (inv : RunsInOrder s last)
    (pc : s.pc = .sendFinishRun result) :
    RunsApart
      { s with
        queues := s.queues.sendRun (.finishRun s.currentRun)
        pc := .awaitFinishRun result } where
  acknowledged := apart.acknowledged
  received := apart.received
  finishing := by
    refine fun _ => ⟨rfl, fun mem => ?_⟩
    have before := apart.acknowledged _ mem
    have bounded := inv.received_le
    have sent := inv.sent
    rw [pc] at sent
    have known : last + 1 = 2 * s.queues.pendings.length := sent
    change 2 * (s.queues.pendings.length - 1) + 2 ≤ _ at before
    omega
  counted := Nat.zero_lt_succ _

theorem RunsApart.return (apart : RunsApart s)
    (acknowledged : s.currentRun ∈ s.finished) : RunsApart (s.returned result) where
  acknowledged := apart.acknowledged
  received := apart.received
  finishing := fun finishing =>
    absurd acknowledged (apart.finishing finishing).2
  counted := Nat.zero_lt_succ _

theorem runsApart_runStep (inv : RunsInOrder s last)
    (apart : RunsApart s) (timely : reply ≠ .timedOut)
    (step : RunStep s reply next) : RunsApart next := by
  have counted := apart.counted
  have elsewhere {before : Position} (here : s.pc = before)
      (other : before.awaits = false) (awaits : s.pc.awaits) :
      next.pc.awaits ∧ next.currentRun = s.currentRun := by
    rw [here, other] at awaits
    cases awaits
  cases step with
  | announces here =>
    refine apart.advance (fun run mem => ?_) rfl rfl rfl (elsewhere here rfl) (Nat.zero_lt_succ _)
    rcases mem_append.mp mem with before | sent
    · exact before
    · cases mem_singleton.mp sent
  | collects here =>
    refine apart.advance (fun run => ?_) rfl rfl rfl (elsewhere here rfl) (Nat.zero_lt_succ _)
    rw [(Queues.collect_frame _ _).1]
    exact id
  | pops here =>
    rw [here] at counted
    exact apart.advance (fun _ => id) rfl rfl rfl (elsewhere here rfl) counted
  | swaps here => exact apart.advance (fun _ => id) rfl rfl rfl (elsewhere here rfl) counted
  | passes here pass =>
    rw [here] at counted
    refine apart.advance (fun _ => id) rfl rfl rfl (elsewhere here ?_) (pass.processed_lt counted)
    cases pass <;> rfl
  | merges here arrives =>
    rw [here] at counted
    refine apart.advance (fun _ => id) rfl rfl rfl (elsewhere here rfl) ?_
    rcases arrives with rfl | rfl
    · exact Nat.zero_lt_succ _
    · exact counted
  | stops here _ continues =>
    exact apart.advance (fun _ => id) rfl rfl rfl (elsewhere here rfl) continues.processed_lt
  | endsTurn here ends =>
    refine apart.advance (fun _ => id) rfl rfl rfl (elsewhere here rfl) ?_
    cases ends <;> exact Nat.zero_lt_succ _
  | finishes here => exact apart.sendFinishRun inv here
  | returns _ acknowledged => exact apart.return acknowledged
  | timesOut => exact absurd rfl timely
  | clears here | publishes here | installs here | abandons here | signals here
  | cleans here | leaves here | releases here | retires here =>
    exact apart.advance (fun _ => id) rfl rfl rfl (elsewhere here rfl) (Nat.zero_lt_succ _)

variable {action : LoopAction}

theorem runsApart_loopStep (inv : RunsInOrder s last) (apart : RunsApart s)
    (timely : action ≠ .loop .timedOut)
    (moved : loopStep s action = some next) : RunsApart next := by
  cases loopStep_cases moved with
  | calls | enqueues => exact apart.frame (fun _ => id) rfl rfl rfl rfl rfl
  | produces step => exact runsApart_producerStep apart step
  | dispatches step => exact runsApart_dispatcherStep inv apart step
  | refuses => exact apart
  | begins isOver =>
    refine apart.advance (fun _ => id) rfl rfl rfl (fun awaits => ?_) (Nat.zero_lt_succ _)
    rcases isOver with outside | early
    · rw [outside] at awaits
      cases awaits
    · rw [early] at awaits
      cases awaits
  | runs step => exact runsApart_runStep inv apart (fun same => timely (by rw [same])) step

/-! ## Behind the stop -/

/-- Nothing asks for another stop, nothing raises, and the wait for the
dispatcher is not given up. -/
def LoopState.staysQuiet (s : LoopState) : LoopAction → Bool
  | .call _ kind | .enqueue kind => kind ≠ .stop
  | .runForever | .loop .signalError | .loop .timedOut => false
  | .loop (.executed outcome) =>
    match s.pc with
    | .executing item _ => item.kind.ending outcome = some .next
    | _ => true
  | _ => true

def StaysQuiet (s : LoopState) (action : LoopAction) : Prop :=
  s.staysQuiet action

instance (s : LoopState) (action : LoopAction) : Decidable (StaysQuiet s action) :=
  inferInstanceAs (Decidable (s.staysQuiet action))

theorem ReadyKind.ending_returned (kind : ReadyKind) :
    kind.ending .returned = some .next := by
  cases kind <;> rfl

theorem staysQuiet_executed (s : LoopState) :
    StaysQuiet s (.loop (.executed .returned)) := by
  unfold StaysQuiet LoopState.staysQuiet
  cases s.pc with
  | executing item => exact decide_eq_true item.kind.ending_returned
  | _ => rfl

/-- What has been executed at the end of the generation. -/
def LoopState.generationEnd (s : LoopState) : List ReadyItem :=
  s.queues.popped ++ s.queues.readyBatch

def LoopState.stopResult (s : LoopState) : RunResult :=
  if s.pendingSignalError then .signalError else .ok

structure Remaining (stopped : LoopState) (processed : Nat) (s : LoopState) : Prop where
  stopping : s.stopping
  stopRequested : s.stopRequested = false
  items : s.generationEnd = stopped.generationEnd
  offBudget : (processed + s.queues.readyBatch.length) % maxReadyItemsPerTurn ≠ 0
  signal : s.stopResult = stopped.stopResult
  results : s.results = stopped.results

structure Emptied (stopped s : LoopState) : Prop where
  items : s.queues.popped = stopped.generationEnd
  results : s.results = stopped.results

/-- The states that follow the stop up to the return. -/
def Closes (stopped s : LoopState) : Prop :=
  match s.pc with
  | .generation processed => Remaining stopped processed s
  | .executing _ processed => Remaining stopped (processed + 1) s
  | .endTurn error =>
    Emptied stopped s ∧ error = false ∧ s.stopping ∧
      s.stopResult = stopped.stopResult
  | .cleanup result | .handBack result | .retire result | .sendFinishRun result
  | .awaitFinishRun result => Emptied stopped s ∧ result = stopped.stopResult
  | .outside =>
    s.queues.popped = stopped.generationEnd ∧
      s.results = stopped.results ++ [some stopped.stopResult]
  | _ => False

def LoopState.stepsLeft (s : LoopState) : Nat :=
  match s.pc with
  | .generation _ => 2 * s.queues.readyBatch.length + 7
  | .executing _ _ => 2 * s.queues.readyBatch.length + 8
  | .endTurn _ => 6
  | .cleanup _ => 5
  | .handBack _ => 4
  | .retire _ => 3
  | .sendFinishRun _ => 2
  | .awaitFinishRun _ => 1
  | _ => 0

variable {stopped : LoopState}

structure StopFrame (s next : LoopState) : Prop where
  pc : next.pc = s.pc
  popped : next.queues.popped = s.queues.popped
  batch : next.queues.readyBatch = s.queues.readyBatch
  results : next.results = s.results
  signal : next.pendingSignalError = s.pendingSignalError
  requested : next.stopRequested = s.stopRequested

variable {processed : Nat}

section

variable (frame : StopFrame s next)

include frame

theorem StopFrame.remaining (stopping : next.stopping = s.stopping)
    (remaining : Remaining stopped processed s) :
    Remaining stopped processed next where
  stopping := stopping.trans remaining.stopping
  stopRequested := frame.requested.trans remaining.stopRequested
  items := by
    have items := remaining.items
    unfold LoopState.generationEnd at items ⊢
    rwa [frame.popped, frame.batch]
  offBudget := by
    rw [frame.batch]
    exact remaining.offBudget
  signal := by
    have signal := remaining.signal
    unfold LoopState.stopResult at signal ⊢
    rwa [frame.signal]
  results := frame.results.trans remaining.results

theorem StopFrame.emptied (emptied : Emptied stopped s) :
    Emptied stopped next where
  items := frame.popped.trans emptied.items
  results := frame.results.trans emptied.results

theorem StopFrame.closes (stopping : s.pc.awaits ∨ next.stopping = s.stopping)
    (closes : Closes stopped s) : Closes stopped next := by
  unfold Closes at closes ⊢
  rw [frame.pc]
  revert stopping closes
  cases s.pc with
  | awaitFinishRun | cleanup | handBack | retire | sendFinishRun =>
    exact fun _ closes => ⟨frame.emptied closes.1, closes.2⟩
  | generation | executing =>
    exact fun stopping closes => frame.remaining (stopping.resolve_left nofun) closes
  | endTurn =>
    rintro stopping ⟨emptied, noError, stops, signal⟩
    refine ⟨frame.emptied emptied, noError, (stopping.resolve_left nofun).trans stops, ?_⟩
    unfold LoopState.stopResult at signal ⊢
    rwa [frame.signal]
  | outside => exact fun _ closes => ⟨frame.popped.trans closes.1, frame.results.trans closes.2⟩
  | _ => exact fun _ => False.elim

theorem StopFrame.stepsLeft : next.stepsLeft = s.stepsLeft := by
  unfold LoopState.stepsLeft
  rw [frame.pc, frame.batch]

end

theorem DispatcherStep.stopFrame (step : DispatcherStep s next) :
    StopFrame s next := by
  cases step with
  | enters _ _ replaces => cases replaces <;> exact ⟨rfl, rfl, rfl, rfl, rfl, rfl⟩
  | _ => exact ⟨rfl, rfl, rfl, rfl, rfl, rfl⟩

/-- The dispatcher lowers `stopping` where it resets the state of a run. -/
theorem DispatcherStep.stopping (step : DispatcherStep s next) :
    (next.stopping = false ∧ ∃ run, s.dispatcher = .resetState run) ∨
      next.stopping = s.stopping := by
  cases step with
  | resets pos => exact .inl ⟨rfl, _, pos⟩
  | _ => exact .inr rfl

theorem RunsApart.stopping_dispatcherStep (apart : RunsApart s)
    (step : DispatcherStep s next) :
    s.pc.awaits ∨ next.stopping = s.stopping := by
  rcases step.stopping with ⟨_, run, resets⟩ | same
  · exact .inl (apart.finishing (.inr ⟨run, .inr resets⟩)).1
  · exact .inr same

theorem ProducerStep.stopFrame {tid : Nat} (step : ProducerStep s tid next) :
    StopFrame s next ∧ next.stopping = s.stopping := by
  cases step <;> exact ⟨⟨rfl, rfl, rfl, rfl, rfl, rfl⟩, rfl⟩

/-! ### Steps of the loop thread -/

theorem Remaining.pop {rest : List ReadyItem}
    (remaining : Remaining stopped processed s)
    (batch : s.queues.readyBatch = item :: rest) :
    Remaining stopped (processed + 1)
      { s with queues := s.queues.pop, pc := .executing item processed } :=
  { remaining with
    items := by
      have items := remaining.items
      unfold LoopState.generationEnd at items
      change (s.queues.popped ++ s.queues.readyBatch.head?.toList) ++
        s.queues.readyBatch.tail = _
      rw [batch, append_assoc]
      rwa [batch] at items
    offBudget := by
      have offBudget := remaining.offBudget
      change (processed + 1 + s.queues.readyBatch.tail.length) % _ ≠ 0
      rw [batch] at offBudget ⊢
      rwa [tail_cons, Nat.add_assoc, Nat.add_comm 1] }

theorem Remaining.processed_ne_zero (remaining : Remaining stopped processed s)
    (batch : s.queues.readyBatch = []) : processed ≠ 0 := by
  intro zero
  have offBudget := remaining.offBudget
  rw [batch, zero] at offBudget
  exact offBudget rfl

/-- The count starts again at the budget, where the rest of the batch is off the
budget as well. -/
theorem Remaining.closes (remaining : Remaining stopped (processed + 1) s)
    (counted : processed < maxReadyItemsPerTurn)
    (continues : Continues true processed after) :
    Closes stopped { s with pc := after } ∧
      LoopState.stepsLeft { s with pc := after } =
        2 * s.queues.readyBatch.length + 7 := by
  cases continues with
  | within => exact ⟨{ remaining with }, rfl⟩
  | again =>
    have isFull : processed + 1 = maxReadyItemsPerTurn := by omega
    have offBudget := remaining.offBudget
    rw [isFull, Nat.add_mod_left, ← Nat.zero_add (List.length _)] at offBudget
    exact ⟨{ remaining with offBudget := offBudget }, rfl⟩
  | full _ goesOn => cases goesOn

theorem closes_passes {before : Position}
    (counted : s.pc.processed < maxReadyItemsPerTurn)
    (closes : Closes stopped s)
    (quiet : StaysQuiet s (.loop reply)) (pc : s.pc = before)
    (pass : Passes s reply before after) :
    Closes stopped { s with pc := after } ∧
      LoopState.stepsLeft { s with pc := after } + 1 = s.stepsLeft := by
  simp only [Closes, LoopState.stepsLeft, StaysQuiet, LoopState.staysQuiet, pc]
    at closes quiet counted ⊢
  cases pass with
  | pauses batch =>
    have items := closes.items
    unfold LoopState.generationEnd at items
    rw [batch, append_nil] at items
    refine ⟨⟨⟨items, closes.results⟩, rfl, closes.stopping, closes.signal⟩, ?_⟩
    rw [batch]
    rfl
  | merges batch starts =>
    rcases starts with zero | requested
    · exact absurd zero (closes.processed_ne_zero batch)
    · cases closes.stopRequested.symm.trans requested
  | executes _ _ continues =>
    rw [closes.stopping] at continues
    obtain ⟨after, steps⟩ := closes.closes counted continues
    exact ⟨after, congrArg (· + 1) steps⟩
  | raises ends => cases ends.symm.trans (of_decide_eq_true quiet)
  | parks | wakes => exact closes.elim

theorem closes_endsTurn {error : Bool}
    (closes : Closes stopped s) (pc : s.pc = .endTurn error)
    (ends : EndsTurn s error after) :
    Closes stopped { s with drainActive := false, pc := after } ∧
      LoopState.stepsLeft { s with drainActive := false, pc := after } =
        5 := by
  simp only [Closes, pc] at closes
  obtain ⟨emptied, noError, stopping, signal⟩ := closes
  cases ends with
  | raised => cases noError
  | stopped => exact ⟨⟨{ emptied with }, signal⟩, rfl⟩
  | goesOn runs => cases stopping.symm.trans runs

theorem closes_runStep (apart : RunsApart s) (closes : Closes stopped s)
    (quiet : StaysQuiet s (.loop reply)) (step : RunStep s reply next) :
    Closes stopped next ∧ next.stepsLeft + 1 = s.stepsLeft := by
  have counted := apart.counted
  cases step with
  | pops pos batch =>
    simp only [Closes, LoopState.stepsLeft, pos] at closes ⊢
    refine ⟨closes.pop batch, ?_⟩
    change 2 * s.queues.readyBatch.tail.length + 8 + 1 = _
    rw [batch, tail_cons, length_cons]
    omega
  | swaps pos batch _ starts =>
    simp only [Closes, pos] at closes
    rcases starts with zero | requested
    · exact absurd zero (closes.processed_ne_zero batch)
    · cases closes.stopRequested.symm.trans requested
  | passes pos pass => exact closes_passes counted closes quiet pos pass
  | stops pos _ continues =>
    have stepsLeft : s.stepsLeft = 2 * s.queues.readyBatch.length + 8 := by
      simp only [LoopState.stepsLeft, pos]
    simp only [Closes, pos] at closes counted
    have remaining : Remaining stopped (_ + 1)
        { s with stopRequested := false, stopping := true } :=
      { closes with stopping := rfl, stopRequested := rfl }
    obtain ⟨after, steps⟩ := remaining.closes counted continues
    exact ⟨after, by rw [stepsLeft]; exact congrArg (· + 1) steps⟩
  | abandons pos early =>
    simp only [StaysQuiet, LoopState.staysQuiet, pos, early] at quiet
    cases quiet
  | endsTurn pos ends =>
    obtain ⟨after, steps⟩ := closes_endsTurn closes pos ends
    refine ⟨after, ?_⟩
    rw [steps]
    simp only [LoopState.stepsLeft, pos]
  | cleans pos | leaves pos | releases pos | retires pos
  | finishes pos =>
    simp only [Closes, LoopState.stepsLeft, pos] at closes ⊢
    exact ⟨⟨{ closes.1 with }, closes.2⟩, trivial⟩
  | returns pos =>
    simp only [Closes, LoopState.stepsLeft, pos] at closes ⊢
    obtain ⟨emptied, rfl⟩ := closes
    refine ⟨⟨emptied.items, ?_⟩, rfl⟩
    change s.results ++ _ = _
    rw [emptied.results]
  | timesOut => cases quiet
  | _ pos => simp only [Closes, pos] at closes

/-! ### The way to the return -/

/-- Everything known of the states behind the stop. -/
structure Stopping (stopped s : LoopState) : Prop where
  runs : ∃ last, RunsInOrder s last
  apart : RunsApart s
  closes : Closes stopped s

theorem stopping_loopStep (inv : Stopping stopped s)
    (quiet : StaysQuiet s action)
    (moved : loopStep s action = some next) :
    Stopping stopped next ∧
      next.stepsLeft + (if action.isLoop then 1 else 0) = s.stepsLeft := by
  obtain ⟨last, runs⟩ := inv.runs
  have timely : action ≠ .loop .timedOut := by
    rintro rfl
    cases quiet
  have later := runsInOrder_loopStep runs moved
  have apart := runsApart_loopStep runs inv.apart timely moved
  have pass (frame : StopFrame s next) (stopping : s.pc.awaits ∨
        next.stopping = s.stopping) :
      Stopping stopped next ∧ next.stepsLeft + 0 = s.stepsLeft :=
    ⟨⟨later, apart, frame.closes stopping inv.closes⟩, frame.stepsLeft⟩
  cases loopStep_cases moved with
  | @calls _ kind =>
    have other : kind ≠ .stop := of_decide_eq_true quiet
    exact pass ⟨rfl, rfl, rfl, rfl, rfl, by simp [other]⟩ (.inr rfl)
  | produces step => exact pass step.stopFrame.1 (.inr step.stopFrame.2)
  | dispatches step => exact pass step.stopFrame (inv.apart.stopping_dispatcherStep step)
  | @enqueues kind =>
    have other : kind ≠ .stop := of_decide_eq_true quiet
    exact pass ⟨rfl, rfl, rfl, rfl, rfl, by
      simp [LoopState.enqueueLocal, other]⟩ (.inr rfl)
  | refuses | begins => cases quiet
  | runs step =>
    obtain ⟨closes, steps⟩ := closes_runStep inv.apart inv.closes quiet step
    exact ⟨⟨later, apart, closes⟩, steps⟩

theorem stopping_run (inv : Stopping stopped s) {actions : List LoopAction}
    {final : LoopState}
    (quiet : Guarded loopStep StaysQuiet s actions)
    (ends : run loopStep s actions = some final) :
    Stopping stopped final ∧
      final.stepsLeft + actions.countP LoopAction.isLoop = s.stepsLeft := by
  induction actions generalizing s with
  | nil =>
    cases ends
    exact ⟨inv, rfl⟩
  | cons _ _ ih =>
    obtain ⟨middle, moved, later⟩ := run_cons_eq_some.mp ends
    have quietRest := quiet.2
    rw [moved] at quietRest
    obtain ⟨inv', steps⟩ := stopping_loopStep inv quiet.1 moved
    obtain ⟨inv'', stepsRest⟩ := ih inv' quietRest later
    refine ⟨inv'', ?_⟩
    rw [countP_cons]
    omega

/-- The loop thread and the dispatcher can bring the run to its return. -/
def Returns (s : LoopState) : Prop :=
  ∃ actions final, (∀ action ∈ actions, action.isLoop ∨ action = .dispatcher) ∧
      Guarded loopStep StaysQuiet s actions ∧
      run loopStep s actions = some final ∧ final.pc = .outside

theorem returns_of_outside (outside : s.pc = .outside) : Returns s :=
  ⟨[], s, by simp, trivial, rfl, outside⟩

theorem Returns.cons (later : Returns next)
    (taken : action.isLoop ∨ action = .dispatcher)
    (quiet : StaysQuiet s action)
    (moved : loopStep s action = some next) : Returns s := by
  obtain ⟨actions, final, each, guarded, ends, outside⟩ := later
  refine ⟨action :: actions, final, forall_mem_cons.mpr ⟨taken, each⟩, ⟨quiet, ?_⟩,
    run_cons_eq_some.mpr ⟨next, moved, ends⟩, outside⟩
  rwa [moved]

def Dispatcher.rank : Dispatcher → Nat
  | .poll => 5
  | .forward _ _ => 4
  | .releaseHandles _ | .finishRun _ => 3
  | .signal _ | .resetState _ => 2
  | .activate _ | .acknowledge _ => 1
  | .drainCommands => 0

/-- What the dispatcher has to do before it polls an empty channel. -/
def LoopState.dispatcherWork (s : LoopState) : Nat :=
  5 * s.queues.channel.length + s.dispatcher.rank

theorem DispatcherStep.less (step : DispatcherStep s next)
    (busy : s.dispatcher = .drainCommands → s.queues.channel ≠ []) :
    next.dispatcherWork < s.dispatcherWork := by
  have received {cmd : Command} {rest : List Command}
      (pos : s.dispatcher = .drainCommands)
      (chan : s.queues.channel = cmd :: rest)
      (remaining : next.queues.channel = s.queues.receive.channel)
      (rank : next.dispatcher.rank ≤ 4) :
      next.dispatcherWork < s.dispatcherWork := by
    have tail : s.queues.receive.channel = rest := by
      simp [Queues.receive, chan]
    unfold LoopState.dispatcherWork
    rw [remaining, tail, chan, length_cons]
    omega
  have less {before : Dispatcher} (pos : s.dispatcher = before)
      (chan : next.queues.channel = s.queues.channel)
      (rank : next.dispatcher.rank < before.rank) :
      next.dispatcherWork < s.dispatcherWork := by
    unfold LoopState.dispatcherWork
    rw [chan, pos]
    omega
  cases step with
  | turns pos turn =>
    cases turn with
    | forwards | drains | finishes => exact less pos rfl (by simp [Dispatcher.rank])
    | polls chan => exact absurd chan (busy pos)
  | receives pos chan =>
    exact received pos chan rfl (by simp [pos, Dispatcher.rank])
  | enters pos chan replaces opens =>
    exact received pos chan replaces.frame.1 (by cases opens <;> simp [Dispatcher.rank])
  | finishes pos chan => exact received pos chan rfl (by simp [Dispatcher.rank])
  | @signals after pos =>
    exact less pos rfl (by cases after <;> simp [AfterForward.pc, Dispatcher.rank])
  | forwards pos | releases pos | activates pos | takesBack pos
  | resets pos | acknowledges pos => exact less pos rfl (by simp [Dispatcher.rank])

theorem exists_stepDispatcher (inv : RunsInOrder s last) :
    ∃ next, stepDispatcher s = some next := by
  unfold stepDispatcher
  cases pos : s.dispatcher with
  | poll =>
    dsimp only
    split <;> exact ⟨_, rfl⟩
  | drainCommands => cases s.queues.channel <;> exact ⟨_, rfl⟩
  | forward =>
    obtain ⟨run, active, -⟩ := inv.active_of_forward pos
    rw [active]
    exact ⟨_, rfl⟩
  | finishRun => cases s.activeRun <;> exact ⟨_, rfl⟩
  | _ => exact ⟨_, rfl⟩

/-- With an empty channel the dispatcher has received the `FinishRun`. -/
theorem RunsApart.channel_ne_nil (apart : RunsApart s)
    (inv : RunsInOrder s last)
    (awaits : s.pc = .awaitFinishRun result)
    (unfinished : s.currentRun ∉ s.finished)
    (pos : s.dispatcher = .drainCommands) : s.queues.channel ≠ [] := by
  intro chan
  have cmds := inv.commands
  unfold Queues.runNumbers at cmds
  rw [chan] at cmds
  have received : last = s.receivedRuns := cmds
  have sent := inv.sent
  rw [awaits] at sent
  obtain ⟨known, positive⟩ := sent
  have number : s.receivedRuns = 2 * s.currentRun + 2 := by
    unfold LoopState.currentRun
    omega
  rcases apart.received _ number with before | finishes | resets | acknowledges
  · exact unfinished before
  · cases pos.symm.trans finishes
  · cases pos.symm.trans resets
  · cases pos.symm.trans acknowledges

theorem returns_of_awaits (inv : Stopping stopped s)
    (pos : s.pc = .awaitFinishRun result) : Returns s := by
  induction work : s.dispatcherWork using Nat.strongRecOn generalizing s with
  | ind work ih =>
    by_cases acknowledged : s.currentRun ∈ s.finished
    · have moved : loopStep s (.loop .proceed) = some (s.returned result) := by
        simp [loopStep, stepLoop, pos, acknowledged]
      have arrived : Returns (s.returned result) := returns_of_outside rfl
      have quiet : StaysQuiet s (.loop .proceed) := rfl
      exact arrived.cons (.inl rfl) quiet moved
    · obtain ⟨last, runs⟩ := inv.runs
      obtain ⟨next, moved⟩ := exists_stepDispatcher runs
      have step := dispatcherStep_of_stepDispatcher moved
      have less := step.less (inv.apart.channel_ne_nil runs pos acknowledged)
      have taken : loopStep s .dispatcher = some next := moved
      have quiet : StaysQuiet s .dispatcher := rfl
      obtain ⟨inv', -⟩ := stopping_loopStep inv quiet taken
      have later : Returns next := ih _ (work ▸ less) inv' (step.stopFrame.pc.trans pos) rfl
      exact later.cons (.inr rfl) quiet taken

/-- Before it waits for the dispatcher, the loop thread is never stuck. -/
theorem exists_stepLoop (closes : Closes stopped s)
    (inside : s.pc ≠ .outside) (elsewhere : s.pc.awaits = false) :
    ∃ reply next, StaysQuiet s (.loop reply) ∧ stepLoop s reply = some next := by
  unfold Closes at closes
  revert closes
  unfold stepLoop
  cases pos : s.pc with
  | outside => exact absurd pos inside
  | awaitFinishRun => simp [pos, Position.awaits] at elsewhere
  | executing item processed =>
    refine fun _ => ⟨.executed .returned, stepExecuting s item processed .next,
      staysQuiet_executed s, ?_⟩
    simp only [item.kind.ending_returned, Option.map_some]
  | generation | endTurn | cleanup | handBack | retire | sendFinishRun =>
    exact fun _ => ⟨.proceed, _, rfl, rfl⟩
  | _ => exact False.elim

theorem returns_of_stopping (inv : Stopping stopped s) : Returns s := by
  induction steps : s.stepsLeft generalizing s with
  | zero =>
    have closes := inv.closes
    unfold Closes at closes
    unfold LoopState.stepsLeft at steps
    cases pos : s.pc with
    | outside => exact returns_of_outside pos
    | _ => simp [pos] at steps closes
  | succ _ ih =>
    by_cases outside : s.pc = .outside
    · exact returns_of_outside outside
    cases awaits : s.pc.awaits with
    | true =>
      cases pos : s.pc with
      | awaitFinishRun => exact returns_of_awaits inv pos
      | _ => simp [pos, Position.awaits] at awaits
    | false =>
      obtain ⟨reply, next, quiet, moved⟩ := exists_stepLoop inv.closes outside awaits
      have taken : loopStep s (.loop reply) = some next := moved
      obtain ⟨inv', less⟩ := stopping_loopStep inv quiet taken
      have fewer : next.stepsLeft + 1 = s.stepsLeft := less
      exact (ih inv' (by omega)).cons (.inl rfl) quiet taken

/-! ## Whole runs -/

/-- A run that ends with the generation of the stop, seen `steps` steps of the
loop thread later: only items of that generation have been executed, all of them
when `run_forever` has returned, the thread is on its way to the return, and the
return can be reached. -/
structure EndsWithGeneration (stopped s : LoopState) (steps : Nat) : Prop where
  executed : s.queues.popped <+: stopped.queues.popped ++ stopped.queues.readyBatch
  bounded : steps ≤ 2 * stopped.queues.readyBatch.length + 7
  returned : s.pc = .outside → s.queues.popped =
        stopped.queues.popped ++ stopped.queues.readyBatch ∧
      s.results = stopped.results ++ [some stopped.stopResult]
  returns : Returns s

theorem Closes.popped_isPrefix (closes : Closes stopped s) :
    s.queues.popped <+: stopped.generationEnd := by
  unfold Closes at closes
  revert closes
  cases s.pc with
  | generation | executing => exact fun closes => ⟨_, closes.items⟩
  | outside => exact fun closes => closes.1 ▸ prefix_rfl
  | endTurn | cleanup | handBack | retire | sendFinishRun | awaitFinishRun =>
    exact fun closes => closes.1.items ▸ prefix_rfl
  | _ => exact False.elim

/-- A `Stop` item has been executed off the budget. -/
theorem closes_of_stop (counted : processed < maxReadyItemsPerTurn)
    (isStop : item.kind = .stop)
    (offBudget : (processed + 1 + s.queues.readyBatch.length) % maxReadyItemsPerTurn ≠ 0) :
    Closes (stepExecuting s item processed .next) (stepExecuting s item processed .next) ∧
      (stepExecuting s item processed .next).stepsLeft =
        2 * (stepExecuting s item processed .next).queues.readyBatch.length + 7 := by
  have continues := continues_afterItem (s.executed item.kind) processed
  unfold stepExecuting
  unfold LoopState.executed at continues ⊢
  rw [if_pos isStop] at continues ⊢
  refine Remaining.closes ?_ counted continues
  exact
    { stopping := rfl
      stopRequested := rfl
      items := rfl
      offBudget := offBudget
      signal := rfl
      results := rfl }

/-- Let the count of the turn, with the `Stop` item and what is left of its
batch, be no multiple of the budget, and let no run have given up its wait for
the dispatcher. Then the run ends with that batch. -/
theorem endsWithGeneration_of_offBudget (threads : Nat)
    {before after : List LoopAction} {start stopped s : LoopState}
    {item : ReadyItem} {processed : Nat}
    (timely : ∀ action ∈ before, action ≠ .loop .timedOut)
    (reached : run loopStep (.new threads) before = some start)
    (executing : start.pc = .executing item processed)
    (isStop : item.kind = .stop)
    (offBudget :
      (processed + 1 + start.queues.readyBatch.length) % maxReadyItemsPerTurn ≠ 0)
    (stops : loopStep start (.loop (.executed .returned)) = some stopped)
    (quiet : Guarded loopStep StaysQuiet stopped after)
    (later : run loopStep stopped after = some s) :
    EndsWithGeneration stopped s (after.countP LoopAction.isLoop) := by
  obtain ⟨⟨last, runs⟩, apart⟩ : (∃ last, RunsInOrder start last) ∧ RunsApart start := by
    refine invariant_of_run
      (fun current => (∃ last, RunsInOrder current last) ∧ RunsApart current)
      ?_ ⟨⟨0, runsInOrder_new threads⟩, runsApart_new threads⟩
      (guarded_of_forall fun action member _ => timely action member) reached
    rintro current action next ⟨⟨last, runs⟩, apart⟩ notTimedOut moved
    exact ⟨runsInOrder_loopStep runs moved, runsApart_loopStep runs apart notTimedOut moved⟩
  have counted : processed < maxReadyItemsPerTurn := by
    have counted := apart.counted
    rwa [executing] at counted
  have result : stopped = stepExecuting start item processed .next := by
    simp only [loopStep, stepLoop, executing, isStop, ReadyKind.ending,
      runInfallible, Option.map_some, Option.some.injEq] at stops
    exact stops.symm
  obtain ⟨closes, steps⟩ : Closes stopped stopped ∧
        stopped.stepsLeft = 2 * stopped.queues.readyBatch.length + 7 := by
    rw [result]
    exact closes_of_stop counted isStop offBudget
  have inv : Stopping stopped stopped :=
    ⟨runsInOrder_loopStep runs stops, runsApart_loopStep runs apart (by simp) stops, closes⟩
  obtain ⟨inv', count⟩ := stopping_run inv quiet later
  exact
    { executed := inv'.closes.popped_isPrefix
      bounded := by omega
      returned := by
        intro outside
        have closes := inv'.closes
        unfold Closes at closes
        rwa [outside] at closes
      returns := returns_of_stopping inv' }

/-- The first of two timers calls `stop()` and the second one schedules a handle.
The next generation is the stop and the handle. -/
def stopsInSecondGeneration : List LoopAction :=
  List.flatten [[.runForever], List.replicate 4 (.loop .proceed), [.loop (.timersDue 2)],
      List.replicate 2 (.loop .proceed),
      [.enqueue .stop, .loop (.executed .returned), .loop .proceed,
        .enqueue .handle, .loop (.executed .returned)],
      List.replicate 2 (.loop .proceed)]

/-- The handle schedules a callback, which this run does not execute. -/
def returnsBehindHandle : List LoopAction :=
  List.flatten [[.loop .proceed, .enqueue .callback, .loop (.executed .returned)],
      List.replicate 6 (.loop .proceed), List.replicate 7 .dispatcher,
      [.loop .proceed]]

theorem endsWithGeneration_of_secondGeneration : ∃ stopped s, run loopStep (.new 1)
          (stopsInSecondGeneration ++ [.loop (.executed .returned)]) = some stopped ∧
        run loopStep stopped returnsBehindHandle = some s ∧
        s.queues.popped.map ReadyItem.stamp = [0, 1, 2, 3] ∧
        s.queues.scheduled.map ReadyItem.stamp = [0, 1, 2, 3, 4] ∧
        EndsWithGeneration stopped s 9 := by
  obtain ⟨start, stopped, reached, stops, executing, offBudget, quiet, ends⟩ :=
    exists_runs_of_any loopStep (.new 1) stopsInSecondGeneration [.loop (.executed .returned)]
      (fun start stopped =>
        start.pc = .executing ⟨.stop, 0, 2⟩ 2 ∧
          (2 + 1 + start.queues.readyBatch.length) % maxReadyItemsPerTurn ≠ 0 ∧
          Guarded loopStep StaysQuiet stopped returnsBehindHandle ∧
          (run loopStep stopped returnsBehindHandle).any (fun s =>
            decide (s.queues.popped.map ReadyItem.stamp = [0, 1, 2, 3] ∧
              s.queues.scheduled.map ReadyItem.stamp = [0, 1, 2, 3, 4])))
      (by decide)
  obtain ⟨s, later, popped, scheduled⟩ :=
    exists_run_of_any loopStep stopped returnsBehindHandle
      (fun s => s.queues.popped.map ReadyItem.stamp = [0, 1, 2, 3] ∧
        s.queues.scheduled.map ReadyItem.stamp = [0, 1, 2, 3, 4]) ends
  obtain ⟨next, moved, same⟩ := run_cons_eq_some.mp stops
  cases same
  refine ⟨stopped, s, ?_, later, popped, scheduled, ?_⟩
  · rwa [run_append, reached]
  · exact endsWithGeneration_of_offBudget 1 (by decide) reached executing rfl
      offBudget moved quiet later

/-! ## On the budget -/

def executeOne : List LoopAction :=
  [.loop .proceed, .loop (.executed .returned)]

theorem Queues.localReady_collect (q : Queues) (count : Nat) :
    ∃ timers : List ReadyItem,
      (q.collect count).localReady = q.localReady ++ timers ∧
        timers.length = count ∧ ∀ item ∈ timers, item.kind = .timer := by
  induction count generalizing q with
  | zero => exact ⟨[], (append_nil _).symm, rfl, by simp⟩
  | succ _ ih =>
    obtain ⟨timers, own, length, kinds⟩ := ih (q.enqueueLocal (q.nextItem .timer 0))
    refine ⟨q.nextItem .timer 0 :: timers, ?_, congrArg (· + 1) length,
      forall_mem_cons.mpr ⟨rfl, kinds⟩⟩
    refine own.trans ?_
    simp [Queues.enqueueLocal]

variable {item : ReadyItem} {rest : List ReadyItem}

/-- One item of a batch that a stopping run goes through. -/
theorem run_executeOne (pc : s.pc = .generation processed)
    (batch : s.queues.readyBatch = item :: rest) (kind : item.kind = .timer) :
    run loopStep s executeOne =
      some { s with queues := s.queues.pop, pc := afterItem s processed } := by
  have popped : loopStep s (.loop .proceed) =
      some { s with queues := s.queues.pop, pc := .executing item processed } := by
    simp only [loopStep, stepLoop, pc, stepGeneration, batch]
  have executed (current : LoopState) (here : current.pc = .executing item processed) :
      loopStep current (.loop (.executed .returned)) =
        some { current with pc := afterItem current processed } := by
    simp [loopStep, stepLoop, here, kind, ReadyKind.ending, executeReady,
      stepExecuting, LoopState.executed]
  refine run_cons_eq_some.mpr ⟨_, popped, ?_⟩
  exact run_cons_eq_some.mpr ⟨_, executed _ rfl, rfl⟩

/-- The batch ends on the budget and the count is zero again. -/
theorem run_batch (pc : s.pc = .generation processed)
    (stopping : s.stopping) (batch : s.queues.readyBatch = item :: rest)
    (kinds : ∀ timer ∈ item :: rest, timer.kind = .timer)
    (onBudget : processed + (rest.length + 1) = maxReadyItemsPerTurn) :
    ∃ final, run loopStep s (List.replicate (rest.length + 1) executeOne).flatten =
          some final ∧
        final.pc = .generation 0 ∧
        final.stopRequested = s.stopRequested ∧
        final.readyPending = s.readyPending ∧
        final.queues.readyBatch = [] ∧
        final.queues.localReady = s.queues.localReady ∧
        final.queues.popped = s.queues.popped ++ item :: rest := by
  induction rest generalizing s item processed with
  | nil =>
    have first := run_executeOne pc batch (kinds item mem_cons_self)
    have full : afterItem s processed = .generation 0 := by
      rw [length_nil] at onBudget
      unfold afterItem
      rw [if_neg (by omega), if_pos stopping]
    refine ⟨{ s with
        queues := s.queues.pop
        pc := afterItem s processed }, ?_, full, rfl, rfl, ?_, rfl, ?_⟩
    · rw [replicate_succ, flatten_cons, run_append, first]
      rfl
    · simp [Queues.pop, batch]
    · simp [Queues.pop, batch]
  | cons _ _ ih =>
    have first := run_executeOne pc batch (kinds item mem_cons_self)
    have within : LoopState.pc
            { s with queues := s.queues.pop, pc := afterItem s processed } =
          .generation (processed + 1) := by
      rw [length_cons] at onBudget
      simp only [afterItem]
      rw [if_pos (by omega)]
    obtain ⟨final, reached, arrives, requested, flag, emptied, own, executed⟩ :=
      ih within stopping (by simp [Queues.pop, batch])
        (fun timer mem => kinds timer (mem_cons_of_mem _ mem))
        (by rw [length_cons] at onBudget; omega)
    refine ⟨final, ?_, arrives, requested, flag, emptied, own, ?_⟩
    · rwa [length_cons, replicate_succ, flatten_cons, run_append, first]
    · refine executed.trans ?_
      simp [Queues.pop, batch]

/-- A generation that begins with own items only. -/
theorem run_collected {count : Nat} (pos : s.pc = .turn)
    (batch : s.queues.readyBatch = [])
    (nothing : s.queues.pending s.currentRun = .empty) (flag : s.readyPending)
    (own : (s.queues.collect count).localReady = item :: rest) :
    ∃ start, run loopStep s [.loop (.timersDue count), .loop .proceed, .loop .proceed,
            .loop .proceed] = some start ∧
        start.pc = .executing item 0 ∧
        start.readyPending = false ∧
        start.drainActive ∧
        start.queues.localReady = [] ∧
        start.queues.readyBatch = rest := by
  have pendings := (Queues.collect_frame s.queues count).2.1
  have batch' : (s.queues.collect count).readyBatch = [] :=
    (Queues.collect_frame s.queues count).2.2.2.trans batch
  have nothing' : (s.queues.collect count).pending
      ((s.queues.collect count).pendings.length - 1) = .empty := by
    rw [pendings]
    unfold Queues.pending at nothing ⊢
    rwa [pendings]
  simp [run, loopStep, stepLoop, pos, stepGeneration, batch', flag, stepMerge,
    LoopState.currentRun, Queues.merge, nothing', mergeReadyGeneration,
    PendingReady.empty, own, Queues.setPending, Queues.pop]

/-- An item of the batch schedules a handle. -/
theorem run_scheduling (pos : s.pc = .generation processed)
    (batch : s.queues.readyBatch = item :: rest)
    (kind : item.kind = .timer) (draining : s.drainActive)
    (within : processed + 1 < maxReadyItemsPerTurn) :
    ∃ next handle, run loopStep s
          [.loop .proceed, .enqueue .handle, .loop (.executed .returned)] = some next ∧
        next.pc = .generation (processed + 1) ∧
        next.stopping = s.stopping ∧
        next.readyPending = s.readyPending ∧
        next.queues.readyBatch = rest ∧
        next.queues.popped = s.queues.popped ++ [item] ∧
        next.queues.localReady = s.queues.localReady ++ [handle] := by
  simp [run, loopStep, stepLoop, pos, stepGeneration, batch, kind,
    Position.runsCode, LoopState.enqueueLocal, draining, ReadyKind.ending,
    executeReady, stepExecuting, LoopState.executed, afterItem, within, Queues.pop,
    Queues.enqueueLocal]

theorem run_nextGeneration (pos : s.pc = .generation 0)
    (batch : s.queues.readyBatch = []) (flag : s.readyPending = false)
    (own : s.queues.localReady = [item]) :
    ∃ next, run loopStep s [.loop .proceed, .loop .proceed] = some next ∧
        next.queues.popped = s.queues.popped ++ [item] := by
  simp [run, loopStep, stepLoop, pos, stepGeneration, batch, flag, own, Queues.swap, Queues.pop]

/-- `stop()` is called in front of 1023 timers that are due. -/
def stopsOnBudget : List LoopAction :=
  [.runForever] ++ List.replicate 4 (.loop .proceed) ++ [.enqueue .stop] ++
    [.loop (.timersDue 1023), .loop .proceed, .loop .proceed, .loop .proceed]

/-- The first timer schedules a handle; all timers are executed, and the loop
goes on. -/
def goesOnBehindTimers : List LoopAction :=
  [.loop .proceed, .enqueue .handle, .loop (.executed .returned)] ++
    ((List.replicate 1022 executeOne).flatten ++ [.loop .proceed, .loop .proceed])

theorem staysQuiet_goesOnBehindTimers (s : LoopState) :
    Guarded loopStep StaysQuiet s goesOnBehindTimers := by
  refine guarded_of_forall fun action mem current => ?_
  have each : action = .loop .proceed ∨ action = .enqueue .handle ∨
      action = .loop (.executed .returned) := by
    simp only [goesOnBehindTimers, executeOne, mem_append,
      mem_flatten, mem_replicate, mem_cons, not_mem_nil] at mem
    grind
  rcases each with rfl | rfl | rfl
  · rfl
  · rfl
  · exact staysQuiet_executed current

/-- Behind a `Stop` item, without another stop or an error, an item of a later
generation is executed. -/
def RunsPastGeneration (before after : List LoopAction) : Prop :=
  ∃ start stopped s item processed, run loopStep (.new 1) before = some start ∧
      start.pc = .executing item processed ∧ item.kind = .stop ∧
      loopStep start (.loop (.executed .returned)) = some stopped ∧
      Guarded loopStep StaysQuiet stopped after ∧
      run loopStep stopped after = some s ∧
      ¬ s.queues.popped <+: stopped.queues.popped ++ stopped.queues.readyBatch

theorem runsPastGeneration_of_onBudget : RunsPastGeneration stopsOnBudget goesOnBehindTimers := by
  obtain ⟨turn, reached, pos, batch, nothing, flag, own⟩ :=
    exists_run_of_any loopStep (.new 1)
      ([.runForever] ++ List.replicate 4 (.loop .proceed) ++ [.enqueue .stop])
      (fun turn => turn.pc = .turn ∧ turn.queues.readyBatch = [] ∧
        turn.queues.pending turn.currentRun = .empty ∧
        turn.readyPending ∧ turn.queues.localReady = [⟨.stop, 0, 0⟩])
      (by decide)
  obtain ⟨timers, collected, length, kinds⟩ := turn.queues.localReady_collect 1023
  rw [own, singleton_append] at collected
  obtain ⟨start, started, executing, lowered, draining, owned, left⟩ :=
    run_collected pos batch nothing flag collected
  have stops : loopStep start (.loop (.executed .returned)) =
      some (stepExecuting start ⟨.stop, 0, 0⟩ 0 .next) := by
    simp [loopStep, stepLoop, executing, ReadyKind.ending, runInfallible]
  cases timers with
  | nil => cases length
  | cons first timers =>
    cases timers with
    | nil => cases length
    | cons _ timers =>
      have behind : (stepExecuting start ⟨.stop, 0, 0⟩ 0 .next).pc = .generation 1 := rfl
      obtain ⟨busy, handle, scheduled, arrives, stopping, lowered', left', popped, owned'⟩ :=
        run_scheduling behind left (kinds first mem_cons_self) draining (by decide)
      rw [length_cons, length_cons] at length
      obtain ⟨full, executed, arrives', -, lowered'', emptied, owned'', popped'⟩ :=
        run_batch arrives stopping left'
          (fun timer mem => kinds timer (mem_cons_of_mem _ mem))
          (by simp only [maxReadyItemsPerTurn]; omega)
      have next : full.queues.localReady = [handle] := by
        rw [owned'', owned']
        exact congrArg (· ++ [handle]) owned
      obtain ⟨s, continued, popped''⟩ :=
        run_nextGeneration arrives' emptied (lowered''.trans (lowered'.trans lowered)) next
      refine ⟨start, _, s, _, _, ?_, executing, rfl, stops,
        staysQuiet_goesOnBehindTimers _, ?_, ?_⟩
      · unfold stopsOnBudget
        rw [run_append, reached]
        exact started
      · unfold goesOnBehindTimers
        have count : 1022 = timers.length + 1 := by omega
        rwa [run_append, scheduled, Option.bind_some, run_append, count, executed]
      · intro early
        have bounded := early.length_le
        rw [popped'', popped', popped] at bounded
        change _ ≤ (start.queues.popped ++ start.queues.readyBatch).length at bounded
        rw [left] at bounded
        simp only [length_append, length_cons, length_nil] at bounded
        change start.queues.popped.length + _ + _ + _ ≤ _ at bounded
        omega

/-- The first run gives up its wait for the dispatcher. In the second one a `Stop`
item is executed before the dispatcher has received anything. -/
def stopsBeforeReset : List LoopAction :=
  List.flatten [[.runForever], List.replicate 4 (.loop .proceed),
      [.enqueue .stop, .loop (.timersDue 0)], List.replicate 3 (.loop .proceed),
      [.loop (.executed .returned)], List.replicate 6 (.loop .proceed),
      [.loop .timedOut, .runForever], List.replicate 4 (.loop .proceed),
      [.enqueue .stop, .loop (.timersDue 0)], List.replicate 3 (.loop .proceed)]

/-- The dispatcher finishes the first run, and the second one goes on. -/
def resetByFirstRun : List LoopAction :=
  List.replicate 6 .dispatcher ++ [.loop .proceed, .loop .proceed, .loop .proceed, .loop .proceed,
      .enqueue .handle, .loop (.timersDue 0), .loop .proceed, .loop .proceed,
      .loop .proceed]

theorem runsPastGeneration_of_lateReset : RunsPastGeneration stopsBeforeReset resetByFirstRun := by
  obtain ⟨start, stopped, reached, stops, executing, quiet, ends⟩ :=
    exists_runs_of_any loopStep (.new 1) stopsBeforeReset [.loop (.executed .returned)]
      (fun start stopped =>
        start.pc = .executing ⟨.stop, 0, 1⟩ 0 ∧
          Guarded loopStep StaysQuiet stopped resetByFirstRun ∧
          (run loopStep stopped resetByFirstRun).any (fun s =>
            decide (¬ s.queues.popped <+:
              stopped.queues.popped ++ stopped.queues.readyBatch)))
      (by decide)
  obtain ⟨s, later, past⟩ :=
    exists_run_of_any loopStep stopped resetByFirstRun (fun s => ¬ s.queues.popped <+:
        stopped.queues.popped ++ stopped.queues.readyBatch) ends
  obtain ⟨next, moved, same⟩ := run_cons_eq_some.mp stops
  cases same
  exact ⟨start, stopped, s, _, _, reached, executing, rfl, moved, quiet, later, past⟩

/-- The run goes on behind the generation of the stop where that generation ends
on the budget of the turn, and where the dispatcher finishes an earlier run too
late. -/
theorem later_generation_executed : RunsPastGeneration stopsOnBudget goesOnBehindTimers ∧
      RunsPastGeneration stopsBeforeReset resetByFirstRun :=
  ⟨runsPastGeneration_of_onBudget, runsPastGeneration_of_lateReset⟩

end Rsloop.Engine
