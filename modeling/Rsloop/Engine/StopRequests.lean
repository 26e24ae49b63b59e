import Rsloop.Engine.Outstanding
import Rsloop.Engine.StopGeneration

/-!
# Stop requests and the runs behind them

A stop is a flag and a `Stop` item. The run that executes the item lowers the
flag, but a run can leave its turns before it gets there: a callback that has
called `stop` raises, or the run ends on another stop. The cleanup hands the
item back like any other, so that it ends the next run. Where a run leaves its
turns only with no stop under way, none reaches the next one.
-/

namespace Rsloop.Engine

open Transition List

variable {s next : LoopState}

/-! ## Requests and phases -/

/-- `stop` from the loop thread or from another one -/
def LoopAction.requestsStop : LoopAction → Bool
  | .call _ kind | .enqueue kind => decide (kind = .stop)
  | _ => false

inductive Phase where
  | outside
  | starting
  | turns
  | ending (result : RunResult)
  deriving DecidableEq

def Position.phase : Position → Phase
  | .outside | .leftEarly => .outside
  | .clearReadyPending | .publish | .sendEnterRun | .install => .starting
  | .cleanup result | .handBack result | .retire result | .sendFinishRun result
  | .awaitFinishRun result => .ending result
  | _ => .turns

def ReadyItem.isStop (item : ReadyItem) : Bool :=
  decide (item.kind = .stop)

/-- Neither half of a stop is under way. -/
def LoopState.NoStop (s : LoopState) : Prop :=
  s.stopRequested = false ∧ s.outstanding.countP ReadyItem.isStop = 0

instance (s : LoopState) : Decidable s.NoStop :=
  inferInstanceAs (Decidable (_ ∧ _))

/-- The stop of a Python signal is on its way. -/
def LoopState.Interrupted (s : LoopState) : Prop :=
  s.pc.phase = .turns ∧ s.pendingSignalError

def LoopState.leavesTurns (s : LoopState) : LoopAction → Bool
  | .loop .proceed =>
    match s.pc with
    | .endTurn error => error || s.stopping
    | _ => false
  | _ => false

/-- A run returns normally, with the error of a callback or with that of a
Python signal. -/
def EndsOrderly (s : LoopState) (action : LoopAction) : Prop :=
  ReachesCleanup s action ∧ action ≠ .loop .timedOut

instance (s : LoopState) (action : LoopAction) : Decidable (EndsOrderly s action) :=
  inferInstanceAs (Decidable (_ ∧ _))

/-- Moreover, stops are requested only while a run is active. -/
def StopsInRuns (s : LoopState) (action : LoopAction) : Prop :=
  EndsOrderly s action ∧ (action.requestsStop → s.pc.phase ≠ .outside)

instance (s : LoopState) (action : LoopAction) : Decidable (StopsInRuns s action) :=
  inferInstanceAs (Decidable (_ ∧ (_ → _)))

/-- Stops are requested before the run has left its turns, and it leaves them
with no stop under way. -/
def SettlesStops (s : LoopState) (action : LoopAction) : Prop :=
  EndsOrderly s action ∧ (action.requestsStop →
      s.pc.phase = .starting ∨ s.pc.phase = .turns) ∧
    (s.leavesTurns action → s.NoStop)

instance (s : LoopState) (action : LoopAction) : Decidable (SettlesStops s action) :=
  inferInstanceAs (Decidable (_ ∧ (_ → _) ∧ (_ → _)))

/-- No run has been ended by a stop since, and none starts with a request. -/
structure RunsUnstopped (before s : LoopState) : Prop where
  requested : s.pc.phase ≠ .turns → s.stopRequested = false
  results : ∃ added, s.results = before.results ++ added ∧ some RunResult.ok ∉ added

/-! ## A step without a request -/

/-- What such a step does to the flags and to the phase. -/
inductive QuietStep (s next : LoopState) (action : LoopAction) : Prop
  | within (phase : next.pc.phase = s.pc.phase)
      (requested : next.stopRequested = s.stopRequested)
      (stopping : next.stopping → s.stopping)
      (signal : next.pendingSignalError = s.pendingSignalError)
      (results : next.results = s.results)
  | enters (before : s.pc.phase = .outside) (phase : next.pc.phase = .starting)
      (requested : next.stopRequested = s.stopRequested)
      (stopping : next.stopping = false)
      (results : next.results = s.results)
  | installs (before : s.pc.phase = .starting) (phase : next.pc.phase = .turns)
      (requested : next.stopRequested = s.stopRequested)
      (stopping : next.stopping = s.stopping)
      (results : next.results = s.results)
  | stops (item : ReadyItem) (executing : s.pc.item = some item)
      (isStop : item.kind = .stop)
      (before : s.pc.phase = .turns)
      (phase : next.pc.phase = .turns)
      (requested : next.stopRequested = false)
      (signal : next.pendingSignalError = s.pendingSignalError)
      (results : next.results = s.results)
  | signals (before : s.pc.phase = .turns) (interrupted : next.Interrupted)
      (results : next.results = s.results)
  | leaves (result : RunResult) (before : s.pc.phase = .turns)
      (leaves : s.leavesTurns action)
      (phase : next.pc.phase = .ending result)
      (stopped : result = .ok → s.stopping ∧ s.pendingSignalError = false)
      (requested : next.stopRequested = s.stopRequested)
      (results : next.results = s.results)
  | returns (result : RunResult) (before : s.pc.phase = .ending result)
      (phase : next.pc.phase = .outside)
      (requested : next.stopRequested = s.stopRequested)
      (results : next.results = s.results ++ [some result])

variable {action : LoopAction}

theorem StopFrame.quietStep (frame : StopFrame s next)
    (stopping : next.stopping → s.stopping) : QuietStep s next action :=
  .within (by rw [frame.pc]) frame.requested stopping frame.signal frame.results

theorem Position.phase_of_inTurns {pos : Position}
    (turns : pos.inTurns) : pos.phase = .turns := by
  cases pos <;> first | rfl | cases turns

theorem quietStep_endsTurn {error : Bool} {after : Position}
    (pc : s.pc = .endTurn error) (ends : EndsTurn s error after) :
    QuietStep s { s with drainActive := false, pc := after } (.loop .proceed) := by
  have phase : s.pc.phase = .turns := by
    rw [pc]
    rfl
  have leaves : s.leavesTurns (.loop .proceed) = (error || s.stopping) := by
    unfold LoopState.leavesTurns
    rw [pc]
  cases ends with
  | raised => exact .leaves .callbackError phase leaves rfl nofun rfl rfl
  | stopped stops =>
    rw [stops] at leaves
    refine .leaves _ phase leaves rfl (fun isOk => ⟨stops, ?_⟩) rfl rfl
    split at isOk
    next => cases isOk
    next noSignal => exact eq_false_of_ne_true noSignal
  | goesOn => exact .within phase.symm rfl id rfl rfl

theorem quietStep_runStep {reply : LoopReply}
    (orderly : EndsOrderly s (.loop reply))
    (step : RunStep s reply next) : QuietStep s next (.loop reply) := by
  have other {pos : Position} (here : s.pc = pos)
      (phase : next.pc.phase = pos.phase)
      (requested : next.stopRequested = s.stopRequested)
      (stopping : next.stopping = s.stopping)
      (signal : next.pendingSignalError = s.pendingSignalError)
      (results : next.results = s.results) :
      QuietStep s next (.loop reply) :=
    .within (by rw [here, phase]) requested (fun after => stopping ▸ after) signal results
  cases step with
  | installs here => exact .installs (by rw [here]; rfl) rfl rfl rfl rfl
  | swaps => exact .within rfl rfl id rfl rfl
  | passes here pass =>
    obtain ⟨before, after⟩ := pass.inTurns
    refine other here ?_ rfl rfl rfl rfl
    rw [Position.phase_of_inTurns before, Position.phase_of_inTurns after]
  | merges here arrives =>
    exact other here (by rcases arrives with rfl | rfl <;> rfl) rfl rfl rfl rfl
  | stops here isStop continues =>
    exact .stops _ (by rw [here]; rfl) isStop (by rw [here]; rfl)
      (Position.phase_of_inTurns continues.inTurns) rfl rfl rfl
  | abandons here early =>
    have cleanup := orderly.1
    unfold ReachesCleanup LoopState.returnsEarly at cleanup
    rw [here] at cleanup
    exact absurd early (of_decide_eq_false cleanup)
  | endsTurn here ends => exact quietStep_endsTurn here ends
  | signals here => exact .signals (by rw [here]; rfl) ⟨rfl, rfl⟩ rfl
  | returns here => exact .returns _ (by rw [here]; rfl) rfl rfl rfl
  | timesOut => exact absurd rfl orderly.2
  | _ here => exact other here rfl rfl rfl rfl rfl

theorem quietStep_loopStep (orderly : EndsOrderly s action)
    (noRequest : action.requestsStop = false)
    (moved : loopStep s action = some next) :
    QuietStep s next action := by
  cases loopStep_cases moved with
  | @calls _ kind =>
    have otherKind : kind ≠ .stop := of_decide_eq_false noRequest
    exact .within rfl (by simp [otherKind]) id rfl rfl
  | produces step =>
    obtain ⟨frame, stopping⟩ := step.stopFrame
    exact frame.quietStep fun after => stopping ▸ after
  | dispatches step =>
    rcases step.stopping with ⟨resets, _⟩ | same
    · refine step.stopFrame.quietStep fun after => ?_
      cases resets.symm.trans after
    · exact step.stopFrame.quietStep fun after => same ▸ after
  | @enqueues kind =>
    have otherKind : kind ≠ .stop := of_decide_eq_false noRequest
    exact .within rfl (by simp [LoopState.enqueueLocal, otherKind]) id rfl rfl
  | refuses => exact .within rfl rfl id rfl rfl
  | begins isOver =>
    refine .enters ?_ rfl rfl rfl rfl
    rcases isOver with here | here <;> rw [here] <;> rfl
  | runs step => exact quietStep_runStep orderly step

/-! ## Items without a request -/

theorem interrupted_of_checkSignals {reply : LoopReply}
    (step : RunStep s reply next)
    (pos : s.pc = .checkSignals) (arrives : next.pc = .turn) :
    next.Interrupted := by
  cases step with
  | signals => exact ⟨rfl, rfl⟩
  | passes here pass =>
    cases pass with
    | parks => cases arrives
    | _ => cases pos.symm.trans here
  | _ here => cases pos.symm.trans here

/-- Only a pending signal brings in a `Stop` item of its own. -/
theorem freshStops_loopStep (noRequest : action.requestsStop = false)
    (moved : loopStep s action = some next) :
    ∃ fresh dropped, ItemsMove s next fresh dropped ∧
      (fresh.countP ReadyItem.isStop = 0 ∨ next.Interrupted) := by
  have single {kind : ReadyKind} (tid : Nat) (otherKind : kind ≠ .stop) :
      [s.queues.nextItem kind tid].countP ReadyItem.isStop = 0 := by
    rw [countP_singleton, if_neg]
    intro selected
    exact otherKind (of_decide_eq_true selected)
  cases loopStep_cases moved with
  | calls idle _ _ starts =>
    exact ⟨_, _, .take idle (by rw [starts]; split <;> rfl) rfl rfl,
      .inl (single _ (of_decide_eq_false noRequest))⟩
  | produces step =>
    obtain ⟨dropped, moves⟩ := step.itemsMove
    exact ⟨_, _, moves, .inl rfl⟩
  | dispatches step => exact ⟨[], [], step.itemsMove, .inl rfl⟩
  | enqueues =>
    exact ⟨_, _, .enqueueLocal rfl rfl, .inl (single 0 (of_decide_eq_false noRequest))⟩
  | refuses | begins => exact ⟨[], [], .same rfl rfl rfl, .inl rfl⟩
  | runs step =>
    obtain ⟨fresh, moves, kinds⟩ := step.itemsMove
    refine ⟨fresh, [], moves, ?_⟩
    by_cases signals : s.pc = .checkSignals ∧ next.pc = .turn
    · exact .inr (interrupted_of_checkSignals step signals.1 signals.2)
    · refine .inl (countP_eq_zero.mpr ?_)
      intro item mem selected
      have isStop : item.kind = .stop := of_decide_eq_true selected
      rcases kinds item mem with isTimer | now
      · cases isTimer.symm.trans isStop
      · exact signals now

/-- With no `Stop` item outstanding none begins to execute. -/
theorem Conserving.noStops_loopStep (inv : Conserving s)
    (after : Conserving next)
    (noRequest : action.requestsStop = false)
    (moved : loopStep s action = some next)
    (calm : ¬ next.Interrupted)
    (none : s.outstanding.countP ReadyItem.isStop = 0) :
    next.outstanding.countP ReadyItem.isStop = 0 ∧ ∀ item, next.pc.item = some item →
        s.pc.item = some item ∨ item.kind ≠ .stop := by
  obtain ⟨fresh, dropped, moves, noFresh⟩ := freshStops_loopStep noRequest moved
  have noneFresh := noFresh.resolve_right calm
  have onLoop : ∀ item : ReadyItem, item.kind.runsOnDispatcher → item.isStop = false := by
    intro item served
    refine decide_eq_false fun isStop => ?_
    rw [isStop] at served
    cases served
  have total := moves.countP ReadyItem.isStop onLoop
  have before := inv.countP_outstanding ReadyItem.isStop
  have behind := after.countP_outstanding ReadyItem.isStop
  cases itemStep_loopStep moved with
  | begins item _ executing popped =>
    rw [popped, countP_append, countP_singleton] at behind
    have other : ¬ item.isStop := by
      intro isStop
      rw [if_pos isStop] at behind
      omega
    refine ⟨by omega, fun item' executing' => .inr ?_⟩
    rw [executing, Option.some.injEq] at executing'
    subst executing'
    exact of_decide_eq_false (eq_false_of_ne_true other)
  | ends _ _ idle popped =>
    rw [popped] at behind
    refine ⟨by omega, fun item' executing' => ?_⟩
    rw [idle] at executing'
    cases executing'
  | stays same popped =>
    rw [popped] at behind
    exact ⟨by omega, fun item' executing' => .inl (same ▸ executing')⟩

/-! ## Runs that settle their stops -/

/-- No stop is under way outside the turns. -/
structure Settled (s : LoopState) : Prop where
  inv : Conserving s
  noStop : s.pc.phase ≠ .starting → s.pc.phase ≠ .turns → s.NoStop

theorem settled_new (threads : Nat) : Settled (.new threads) where
  inv := conserving_new threads
  noStop := by
    intro _ _
    refine ⟨rfl, ?_⟩
    unfold LoopState.outstanding
    rw [inHand_new]
    rfl

theorem noStop_loopStep (inv : Conserving s) (after : Conserving next)
    (orderly : EndsOrderly s action) (noRequest : action.requestsStop = false)
    (moved : loopStep s action = some next) (calm : ¬ next.Interrupted)
    (noStop : s.NoStop) : next.NoStop := by
  refine ⟨?_, (inv.noStops_loopStep after noRequest moved calm noStop.2).1⟩
  cases quietStep_loopStep orderly noRequest moved with
  | within phase requested | enters before phase requested
  | installs before phase requested | returns result before phase requested =>
    exact requested.trans noStop.1
  | stops _ _ _ _ _ requested => exact requested
  | signals _ interrupted => exact absurd interrupted calm
  | leaves _ _ _ _ _ requested => exact requested.trans noStop.1

theorem position_of_requestsStop (request : action.requestsStop)
    (moved : loopStep s action = some next) : next.pc = s.pc := by
  cases loopStep_cases moved with
  | calls | enqueues => rfl
  | _ => cases request

theorem settled_loopStep (settled : Settled s) (settles : SettlesStops s action)
    (moved : loopStep s action = some next) : Settled next := by
  obtain ⟨orderly, requests, leaving⟩ := settles
  have after := conserving_loopStep settled.inv orderly.1 moved
  refine ⟨after, fun notStarting notTurns => ?_⟩
  cases request : action.requestsStop with
  | true =>
    -- a request leaves the run where it is
    rw [position_of_requestsStop request moved] at notStarting notTurns
    rcases requests request with starting | turns
    · exact absurd starting notStarting
    · exact absurd turns notTurns
  | false =>
    have keeps (noStop : s.NoStop) : next.NoStop := by
      refine noStop_loopStep settled.inv after orderly request moved ?_ noStop
      exact fun interrupted => notTurns interrupted.1
    cases quietStep_loopStep orderly request moved with
    | within phase =>
      rw [phase] at notStarting notTurns
      exact keeps (settled.noStop notStarting notTurns)
    | enters _ phase => exact absurd phase notStarting
    | installs before phase | stops item executing isStop before phase =>
      exact absurd phase notTurns
    | signals _ interrupted => exact absurd interrupted.1 notTurns
    | leaves _ _ leaves => exact keeps (leaving leaves)
    | returns _ before =>
      exact keeps (settled.noStop (by simp [before]) (by simp [before]))

/-! ## Runs without a request -/

/-- Before a signal no stop is under way or being executed, and a run does not
end as a stopped one does. -/
structure Unstopped (before s : LoopState) : Prop where
  inv : Conserving s
  noStop : ¬ s.Interrupted → s.NoStop
  executes : ¬ s.Interrupted → ∀ item, s.pc.item = some item → item.kind ≠ .stop
  stopping : ¬ s.Interrupted →
    s.pc.phase = .starting ∨ s.pc.phase = .turns →
    s.stopping = false
  ending : s.pc.phase ≠ .ending .ok
  results : ∃ added, s.results = before.results ++ added ∧ some RunResult.ok ∉ added

theorem Unstopped.runsUnstopped {before : LoopState}
    (unstopped : Unstopped before s) : RunsUnstopped before s where
  requested := fun elsewhere =>
    (unstopped.noStop fun interrupted => elsewhere interrupted.1).1
  results := unstopped.results

theorem Settled.unstopped (settled : Settled s)
    (outside : s.pc = .outside) : Unstopped s s := by
  have phase : s.pc.phase = .outside := by
    rw [outside]
    rfl
  exact
    { inv := settled.inv
      noStop := fun _ => settled.noStop (by simp [phase]) (by simp [phase])
      executes := by
        intro _ item executing
        rw [outside] at executing
        cases executing
      stopping := fun _ => by simp [phase]
      ending := by simp [phase]
      results := ⟨[], (append_nil _).symm, not_mem_nil⟩ }

theorem phase_of_item {pos : Position} {item : ReadyItem}
    (executing : pos.item = some item) : pos.phase = .turns := by
  cases pos with
  | executing => rfl
  | _ => cases executing

theorem unstopped_loopStep {before : LoopState}
    (unstopped : Unstopped before s) (settles : SettlesStops s action)
    (noRequest : action.requestsStop = false)
    (moved : loopStep s action = some next) : Unstopped before next := by
  obtain ⟨orderly, _, leaving⟩ := settles
  have after := conserving_loopStep unstopped.inv orderly.1 moved
  -- every step but that of a signal and the one that leaves the turns
  have keeps (calm : ¬ next.Interrupted → ¬ s.Interrupted) (stopping : ¬ next.Interrupted →
        next.pc.phase = .starting ∨ next.pc.phase = .turns →
        next.stopping = false)
      (ending : next.pc.phase ≠ .ending .ok)
      (results : ∃ added, next.results = before.results ++ added ∧
        some RunResult.ok ∉ added) : Unstopped before next :=
    { inv := after
      noStop := fun calmNext =>
        noStop_loopStep unstopped.inv after orderly noRequest moved calmNext
          (unstopped.noStop (calm calmNext))
      executes := by
        intro calmNext item executing
        rcases (unstopped.inv.noStops_loopStep after noRequest moved calmNext
          (unstopped.noStop (calm calmNext)).2).2 item executing with same | other
        · exact unstopped.executes (calm calmNext) item same
        · exact other
      stopping := stopping
      ending := ending
      results := results }
  cases quietStep_loopStep orderly noRequest moved with
  | within phase _ stopping signal results =>
    have calm : ¬ next.Interrupted → ¬ s.Interrupted := by
      intro calmNext interrupted
      exact calmNext ⟨phase.trans interrupted.1, signal.trans interrupted.2⟩
    refine keeps calm ?_ (phase ▸ unstopped.ending) (results ▸ unstopped.results)
    intro calmNext active
    rw [phase] at active
    have before := unstopped.stopping (calm calmNext) active
    cases now : next.stopping with
    | false => rfl
    | true => exact (stopping now).symm.trans before
  | enters outside phase _ stopping results =>
    refine keeps ?_ (fun _ _ => stopping) (by simp [phase]) (results ▸ unstopped.results)
    intro _ interrupted
    cases outside.symm.trans interrupted.1
  | installs starting phase _ stopping results =>
    have calm : ¬ s.Interrupted := by
      intro interrupted
      cases starting.symm.trans interrupted.1
    refine keeps (fun _ => calm) ?_ (by simp [phase]) (results ▸ unstopped.results)
    intro _ _
    exact stopping.trans (unstopped.stopping calm (.inl starting))
  | stops item executing isStop _ phase _ signal results =>
    have calm : ¬ next.Interrupted → ¬ s.Interrupted := by
      intro calmNext interrupted
      exact calmNext ⟨phase, signal.trans interrupted.2⟩
    refine keeps calm ?_ (by simp [phase]) (results ▸ unstopped.results)
    intro calmNext _
    exact absurd isStop (unstopped.executes (calm calmNext) item executing)
  | signals _ interrupted results =>
    exact keeps (absurd interrupted ·) (absurd interrupted ·) (by simp [interrupted.1])
      (results ▸ unstopped.results)
  | leaves _ turns leaves phase stopped _ results =>
    have calmNext : ¬ next.Interrupted := by
      intro interrupted
      cases phase.symm.trans interrupted.1
    refine
      { inv := after
        noStop := fun _ => noStop_loopStep unstopped.inv after orderly noRequest
          moved calmNext (leaving leaves)
        executes := ?_
        stopping := fun _ => by simp [phase]
        ending := ?_
        results := results ▸ unstopped.results }
    · intro _ item executing
      cases phase.symm.trans (phase_of_item executing)
    · intro isOk
      cases phase.symm.trans isOk
      -- a run that a signal has not reached is not stopping here
      obtain ⟨stopping, noSignal⟩ := stopped rfl
      have calm : ¬ s.Interrupted := by
        intro interrupted
        cases noSignal.symm.trans interrupted.2
      cases stopping.symm.trans (unstopped.stopping calm (.inr turns))
  | returns result ends phase _ results =>
    obtain ⟨added, earlier, noOk⟩ := unstopped.results
    refine keeps ?_ (fun _ => by simp [phase]) (by simp [phase]) ⟨added ++ [some result], ?_, ?_⟩
    · intro _ interrupted
      cases ends.symm.trans interrupted.1
    · rw [results, earlier, append_assoc]
    · intro mem
      rcases mem_append.mp mem with old | new
      · exact noOk old
      · cases mem_singleton.mp new
        exact unstopped.ending ends

/-- In runs that all settle their stops, no stop that was requested before
outlives its run: runs without a request are not ended by one. -/
theorem runsUnstopped_of_settlesStops (threads : Nat)
    {first second : List LoopAction} {before s : LoopState}
    (settles : Guarded loopStep SettlesStops (.new threads) first)
    (reached : run loopStep (.new threads) first = some before)
    (outside : before.pc = .outside)
    (settlesLater : Guarded loopStep SettlesStops before second)
    (noRequest : ∀ action ∈ second, action.requestsStop = false)
    (later : run loopStep before second = some s) : RunsUnstopped before s := by
  have settled : Settled before :=
    invariant_of_run Settled
      (fun _ _ _ settled settles moved => settled_loopStep settled settles moved)
      (settled_new threads) settles reached
  have noRequests : Guarded loopStep
      (fun _ action => action.requestsStop = false) before second :=
    guarded_of_forall fun action member _ => noRequest action member
  have unstopped : Unstopped before s :=
    invariant_of_run (Unstopped before) (fun _ _ _ unstopped guard moved =>
        unstopped_loopStep unstopped guard.1 guard.2 moved)
      (settled.unstopped outside) (settlesLater.and noRequests) later
  exact unstopped.runsUnstopped

def timerTurn : List LoopAction :=
  List.flatten [[.runForever], List.replicate 4 (.loop .proceed),
      [.loop (.timersDue 1)], List.replicate 2 (.loop .proceed)]

def returnSteps : List LoopAction :=
  List.flatten [List.replicate 5 (.loop .proceed), List.replicate 7 .dispatcher, [.loop .proceed]]

/-- A timer's callback calls `stop`, and the run ends with its item. -/
def stoppedRun : List LoopAction :=
  List.flatten [timerTurn, [.enqueue .stop, .loop (.executed .returned)],
      List.replicate 2 (.loop .proceed),
      [.loop (.executed .returned), .loop .proceed], returnSteps]

/-- A timer's callback raises a `BaseException`. -/
def raisingRun : List LoopAction :=
  List.flatten [timerTurn, [.loop (.executed .raisedBaseException)], returnSteps]

theorem runsUnstopped_of_stoppedRun : ∃ before s,
      run loopStep (.new 1) stoppedRun = some before ∧ before.results = [some .ok] ∧
        run loopStep before raisingRun = some s ∧
        s.results = [some .ok, some .callbackError] ∧
        RunsUnstopped before s := by
  obtain ⟨before, s, reached, later, outside, settles, stopped, raised⟩ :=
    exists_runs_of_any loopStep (.new 1) stoppedRun raisingRun (fun before s =>
        before.pc = .outside ∧ Guarded loopStep SettlesStops before raisingRun ∧
          before.results = [some .ok] ∧
          s.results = [some .ok, some .callbackError])
      (by decide)
  exact ⟨before, s, reached, stopped, later, raised,
    runsUnstopped_of_settlesStops 1 (by decide) reached outside settles (by decide) later⟩

/-! ## A stop that outlives its run -/

/-- A timer's callback calls `stop` and raises a `BaseException`. -/
def stopThenRaise : List LoopAction :=
  List.flatten [timerTurn, [.enqueue .stop, .loop (.executed .raisedBaseException)], returnSteps]

/-- A run in which nothing but the item that is left is executed. -/
def leftoverRun : List LoopAction :=
  List.flatten [[.runForever], List.replicate 4 (.loop .proceed),
      List.replicate 5 .dispatcher, [.loop (.timersDue 0)],
      List.replicate 3 (.loop .proceed), [.loop (.executed .returned)],
      List.replicate 6 (.loop .proceed), List.replicate 4 .dispatcher,
      [.loop .proceed]]

/-- The run that raises leaves its stop behind, and the run after it, in which
nothing requests a stop, returns as a stopped one. -/
theorem stop_outlives_raisingRun : ∃ before s,
      Guarded loopStep StopsInRuns (.new 1) stopThenRaise ∧
        run loopStep (.new 1) stopThenRaise = some before ∧
        before.pc = .outside ∧
        before.stopRequested ∧
        Guarded loopStep StopsInRuns before leftoverRun ∧
        (∀ action ∈ leftoverRun, action.requestsStop = false) ∧
        run loopStep before leftoverRun = some s ∧
        before.results = [some .callbackError] ∧
        s.results = [some .callbackError, some .ok] ∧
        ¬ RunsUnstopped before s := by
  obtain ⟨before, s, reached, later, outside, requested, guarded, raised, stopped⟩ :=
    exists_runs_of_any loopStep (.new 1) stopThenRaise leftoverRun (fun before s =>
        before.pc = .outside ∧ before.stopRequested ∧
          Guarded loopStep StopsInRuns before leftoverRun ∧
          before.results = [some .callbackError] ∧
          s.results = [some .callbackError, some .ok])
      (by decide)
  refine ⟨before, s, by decide, reached, outside, requested, guarded,
    by decide, later, raised, stopped, ?_⟩
  rintro ⟨_, added, results, noOk⟩
  rw [stopped, raised] at results
  have same : [some RunResult.ok] = added := tail_eq_of_cons_eq results
  rw [← same] at noOk
  exact noOk mem_cons_self

end Rsloop.Engine
