import Rsloop.Engine.LoopQueues

/-!
# Nothing overtakes

For a selection of the items, the list of all that is held grows only at its
end, unless items of the selection stand in two places between which the loop
or a producer can choose the later one first. The conditions under which this
does not happen are collected in `KeepsOrder`.
-/

namespace Rsloop.Engine

open Transition List

variable {p : ReadyItem → Bool} {s next : LoopState} {last : Nat}

/-- The two places in which the loop thread merges its queues. -/
def Position.merges : Position → Bool
  | .mergeGeneration _ | .handBack _ => true
  | _ => false

/-- Selected items do not overtake each other when the action is taken. -/
structure KeepsOrder (p : ReadyItem → Bool) (s : LoopState) (action : LoopAction) : Prop where
  /-- A direct push passes what the dispatcher has still to forward. -/
  direct : ∀ (tid : Nat) (item : ReadyItem) (run : Nat),
    s.producers[tid]? = some (.tryActive item) →
      s.activeReadyDispatch = some ⟨run, true⟩ → p item →
        s.queues.dispatcherBatch.filter p = [] ∧ s.queues.onChannel.filter p = [] ∧
          s.queues.localReady.filter p = []
  remote : ∀ (tid : Nat) (item : ReadyItem),
    s.producers[tid]? = some (.send item) → p item →
      s.queues.localReady.filter p = []
  /-- A generation from the local queue alone passes all other queues. -/
  swap : ∀ reply processed, action = .loop reply → s.pc = .generation processed →
      processed = 0 ∨ s.stopRequested →
      s.queues.readyBatch = [] → s.readyPending = false →
        s.queues.localReady.filter p = [] ∨ s.queues.waiting.filter p = []
  /-- A merge passes what the dispatcher has still to forward. -/
  merge : ∀ reply, action = .loop reply → s.pc.merges →
    s.queues.localReady.filter p = [] ∨ ((s.queues.merged s.currentRun).filter p =
          (s.queues.pending s.currentRun).items.filter p ++
            s.queues.localReady.filter p ∧
        (s.queues.notForwarded s.currentRun).filter p = [])

/-- Items have entered the queues behind all that was held. -/
structure Grows (p : ReadyItem → Bool) (s next : LoopState)
    (entered : List ReadyItem) : Prop where
  enqueued : next.queues.enqueued = s.queues.enqueued ++ entered
  held : next.queues.held.filter p = s.queues.held.filter p ++ entered.filter p ∨
    next.hasLeftEarly ∧ (next.queues.held.filter p).Sublist (s.queues.held.filter p) ∧
      entered = []
  /-- Only the loop thread uses the local queue. -/
  own : ∀ item ∈ next.queues.localReady,
    item ∈ s.queues.localReady ∨ item ∈ entered ∧ item.thread = 0

theorem Grows.still (enqueued : next.queues.enqueued = s.queues.enqueued)
    (held : next.queues.held.filter p = s.queues.held.filter p)
    (own : next.queues.localReady ⊆ s.queues.localReady) : Grows p s next [] where
  enqueued := by rw [enqueued, append_nil]
  held := .inl (by rw [held, filter_nil, append_nil])
  own := fun _ mem => .inl (own mem)

theorem Grows.same (q : next.queues = s.queues) : Grows p s next [] :=
  .still (by rw [q]) (by rw [q]) (by rw [q]; exact List.Subset.refl _)

theorem unchanged {items : List ReadyItem} : items ⊆ items :=
  List.Subset.refl _

section

variable (inv : RunsInOrder s last) (kept : QueuesKept s)

include inv kept

theorem RunsInOrder.olderThan_of_active {run : Nat}
    (active : s.activeRun = some run)
    (received : 2 * run ≤ s.receivedRuns) : s.queues.olderThan run = [] := by
  refine kept.olderThan_eq_nil received fun older isOlder pos => ?_
  have served := inv.served
  rw [pos] at served
  have same := served.1.symm.trans active
  cases same
  omega

theorem grows_producerStep {tid : Nat} (keeps : KeepsOrder p s (.producer tid))
    (step : ProducerStep s tid next) : ∃ entered, Grows p s next entered := by
  cases step with
  | @pushes item run found isActive =>
    have received := (inv.accepting run isActive).1
    refine ⟨[item], rfl, .inl ?_, fun _ mem => .inl mem⟩
    refine s.queues.filter_held_pushActive (inv.run_of_accepting isActive) fun selected => ?_
    obtain ⟨batch, chan, own⟩ := keeps.direct tid item run found isActive selected
    have older : s.queues.olderThan run = [] :=
      kept.olderThan_eq_nil (by omega) fun _ _ =>
        inv.not_finishing_of_accepting isActive _
    exact ⟨by rw [older]; rfl, batch, chan, own⟩
  | sends found =>
    exact ⟨_, rfl, .inl (s.queues.filter_held_send
      (keeps.remote tid _ found)), fun _ mem => .inl mem⟩
  | _ => exact ⟨[], .same rfl⟩

theorem grows_dispatcherStep (step : DispatcherStep s next) : Grows p s next [] := by
  have served := inv.served
  have received : s.queues.receive.held.filter p = s.queues.held.filter p :=
    congrArg (List.filter p) s.queues.held_receive
  cases step with
  | receives | finishes => exact .still rfl received unchanged
  | enters pos chan replaces =>
    cases replaces with
    | none => exact .still rfl received unchanged
    | some active =>
      -- the run that is replaced has not been finished
      rw [pos, active] at served
      have odd : s.receivedRuns = 2 * _ + 1 := served
      refine ⟨(append_nil _).symm, .inr ⟨?_, ?_, rfl⟩, fun _ mem => .inl mem⟩
      · rcases inv.received_enterRun chan with consecutive | ⟨early, _⟩
        · omega
        · exact early
      · rw [← received]
        exact (s.queues.receive.held_discard_sublist).filter p
  | @forwards localMark run after pos active =>
    obtain ⟨_, isActive, number⟩ := inv.active_of_forward pos
    cases active.symm.trans isActive
    have oldest := inv.olderThan_of_active kept active (by omega)
    exact .still rfl (by rw [s.queues.held_forward
      (inv.run_of_active (by omega)) oldest localMark]) unchanged
  | takesBack pos isActive =>
    rw [pos] at served
    cases served.1.symm.trans isActive
    have number := served.2
    have oldest := inv.olderThan_of_active kept isActive (by omega)
    exact .still rfl (by rw [s.queues.held_takeBack
      (inv.run_of_active (by omega)) oldest]) unchanged
  | _ => exact .same rfl

end

theorem Queues.collect_entered (q : Queues) (count : Nat) :
    ∃ timers : List ReadyItem,
      (∀ item ∈ timers, item.thread = 0 ∧ item.kind = .timer ∧
        q.scheduled.length ≤ item.stamp) ∧
      (q.collect count).enqueued = q.enqueued ++ timers ∧
      (q.collect count).scheduled = q.scheduled ++ timers ∧
      (q.collect count).localReady = q.localReady ++ timers ∧
      (q.collect count).held = q.held ++ timers := by
  induction count generalizing q with
  | zero =>
    exact ⟨[], nofun, (append_nil _).symm,
      (append_nil _).symm, (append_nil _).symm,
      (append_nil _).symm⟩
  | succ count ih =>
    obtain ⟨timers, areTimers, enqueued, scheduled, own, held⟩ :=
      ih (q.enqueueLocal (q.nextItem .timer 0))
    refine ⟨q.nextItem .timer 0 :: timers, ?_, ?_, ?_, ?_, ?_⟩
    · intro item mem
      rcases mem_cons.mp mem with first | later
      · rw [first]
        exact ⟨rfl, rfl, Nat.le_refl _⟩
      · obtain ⟨isOwn, isTimer, stamped⟩ := areTimers item later
        refine ⟨isOwn, isTimer, Nat.le_trans ?_ stamped⟩
        simp [Queues.enqueueLocal]
    · rw [Queues.collect, enqueued]
      simp [Queues.enqueueLocal]
    · rw [Queues.collect, scheduled]
      simp [Queues.enqueueLocal]
    · rw [Queues.collect, own]
      simp [Queues.enqueueLocal]
    · rw [Queues.collect, held, q.held_enqueueLocal]
      simp

theorem grows_enqueueLocal {item : ReadyItem} (isOwn : item.thread = 0)
    (q : next.queues = s.queues.enqueueLocal item) : Grows p s next [item] where
  enqueued := by
    rw [q]
    rfl
  held := .inl (by rw [q, Queues.held_enqueueLocal, filter_append])
  own := by
    intro other mem
    rw [q] at mem
    rcases mem_append.mp mem with old | new
    · exact .inl old
    · exact .inr ⟨new, by rw [mem_singleton.mp new]; exact isOwn⟩

theorem KeepsOrder.merged {reply : LoopReply}
    (keeps : KeepsOrder p s (.loop reply))
    (valid : (s.queues.pending s.currentRun).Valid)
    (merges : s.pc.merges) :
    (s.queues.merged s.currentRun).filter p =
        (s.queues.pending s.currentRun).items.filter p ++ s.queues.localReady.filter p ∧
      (s.queues.localReady.filter p = [] ∨
        (s.queues.notForwarded s.currentRun).filter p = []) := by
  rcases keeps.merge reply rfl merges with own | ⟨ordered, forwarded⟩
  · exact ⟨s.queues.filter_merged_of_localReady valid own, .inl own⟩
  · exact ⟨ordered, .inr forwarded⟩

theorem merged_subset {localTaken : Nat} {localReady items : List ReadyItem}
    {pending : PendingReady ReadyItem} :
    (mergeReadyGeneration localTaken localReady pending).localReady ⊆ items := by
  rw [localReady_mergeReadyGeneration]
  exact nil_subset _

theorem grows_runStep (inv : RunsInOrder s last) (kept : QueuesKept s)
    {reply : LoopReply} (keeps : KeepsOrder p s (.loop reply))
    (step : RunStep s reply next) : ∃ entered, Grows p s next entered := by
  cases step with
  | announces | finishes =>
    exact ⟨[], .still rfl (by rw [s.queues.held_sendRun rfl]) unchanged⟩
  | installs pos =>
    have released := kept.released (by rw [pos]; rfl)
    exact ⟨[], .still rfl (by rw [s.queues.held_install released.2]) (nil_subset _)⟩
  | @collects count pos =>
    obtain ⟨timers, areTimers, enqueued, _, own, held⟩ := s.queues.collect_entered count
    refine ⟨timers, enqueued, .inl (by rw [held, filter_append]), ?_⟩
    intro item mem
    rw [own] at mem
    rcases mem_append.mp mem with old | new
    · exact .inl old
    · exact .inr ⟨new, (areTimers item new).1⟩
  | pops => exact ⟨[], .still rfl (by rw [s.queues.held_pop]) unchanged⟩
  | swaps pos batch quiet starts =>
    exact ⟨[], .still rfl (by rw [s.queues.filter_held_swap batch
      (keeps.swap _ _ rfl pos starts batch quiet)]) (nil_subset _)⟩
  | merges pos =>
    have valid := kept.valid (by rw [pos]; rfl)
    obtain ⟨ordered, alone⟩ := keeps.merged valid (by rw [pos]; rfl)
    exact ⟨[], .still rfl (by rw [s.queues.filter_held_merge
      (inv.newest (by rw [pos]; rfl)) valid (kept.merging _ pos)
      ordered alone]) merged_subset⟩
  | signals => exact ⟨_, grows_enqueueLocal rfl rfl⟩
  | leaves pos =>
    have valid := kept.valid (by rw [pos]; rfl)
    obtain ⟨ordered, alone⟩ := keeps.merged valid (by rw [pos]; rfl)
    exact ⟨[], .still rfl (by rw [s.queues.filter_held_leave
      (inv.newest (by rw [pos]; rfl)) ordered alone]) merged_subset⟩
  | abandons =>
    exact ⟨[], (append_nil _).symm, .inr ⟨mem_append_right _ mem_cons_self,
        s.queues.held_abandon_sublist.filter p, rfl⟩,
      nofun⟩
  | _ => exact ⟨[], .same rfl⟩

/-- What is held grows at its end only, as long as nothing has left the loop
early. -/
theorem grows_loopStep (inv : RunsInOrder s last) (kept : QueuesKept s)
    {action : LoopAction} (keeps : KeepsOrder p s action)
    (moved : loopStep s action = some next) :
    ∃ entered, Grows p s next entered := by
  cases loopStep_cases moved with
  | calls => exact ⟨[], .still rfl rfl unchanged⟩
  | produces step => exact grows_producerStep inv kept keeps step
  | dispatches step => exact ⟨[], grows_dispatcherStep inv kept step⟩
  | enqueues => exact ⟨_, grows_enqueueLocal rfl rfl⟩
  | refuses => exact ⟨[], .same rfl⟩
  | begins =>
    exact ⟨[], .still rfl (congrArg (List.filter p) s.queues.held_openRun) unchanged⟩
  | runs step => exact grows_runStep inv kept keeps step

theorem hasLeftEarly_loopStep {action : LoopAction}
    (moved : loopStep s action = some next) (early : s.hasLeftEarly) :
    next.hasLeftEarly := by
  cases loopStep_cases moved with
  | produces step | dispatches step => cases step <;> exact early
  | runs step => exact step.frame.results.subset early
  | _ => exact early

end Rsloop.Engine
