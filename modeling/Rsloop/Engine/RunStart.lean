import Rsloop.Engine.ThreadsafeOrder

/-!
# The start of a run

What the loop's own thread schedules before a run travels over the command
channel, what its callbacks schedule within the run goes straight to the local
queue. The two meet again when the dispatcher has handled the `EnterRun` of the
run. The mark of that command puts the earlier work in front, but nothing makes
the loop wait for it.
-/

namespace Rsloop.Engine

open Transition List LoopState

variable {s next : LoopState} {last : Nat}

/-! ## Local enqueues and marks -/

/-- The local enqueues that every merge of the run is going to find taken. -/
def LoopState.localBound (s : LoopState) : Nat :=
  if s.pc.isInside then s.queues.localTaken else s.queues.localEnqueues

/-- The handles of the loop's own thread while it is in a run, up to the point
at which it has handed its queues back. -/
structure StartOrder (s : LoopState) : Prop where
  /-- The thread sends nothing behind the announcement of its run. -/
  behind : ∀ before mark after, s.queues.channel =
        before ++ Command.enterRun s.currentRun mark :: after →
      (after.flatMap Command.readyItem).filter (handleOf 0) = []
  announced : ∀ mark, Command.enterRun s.currentRun mark ∈ s.queues.channel →
      mark ≤ s.localBound
  forwarding : ∀ mark, s.dispatcher = .forward mark (.activate s.currentRun) →
      mark ≤ s.localBound
  received : s.receivedRuns = 2 * s.currentRun + 1 →
    s.queues.onChannel.filter (handleOf 0) = [] ∧ (s.dispatcher.entering = false →
        s.queues.dispatcherBatch.filter (handleOf 0) = [])
  unused : s.receivedRuns < 2 * s.currentRun + 1 ∨ s.dispatcher.entering →
    s.queues.pending s.currentRun = .empty
  leads : (s.queues.pending s.currentRun).LeadsWith (handleOf 0) s.localBound

variable {caller : Nat} {producer : Producer}

theorem Follows.mem_le {early : Prop} {first : Nat} {numbers : List Nat}
    (follows : Follows early first numbers last) {number : Nat}
    (mem : number ∈ numbers) : number ≤ last := by
  induction numbers generalizing first with
  | nil => cases mem
  | cons _ _ ih =>
    rcases mem_cons.mp mem with isHead | isLater
    · rw [isHead]
      exact follows.2.le
    · exact ih follows.2 isLater

theorem RunsInOrder.not_announced (inv : RunsInOrder s last) {run : Nat}
    (later : last < 2 * run + 1) (mark : Nat) :
    Command.enterRun run mark ∉ s.queues.channel := by
  intro mem
  have number : 2 * run + 1 ∈ s.queues.runNumbers :=
    mem_flatMap.mpr ⟨_, mem, mem_cons_self⟩
  have bounded := inv.commands.mem_le number
  omega

theorem RunsInOrder.last_le (inv : RunsInOrder s last)
    (mayMerge : s.pc.mayMerge) :
    last ≤ 2 * s.currentRun + 1 ∧ s.currentRun + 1 = s.queues.pendings.length := by
  have bounded := inv.sent.le.2 mayMerge
  unfold currentRun
  omega

theorem handleOf_zero_eq_false (counted : HandlesCounted s) {item : ReadyItem}
    (pos : s.producers[caller]? = some producer)
    (held : item ∈ producer.item) (inRun : s.pc ≠ .outside) :
    handleOf 0 item = false := by
  have own := (counted.own caller producer pos).item held
  apply handleOf_eq_false
  rw [own]
  rintro rfl
  have idle := counted.idle inRun
  cases pos.symm.trans idle
  cases held

theorem Position.ne_outside_of_mayMerge {pos : Position}
    (mayMerge : pos.mayMerge) : pos ≠ .outside := by
  rintro rfl
  cases mayMerge

/-! ## The other parties -/

/-- A step that leaves alone whatever concerns the handles of the loop's own
thread. -/
theorem StartOrder.same (inv : StartOrder s)
    (chan : next.queues.channel = s.queues.channel)
    (batch : next.queues.dispatcherBatch = s.queues.dispatcherBatch)
    (pendings : next.queues.pendings = s.queues.pendings)
    (dispatcher : next.dispatcher = s.dispatcher)
    (received : next.receivedRuns = s.receivedRuns)
    (bound : s.localBound ≤ next.localBound) : StartOrder next := by
  have current : next.currentRun = s.currentRun := by
    unfold currentRun
    rw [pendings]
  have pending : next.queues.pending s.currentRun =
      s.queues.pending s.currentRun := by
    unfold Queues.pending
    rw [pendings]
  refine ⟨?_, ?_, ?_, ?_, ?_, ?_⟩
  · rw [current, chan]
    exact inv.behind
  · rw [current, chan]
    exact fun mark mem => Nat.le_trans (inv.announced mark mem) bound
  · rw [current, dispatcher]
    exact fun mark isForward => Nat.le_trans (inv.forwarding mark isForward) bound
  · unfold Queues.onChannel
    rw [current, chan, batch, dispatcher, received]
    exact inv.received
  · rw [current, pending, dispatcher, received]
    exact inv.unused
  · rw [current, pending]
    exact inv.leads.mono bound

theorem StartOrder.setPending (inv : StartOrder s)
    {run : Nat} {changed : PendingReady ReadyItem}
    (inRange : run < s.queues.pendings.length)
    (chan : next.queues.channel = s.queues.channel)
    (pendings : next.queues.pendings = s.queues.pendings.set run changed)
    (received : next.receivedRuns = s.receivedRuns)
    (bound : next.localBound = s.localBound)
    (forwarding : ∀ mark, next.dispatcher = .forward mark (.activate s.currentRun) →
        s.dispatcher = .forward mark (.activate s.currentRun))
    (entering : next.dispatcher.entering → s.dispatcher.entering)
    (batch : s.receivedRuns = 2 * s.currentRun + 1 → next.dispatcher.entering = false →
        next.queues.dispatcherBatch.filter (handleOf 0) = [])
    (current : run = s.currentRun → 2 * s.currentRun + 1 ≤ s.receivedRuns ∧
        next.dispatcher.entering = false ∧
        changed.LeadsWith (handleOf 0) s.localBound) :
    StartOrder next := by
  have sameRun : next.currentRun = s.currentRun := by
    unfold currentRun
    rw [pendings, length_set]
  have pending : next.queues.pending s.currentRun =
      (s.queues.setPending run changed).pending s.currentRun := by
    unfold Queues.pending Queues.setPending
    rw [pendings]
  refine ⟨?_, ?_, ?_, ?_, ?_, ?_⟩
  · rw [sameRun, chan]
    exact inv.behind
  · rw [sameRun, chan, bound]
    exact inv.announced
  · rw [sameRun, bound]
    exact fun mark isForward => inv.forwarding mark (forwarding mark isForward)
  · unfold Queues.onChannel
    rw [sameRun, chan, received]
    exact fun isReceived =>
      ⟨(inv.received isReceived).1, batch isReceived⟩
  · rw [sameRun, pending, received]
    intro early
    by_cases same : run = s.currentRun
    · obtain ⟨isReceived, entered, _⟩ := current same
      rw [entered] at early
      rcases early with before | isEntering
      · omega
      · cases isEntering
    · rw [s.queues.pending_setPending_of_ne same]
      exact inv.unused (early.imp_right entering)
  · rw [sameRun, pending, bound]
    by_cases same : run = s.currentRun
    · obtain ⟨_, _, leads⟩ := current same
      subst same
      rwa [s.queues.pending_setPending_self inRange]
    · rw [s.queues.pending_setPending_of_ne same]
      exact inv.leads

/-- A command arrives behind all others on the channel. -/
theorem StartOrder.behind_concat {chan : List Command} {run : Nat}
    {cmd : Command}
    (behind : ∀ before mark after, chan = before ++ Command.enterRun run mark :: after →
        (after.flatMap Command.readyItem).filter (handleOf 0) = [])
    (others : cmd.readyItem.filter (handleOf 0) = [])
    {before after : List Command} {mark : Nat}
    (split : chan ++ [cmd] = before ++ Command.enterRun run mark :: after) :
    (after.flatMap Command.readyItem).filter (handleOf 0) = [] := by
  rcases eq_nil_or_concat after with none | ⟨earlier, final, isAfter⟩
  · rw [none]
    rfl
  · rw [concat_eq_append] at isAfter
    rw [isAfter] at split ⊢
    have shape : chan ++ [cmd] =
        (before ++ Command.enterRun run mark :: earlier) ++ [final] := by
      rw [split]
      simp
    obtain ⟨whole, isFinal⟩ := append_inj' shape rfl
    rw [← List.cons.inj isFinal |>.1, flatMap_append, filter_append,
      behind before mark earlier whole]
    simp [others]

theorem startOrder_producerStep (runs : RunsInOrder s last)
    (counted : HandlesCounted s) (inv : StartOrder s)
    (mayMerge : s.pc.mayMerge)
    (step : ProducerStep s caller next) : StartOrder next := by
  have inRun := Position.ne_outside_of_mayMerge mayMerge
  cases step with
  | @pushes _ run found isActive =>
    have other := handleOf_zero_eq_false counted found mem_cons_self inRun
    obtain ⟨received, notEntering⟩ := runs.accepting run isActive
    refine inv.setPending (runs.run_of_accepting isActive) rfl rfl rfl rfl
      (fun _ => id) id (fun isReceived => (inv.received isReceived).2) ?_
    rintro rfl
    exact ⟨by omega, notEntering, inv.leads.push other _⟩
  | @sends item found =>
    have other := handleOf_zero_eq_false counted found mem_cons_self inRun
    have others : (Command.ofItem item).readyItem.filter (handleOf 0) = [] := by
      rw [filter_eq_nil_iff]
      intro sent mem
      rw [mem_singleton.mp ((readyItem_ofItem_sublist item).subset mem), other]
      exact Bool.false_ne_true
    exact
      { inv with
        behind := fun before mark after split =>
          StartOrder.behind_concat inv.behind others split
        announced := by
          intro mark mem
          rcases mem_append.mp mem with old | new
          · exact inv.announced mark old
          · have isItem := mem_singleton.mp new
            unfold Command.ofItem at isItem
            split at isItem <;> cases isItem
        received := by
          intro isReceived
          obtain ⟨onChannel, inBatch⟩ := inv.received isReceived
          refine ⟨?_, inBatch⟩
          rw [s.queues.onChannel_send, filter_append, onChannel, others]
          rfl }
  | _ => exact inv.same rfl rfl rfl rfl rfl (Nat.le_refl _)

theorem StartOrder.receive (inv : StartOrder s) {cmd : Command}
    {rest : List Command}
    (chan : s.queues.channel = cmd :: rest)
    (remaining : next.queues.channel = rest)
    (sameRun : next.currentRun = s.currentRun)
    (bound : next.localBound = s.localBound)
    (forwarding : ∀ mark, next.dispatcher = .forward mark (.activate s.currentRun) →
        mark ≤ s.localBound)
    (received : next.receivedRuns = 2 * s.currentRun + 1 →
      (rest.flatMap Command.readyItem).filter (handleOf 0) = [] ∧
        (next.dispatcher.entering = false → next.queues.dispatcherBatch.filter (handleOf 0) = []))
    (unused : next.receivedRuns < 2 * s.currentRun + 1 ∨ next.dispatcher.entering →
      next.queues.pending s.currentRun = .empty)
    (leads : (next.queues.pending s.currentRun).LeadsWith (handleOf 0) s.localBound) :
    StartOrder next := by
  refine ⟨?_, ?_, ?_, ?_, ?_, ?_⟩
  · rw [sameRun, remaining]
    intro before mark after split
    refine inv.behind (cmd :: before) mark after ?_
    rw [chan, split, cons_append]
  · rw [sameRun, remaining, bound]
    intro mark mem
    refine inv.announced mark ?_
    rw [chan]
    exact mem_cons_of_mem _ mem
  · rwa [sameRun, bound]
  · unfold Queues.onChannel
    rwa [sameRun, remaining]
  · rwa [sameRun]
  · rwa [sameRun, bound]

/-- The dispatcher enters a run: the queue of the current run is still
untouched. -/
theorem StartOrder.enter (runs : RunsInOrder s last)
    (inv : StartOrder s) (mayMerge : s.pc.mayMerge)
    {run localMark : Nat} {rest : List Command} {q : Queues}
    {after : Dispatcher}
    (chan : s.queues.channel = .enterRun run localMark :: rest)
    (replaces : Replaces s q) (opens : Opens s run localMark after) :
    StartOrder
      { s with
        queues := q
        activeRun := some run
        receivedRuns := 2 * run + 1
        dispatcher := after } := by
  obtain ⟨bounded, newest⟩ := runs.last_le mayMerge
  have number := runs.received_enterRun chan
  have known : 2 * run + 1 ≤ last := by
    have waits : 2 * run + 1 ∈ s.queues.runNumbers := by
      rw [Queues.runNumbers_receive chan]
      exact mem_append_left _ mem_cons_self
    exact runs.commands.mem_le waits
  have untouched := inv.unused (.inl (by omega))
  obtain ⟨sameChannel, length, _⟩ := replaces.frame
  obtain ⟨_, batch, own⟩ := replaces.items chan rfl
  have emptied : q.pending s.currentRun = .empty := by
    cases replaces with
    | none => exact untouched
    | @some older =>
      by_cases same : older = s.currentRun
      · rw [same]
        exact s.queues.receive.pending_setPending_self (by
          change s.currentRun < s.queues.pendings.length
          omega) _
      · exact (s.queues.receive.pending_setPending_of_ne same _).trans untouched
  refine inv.receive chan (sameChannel.trans (by simp [Queues.receive, chan]))
    (congrArg (· - 1) length) ?_ ?_ ?_ (fun _ => emptied) ?_
  · cases replaces <;> rfl
  · intro mark isForward
    cases opens with
    | idle => cases isForward
    | behind =>
      cases isForward
      refine inv.announced localMark ?_
      rw [chan]
      exact mem_cons_self
  · intro isReceived
    change 2 * run + 1 = 2 * s.currentRun + 1 at isReceived
    have isCurrent : run = s.currentRun := by omega
    subst isCurrent
    refine ⟨inv.behind [] localMark rest chan, fun entered => ?_⟩
    cases opens with
    | idle nothing =>
      rw [batch, nothing]
      rfl
    | behind => cases entered
  · rw [emptied]
    exact PendingReady.leadsWith_empty

theorem StartOrder.serve (inv : StartOrder s)
    {dispatcher : Dispatcher} {dispatcherHandles channelHandles : Nat}
    {readyPending running stopping : Bool} {finished : List Nat}
    {activeReadyDispatch : Option ActiveReadyDispatch}
    (before : s.dispatcher.entering = false)
    (after : dispatcher.entering = false) :
    StartOrder
      { s with
        dispatcher := dispatcher
        dispatcherHandles := dispatcherHandles
        channelHandles := channelHandles
        readyPending := readyPending
        running := running
        stopping := stopping
        finished := finished
        activeReadyDispatch := activeReadyDispatch } :=
  { inv with
    forwarding := fun mark isForward => by
      change dispatcher = _ at isForward
      rw [isForward] at after
      cases after
    received := fun isReceived =>
      ⟨(inv.received isReceived).1, fun _ => (inv.received isReceived).2 before⟩
    unused := fun early => by
      refine inv.unused (early.imp_right fun entering => ?_)
      rw [after] at entering
      cases entering }

theorem startOrder_dispatcherStep (runs : RunsInOrder s last)
    (inv : StartOrder s) (mayMerge : s.pc.mayMerge)
    (step : DispatcherStep s next) : StartOrder next := by
  have served := runs.served
  cases step with
  | turns pos turn => cases turn <;> exact inv.serve (by rw [pos]; rfl) rfl
  | @receives _ _ _ _ _ chan =>
    refine inv.receive chan (by simp [Queues.receive, chan]) rfl rfl
      inv.forwarding (fun isReceived => ?_) inv.unused inv.leads
    obtain ⟨onChannel, inBatch⟩ := inv.received isReceived
    unfold Queues.onChannel at onChannel
    rw [chan, flatMap_cons, filter_append] at onChannel
    obtain ⟨first, others⟩ := append_eq_nil_iff.mp onChannel
    refine ⟨others, fun entered => ?_⟩
    rw [Queues.dispatcherBatch_receive chan, filter_append, inBatch entered, first]
    rfl
  | enters _ chan replaces opens =>
    exact StartOrder.enter runs inv mayMerge chan replaces opens
  | @finishes run _ _ chan =>
    have number := runs.received_finishRun chan
    refine inv.receive chan (by simp [Queues.receive, chan]) rfl rfl (by simp) ?_ ?_ inv.leads
    · intro isReceived
      change 2 * run + 2 = 2 * s.currentRun + 1 at isReceived
      omega
    · intro early
      refine inv.unused (.inl ?_)
      rcases early with before | entering
      · change 2 * run + 2 < 2 * s.currentRun + 1 at before
        omega
      · cases entering
  | @forwards localMark run after pos active =>
    obtain ⟨_, isActive, received⟩ := runs.active_of_forward pos
    cases active.symm.trans isActive
    refine inv.setPending (runs.run_of_active (by omega)) rfl rfl rfl rfl
      (by simp) (by rintro ⟨⟩) (fun _ _ => rfl) ?_
    rintro rfl
    refine ⟨by omega, rfl, ?_⟩
    cases after with
    | drainCommands =>
      have others := (inv.received received).2 (by rw [pos]; rfl)
      exact inv.leads.extend others localMark
    | activate =>
      -- the first forward to the run carries all earlier handles
      rw [pos] at served
      cases served.1.symm.trans active
      rw [inv.unused (.inr (by rw [pos]; rfl))]
      exact PendingReady.leadsWith_extend_empty _ (inv.forwarding localMark pos)
  | takesBack pos isActive =>
    rw [pos] at served
    obtain ⟨active, received⟩ := served
    obtain ⟨bounded, _⟩ := runs.last_le mayMerge
    have lastBound := runs.received_le
    cases active.symm.trans isActive
    refine inv.setPending (runs.run_of_active (by omega)) rfl rfl rfl rfl
      (by simp) (by rintro ⟨⟩) (fun isReceived => ?_)
      (fun isCurrent => ?_)
    · omega
    · omega
  | releases pos | activates pos | resets pos | acknowledges pos =>
    exact inv.serve (by rw [pos]; rfl) rfl
  | signals pos => exact inv.serve (by rw [pos]; rfl) (AfterForward.entering_position _)

/-! ## The loop thread -/

variable {action : LoopAction}

theorem Queues.localTaken_collect (q : Queues) (count : Nat) :
    (q.collect count).localTaken = q.localTaken := by
  induction count generalizing q with
  | zero => rfl
  | succ _ ih => exact ih _

theorem LoopState.localBound_of_inside (inside : s.pc.isInside) :
    s.localBound = s.queues.localTaken :=
  if_pos inside

theorem LoopState.localBound_of_outside (outside : s.pc.isInside = false) :
    s.localBound = s.queues.localEnqueues := by
  unfold localBound
  rw [outside]
  rfl

theorem StartOrder.inside (inv : StartOrder s) (frame : LoopFrame s next)
    {before after : Position} (pos : s.pc = before)
    (arrives : next.pc = after) (wasInside : before.isInside)
    (isInside : after.isInside) (chan : next.queues.channel = s.queues.channel)
    (batch : next.queues.dispatcherBatch = s.queues.dispatcherBatch)
    (pendings : next.queues.pendings = s.queues.pendings)
    (taken : s.queues.localTaken ≤ next.queues.localTaken) :
    StartOrder next := by
  refine inv.same chan batch pendings frame.dispatcher frame.receivedRuns ?_
  rw [localBound_of_inside (by rw [pos]; exact wasInside),
    localBound_of_inside (by rw [arrives]; exact isInside)]
  exact taken

/-- The announcement is the last command on the channel. -/
theorem StartOrder.announce (runs : RunsInOrder s last)
    (inv : StartOrder s) (frame : LoopFrame s next) (pos : s.pc = .sendEnterRun)
    (outside : next.pc.isInside = false)
    (q : next.queues = s.queues.sendRun
      (.enterRun s.currentRun s.queues.localEnqueues)) :
    StartOrder next := by
  have bound : next.localBound = s.localBound := by
    rw [localBound_of_outside outside,
      localBound_of_outside (by rw [pos]; rfl), q]
    rfl
  have sameRun : next.currentRun = s.currentRun := by
    unfold currentRun
    rw [q]
    rfl
  have chan : next.queues.channel = s.queues.channel ++
      [.enterRun s.currentRun s.queues.localEnqueues] := by
    rw [q]
    rfl
  refine ⟨?_, ?_, ?_, ?_, ?_, ?_⟩
  · rw [sameRun, chan]
    exact fun before mark after split =>
      StartOrder.behind_concat inv.behind rfl split
  · rw [sameRun, chan, bound]
    intro mark mem
    rcases mem_append.mp mem with old | new
    · exact inv.announced mark old
    · cases mem_singleton.mp new
      exact Nat.le_of_eq (localBound_of_outside (by rw [pos]; rfl)).symm
  · rw [sameRun, bound, frame.dispatcher]
    exact inv.forwarding
  · rw [sameRun, frame.receivedRuns]
    intro isReceived
    have sent : last + 2 = 2 * s.queues.pendings.length ∨
        s.hasLeftEarly ∧ last + 3 = 2 * s.queues.pendings.length := by
      have sent := runs.sent
      rwa [pos] at sent
    have bounded := runs.received_le
    unfold currentRun at isReceived
    omega
  · rw [sameRun, frame.receivedRuns, frame.dispatcher, q]
    exact inv.unused
  · rw [sameRun, bound, q]
    exact inv.leads

theorem StartOrder.keep (inv : s.pc.mayMerge → StartOrder s)
    (frame : LoopFrame s next) (q : next.queues = s.queues)
    {before : Position} (pos : s.pc = before)
    (inside : next.pc.isInside = before.isInside)
    (mayMerge : next.pc.mayMerge = before.mayMerge)
    (merges : next.pc.mayMerge) : StartOrder next := by
  have still := inv (by rw [pos, ← mayMerge]; exact merges)
  refine still.same (by rw [q]) (by rw [q]) (by rw [q])
    frame.dispatcher frame.receivedRuns (Nat.le_of_eq ?_)
  unfold localBound
  rw [inside, pos, q]

section

variable (runs : RunsInOrder s last)

include runs

theorem StartOrder.merge (kept : QueuesKept s) (inv : StartOrder s)
    (frame : LoopFrame s next) {processed : Nat}
    (pos : s.pc = .mergeGeneration processed) (isInside : next.pc.isInside)
    (q : next.queues = s.queues.merge s.currentRun) : StartOrder next := by
  have sameRun : next.currentRun = s.currentRun := by
    unfold currentRun
    rw [q, Queues.length_merge]
  have emptied : next.queues.pending s.currentRun = PendingReady.empty := by
    rw [q]
    exact kept.pending_merge runs pos
  have bound : s.localBound ≤ next.localBound := by
    rw [localBound_of_inside (by rw [pos]; rfl),
      localBound_of_inside isInside, q]
    change _ ≤ (mergeReadyGeneration _ _ _).localTaken
    rw [localTaken_mergeReadyGeneration]
    exact Nat.le_add_right _ _
  refine ⟨?_, ?_, ?_, ?_, ?_, ?_⟩
  · rw [sameRun, q]
    exact inv.behind
  · rw [sameRun, q]
    exact fun mark mem => Nat.le_trans (inv.announced mark mem) bound
  · rw [sameRun, frame.dispatcher]
    exact fun mark isForward => Nat.le_trans (inv.forwarding mark isForward) bound
  · rw [sameRun, frame.receivedRuns, frame.dispatcher, q]
    exact inv.received
  · rw [sameRun]
    exact fun _ => emptied
  · rw [sameRun, emptied]
    exact PendingReady.leadsWith_empty

theorem startOrder_runStep (kept : QueuesKept s)
    (inv : s.pc.mayMerge → StartOrder s) {reply : LoopReply}
    (step : RunStep s reply next) (mayMerge : next.pc.mayMerge) :
    StartOrder next := by
  have frame := step.frame
  cases step with
  | clears pos | publishes pos | cleans pos =>
    exact .keep inv frame rfl pos rfl rfl mayMerge
  | stops pos isStop continues | endsTurn pos continues =>
    cases continues <;> exact .keep inv frame rfl pos rfl rfl mayMerge
  | passes pos pass =>
    cases pass with
    | executes _ _ continues =>
      cases continues <;> exact .keep inv frame rfl pos rfl rfl mayMerge
    | _ => exact .keep inv frame rfl pos rfl rfl mayMerge
  | announces pos =>
    exact StartOrder.announce runs (inv (by rw [pos]; rfl)) frame pos rfl rfl
  | installs pos =>
    have before := inv (by rw [pos]; rfl)
    refine before.same rfl rfl rfl frame.dispatcher frame.receivedRuns ?_
    rw [localBound_of_outside (by rw [pos]; rfl)]
    exact Nat.le_refl _
  | @collects count pos =>
    obtain ⟨chan, pendings, batch, _⟩ := s.queues.collect_frame count
    exact (inv (by rw [pos]; rfl)).inside frame pos rfl rfl rfl chan
      batch pendings (Nat.le_of_eq (s.queues.localTaken_collect count).symm)
  | pops pos | signals pos =>
    exact (inv (by rw [pos]; rfl)).inside frame pos rfl rfl rfl rfl rfl rfl
      (Nat.le_refl _)
  | swaps pos =>
    exact (inv (by rw [pos]; rfl)).inside frame pos pos rfl rfl rfl
      rfl rfl (Nat.le_add_right _ _)
  | merges pos arrives =>
    refine .merge runs kept (inv (by rw [pos]; rfl)) frame pos ?_ rfl
    rcases arrives with rfl | rfl
    · rfl
    · rfl
  | leaves | releases | retires | finishes | returns | timesOut | abandons => cases mayMerge

theorem startOrder_begin : StartOrder
      { s with
        queues := s.queues.openRun
        running := true
        stopping := false
        pc := .clearReadyPending } := by
  have opened : (s.queues.pendings ++ [PendingReady.empty]).length - 1 =
      s.queues.pendings.length := by simp
  have untouched : s.queues.openRun.pending s.queues.pendings.length = .empty := by
    unfold Queues.pending Queues.openRun
    simp
  have bounded := runs.sent.le.1
  have receivedBound := runs.received_le
  refine ⟨?_, ?_, ?_, ?_, ?_, ?_⟩
  all_goals simp only [currentRun, Queues.openRun, opened]
  · intro before mark after split
    refine absurd ?_ (runs.not_announced
      (by omega : last < 2 * s.queues.pendings.length + 1) mark)
    rw [split]
    exact mem_append_right _ mem_cons_self
  · intro mark mem
    exact absurd mem (runs.not_announced (by omega) mark)
  · intro mark isForward
    have served := runs.served
    rw [isForward] at served
    have number := served.2.1
    omega
  · omega
  · exact fun _ => untouched
  · have leads : PendingReady.LeadsWith (handleOf 0)
        s.queues.localEnqueues .empty := PendingReady.leadsWith_empty
    rwa [← untouched] at leads

theorem startOrder_loopStep (kept : QueuesKept s) (counted : HandlesCounted s)
    (inv : s.pc.mayMerge → StartOrder s)
    (moved : loopStep s action = some next) (mayMerge : next.pc.mayMerge) :
    StartOrder next := by
  cases loopStep_cases moved with
  | calls => exact (inv mayMerge).same rfl rfl rfl rfl rfl (Nat.le_refl _)
  | produces step =>
    have samePosition : next.pc = s.pc := by cases step <;> rfl
    rw [samePosition] at mayMerge
    exact startOrder_producerStep runs counted (inv mayMerge) mayMerge step
  | dispatches step =>
    rw [step.frame.pc] at mayMerge
    exact startOrder_dispatcherStep runs (inv mayMerge) mayMerge step
  | enqueues =>
    refine (inv mayMerge).same rfl rfl rfl rfl rfl ?_
    change (if s.pc.isInside then s.queues.localTaken
        else s.queues.localEnqueues) ≤
      if s.pc.isInside then s.queues.localTaken
        else s.queues.localEnqueues + 1
    split
    · exact Nat.le_refl _
    · exact Nat.le_succ _
  | refuses => exact inv mayMerge
  | begins => exact startOrder_begin runs
  | runs step => exact startOrder_runStep runs kept inv step mayMerge

end

/-! ## Handles of the loop's own thread -/

/-- The loop thread has handles of its own in the local queue, and earlier ones
are still with the dispatcher. -/
def LoopState.passesDispatcher (s : LoopState) : Bool :=
  decide (s.queues.localReady.filter (handleOf 0) ≠ [] ∧
    (s.queues.notForwarded s.currentRun).filter (handleOf 0) ≠ [])

/-- The next step of the loop thread puts its local handles before earlier ones:
it begins a generation with the local queue alone, or it merges its queues, while
earlier handles wait where it does not look. -/
def LoopState.overtakes (s : LoopState) : Bool :=
  match s.pc with
  | .generation processed =>
    decide ((processed = 0 ∨ s.stopRequested) ∧
      s.queues.readyBatch = [] ∧ s.readyPending = false ∧
      s.queues.localReady.filter (handleOf 0) ≠ [] ∧
      s.queues.waiting.filter (handleOf 0) ≠ [])
  | .mergeGeneration _ | .handBack _ => s.passesDispatcher
  | _ => false

def LoopAction.isLoop : LoopAction → Bool
  | .loop _ => true
  | _ => false

/-- The dispatcher has forwarded the earlier handles whenever the loop thread
moves handles of its own, and no run leaves without its cleanup. -/
def TimelyHandover (s : LoopState) (action : LoopAction) : Prop :=
  ReachesCleanup s action ∧ (action.isLoop → s.overtakes = false)

instance (s : LoopState) (action : LoopAction) : Decidable (TimelyHandover s action) :=
  inferInstanceAs (Decidable (_ ∧ (_ → _)))

/-- What holds in every state of runs with timely handovers. -/
structure OwnInOrder (s : LoopState) : Prop where
  thread : ThreadInOrder 0 s
  start : s.pc.mayMerge → StartOrder s
  cleanup : ¬ s.hasLeftEarly

theorem ownInOrder_new (threads : Nat) : OwnInOrder (.new threads) where
  thread := threadInOrder_new threads
  start := nofun
  cleanup := fun early => by cases early

section

variable (inv : OwnInOrder s)

include inv

theorem OwnInOrder.position_of_own {item : ReadyItem}
    (pos : s.producers[caller]? = some producer) (held : item ∈ producer.item)
    (selected : handleOf 0 item) : s.pc = .outside := by
  by_contra inRun
  cases (handleOf_zero_eq_false inv.thread.counted pos held inRun).symm.trans selected

theorem OwnInOrder.merges (merges : s.pc.merges) :
    (s.queues.merged s.currentRun).filter (handleOf 0) =
      (s.queues.pending s.currentRun).items.filter (handleOf 0) ++
        s.queues.localReady.filter (handleOf 0) := by
  have inside : s.pc.isInside := by
    cases pos : s.pc with
    | mergeGeneration processed | handBack result => rfl
    | _ =>
      rw [pos] at merges
      cases merges
  have mayMerge := Position.mayMerge_of_isInside _ inside
  have leads := (inv.start mayMerge).leads
  rw [localBound_of_inside inside] at leads
  exact filter_mergeReadyGeneration_of_leadsWith (inv.thread.kept.valid mayMerge) leads

theorem OwnInOrder.keepsOrder (timely : TimelyHandover s action) :
    KeepsOrder (handleOf 0) s action := by
  obtain ⟨last, runs⟩ := inv.thread.runs
  refine { direct := ?_, remote := ?_, swap := ?_, merge := ?_ }
  · intro caller item run pos isActive selected
    have outside := inv.position_of_own pos mem_cons_self selected
    have closed := runs.retired (by rw [outside]; rfl)
    cases closed.symm.trans isActive
  · intro caller item pos selected
    have outside := inv.position_of_own pos mem_cons_self selected
    rw [(inv.thread.kept.released (by rw [outside]; rfl)).2]
    rfl
  · intro reply processed isLoop pos starts batch quiet
    have inTime := timely.2 (by rw [isLoop]; rfl)
    unfold overtakes at inTime
    rw [pos] at inTime
    have notBoth := of_decide_eq_false inTime
    by_contra neither
    rw [not_or] at neither
    exact notBoth ⟨starts, batch, quiet, neither⟩
  · intro reply isLoop merges
    have inTime := timely.2 (by rw [isLoop]; rfl)
    have notPassing : s.passesDispatcher = false := by
      unfold overtakes at inTime
      cases pos : s.pc with
      | mergeGeneration processed | handBack result =>
        rw [pos] at inTime
        exact inTime
      | _ =>
        rw [pos] at merges
        cases merges
    have notBoth := of_decide_eq_false notPassing
    by_cases own : s.queues.localReady.filter (handleOf 0) = []
    · exact .inl own
    · refine .inr ⟨inv.merges merges, ?_⟩
      by_contra waits
      exact notBoth ⟨own, waits⟩

theorem ownInOrder_loopStep (timely : TimelyHandover s action)
    (moved : loopStep s action = some next) : OwnInOrder next := by
  obtain ⟨last, runs⟩ := inv.thread.runs
  exact
    { thread := threadInOrder_loopStep inv.thread (inv.keepsOrder timely) moved
      start := startOrder_loopStep runs inv.thread.kept inv.thread.counted inv.start moved
      cleanup := not_hasLeftEarly_loopStep timely.1 inv.cleanup moved }

end

/-! ## Before and within a run -/

theorem scheduled_isPrefix_loopStep (moved : loopStep s action = some next) :
    s.queues.scheduled <+: next.queues.scheduled := by
  cases loopStep_cases moved with
  | calls | enqueues => exact prefix_append _ _
  | produces step => cases step <;> exact prefix_rfl
  | dispatches step => exact step.frame.scheduled ▸ prefix_rfl
  | refuses | begins => exact prefix_rfl
  | runs step =>
    cases step with
    | @collects count =>
      obtain ⟨timers, _, _, scheduled, _, _⟩ := s.queues.collect_entered count
      rw [scheduled]
      exact prefix_append _ _
    | signals => exact prefix_append _ _
    | _ => exact prefix_rfl

/-- Of the handles that the loop's own thread schedules, those from before are
taken out for execution before every later one. -/
def StartsFirst (before s : LoopState) : Prop :=
  ∀ earlier later, handleOf 0 earlier → handleOf 0 later →
    earlier ∈ before.queues.scheduled → later ∉ before.queues.scheduled →
      ∀ started rest, s.queues.popped = started ++ later :: rest → earlier ∈ started

/-- A list that reaches beyond the old part of another one has all of it. -/
theorem subset_of_reaches {Item : Type} {old new started rest : List Item}
    {later : Item} (reaches : started ++ later :: rest <+: old ++ new)
    (isNew : later ∉ old) : old ⊆ started := by
  obtain ⟨beyond, whole⟩ := reaches
  rw [append_assoc, cons_append] at whole
  rcases append_eq_append_iff.mp whole with
    ⟨between, isOld, isLater⟩ | ⟨more, isStarted, _⟩
  · cases between with
    | nil =>
      rw [isOld, append_nil]
      exact List.Subset.refl _
    | cons first =>
      have same : later = first := (List.cons.inj isLater).1
      refine absurd ?_ isNew
      rw [isOld, same]
      exact mem_append_right _ mem_cons_self
  · rw [isStarted]
    exact subset_append_left _ _

/-- In all runs with timely handovers, what the loop's own thread has scheduled
up to some point, such as the start of a run, starts before all that it
schedules later. -/
theorem startsFirst_of_timelyHandover (threads : Nat)
    {first second : List LoopAction} {before s : LoopState}
    (timely : Guarded loopStep TimelyHandover (.new threads) first)
    (timelyLater : Guarded loopStep TimelyHandover before second)
    (reached : run loopStep (.new threads) first = some before)
    (later : run loopStep before second = some s) : StartsFirst before s := by
  have inv : OwnInOrder before :=
    invariant_of_run OwnInOrder
      (fun _ _ _ inv timely moved => ownInOrder_loopStep inv timely moved)
      (ownInOrder_new threads) timely reached
  obtain ⟨after, old⟩ : OwnInOrder s ∧ before.queues.scheduled <+: s.queues.scheduled :=
    invariant_of_run (fun current => OwnInOrder current ∧
        before.queues.scheduled <+: current.queues.scheduled)
      (fun _ _ _ both timely moved =>
        ⟨ownInOrder_loopStep both.1 timely moved, both.2.trans (scheduled_isPrefix_loopStep moved)⟩)
      ⟨inv, prefix_rfl⟩ timelyLater later
  have inOrder := after.thread.popped_isPrefix after.cleanup
  intro earlier newer isEarlier isNewer wasScheduled isNew started rest popped
  obtain ⟨added, scheduled⟩ := old
  rw [popped, ← scheduled, filter_append, filter_append,
    filter_cons_of_pos isNewer] at inOrder
  have taken := subset_of_reaches inOrder fun member =>
    isNew (mem_of_mem_filter member)
  exact mem_of_mem_filter (taken (mem_filter.mpr ⟨wasScheduled, isEarlier⟩))

/-- A handle is scheduled before the run, which is then entered. -/
def scheduledBefore : List LoopAction :=
  List.flatten [[.call 0 .handle], List.replicate 4 (.producer 0), [.runForever]]

/-- The dispatcher handles `EnterRun` before the first turn, in which the
handle schedules another one. -/
def enteredInTime : List LoopAction :=
  List.flatten [List.replicate 4 (.loop .proceed), List.replicate 7 .dispatcher,
      [.loop (.timersDue 0)], List.replicate 3 (.loop .proceed),
      [.enqueue .handle, .loop (.executed .returned)],
      List.replicate 4 (.loop .proceed), [.loop (.timersDue 0)],
      List.replicate 2 (.loop .proceed)]

theorem startsFirst_of_enteredInTime : ∃ before s,
      run loopStep (.new 1) scheduledBefore = some before ∧ before.pc = .clearReadyPending ∧
        run loopStep before enteredInTime = some s ∧
        s.queues.popped.map ReadyItem.stamp = [0, 1] ∧
        StartsFirst before s := by
  obtain ⟨before, s, reached, later, pc, guarded, popped⟩ :=
    exists_runs_of_any loopStep (.new 1) scheduledBefore enteredInTime (fun before s =>
        before.pc = .clearReadyPending ∧
          Guarded loopStep TimelyHandover before enteredInTime ∧
          s.queues.popped.map ReadyItem.stamp = [0, 1])
      (by decide)
  exact ⟨before, s, reached, pc, later, popped,
    startsFirst_of_timelyHandover 1 (by decide) guarded reached later⟩

/-- The dispatcher does not get to `EnterRun` while a timer that is due schedules
a handle and the next turn takes it. -/
def enteredLate : List LoopAction :=
  List.flatten [List.replicate 4 (.loop .proceed), [.loop (.timersDue 1)],
      List.replicate 2 (.loop .proceed),
      [.enqueue .handle, .loop (.executed .returned)],
      List.replicate 4 (.loop .proceed), [.loop (.timersDue 0)],
      List.replicate 2 (.loop .proceed)]

theorem not_startsFirst_of_enteredLate : ∃ before s,
      run loopStep (.new 1) scheduledBefore = some before ∧ before.pc = .clearReadyPending ∧
        run loopStep before enteredLate = some s ∧
        ¬ StartsFirst before s := by
  obtain ⟨before, s, reached, later, pc, wasScheduled, isNew, popped⟩ :=
    exists_runs_of_any loopStep (.new 1) scheduledBefore enteredLate (fun before s =>
        before.pc = .clearReadyPending ∧
          ReadyItem.mk .handle 0 0 ∈ before.queues.scheduled ∧
          ReadyItem.mk .handle 0 2 ∉ before.queues.scheduled ∧
          s.queues.popped = [ReadyItem.mk .timer 0 1] ++ [ReadyItem.mk .handle 0 2])
      (by decide)
  refine ⟨before, s, reached, pc, later, fun ordered => ?_⟩
  have started := ordered ⟨.handle, 0, 0⟩ ⟨.handle, 0, 2⟩ rfl rfl wasScheduled
    isNew [⟨.timer, 0, 1⟩] [] popped
  cases mem_singleton.mp started

end Rsloop.Engine
