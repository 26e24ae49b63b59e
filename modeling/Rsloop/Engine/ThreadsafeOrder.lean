import Rsloop.Engine.ReadyConservation

/-!
# The handles of one thread

`call_soon_threadsafe` sends a handle over the command channel or pushes it
straight into the queue of the active run. The direct way is taken only while
no handle is on the channel, as counted by `channel_handles`, and only once the
dispatcher has forwarded what earlier runs have left. The handles of one thread
therefore never overtake each other.
-/

namespace Rsloop.Engine

open Transition List Queues

variable {s next : LoopState} {last tid : Nat}

/-- The handles that `tid` has scheduled. -/
def handleOf (tid : Nat) (item : ReadyItem) : Bool :=
  item.isHandle && decide (item.thread = tid)

theorem handleOf_iff {item : ReadyItem} :
    handleOf tid item ↔ item.isHandle ∧ item.thread = tid := by
  simp [handleOf]

/-! ## Who holds what -/

/-- A handle on its way onto the channel that has been counted there. -/
def Producer.counted : Producer → List ReadyItem
  | .send item => if item.isHandle then [item] else []
  | _ => []

/-- What a thread holds is its own, and only handles are counted. -/
def Producer.HoldsOwn (tid : Nat) : Producer → Prop
  | .loadChannelHandles item => item.thread = tid ∧ item.isHandle
  | .tryActive item => item.thread = tid
  | .addChannelHandle item => item.thread = tid ∧ item.isHandle
  | .send item => item.thread = tid
  | .idle | .signal => True

variable {producer : Producer}

theorem Producer.HoldsOwn.item {item : ReadyItem}
    (own : producer.HoldsOwn tid) (held : item ∈ producer.item) :
    item.thread = tid := by
  cases producer with
  | idle | signal => cases held
  | loadChannelHandles other | addChannelHandle other =>
    rw [mem_singleton.mp held]
    exact own.1
  | tryActive other | send other =>
    rwa [mem_singleton.mp held]

/-- The dispatcher has forwarded the work of earlier runs to its run. -/
def LoopState.hasEntered (s : LoopState) : Prop :=
  s.activeRun.isSome ∧ s.dispatcher.entering = false

/-- The channel's count of handles covers all handles on their way. -/
structure HandlesCounted (s : LoopState) : Prop where
  own : ∀ (tid : Nat) (producer : Producer),
    s.producers[tid]? = some producer → producer.HoldsOwn tid
  /-- The loop's own thread calls in from outside its runs only. -/
  idle : s.pc ≠ .outside → s.producers[0]? = some .idle
  localOwn : ∀ item ∈ s.queues.localReady, item.thread = 0
  /-- Handles are counted until the dispatcher has forwarded them. -/
  counted : s.channelHandles =
    s.queues.onChannel.countP ReadyItem.isHandle + s.dispatcherHandles +
      (s.producers.flatMap Producer.counted).length
  forwarding : ∀ after, s.dispatcher = .releaseHandles after → s.queues.dispatcherBatch = []
  /-- In a run that has been entered, the batch has no other handles. -/
  batch : s.hasEntered → s.queues.dispatcherBatch.countP ReadyItem.isHandle ≤
      s.dispatcherHandles

theorem handlesCounted_new (threads : Nat) : HandlesCounted (.new threads) where
  own := by
    intro tid producer pos
    have member := mem_of_getElem? pos
    rw [eq_of_mem_replicate member]
    trivial
  idle := fun elsewhere => absurd rfl elsewhere
  localOwn := nofun
  counted := by
    have none : ((LoopState.new threads).producers.flatMap Producer.counted) = [] := by
      rw [flatMap_eq_nil_iff]
      intro producer member
      rw [eq_of_mem_replicate member]
      rfl
    rw [none]
    rfl
  forwarding := nofun
  batch := fun _ => Nat.le_refl _

variable {changed : Producer}

theorem HandlesCounted.own_set (inv : HandlesCounted s)
    (own : changed.HoldsOwn tid) :
    ∀ (other : Nat) (producer : Producer),
      (s.producers.set tid changed)[other]? = some producer → producer.HoldsOwn other := by
  intro other producer pos
  by_cases same : tid = other
  · subst same
    have inRange : tid < s.producers.length := by
      have bound := (List.getElem?_eq_some_iff.mp pos).1
      rwa [length_set] at bound
    cases (getElem?_set_self inRange).symm.trans pos
    exact own
  · rw [getElem?_set_ne same] at pos
    exact inv.own other producer pos

variable {before : Producer}

theorem HandlesCounted.idle_set (inv : HandlesCounted s)
    (pos : s.producers[tid]? = some before)
    (busy : before ≠ .idle ∨ tid ≠ 0 ∨ s.pc = .outside) :
    s.pc ≠ .outside → (s.producers.set tid changed)[0]? = some .idle := by
  intro elsewhere
  have isIdle := inv.idle elsewhere
  have other : tid ≠ 0 := by
    rintro rfl
    rcases busy with notIdle | notZero | outside
    · exact notIdle (Option.some.inj (pos.symm.trans isIdle))
    · exact notZero rfl
    · exact elsewhere outside
  rwa [getElem?_set_ne other]

variable {producers : List Producer}

theorem counted_set (pos : producers[tid]? = some before) (changed : Producer) :
    ((producers.set tid changed).flatMap Producer.counted).length + before.counted.length =
      (producers.flatMap Producer.counted).length + changed.counted.length := by
  obtain ⟨others, held, after⟩ := flatMap_set_perm Producer.counted pos
  have first := held.length_eq
  have second := (after changed).length_eq
  rw [length_append] at first second
  omega

variable {q : Queues}

theorem HandlesCounted.move (inv : HandlesCounted s)
    {stopRequested readyPending : Bool} {channelHandles : Nat}
    (found : s.producers[tid]? = some before) (own : changed.HoldsOwn tid)
    (busy : before ≠ .idle ∨ tid ≠ 0 ∨ s.pc = .outside)
    (localReady : q.localReady = s.queues.localReady)
    (batch : q.dispatcherBatch = s.queues.dispatcherBatch)
    (counts : channelHandles + s.queues.onChannel.countP ReadyItem.isHandle +
        before.counted.length =
      s.channelHandles + q.onChannel.countP ReadyItem.isHandle + changed.counted.length) :
    HandlesCounted
      { s with
        queues := q
        stopRequested := stopRequested
        readyPending := readyPending
        channelHandles := channelHandles
        producers := s.producers.set tid changed } where
  own := inv.own_set own
  idle := inv.idle_set found busy
  localOwn := by
    rw [localReady]
    exact inv.localOwn
  counted := by
    have moves := counted_set found changed
    have counted := inv.counted
    change channelHandles = q.onChannel.countP ReadyItem.isHandle + s.dispatcherHandles +
      ((s.producers.set tid changed).flatMap Producer.counted).length
    omega
  forwarding := by
    rw [batch]
    exact inv.forwarding
  batch := by
    rw [batch]
    exact inv.batch

variable {action : LoopAction} {before after : Producer}

theorem Queues.onChannel_send (q : Queues) (item : ReadyItem) :
    (q.send item).onChannel = q.onChannel ++ (Command.ofItem item).readyItem := by
  simp [Queues.send, Queues.onChannel]

theorem readyItem_ofItem_of_isHandle {item : ReadyItem}
    (isHandle : item.isHandle) : (Command.ofItem item).readyItem = [item] := by
  have kind : item.kind = .handle := of_decide_eq_true isHandle
  unfold Command.ofItem
  rw [kind]
  rfl

theorem countP_send (q : Queues) (item : ReadyItem) :
    (q.send item).onChannel.countP ReadyItem.isHandle =
      q.onChannel.countP ReadyItem.isHandle + (Producer.send item).counted.length := by
  rw [q.onChannel_send, countP_append]
  by_cases isHandle : item.isHandle
  · rw [readyItem_ofItem_of_isHandle isHandle]
    simp [Producer.counted, isHandle]
  · have none : (Command.ofItem item).readyItem.countP ReadyItem.isHandle = 0 := by
      rw [countP_eq_zero]
      intro other mem
      rwa [mem_singleton.mp ((readyItem_ofItem_sublist item).subset mem)]
    rw [none]
    simp [Producer.counted, isHandle]

theorem Routes.holdsOwn (route : Routes s before after)
    (own : before.HoldsOwn tid) : after.HoldsOwn tid := by
  cases route with
  | loads =>
    split
    · exact own.1
    · exact own
  | misses =>
    split
    next isHandle => exact ⟨own, isHandle⟩
    next => exact own

theorem Routes.counted (route : Routes s before after) :
    before.counted = [] ∧ after.counted = [] ∧ before ≠ .idle := by
  cases route with
  | loads =>
    refine ⟨rfl, ?_, Producer.noConfusion⟩
    split <;> rfl
  | misses =>
    refine ⟨rfl, ?_, Producer.noConfusion⟩
    split
    · rfl
    next isOther => exact if_neg isOther

theorem handlesCounted_producerStep (inv : HandlesCounted s)
    (step : ProducerStep s tid next) : HandlesCounted next := by
  cases step with
  | routes found route =>
    obtain ⟨before, after, busy⟩ := route.counted
    exact inv.move found (route.holdsOwn (inv.own tid _ found)) (.inl busy)
      rfl rfl (by rw [before, after])
  | pushes found | signals found =>
    exact inv.move found trivial (.inl Producer.noConfusion) rfl rfl rfl
  | counts found =>
    obtain ⟨own, isHandle⟩ := inv.own tid _ found
    refine inv.move found own (.inl Producer.noConfusion) rfl rfl ?_
    simp only [Producer.counted, isHandle, if_true, length_singleton, length_nil]
    omega
  | sends found =>
    refine inv.move found trivial (.inl Producer.noConfusion) rfl rfl ?_
    rw [countP_send]
    exact Nat.add_assoc _ _ _

/-- The dispatcher moves on with the channel, its batch and its count as they
are. -/
theorem HandlesCounted.serve (inv : HandlesCounted s)
    {dispatcher : Dispatcher} {readyPending running stopping : Bool}
    {finished : List Nat} {activeReadyDispatch : Option ActiveReadyDispatch}
    (notReleasing : ∀ after, dispatcher ≠ .releaseHandles after)
    (entered : dispatcher.entering = s.dispatcher.entering) :
    HandlesCounted
      { s with
        dispatcher := dispatcher
        readyPending := readyPending
        running := running
        stopping := stopping
        finished := finished
        activeReadyDispatch := activeReadyDispatch } :=
  { inv with
    forwarding := fun after pos => absurd pos (notReleasing after)
    batch := fun hasEntered =>
      inv.batch ⟨hasEntered.1, entered.symm.trans hasEntered.2⟩ }

variable {cmd : Command} {rest : List Command}

theorem Queues.onChannel_receive (chan : q.channel = cmd :: rest) :
    q.onChannel = cmd.readyItem ++ q.receive.onChannel := by
  simp [Queues.onChannel, receive, chan]

theorem Queues.receive_of_carriesNone (chan : q.channel = cmd :: rest)
    (carriesNone : cmd.readyItem = []) :
    q.receive.onChannel = q.onChannel ∧
      q.receive.dispatcherBatch = q.dispatcherBatch := by
  rw [q.onChannel_receive chan, dispatcherBatch_receive chan, carriesNone]
  exact ⟨rfl, append_nil _⟩

theorem Carries.countP {item : ReadyItem} {handles : Nat}
    (carries : Carries item cmd handles) :
    cmd.readyItem.countP ReadyItem.isHandle = handles := by
  cases carries with
  | schedule => simp [Command.readyItem, countP_singleton]
  | io => rfl

theorem Replaces.items (replaces : Replaces s q)
    (chan : s.queues.channel = cmd :: rest) (carriesNone : cmd.readyItem = []) :
    q.onChannel = s.queues.onChannel ∧
      q.dispatcherBatch = s.queues.dispatcherBatch ∧
      q.localReady = s.queues.localReady := by
  obtain ⟨onChannel, batch⟩ := receive_of_carriesNone chan carriesNone
  cases replaces with
  | none | some => exact ⟨onChannel, batch, rfl⟩

theorem handlesCounted_dispatcherStep (inv : HandlesCounted s)
    (step : DispatcherStep s next) : HandlesCounted next := by
  have counted := inv.counted
  cases step with
  | turns pos turn =>
    cases turn <;> exact inv.serve (fun _ => Dispatcher.noConfusion) (by rw [pos]; rfl)
  | @receives _ _ _ handles pos chan carries =>
    have count := carries.countP
    rw [onChannel_receive chan, countP_append] at counted
    exact
      { inv with
        counted := by
          change s.channelHandles = s.queues.receive.onChannel.countP ReadyItem.isHandle +
              (s.dispatcherHandles + handles) +
              (s.producers.flatMap Producer.counted).length
          omega
        forwarding := fun after isReleasing => by
          cases pos.symm.trans isReleasing
        batch := fun hasEntered => by
          have before := inv.batch hasEntered
          rw [dispatcherBatch_receive chan, countP_append]
          change _ ≤ s.dispatcherHandles + handles
          omega }
  | enters _ chan replaces opens =>
    obtain ⟨onChannel, batch, own⟩ := replaces.items chan rfl
    exact
      { inv with
        localOwn := fun item mem => inv.localOwn item (own ▸ mem)
        counted := by
          rwa [onChannel]
        forwarding := fun after releasing => by
          cases opens <;> cases releasing
        batch := fun hasEntered => by
          rw [batch]
          cases opens with
          | idle nothing =>
            rw [nothing]
            exact Nat.zero_le _
          | behind => cases hasEntered.2 }
  | finishes pos chan =>
    obtain ⟨onChannel, batch⟩ := receive_of_carriesNone chan rfl
    exact
      { inv with
        counted := by
          rwa [onChannel]
        forwarding := fun after releasing => by cases releasing
        batch := fun hasEntered => by
          rw [batch]
          exact inv.batch ⟨hasEntered.1, by rw [pos]; rfl⟩ }
  | forwards =>
    exact { inv with forwarding := fun _ _ => rfl, batch := fun _ => Nat.zero_le _ }
  | releases pos =>
    exact
      { inv with
        counted := by
          change s.channelHandles - s.dispatcherHandles =
            s.queues.onChannel.countP ReadyItem.isHandle + 0 +
              (s.producers.flatMap Producer.counted).length
          omega
        forwarding := nofun
        batch := fun _ => by
          rw [inv.forwarding _ pos]
          exact Nat.le_refl _ }
  | @signals after pos =>
    refine inv.serve ?_ (by rw [pos]; exact after.entering_position)
    cases after <;> exact fun _ => Dispatcher.noConfusion
  | takesBack =>
    exact
      { inv with
        forwarding := nofun
        batch := fun hasEntered => by cases hasEntered.1 }
  | activates pos | resets pos | acknowledges pos =>
    exact inv.serve (fun _ => Dispatcher.noConfusion) (by rw [pos]; rfl)

variable {reply : LoopReply}

/-- The loop thread leaves the channel's items and the dispatcher's batch
alone. -/
theorem RunStep.items (step : RunStep s reply next) :
    next.queues.onChannel = s.queues.onChannel ∧
      next.queues.dispatcherBatch = s.queues.dispatcherBatch ∧
      ∀ item ∈ next.queues.localReady, item ∈ s.queues.localReady ∨ item.thread = 0 := by
  have emptied : ∀ {items : List ReadyItem}, items = [] →
      ∀ item ∈ items, item ∈ s.queues.localReady ∨ item.thread = 0 := by
    intro items none item mem
    rw [none] at mem
    cases mem
  have sent (cmd : Command) (carriesNone : cmd.readyItem = []) :
      (s.queues.sendRun cmd).onChannel = s.queues.onChannel := by
    simp [Queues.onChannel, sendRun, carriesNone]
  cases step with
  | announces | finishes => exact ⟨sent _ rfl, rfl, fun _ mem => .inl mem⟩
  | installs | swaps | abandons => exact ⟨rfl, rfl, emptied rfl⟩
  | @collects count =>
    obtain ⟨chan, _, batch, _⟩ := collect_frame s.queues count
    obtain ⟨timers, areTimers, _, _, own, _⟩ := s.queues.collect_entered count
    refine ⟨congrArg (List.flatMap _) chan, batch, fun item mem => ?_⟩
    rw [own] at mem
    rcases mem_append.mp mem with old | new
    · exact .inl old
    · exact .inr (areTimers item new).1
  | merges | leaves => exact ⟨rfl, rfl, emptied localReady_mergeReadyGeneration⟩
  | signals =>
    refine ⟨rfl, rfl, fun item mem => ?_⟩
    rcases mem_append.mp mem with old | new
    · exact .inl old
    · rw [mem_singleton.mp new]
      exact .inr rfl
  | _ => exact ⟨rfl, rfl, fun _ mem => .inl mem⟩

theorem RunStep.position_ne_outside
    (step : RunStep s reply next) : s.pc ≠ .outside := by
  intro outside
  cases step with
  | passes pos pass => cases pass <;> cases outside.symm.trans pos
  | _ pos => cases outside.symm.trans pos

theorem handlesCounted_runStep (inv : HandlesCounted s)
    (step : RunStep s reply next) : HandlesCounted next := by
  have frame := step.frame
  obtain ⟨chan, batch, own⟩ := step.items
  exact
    { own := by
        rw [frame.producers]
        exact inv.own
      idle := fun _ => by
        rw [frame.producers]
        exact inv.idle step.position_ne_outside
      localOwn := fun item mem =>
        (own item mem).elim (inv.localOwn item) id
      counted := by
        rw [frame.channelHandles, chan, frame.dispatcherHandles, frame.producers]
        exact inv.counted
      forwarding := fun after releasing => by
        rw [batch]
        exact inv.forwarding after (frame.dispatcher.symm.trans releasing)
      batch := fun hasEntered => by
        unfold LoopState.hasEntered at hasEntered
        rw [frame.activeRun, frame.dispatcher] at hasEntered
        rw [batch, frame.dispatcherHandles]
        exact inv.batch hasEntered }

theorem handlesCounted_loopStep (inv : HandlesCounted s)
    (moved : loopStep s action = some next) : HandlesCounted next := by
  cases loopStep_cases moved with
  | calls idle outside _ starts =>
    have elsewhere := Decidable.not_or_of_imp outside
    subst starts
    refine inv.move idle ?_ (.inr elsewhere) rfl rfl ?_
    · split
      next isHandle => exact ⟨rfl, isHandle⟩
      next => exact rfl
    · split <;> rfl
  | produces step => exact handlesCounted_producerStep inv step
  | dispatches step => exact handlesCounted_dispatcherStep inv step
  | enqueues =>
    exact
      { inv with
        localOwn := by
          intro item mem
          rcases mem_append.mp mem with old | new
          · exact inv.localOwn item old
          · rw [mem_singleton.mp new]
            rfl }
  | refuses => exact inv
  | begins _ idle => exact { inv with idle := fun _ => idle }
  | runs step => exact handlesCounted_runStep inv step

/-! ## The order of one thread's handles -/

/-- The item that `tid` is about to enqueue. -/
def LoopState.hand (s : LoopState) (tid : Nat) : List ReadyItem :=
  s.producers[tid]?.toList.flatMap Producer.item

/-- What a thread has scheduled has entered the queues in that order, up to the
item in its hand. -/
def HandedInOrder (tid : Nat) (s : LoopState) : Prop :=
  s.queues.enqueued.filter (handleOf tid) ++ (s.hand tid).filter (handleOf tid) =
    s.queues.scheduled.filter (handleOf tid)

variable {caller : Nat}

theorem hand_set_self (inRange : tid < producers.length)
    (next : LoopState) (moved : next.producers = producers.set tid changed) :
    next.hand tid = changed.item := by
  unfold LoopState.hand
  rw [moved, getElem?_set_self inRange]
  simp

theorem hand_set_of_ne {other : Nat} (different : other ≠ tid)
    (moved : next.producers = s.producers.set other changed) :
    next.hand tid = s.hand tid := by
  unfold LoopState.hand
  rw [moved, getElem?_set_ne different]

theorem hand_eq (pos : s.producers[tid]? = some producer) :
    s.hand tid = producer.item := by
  unfold LoopState.hand
  rw [pos]
  simp

theorem handleOf_eq_false {item : ReadyItem} (other : item.thread ≠ tid) :
    handleOf tid item = false := by
  simp [handleOf, other]

theorem handedInOrder_new (threads : Nat) : HandedInOrder tid (.new threads) := by
  have none : (LoopState.new threads).hand tid = [] := by
    unfold LoopState.hand
    rw [flatMap_eq_nil_iff]
    intro producer mem
    have pc := Option.mem_toList.mp mem
    rw [eq_of_mem_replicate (mem_of_getElem? pc)]
    rfl
  unfold HandedInOrder
  rw [none]
  rfl

theorem HandedInOrder.take (handed : HandedInOrder tid s) {kind : ReadyKind}
    (idle : s.producers[caller]? = some .idle)
    (items : producer.item = [s.queues.nextItem kind caller])
    (producers : next.producers = s.producers.set caller producer)
    (q : next.queues = s.queues.schedule (s.queues.nextItem kind caller)) :
    HandedInOrder tid next := by
  have inRange := (List.getElem?_eq_some_iff.mp idle).1
  unfold HandedInOrder at handed ⊢
  rw [q]
  change s.queues.enqueued.filter _ ++ _ = (s.queues.scheduled ++ [_]).filter _
  rw [filter_append, ← handed]
  by_cases same : caller = tid
  · subst same
    rw [hand_set_self inRange next producers, items, hand_eq idle]
    change _ = s.queues.enqueued.filter _ ++ [] ++ _
    rw [append_nil]
  · have other : [s.queues.nextItem kind caller].filter (handleOf tid) = [] := by
      rw [filter_cons_of_neg]
      · rfl
      · rw [handleOf_eq_false same]
        exact Bool.false_ne_true
    rw [hand_set_of_ne same producers, other, append_nil]

theorem HandedInOrder.put (handed : HandedInOrder tid s)
    (counted : HandlesCounted s)
    {entered : List ReadyItem} (pos : s.producers[caller]? = some before)
    (producers : next.producers = s.producers.set caller after)
    (enqueued : next.queues.enqueued = s.queues.enqueued ++ entered)
    (scheduled : next.queues.scheduled = s.queues.scheduled)
    (moves : (entered ++ after.item).filter ReadyItem.isHandle =
      before.item.filter ReadyItem.isHandle)
    (fewer : entered ⊆ before.item) : HandedInOrder tid next := by
  have inRange := (List.getElem?_eq_some_iff.mp pos).1
  have refine_filter : ∀ items : List ReadyItem, items.filter (handleOf tid) =
        (items.filter ReadyItem.isHandle).filter (fun item => decide (item.thread = tid)) := by
    intro items
    rw [filter_filter]
    refine filter_congr fun item _ => ?_
    unfold handleOf
    rw [Bool.and_comm]
  unfold HandedInOrder at handed ⊢
  rw [scheduled, ← handed, enqueued]
  by_cases same : caller = tid
  · subst same
    rw [hand_set_self inRange next producers, hand_eq pos,
      filter_append, append_assoc, ← filter_append,
      refine_filter (entered ++ after.item), moves, ← refine_filter before.item]
  · have others : entered.filter (handleOf tid) = [] := by
      rw [filter_eq_nil_iff]
      intro item mem
      have own := (counted.own caller before pos).item (fewer mem)
      rw [handleOf_eq_false (by rw [own]; exact same)]
      exact Bool.false_ne_true
    rw [hand_set_of_ne same producers, filter_append, others, append_nil]

theorem filter_readyItem_ofItem (item : ReadyItem) :
    (Command.ofItem item).readyItem.filter ReadyItem.isHandle =
      [item].filter ReadyItem.isHandle := by
  by_cases isHandle : item.isHandle
  · rw [readyItem_ofItem_of_isHandle isHandle]
  · have fewer := (readyItem_ofItem_sublist item).filter ReadyItem.isHandle
    have none : [item].filter ReadyItem.isHandle = [] := by
      rw [filter_cons_of_neg isHandle]
      rfl
    rw [none] at fewer ⊢
    exact sublist_nil.mp fewer

theorem handedInOrder_producerStep (counted : HandlesCounted s)
    (handed : HandedInOrder tid s)
    (step : ProducerStep s caller next) : HandedInOrder tid next := by
  cases step with
  | routes found route =>
    refine handed.put counted found rfl (append_nil _).symm rfl ?_ (nil_subset _)
    cases route <;> split <;> rfl
  | pushes found => exact handed.put counted found rfl rfl rfl rfl (List.Subset.refl _)
  | counts found | signals found =>
    exact handed.put counted found rfl (append_nil _).symm rfl rfl (nil_subset _)
  | @sends item found =>
    refine handed.put counted found rfl rfl rfl ?_ (readyItem_ofItem_sublist item).subset
    change ((Command.ofItem item).readyItem ++ []).filter _ = [item].filter _
    rw [append_nil]
    exact filter_readyItem_ofItem item

theorem HandedInOrder.enqueueLocal (handed : HandedInOrder tid s)
    (counted : HandlesCounted s) (inRun : s.pc ≠ .outside)
    {items : List ReadyItem} (own : ∀ item ∈ items, item.thread = 0)
    (producers : next.producers = s.producers)
    (enqueued : next.queues.enqueued = s.queues.enqueued ++ items)
    (scheduled : next.queues.scheduled = s.queues.scheduled ++ items) :
    HandedInOrder tid next := by
  have hand : next.hand tid = s.hand tid := by
    unfold LoopState.hand
    rw [producers]
  unfold HandedInOrder at handed ⊢
  rw [hand, enqueued, scheduled, filter_append, filter_append, ← handed]
  by_cases isLoop : tid = 0
  · -- the loop's thread holds nothing while it runs the loop
    subst isLoop
    rw [hand_eq (counted.idle inRun)]
    change _ ++ [] = _ ++ [] ++ _
    rw [append_nil, append_nil]
  · have others : items.filter (handleOf tid) = [] := by
      rw [filter_eq_nil_iff]
      intro item mem
      rw [handleOf_eq_false (by rw [own item mem]; exact Ne.symm isLoop)]
      exact Bool.false_ne_true
    rw [others, append_nil, append_nil]

theorem HandedInOrder.same (handed : HandedInOrder tid s)
    (producers : next.producers = s.producers)
    (enqueued : next.queues.enqueued = s.queues.enqueued)
    (scheduled : next.queues.scheduled = s.queues.scheduled) :
    HandedInOrder tid next := by
  have hand : next.hand tid = s.hand tid := by
    unfold LoopState.hand
    rw [producers]
  unfold HandedInOrder at handed ⊢
  rwa [hand, enqueued, scheduled]

theorem handedInOrder_loopStep (counted : HandlesCounted s)
    (handed : HandedInOrder tid s)
    (moved : loopStep s action = some next) : HandedInOrder tid next := by
  have single {kind : ReadyKind} (item : ReadyItem)
      (mem : item ∈ [s.queues.nextItem kind 0]) : item.thread = 0 := by
    rw [mem_singleton.mp mem]
    rfl
  cases loopStep_cases moved with
  | calls idle _ _ starts => exact handed.take idle (by rw [starts]; split <;> rfl) rfl rfl
  | produces step => exact handedInOrder_producerStep counted handed step
  | dispatches step =>
    have frame := step.frame
    exact handed.same frame.producers frame.enqueued frame.scheduled
  | enqueues runsCode =>
    refine handed.enqueueLocal counted (fun outside => ?_) single rfl rfl rfl
    rw [outside] at runsCode
    cases runsCode
  | refuses => exact handed
  | begins => exact handed.same rfl rfl rfl
  | runs step =>
    have inRun := step.position_ne_outside
    cases step with
    | @collects count =>
      obtain ⟨timers, areTimers, enqueued, scheduled, _, _⟩ := s.queues.collect_entered count
      exact handed.enqueueLocal counted inRun
        (fun item mem => (areTimers item mem).1) rfl enqueued scheduled
    | signals => exact handed.enqueueLocal counted inRun single rfl rfl rfl
    | _ => exact handed.same rfl rfl rfl

/-! ## The direct way -/

/-- A thread that has found no handle on the channel has none of its own there,
and none with the dispatcher once the run has been entered. -/
def ChannelClear (tid : Nat) (s : LoopState) : Prop :=
  ∀ item, s.producers[tid]? = some (.tryActive item) → item.isHandle →
      s.queues.onChannel.filter (handleOf tid) = [] ∧ (s.hasEntered →
          s.queues.dispatcherBatch.filter (handleOf tid) = [])

theorem filter_handleOf_eq_nil {items : List ReadyItem}
    (none : items.countP ReadyItem.isHandle = 0) :
    items.filter (handleOf tid) = [] := by
  rw [filter_eq_nil_iff]
  intro item mem selected
  exact countP_eq_zero.mp none item mem (handleOf_iff.mp selected).1

theorem ChannelClear.other (clear : ChannelClear tid s)
    (different : caller ≠ tid)
    (producers : next.producers = s.producers.set caller changed)
    (chan : next.queues.onChannel.filter (handleOf tid) =
      s.queues.onChannel.filter (handleOf tid))
    (batch : next.queues.dispatcherBatch = s.queues.dispatcherBatch)
    (activeRun : next.activeRun = s.activeRun)
    (dispatcher : next.dispatcher = s.dispatcher) : ChannelClear tid next := by
  intro item pos isHandle
  rw [producers, getElem?_set_ne different] at pos
  have before := clear item pos isHandle
  unfold LoopState.hasEntered at before ⊢
  rwa [chan, batch, activeRun, dispatcher]

theorem ChannelClear.elsewhere
    (moved : next.producers = producers.set tid changed)
    (notTrying : ∀ item, changed = .tryActive item → item.isHandle = false) :
    ChannelClear tid next := by
  intro item pos isHandle
  rw [moved] at pos
  have inRange : tid < producers.length := by
    have bound := (List.getElem?_eq_some_iff.mp pos).1
    rwa [length_set] at bound
  rw [getElem?_set_self inRange] at pos
  cases (notTrying item (Option.some.inj pos)).symm.trans isHandle

theorem channelClear_producerStep (counted : HandlesCounted s)
    (clear : ChannelClear tid s)
    (step : ProducerStep s caller next) : ChannelClear tid next := by
  by_cases same : caller = tid
  · subst same
    cases step with
    | routes found route =>
      cases route with
      | loads =>
        intro other trying isHandle
        by_cases none : s.channelHandles = 0
        · -- nothing is counted, so there is no handle on the way
          have total := counted.counted
          refine ⟨filter_handleOf_eq_nil (by
            change s.queues.onChannel.countP ReadyItem.isHandle = 0
            omega), fun hasEntered => filter_handleOf_eq_nil ?_⟩
          have batch := counted.batch hasEntered
          change s.queues.dispatcherBatch.countP ReadyItem.isHandle = 0
          omega
        · have inRange := (List.getElem?_eq_some_iff.mp found).1
          rw [if_neg none, getElem?_set_self inRange] at trying
          cases trying
      | misses =>
        refine ChannelClear.elsewhere rfl fun _ trying => ?_
        split at trying <;> cases trying
    | _ => exact ChannelClear.elsewhere rfl nofun
  · cases step with
    | @sends item found =>
      refine clear.other same rfl ?_ rfl rfl rfl
      change (s.queues.send item).onChannel.filter _ = _
      rw [s.queues.onChannel_send, filter_append]
      have others : (Command.ofItem item).readyItem.filter (handleOf tid) = [] := by
        rw [filter_eq_nil_iff]
        intro other mem
        rw [mem_singleton.mp ((readyItem_ofItem_sublist item).subset mem),
          handleOf_eq_false (by
            rw [counted.own caller _ found]
            exact same)]
        exact Bool.false_ne_true
      rw [others, append_nil]
    | _ => exact clear.other same rfl rfl rfl rfl rfl

theorem ChannelClear.serve (clear : ChannelClear tid s)
    (producers : next.producers = s.producers)
    (chan : next.queues.onChannel = s.queues.onChannel)
    (batch : next.queues.dispatcherBatch = s.queues.dispatcherBatch ∨
      next.queues.dispatcherBatch = [])
    (entered : next.hasEntered → s.hasEntered ∨ next.queues.dispatcherBatch = []) :
    ChannelClear tid next := by
  intro item pos isHandle
  rw [producers] at pos
  obtain ⟨onChannel, inBatch⟩ := clear item pos isHandle
  refine ⟨by rw [chan]; exact onChannel, fun hasEntered => ?_⟩
  rcases entered hasEntered with before | none
  · rcases batch with same | none
    · rw [same]
      exact inBatch before
    · rw [none]
      rfl
  · rw [none]
    rfl

theorem channelClear_dispatcherStep (clear : ChannelClear tid s)
    (step : DispatcherStep s next) : ChannelClear tid next := by
  have entered {dispatcher : Dispatcher} (pos : s.dispatcher = dispatcher)
      (outside : dispatcher.entering = false) (isSome : s.activeRun.isSome) :
      s.hasEntered := ⟨isSome, by rw [pos]; exact outside⟩
  cases step with
  | turns pos turn =>
    cases turn <;> exact clear.serve rfl rfl (.inl rfl) fun hasEntered =>
      .inl (entered pos rfl hasEntered.1)
  | receives _ chan =>
    intro other trying isHandle
    obtain ⟨onChannel, inBatch⟩ := clear other trying isHandle
    rw [onChannel_receive chan, filter_append] at onChannel
    obtain ⟨first, later⟩ := append_eq_nil_iff.mp onChannel
    refine ⟨later, fun hasEntered => ?_⟩
    rw [dispatcherBatch_receive chan, filter_append, inBatch hasEntered, first]
    rfl
  | enters _ chan replaces opens =>
    obtain ⟨onChannel, batch, _⟩ := replaces.items chan rfl
    refine clear.serve rfl onChannel (.inl batch) fun hasEntered => .inr ?_
    cases opens with
    | idle nothing => exact batch.trans nothing
    | behind => cases hasEntered.2
  | finishes pos chan =>
    obtain ⟨onChannel, batch⟩ := receive_of_carriesNone chan rfl
    exact clear.serve rfl onChannel (.inl batch) fun hasEntered =>
      .inl (entered pos rfl hasEntered.1)
  | forwards => exact clear.serve rfl rfl (.inr rfl) fun _ => .inr rfl
  | takesBack =>
    intro item trying isHandle
    exact ⟨(clear item trying isHandle).1, fun hasEntered => by cases hasEntered.1⟩
  | releases pos | signals pos | activates pos | resets pos
  | acknowledges pos =>
    exact clear.serve rfl rfl (.inl rfl) fun hasEntered =>
      .inl (entered pos rfl hasEntered.1)

theorem channelClear_loopStep (counted : HandlesCounted s)
    (clear : ChannelClear tid s)
    (moved : loopStep s action = some next) : ChannelClear tid next := by
  cases loopStep_cases moved with
  | @calls caller _ _ _ _ _ starts =>
    by_cases same : caller = tid
    · subst same
      refine ChannelClear.elsewhere rfl fun item trying => ?_
      rw [starts] at trying
      split at trying
      · cases trying
      next isOther =>
        cases trying
        exact eq_false_of_ne_true isOther
    · exact clear.other same rfl rfl rfl rfl rfl
  | produces step => exact channelClear_producerStep counted clear step
  | dispatches step => exact channelClear_dispatcherStep clear step
  | enqueues | begins => exact clear.serve rfl rfl (.inl rfl) .inl
  | refuses => exact clear
  | runs step =>
    have frame := step.frame
    obtain ⟨chan, batch, _⟩ := step.items
    refine clear.serve frame.producers chan (.inl batch) fun hasEntered => ?_
    unfold LoopState.hasEntered at hasEntered ⊢
    rw [frame.activeRun, frame.dispatcher] at hasEntered
    exact .inl hasEntered

/-! ## First in, first out -/

/-- The handles of `tid` are held in the order in which they have entered;
behind an early return some of them may be missing. -/
structure HeldInOrder (tid : Nat) (s : LoopState) : Prop where
  inOrder : (s.queues.held.filter (handleOf tid)).Sublist
    (s.queues.enqueued.filter (handleOf tid))
  complete : ¬ s.hasLeftEarly → s.queues.held.filter (handleOf tid) =
      s.queues.enqueued.filter (handleOf tid)

theorem HeldInOrder.grow {entered : List ReadyItem} (held : HeldInOrder tid s)
    (grows : Grows (handleOf tid) s next entered)
    (early : s.hasLeftEarly → next.hasLeftEarly) : HeldInOrder tid next := by
  have enqueued : next.queues.enqueued.filter (handleOf tid) =
      s.queues.enqueued.filter (handleOf tid) ++ entered.filter (handleOf tid) := by
    rw [grows.enqueued, filter_append]
  rcases grows.held with same | ⟨isEarly, fewer, none⟩
  · refine ⟨?_, fun cleanup => ?_⟩
    · rw [same, enqueued]
      exact held.inOrder.append (List.Sublist.refl _)
    · rw [same, enqueued, held.complete fun before => cleanup (early before)]
  · refine ⟨?_, fun cleanup => absurd isEarly cleanup⟩
    rw [enqueued, none]
    exact (fewer.trans held.inOrder).trans (sublist_append_left _ _)

/-- What holds in every state, as long as no step breaks the order. -/
structure ThreadInOrder (tid : Nat) (s : LoopState) : Prop where
  runs : ∃ last, RunsInOrder s last
  kept : QueuesKept s
  counted : HandlesCounted s
  clear : ChannelClear tid s
  handed : HandedInOrder tid s
  held : HeldInOrder tid s

theorem threadInOrder_new (threads : Nat) : ThreadInOrder tid (.new threads) where
  runs := ⟨0, runsInOrder_new threads⟩
  kept := queuesKept_new threads
  counted := handlesCounted_new threads
  clear := by
    intro item pos
    have member := mem_of_getElem? pos
    cases eq_of_mem_replicate member
  handed := handedInOrder_new threads
  held := ⟨List.Sublist.refl _, fun _ => rfl⟩

/-- An odd number says that the dispatcher serves a run. -/
theorem RunsInOrder.isSome_activeRun (inv : RunsInOrder s last) {run : Nat}
    (received : s.receivedRuns = 2 * run + 1) : s.activeRun.isSome := by
  have served := inv.served
  have idle : ServesRun s.receivedRuns s.activeRun → s.activeRun.isSome := by
    intro serves
    cases active : s.activeRun with
    | none =>
      rw [active] at serves
      have even : s.receivedRuns % 2 = 0 := serves
      omega
    | some => rfl
  have forwarding : ∀ {after : AfterForward} {batch : List ReadyItem},
      after.Serves s.activeRun s.receivedRuns batch → s.activeRun.isSome := by
    intro after batch serves
    cases after with
    | drainCommands =>
      obtain ⟨current, active, _⟩ := serves
      rw [active]
      rfl
    | activate =>
      rw [serves.1]
      rfl
  cases pos : s.dispatcher with
  | poll | drainCommands => exact idle (by rwa [pos] at served)
  | forward localMark after | releaseHandles after | signal after =>
    rw [pos] at served
    exact forwarding served
  | activate =>
    rw [pos] at served
    rw [served.1]
    rfl
  | finishRun current | resetState current | acknowledge current =>
    rw [pos] at served
    have even := served.2
    omega

theorem ThreadInOrder.keepsOrder (inv : ThreadInOrder tid s)
    (notLoop : tid ≠ 0) (action : LoopAction) : KeepsOrder (handleOf tid) s action := by
  have own : s.queues.localReady.filter (handleOf tid) = [] := by
    rw [filter_eq_nil_iff]
    intro item mem
    rw [handleOf_eq_false (by
      rw [inv.counted.localOwn item mem]
      exact Ne.symm notLoop)]
    exact Bool.false_ne_true
  obtain ⟨last, runs⟩ := inv.runs
  exact
    { direct := by
        intro caller item run pos isActive selected
        obtain ⟨isHandle, isOwn⟩ := handleOf_iff.mp selected
        have same : item.thread = caller := inv.counted.own caller _ pos
        subst isOwn
        rw [← same] at pos
        obtain ⟨onChannel, inBatch⟩ := inv.clear item pos isHandle
        obtain ⟨received, notEntering⟩ := runs.accepting run isActive
        refine ⟨inBatch ⟨?_, notEntering⟩, onChannel, own⟩
        exact runs.isSome_activeRun received
      remote := fun _ _ _ _ => own
      swap := fun _ _ _ _ _ _ _ => .inl own
      merge := fun _ _ _ => .inl own }

theorem threadInOrder_loopStep (inv : ThreadInOrder tid s)
    (keeps : KeepsOrder (handleOf tid) s action)
    (moved : loopStep s action = some next) : ThreadInOrder tid next := by
  obtain ⟨last, runs⟩ := inv.runs
  obtain ⟨entered, grows⟩ := grows_loopStep runs inv.kept keeps moved
  exact
    { runs := runsInOrder_loopStep runs moved
      kept := queuesKept_loopStep runs inv.kept moved
      counted := handlesCounted_loopStep inv.counted moved
      clear := channelClear_loopStep inv.counted inv.clear moved
      handed := handedInOrder_loopStep inv.counted inv.handed moved
      held := inv.held.grow grows (hasLeftEarly_loopStep moved) }

theorem popped_isPrefix_held (tid : Nat) (s : LoopState) :
    s.queues.popped.filter (handleOf tid) <+:
      s.queues.held.filter (handleOf tid) := by
  unfold Queues.held
  rw [filter_append]
  exact prefix_append _ _

theorem HandedInOrder.enqueued_isPrefix (handed : HandedInOrder tid s) :
    s.queues.enqueued.filter (handleOf tid) <+:
      s.queues.scheduled.filter (handleOf tid) := by
  rw [← handed]
  exact prefix_append _ _

theorem ThreadInOrder.popped_isPrefix (inv : ThreadInOrder tid s)
    (cleanup : ¬ s.hasLeftEarly) :
    s.queues.popped.filter (handleOf tid) <+:
      s.queues.scheduled.filter (handleOf tid) := by
  have started := popped_isPrefix_held tid s
  rw [inv.held.complete cleanup] at started
  exact started.trans inv.handed.enqueued_isPrefix

/-- In every interleaving of threads, dispatcher and loop, the handles of a
thread other than the loop's own start in the order in which that thread has
scheduled them, and without gaps as long as no run has left without its
cleanup. -/
theorem handles_start_in_order (threads tid : Nat) (notLoop : tid ≠ 0)
    {actions : List LoopAction} {s : LoopState}
    (reached : run loopStep (.new threads) actions = some s) :
    (s.queues.popped.filter (handleOf tid)).Sublist
        (s.queues.scheduled.filter (handleOf tid)) ∧
      (none ∉ s.results → s.queues.popped.filter (handleOf tid) <+:
          s.queues.scheduled.filter (handleOf tid)) := by
  have inv : ThreadInOrder tid s :=
    invariant_of_run (ThreadInOrder tid) (fun _ action _ inv _ moved =>
        threadInOrder_loopStep inv (inv.keepsOrder notLoop action) moved)
      (threadInOrder_new threads)
      (guarded_of_forall fun _ _ _ => trivial) reached
  constructor
  · exact ((popped_isPrefix_held tid s).sublist.trans inv.held.inOrder).trans
      inv.handed.enqueued_isPrefix.sublist
  · exact inv.popped_isPrefix

/-- Another thread schedules one handle before the run and one within it. -/
def bothWays : List LoopAction :=
  List.flatten [[.call 1 .handle], List.replicate 4 (.producer 1), [.runForever],
      List.replicate 4 (.loop .proceed), List.replicate 7 .dispatcher,
      -- the second handle goes straight to the run's queue
      [.call 1 .handle], List.replicate 3 (.producer 1),
      [.loop (.timersDue 0)], List.replicate 3 (.loop .proceed),
      [.loop (.executed .returned), .loop .proceed]]

theorem handles_start_in_order_bothWays : ∃ s, run loopStep (.new 2) bothWays = some s ∧
        s.queues.popped.map ReadyItem.stamp = [0, 1] ∧
        s.queues.popped.filter (handleOf 1) <+: s.queues.scheduled.filter (handleOf 1) := by
  refine exists_run_imp (fun s => s.queues.popped.map ReadyItem.stamp = [0, 1] ∧ none ∉
      s.results) (by decide) ?_
  rintro s reached ⟨popped, cleanup⟩
  exact ⟨popped, (handles_start_in_order 2 1 (by decide) reached).2 cleanup⟩

/-- Whenever threads can push into the queue of a run directly, the dispatcher
serves that run and the queues of earlier runs are empty. -/
theorem accepting_served {threads number : Nat} {actions : List LoopAction}
    (reached : run loopStep (.new threads) actions = some s)
    (isActive : s.activeReadyDispatch = some ⟨number, true⟩) :
    s.activeRun = some number ∧ s.queues.olderThan number = [] := by
  have inv : ThreadInOrder 1 s :=
    invariant_of_run (ThreadInOrder 1) (fun _ action _ inv _ moved =>
        threadInOrder_loopStep inv (inv.keepsOrder (by decide) action) moved)
      (threadInOrder_new threads) (guarded_of_forall fun _ _ _ => trivial) reached
  obtain ⟨last, runs⟩ := inv.runs
  obtain ⟨received, -⟩ := runs.accepting number isActive
  have active : s.activeRun = some number := by
    obtain ⟨run, isRun⟩ := Option.isSome_iff_exists.mp (runs.isSome_activeRun received)
    have served := runs.served
    rw [isRun] at served ⊢
    cases pos : s.dispatcher with
    | forward _ after | releaseHandles after | signal after =>
      cases after <;> grind [Dispatcher.Serves, AfterForward.Serves]
    | _ => grind [Dispatcher.Serves, AfterForward.Serves, ServesRun]
  exact ⟨active, runs.olderThan_of_active inv.kept active (by omega)⟩

/-- A second run behind one that has left three items -/
theorem accepting_served_resumedRun : ∃ s,
      run loopStep (.new 2) (raisedRun ++ resumedRun ++ [.dispatcher]) = some s ∧
        s.activeReadyDispatch = some ⟨1, true⟩ ∧ s.queues.pendings.length = 2 ∧
        s.activeRun = some 1 ∧ s.queues.olderThan 1 = [] := by
  refine exists_run_imp (fun s => s.activeReadyDispatch = some ⟨1, true⟩ ∧
    s.queues.pendings.length = 2) (by decide) ?_
  rintro s reached ⟨isActive, runs⟩
  exact ⟨isActive, runs, accepting_served reached isActive⟩

end Rsloop.Engine
