import Rsloop.Engine.WatchPlaces

/-!
# One state for every watch

In every state that the loop reaches, the callback of a current registration is
in one place. All other callbacks are cancelled: their waits schedule nothing,
and items that carry them are skipped.
-/

namespace Rsloop.Engine

open Transition List WatchState

/-! ## The invariant -/

variable {s next : WatchState} {cb other : WatchCallback}

/-- A wait, a start command, a ready item or the end of the turn refers to the
callback. -/
inductive Mentions (s : WatchState) (cb : WatchCallback) : Prop
  | localTask (waiting : Bool) (member : ⟨cb, waiting⟩ ∈ s.localTasks)
  | remoteTask (waiting : Bool) (member : ⟨cb, waiting⟩ ∈ s.remoteTasks)
  | command (member : .start cb ∈ s.commands)
  | fire (item : ReadyItem) (member : (item, cb) ∈ s.fires)
  | deferred (member : cb ∈ s.deferredFdRearms)

def WatchState.callbacks (s : WatchState) : List WatchCallback :=
  s.keepalive.map FdWatch.ready

/-- What holds of all callbacks, whichever place they are in. -/
structure Registry (s : WatchState) : Prop where
  conserving : Conserving s.loop
  scheduled : FiresScheduled s
  executing : ∀ item, s.loop.pc.item = some item → item ∈ s.loop.queues.popped
  /-- There is one registration for a descriptor and a direction. -/
  distinct : ∀ first ∈ s.keepalive, ∀ second ∈ s.keepalive,
    first.ready.key = second.ready.key → first = second
  numbered : ∀ callback, Mentions s callback ∨
    callback ∈ s.callbacks ∨ callback ∈ s.cancelled → callback.id < s.nextCallbackId
  live : ∀ callback, Mentions s callback → callback ∉ s.cancelled →
    callback ∈ s.callbacks
  current : ∀ callback ∈ s.callbacks, callback ∉ s.cancelled

/-- Every registered callback is in one place. -/
structure Watching (s : WatchState) : Prop extends Registry s where
  placed : ∀ cb ∈ s.callbacks, Placed s cb

theorem not_mentions_new (threads : Nat) : ¬ Mentions (.new threads) cb := by
  intro mentioned
  cases mentioned with
  | localTask waiting mem | remoteTask waiting mem | command mem
  | fire item mem | deferred mem => cases mem

theorem watching_new (threads : Nat) : Watching (.new threads) where
  conserving := conserving_new threads
  scheduled := nofun
  executing := nofun
  distinct := nofun
  numbered := by
    rintro cb (mentioned | mem | mem)
    · exact absurd mentioned (not_mentions_new threads)
    · cases mem
    · cases mem
  live := fun _ mentioned => absurd mentioned (not_mentions_new threads)
  current := nofun
  placed := fun _ mem => by cases mem

theorem Registry.eq_of_key (inv : Registry s)
    (first : cb ∈ s.callbacks) (second : other ∈ s.callbacks)
    (same : cb.key = other.key) : cb = other := by
  obtain ⟨firstWatch, firstMember, rfl⟩ := mem_map.mp first
  obtain ⟨secondWatch, secondMember, rfl⟩ := mem_map.mp second
  rw [inv.distinct firstWatch firstMember secondWatch secondMember same]

theorem WatchState.registered_eq_some {fd : Int} {writable : Bool}
    {watch : FdWatch} (found : s.registered fd writable = some watch) :
    watch ∈ s.keepalive ∧ watch.ready.key = (fd, writable) :=
  ⟨mem_of_find?_eq_some found, by simpa using find?_some found⟩

theorem WatchState.key_ne_of_registered_eq_none {fd : Int} {writable : Bool}
    (none : s.registered fd writable = none)
    (mem : cb ∈ s.callbacks) : cb.key ≠ (fd, writable) := by
  obtain ⟨watch, isWatch, rfl⟩ := mem_map.mp mem
  simpa using List.find?_eq_none.mp none watch isWatch

/-- A callback that nothing refers to is nowhere. -/
theorem absent_of_not_mentions (unknown : ¬ Mentions s cb) :
    s.armed cb + s.queued cb + s.busy cb = 0 := by
  have noLocal : s.localTasks.count ⟨cb, true⟩ = 0 :=
    count_eq_zero.mpr fun mem => unknown (.localTask true mem)
  have noRemote : s.remoteTasks.count ⟨cb, true⟩ = 0 :=
    count_eq_zero.mpr fun mem => unknown (.remoteTask true mem)
  have noCommand : s.commands.count (.start cb) = 0 :=
    count_eq_zero.mpr fun mem => unknown (.command mem)
  have noItem : ∀ items : List ReadyItem, items.countP (s.carries cb) = 0 := by
    intro items
    rw [countP_eq_zero]
    intro item _ carries
    exact unknown (.fire item (mem_of_carried (of_decide_eq_true carries)))
  have noRearm : s.deferredFdRearms.count cb = 0 :=
    count_eq_zero.mpr fun mem => unknown (.deferred mem)
  unfold WatchState.armed WatchState.queued WatchState.busy
  rw [noLocal, noRemote, noCommand, noItem, noItem, noRearm]

/-- What refers to a callback after a step did so before, or it is accounted for
where its part of the state has changed. -/
theorem Mentions.imp {P : Prop} (mentioned : Mentions next cb)
    (before : Mentions s cb → P)
    (localTask : ∀ waiting, ⟨cb, waiting⟩ ∈ next.localTasks →
      ⟨cb, waiting⟩ ∈ s.localTasks ∨ P)
    (remoteTask : ∀ waiting, ⟨cb, waiting⟩ ∈ next.remoteTasks →
      ⟨cb, waiting⟩ ∈ s.remoteTasks ∨ P)
    (cmd : .start cb ∈ next.commands → .start cb ∈ s.commands ∨ P)
    (fire : ∀ item, (item, cb) ∈ next.fires → (item, cb) ∈ s.fires ∨ P)
    (deferred : cb ∈ next.deferredFdRearms → cb ∈ s.deferredFdRearms ∨ P) :
    P := by
  cases mentioned with
  | localTask waiting mem =>
    exact (localTask waiting mem).elim (fun old => before (.localTask waiting old)) id
  | remoteTask waiting mem =>
    exact (remoteTask waiting mem).elim (fun old => before (.remoteTask waiting old)) id
  | command mem => exact (cmd mem).elim (fun old => before (.command old)) id
  | fire item mem => exact (fire item mem).elim (fun old => before (.fire item old)) id
  | deferred mem => exact (deferred mem).elim (fun old => before (.deferred old)) id

theorem Mentions.registrations {loop : LoopState} {keepalive : List FdWatch}
    {nextCallbackId : Nat} {cancelled invoked : List WatchCallback}
    (mentioned : Mentions { s with
      loop := loop
      invoked := invoked
      keepalive := keepalive
      nextCallbackId := nextCallbackId
      cancelled := cancelled } cb) : Mentions s cb :=
  mentioned.imp id (fun _ => .inl) (fun _ => .inl) .inl (fun _ => .inl) .inl

/-- Steps that leave the loop and the registrations alone. -/
structure RegistryFrame (s next : WatchState) : Prop where
  loop : next.loop = s.loop
  fires : next.fires = s.fires
  keepalive : next.keepalive = s.keepalive
  nextCallbackId : next.nextCallbackId = s.nextCallbackId
  cancelled : next.cancelled = s.cancelled
  invoked : next.invoked = s.invoked

theorem RegistryFrame.callbacks (frame : RegistryFrame s next) :
    next.callbacks = s.callbacks := by
  unfold WatchState.callbacks
  rw [frame.keepalive]

/-- They refer to registered callbacks or to those of before. -/
theorem Registry.of_frame (inv : Registry s) (frame : RegistryFrame s next)
    (mentions : ∀ cb, Mentions next cb →
      cb ∈ s.callbacks ∨ Mentions s cb) :
    Registry next where
  conserving := by
    rw [frame.loop]
    exact inv.conserving
  scheduled := by
    unfold FiresScheduled
    rw [frame.loop, frame.fires]
    exact inv.scheduled
  executing := by
    rw [frame.loop]
    exact inv.executing
  distinct := by
    rw [frame.keepalive]
    exact inv.distinct
  numbered := by
    intro cb known
    rw [frame.callbacks, frame.cancelled] at known
    rw [frame.nextCallbackId]
    rcases known with mentioned | known
    · rcases mentions cb mentioned with registered | before
      · exact inv.numbered cb (.inr (.inl registered))
      · exact inv.numbered cb (.inl before)
    · exact inv.numbered cb (.inr known)
  live := by
    intro cb mentioned notCancelled
    rw [frame.cancelled] at notCancelled
    rw [frame.callbacks]
    rcases mentions cb mentioned with registered | before
    · exact registered
    · exact inv.live cb before notCancelled
  current := by
    rw [frame.callbacks, frame.cancelled]
    exact inv.current

/-! ## Every step keeps it -/

variable {tasks : List WatchTask}

theorem mem_of_mem_without {key : Int × Bool}
    {task : WatchTask} (mem : task ∈ without key tasks) : task ∈ tasks :=
  (mem_filter.mp mem).1

theorem mem_of_mem_startTask {waiting : Bool}
    (mem : ⟨cb, waiting⟩ ∈ startTask other tasks) :
    cb = other ∨ ⟨cb, waiting⟩ ∈ tasks := by
  rcases mem_cons.mp mem with first | rest
  · exact .inl (congrArg WatchTask.callback first)
  · exact .inr (mem_of_mem_without rest)

theorem mem_of_mem_finishWait {waiting : Bool}
    (mem : ⟨cb, waiting⟩ ∈ finishWait other tasks) :
    ∃ before, ⟨cb, before⟩ ∈ tasks := by
  obtain ⟨task, isTask, changed⟩ := mem_map.mp mem
  have same : task.callback = cb := by
    split at changed
    · exact congrArg WatchTask.callback changed
    · rw [changed]
  refine ⟨task.waiting, ?_⟩
  rwa [← same]

theorem registryFrame_startFdWatch (s : WatchState) (ready : WatchCallback) :
    RegistryFrame s (startFdWatch s ready) := by
  unfold startFdWatch
  split <;> exact ⟨rfl, rfl, rfl, rfl, rfl, rfl⟩

theorem registryFrame_stopFdWatch (s : WatchState) (fd : Int)
    (writable : Bool) : RegistryFrame s (stopFdWatch s fd writable) := by
  unfold stopFdWatch
  split <;> exact ⟨rfl, rfl, rfl, rfl, rfl, rfl⟩

theorem mentions_startFdWatch (mentioned : Mentions (startFdWatch s other) cb) :
    cb = other ∨ Mentions s cb := by
  unfold startFdWatch at mentioned
  split at mentioned
  · exact mentioned.imp .inr (fun _ mem => (mem_of_mem_startTask mem).symm.imp_right .inl)
      (fun _ => .inl) .inl (fun _ => .inl) .inl
  · refine mentioned.imp .inr (fun _ mem => .inl (mem_of_mem_without mem)) (fun _ => .inl)
      (fun mem => ?_) (fun _ => .inl) .inl
    rcases mem_append.mp mem with old | new
    · exact .inl old
    · cases mem_singleton.mp new
      exact .inr (.inl rfl)

variable {writable : Bool} {fd : Int}

theorem mentions_stopFdWatch
    (mentioned : Mentions (stopFdWatch s fd writable) cb) :
    Mentions s cb := by
  unfold stopFdWatch at mentioned
  split at mentioned
  · exact mentioned.imp id (fun _ mem => .inl (mem_of_mem_without mem)) (fun _ => .inl) .inl
      (fun _ => .inl) .inl
  · refine mentioned.imp id (fun _ => .inl) (fun _ => .inl) (fun mem => .inl ?_)
      (fun _ => .inl) .inl
    rcases mem_append.mp mem with old | new
    · exact old
    · cases mem_singleton.mp new

theorem watching_stopFdWatch (inv : Watching s)
    (free : ∀ cb ∈ s.callbacks, cb.key ≠ (fd, writable)) :
    Watching (stopFdWatch s fd writable) := by
  have frame := registryFrame_stopFdWatch s fd writable
  refine ⟨inv.of_frame frame fun _ mentioned =>
    .inr (mentions_stopFdWatch mentioned), ?_⟩
  rw [frame.callbacks]
  exact fun cb mem =>
    (inv.placed cb mem).stop (free cb mem)

theorem watching_startFdWatch (inv : Registry s) (registered : cb ∈ s.callbacks)
    (absent : s.armed cb + s.queued cb + s.busy cb = 0)
    (placed : ∀ other ∈ s.callbacks, other ≠ cb → Placed s other) :
    Watching (startFdWatch s cb) := by
  have frame := registryFrame_startFdWatch s cb
  refine ⟨inv.of_frame frame ?_, ?_⟩
  · intro other mentioned
    rcases mentions_startFdWatch mentioned with same | before
    · rw [same]
      exact .inl registered
    · exact .inr before
  · rw [frame.callbacks]
    intro other mem
    by_cases same : other = cb
    · rw [same]
      exact placed_startFdWatch absent
    · refine (placed other mem same).start fun sameKey => same ?_
      exact inv.eq_of_key mem registered sameKey

theorem Watching.unregister (inv : Watching s) {removed : FdWatch}
    (mem : removed ∈ s.keepalive) :
    Watching
      { s with
        keepalive := s.keepalive.filter fun watch =>
          decide (watch.ready.key ≠ removed.ready.key)
        cancelled := removed.ready :: s.cancelled } := by
  have isCallback : removed.ready ∈ s.callbacks := mem_map_of_mem mem
  have remaining {cb : WatchCallback}
      (left : cb ∈ (s.keepalive.filter fun watch =>
        decide (watch.ready.key ≠ removed.ready.key)).map FdWatch.ready) :
      cb ∈ s.callbacks ∧ cb.key ≠ removed.ready.key := by
    obtain ⟨watch, isLeft, rfl⟩ := mem_map.mp left
    obtain ⟨isWatch, different⟩ := mem_filter.mp isLeft
    exact ⟨mem_map_of_mem isWatch, of_decide_eq_true different⟩
  refine
    { inv.toRegistry with
      distinct := ?_
      numbered := ?_
      live := ?_
      current := ?_
      placed := fun cb left => { inv.placed cb (remaining left).1 with } }
  · intro first firstLeft second secondLeft same
    exact inv.distinct first (mem_filter.mp firstLeft).1 second
      (mem_filter.mp secondLeft).1 same
  · rintro cb (mentioned | left | isCancelled)
    · exact inv.numbered cb (.inl mentioned.registrations)
    · exact inv.numbered cb (.inr (.inl (remaining left).1))
    · rcases mem_cons.mp isCancelled with first | old
      · rw [first]
        exact inv.numbered _ (.inr (.inl isCallback))
      · exact inv.numbered cb (.inr (.inr old))
  · intro cb mentioned notCancelled
    have isOther : cb ≠ removed.ready := fun same =>
      notCancelled (same ▸ mem_cons_self)
    have registered : cb ∈ s.callbacks :=
      inv.live cb mentioned.registrations
        fun old => notCancelled (mem_cons_of_mem _ old)
    obtain ⟨watch, isWatch, rfl⟩ := mem_map.mp registered
    refine mem_map_of_mem (mem_filter.mpr ⟨isWatch, ?_⟩)
    exact decide_eq_true fun same =>
      isOther (inv.eq_of_key registered isCallback same)
  · intro cb left isCancelled
    obtain ⟨registered, different⟩ := remaining left
    rcases mem_cons.mp isCancelled with first | old
    · exact different (by rw [first])
    · exact inv.current cb registered old

theorem Watching.register (inv : Watching s) (fileobj : Nat)
    (free : ∀ cb ∈ s.callbacks, cb.key ≠ (fd, writable)) :
    Watching (startFdWatch
        { s with
          nextCallbackId := s.nextCallbackId + 1
          keepalive := ⟨fileobj, ⟨s.nextCallbackId, fd, writable⟩⟩ :: s.keepalive }
        ⟨s.nextCallbackId, fd, writable⟩) := by
  let ready : WatchCallback := ⟨s.nextCallbackId, fd, writable⟩
  have unknown : ∀ known : WatchCallback, known.id < s.nextCallbackId → known ≠ ready := by
    rintro known bounded rfl
    exact Nat.lt_irrefl _ bounded
  refine watching_startFdWatch
    { inv.toRegistry with
      distinct := ?_
      numbered := ?_
      live := fun known mentioned notCancelled =>
        mem_cons_of_mem _ (inv.live known mentioned.registrations notCancelled)
      current := ?_ } mem_cons_self ?_ ?_
  · have others : ∀ watch ∈ s.keepalive, watch.ready.key ≠ ready.key :=
      fun watch mem => free _ (mem_map_of_mem mem)
    intro first firstMember second secondMember same
    rcases mem_cons.mp firstMember with rfl | firstOld
    · rcases mem_cons.mp secondMember with rfl | secondOld
      · rfl
      · exact absurd same.symm (others second secondOld)
    · rcases mem_cons.mp secondMember with rfl | secondOld
      · exact absurd same (others first firstOld)
      · exact inv.distinct first firstOld second secondOld same
  · rintro known (mentioned | registered | isCancelled)
    · exact Nat.lt_succ_of_lt (inv.numbered known (.inl mentioned.registrations))
    · rcases mem_cons.mp registered with rfl | old
      · exact Nat.lt_succ_self _
      · exact Nat.lt_succ_of_lt (inv.numbered known (.inr (.inl old)))
    · exact Nat.lt_succ_of_lt (inv.numbered known (.inr (.inr isCancelled)))
  · intro known registered isCancelled
    rcases mem_cons.mp registered with rfl | old
    · exact unknown _ (inv.numbered _ (.inr (.inr isCancelled))) rfl
    · exact inv.current known old isCancelled
  · refine absent_of_not_mentions fun mentioned => ?_
    exact unknown _ (inv.numbered _ (.inl mentioned.registrations)) rfl
  · intro known registered isOther
    rcases mem_cons.mp registered with first | old
    · exact absurd first isOther
    · exact { inv.placed known old with }

theorem filter_key_ne (free : ∀ cb ∈ s.callbacks, cb.key ≠ (fd, writable)) :
    (s.keepalive.filter fun watch =>
      decide (watch.ready.key ≠ (fd, writable))) = s.keepalive :=
  filter_eq_self.mpr fun _ mem =>
    decide_eq_true (free _ (mem_map_of_mem mem))

theorem key_ne_of_mem_filter {key : Int × Bool} {watches : List FdWatch}
    (mem : cb ∈ (watches.filter fun watch =>
      decide (watch.ready.key ≠ key)).map FdWatch.ready) :
    cb.key ≠ key := by
  obtain ⟨watch, isLeft, rfl⟩ := mem_map.mp mem
  exact of_decide_eq_true (mem_filter.mp isLeft).2

theorem watching_addWatch (inv : Watching s) (writable : Bool) (fd : Int)
    (fileobj : Nat) : Watching (addWatch s writable fd fileobj) := by
  unfold addWatch
  cases found : s.registered fd writable with
  | none =>
    have free : ∀ cb ∈ s.callbacks, cb.key ≠ (fd, writable) :=
      fun _ mem => key_ne_of_registered_eq_none found mem
    simp only [filter_key_ne free]
    exact inv.register fileobj free
  | some previous =>
    obtain ⟨mem, isKey⟩ := registered_eq_some found
    have removed := inv.unregister mem
    rw [isKey] at removed
    have stopped := watching_stopFdWatch removed fun _ left => key_ne_of_mem_filter left
    have frame := registryFrame_stopFdWatch
      { s with
        keepalive := s.keepalive.filter fun watch =>
          decide (watch.ready.key ≠ (fd, writable))
        cancelled := previous.ready :: s.cancelled } fd writable
    have registered := stopped.register fileobj (by
      rw [frame.callbacks]
      exact fun _ left => key_ne_of_mem_filter left)
    -- the registration and the stop touch different parts of the s
    unfold stopFdWatch at registered ⊢
    split at registered
    next isLocal =>
      simp only [if_pos isLocal]
      exact registered
    next isRemote =>
      simp only [if_neg isRemote]
      exact registered

variable {fileobj order : Nat}

theorem WatchState.findWatch_eq_some {watch : FdWatch}
    (found : s.findWatch writable fd fileobj order = some watch) :
    watch ∈ s.keepalive ∧ watch.ready.writable = writable := by
  unfold findWatch at found
  split at found
  next registered =>
    cases found
    obtain ⟨mem, isKey⟩ := registered_eq_some registered
    exact ⟨mem, congrArg Prod.snd isKey⟩
  · have rotated := mem_rotate.mp (mem_of_mem_head? found)
    obtain ⟨mem, selected⟩ := mem_filter.mp rotated
    exact ⟨mem, (of_decide_eq_true selected).1⟩

theorem WatchState.registered_of_findWatch_eq_none
    (absent : s.findWatch writable fd fileobj order = none) :
    s.registered fd writable = none := by
  unfold findWatch at absent
  split at absent
  · cases absent
  next free => exact free

theorem watching_removeWatch (inv : Watching s) (writable : Bool) (fd : Int)
    (fileobj order : Nat) : Watching (removeWatch s writable fd fileobj order) := by
  unfold removeWatch
  split
  next removed found =>
    obtain ⟨mem, direction⟩ := findWatch_eq_some found
    have isKey : removed.ready.key = (removed.ready.fd, writable) := by
      rw [← direction]
      rfl
    refine watching_stopFdWatch (inv.unregister mem) fun _ left => ?_
    rw [← isKey]
    exact key_ne_of_mem_filter left
  next none =>
    exact watching_stopFdWatch inv fun _ mem =>
      key_ne_of_registered_eq_none (registered_of_findWatch_eq_none none) mem

theorem Placed.undefer (placed : Placed s cb) {rest : List WatchCallback}
    (deferred : s.deferredFdRearms = other :: rest) (different : other ≠ cb) :
    Placed { s with deferredFdRearms := rest } cb := by
  refine ⟨?_, placed.settled, placed.last⟩
  have once := placed.once
  unfold WatchState.busy at once
  rwa [deferred, count_cons_of_ne different] at once

theorem watching_rearm (inv : Watching s) {ready : WatchCallback}
    {rest : List WatchCallback}
    (deferred : s.deferredFdRearms = ready :: rest) :
    Watching (rearmFdWatchIfNeeded { s with deferredFdRearms := rest } ready) := by
  have registry : Registry { s with deferredFdRearms := rest } := by
    refine inv.of_frame ⟨rfl, rfl, rfl, rfl, rfl, rfl⟩ fun _ mentioned => .inr ?_
    refine mentioned.imp id (fun _ => .inl) (fun _ => .inl) .inl (fun _ => .inl) fun mem => ?_
    rw [deferred]
    exact .inl (mem_cons_of_mem _ mem)
  have others : ∀ cb ∈ s.callbacks, cb ≠ ready →
      Placed { s with deferredFdRearms := rest } cb :=
    fun cb mem different =>
      (inv.placed cb mem).undefer deferred different.symm
  -- a callback that is not registered any more is dropped here
  have drop (unregistered : ready ∉ s.callbacks) :
      Watching { s with deferredFdRearms := rest } :=
    ⟨registry, fun cb mem =>
      others cb mem fun same => unregistered (same ▸ mem)⟩
  unfold rearmFdWatchIfNeeded
  split
  next watch found =>
    obtain ⟨mem, isKey⟩ := registered_eq_some found
    have registered : watch.ready ∈ s.callbacks := mem_map_of_mem mem
    split
    next isCurrent =>
      rw [isCurrent] at registered
      refine watching_startFdWatch registry registered ?_ others
      have once := (inv.placed ready registered).once
      unfold WatchState.busy at once
      rw [deferred, count_cons_self] at once
      change s.armed ready + s.queued ready +
        (s.loop.pc.item.toList.countP (s.carries ready) + rest.count ready) = 0
      omega
    next replaced =>
      exact drop fun current =>
        replaced (inv.eq_of_key registered current isKey)
  next none =>
    exact drop fun current =>
      key_ne_of_registered_eq_none none current rfl

theorem watching_serve (inv : Watching s) {cmd : WatchCommand}
    {rest : List WatchCommand} (cmds : s.commands = cmd :: rest) :
    Watching ({ s with commands := rest }.serve cmd) := by
  have behind : ∀ later ∈ rest, later ∈ s.commands := by
    intro later mem
    rw [cmds]
    exact mem_cons_of_mem _ mem
  cases cmd with
  | start =>
    refine ⟨inv.of_frame ⟨rfl, rfl, rfl, rfl, rfl, rfl⟩ fun cb mentioned => .inr ?_,
      fun cb mem => (inv.placed cb mem).serve cmds⟩
    refine mentioned.imp id (fun _ => .inl) (fun _ mem => ?_)
      (fun mem => .inl (behind _ mem)) (fun _ => .inl) .inl
    rcases mem_of_mem_startTask mem with rfl | old
    · refine .inr (.command ?_)
      rw [cmds]
      exact mem_cons_self
    · exact .inl old
  | stop =>
    refine ⟨inv.of_frame ⟨rfl, rfl, rfl, rfl, rfl, rfl⟩ fun cb mentioned => .inr ?_,
      fun cb mem => (inv.placed cb mem).serve cmds⟩
    exact mentioned.imp id (fun _ => .inl) (fun _ mem => .inl (mem_of_mem_without mem))
      (fun mem => .inl (behind _ mem)) (fun _ => .inl) .inl

/-! ## Waits that are over -/

variable {tid : Nat}

/-- One callback item has been scheduled and nothing else moves. -/
structure SchedulesCallback (s next : LoopState) (new : ReadyItem) : Prop where
  moves : ItemsMove s next [new] []
  popped : next.queues.popped = s.queues.popped
  pc : next.pc = s.pc
  kind : new.kind = .callback

theorem schedulesCallback_enqueue {s next : LoopState}
    (moved : loopStep s (.enqueue .callback) = some next) :
    SchedulesCallback s next (s.queues.nextItem .callback 0) := by
  cases loopStep_cases moved with
  | enqueues => exact ⟨.enqueueLocal rfl rfl, rfl, rfl, rfl⟩

theorem schedulesCallback_call {s next : LoopState}
    (moved : loopStep s (.call tid .callback) = some next) :
    SchedulesCallback s next (s.queues.nextItem .callback tid) := by
  cases loopStep_cases moved with
  | calls idle _ _ starts =>
    exact ⟨.take idle (by rw [starts]; split <;> rfl) rfl rfl, rfl, rfl, rfl⟩

variable {loop : LoopState} {fired : WatchCallback} {new : ReadyItem}

/-- What the loop executes was scheduled before. -/
theorem Registry.busy_fire (inv : Registry s)
    (schedules : SchedulesCallback s.loop loop new) :
    { s with loop := loop, fires := (new, fired) :: s.fires }.busy cb =
      s.busy cb := by
  obtain ⟨late, _⟩ := schedules.moves.numbered new (mem_singleton_self new)
  have same : ∀ item ∈ s.loop.pc.item.toList,
      ({ s with
        loop := loop
        fires := (new, fired) :: s.fires }.carries cb item ↔
        s.carries cb item) := by
    intro item mem
    have executing := inv.executing item (Option.mem_toList.mp mem)
    have bounded := inv.conserving.unique.stamped item
      (mem_append_left _ (inv.conserving.popped_subset executing))
    rw [carries_fire_of_ne rfl]
    intro isNew
    rw [isNew] at late
    omega
  unfold WatchState.busy
  rw [schedules.pc, countP_congr same]

theorem watching_fire (inv : Registry s) (after : Conserving loop)
    (schedules : SchedulesCallback s.loop loop new)
    (registered : fired ∈ s.callbacks)
    (absent : s.armed fired + s.queued fired + s.busy fired = 0)
    (placed : ∀ other ∈ s.callbacks, other ≠ fired → Placed s other) :
    Watching { s with loop := loop, fires := (new, fired) :: s.fires } := by
  obtain ⟨_, numbered⟩ := schedules.moves.numbered new (mem_singleton_self new)
  have queued (cb : WatchCallback) :
      { s with loop := loop, fires := (new, fired) :: s.fires }.queued cb =
        s.queued cb + if fired = cb then 1 else 0 :=
    inv.scheduled.queued_fire inv.conserving after rfl schedules.kind
      schedules.moves schedules.popped
  have busy (cb : WatchCallback) :
      { s with loop := loop, fires := (new, fired) :: s.fires }.busy cb =
        s.busy cb := inv.busy_fire schedules
  have mentions : ∀ cb, Mentions
      { s with loop := loop, fires := (new, fired) :: s.fires } cb →
      cb = fired ∨ Mentions s cb := by
    intro cb mentioned
    refine mentioned.imp .inr (fun _ => .inl) (fun _ => .inl) .inl (fun _ mem => ?_) .inl
    rcases mem_cons.mp mem with first | old
    · exact .inr (.inl (congrArg Prod.snd first))
    · exact .inl old
  refine
    { conserving := after
      scheduled := inv.scheduled.fire rfl schedules.kind numbered schedules.moves.scheduled
      executing := ?_
      distinct := inv.distinct
      numbered := ?_
      live := ?_
      current := inv.current
      placed := ?_ }
  · rw [schedules.pc, schedules.popped]
    exact inv.executing
  · rintro cb (mentioned | known)
    · rcases mentions cb mentioned with rfl | before
      · exact inv.numbered _ (.inr (.inl registered))
      · exact inv.numbered cb (.inl before)
    · exact inv.numbered cb (.inr known)
  · intro cb mentioned notCancelled
    rcases mentions cb mentioned with rfl | before
    · exact registered
    · exact inv.live cb before notCancelled
  · intro cb mem
    by_cases same : cb = fired
    · have armed : s.armed fired = 0 := by omega
      obtain ⟨_, noRemote, noCommand⟩ := nowhere_of_armed_eq_zero armed
      rw [same]
      refine ⟨?_, fun waits => absurd waits noRemote, pairwise_of_not_mem noCommand⟩
      rw [queued, busy, if_pos rfl]
      change s.armed fired + (s.queued fired + 1) + s.busy fired = 1
      omega
    · have before := placed cb mem same
      refine ⟨?_, before.settled, before.last⟩
      rw [queued, busy, if_neg (Ne.symm same)]
      exact before.once

variable {action : LoopAction}

/-- A callback is scheduled when its wait is over, unless it is cancelled. -/
theorem watching_scheduleReady
    (moved : s.scheduleReady fired tid action = some next)
    (inv : Registry s) (mentioned : Mentions s fired)
    (absent : fired ∈ s.callbacks →
      s.armed fired + s.queued fired + s.busy fired = 0)
    (placed : ∀ other ∈ s.callbacks, other ≠ fired → Placed s other)
    (cleanup : ReachesCleanup s.loop action)
    (schedules : ∀ loop, loopStep s.loop action = some loop →
      SchedulesCallback s.loop loop (s.loop.queues.nextItem .callback tid)) :
    Watching next := by
  unfold scheduleReady at moved
  split at moved
  next isCancelled =>
    cases moved
    refine ⟨inv, fun other mem => placed other mem ?_⟩
    rintro rfl
    exact inv.current _ mem isCancelled
  next notCancelled =>
    obtain ⟨loop, stepped, rfl⟩ := Option.map_eq_some_iff.mp moved
    have registered := inv.live fired mentioned notCancelled
    exact watching_fire inv (conserving_loopStep inv.conserving cleanup stepped)
      (schedules loop stepped) registered (absent registered) placed

theorem mem_finishWait (waits : ⟨fired, true⟩ ∈ tasks) : ⟨fired, false⟩ ∈ finishWait fired tasks :=
  mem_map.mpr ⟨⟨fired, true⟩, waits, if_pos rfl⟩

theorem watching_localReady (inv : Watching s)
    (waits : ⟨fired, true⟩ ∈ s.localTasks)
    (moved : { s with localTasks := finishWait fired s.localTasks }.scheduleReady
        fired 0 (.enqueue .callback) = some next) : Watching next := by
  refine watching_scheduleReady moved ?_ (.localTask false (mem_finishWait waits))
    ?_ ?_ rfl fun _ stepped => schedulesCallback_enqueue stepped
  · refine inv.of_frame ⟨rfl, rfl, rfl, rfl, rfl, rfl⟩ fun _ mentioned => .inr ?_
    refine mentioned.imp id (fun _ mem => ?_) (fun _ => .inl) .inl (fun _ => .inl) .inl
    obtain ⟨before, old⟩ := mem_of_mem_finishWait mem
    exact .inr (.localTask before old)
  · intro registered
    have once := (inv.placed fired registered).once
    have positive := count_pos_iff.mpr waits
    unfold WatchState.armed at once ⊢
    change (finishWait fired s.localTasks).count ⟨fired, true⟩ +
      s.remoteTasks.count ⟨fired, true⟩ +
      s.commands.count (.start fired) + s.queued fired + s.busy fired = 0
    rw [count_finishWait_self]
    omega
  · exact fun other mem different =>
      (inv.placed other mem).setLocal (count_finishWait_of_ne different.symm)

theorem Placed.setRemote (placed : Placed s cb)
    (same : tasks.count ⟨cb, true⟩ = s.remoteTasks.count ⟨cb, true⟩) :
    Placed { s with remoteTasks := tasks } cb := by
  refine ⟨?_, fun waits => placed.settled ?_, placed.last⟩
  · have once := placed.once
    unfold WatchState.armed at once ⊢
    rwa [same]
  · rw [← count_pos_iff] at waits ⊢
    rwa [← same]

theorem watching_remoteReady (inv : Watching s)
    (waits : ⟨fired, true⟩ ∈ s.remoteTasks)
    (moved : { s with remoteTasks := finishWait fired s.remoteTasks }.scheduleReady
        fired tid (.call tid .callback) = some next) : Watching next := by
  refine watching_scheduleReady moved ?_ (.remoteTask false (mem_finishWait waits)) ?_ ?_ rfl
    fun _ stepped => schedulesCallback_call stepped
  · refine inv.of_frame ⟨rfl, rfl, rfl, rfl, rfl, rfl⟩ fun _ mentioned => .inr ?_
    refine mentioned.imp id (fun _ => .inl) (fun _ mem => ?_) .inl (fun _ => .inl) .inl
    obtain ⟨before, old⟩ := mem_of_mem_finishWait mem
    exact .inr (.remoteTask before old)
  · intro registered
    have once := (inv.placed fired registered).once
    have positive := count_pos_iff.mpr waits
    unfold WatchState.armed at once ⊢
    change s.localTasks.count ⟨fired, true⟩ +
      (finishWait fired s.remoteTasks).count ⟨fired, true⟩ +
      s.commands.count (.start fired) + s.queued fired + s.busy fired = 0
    rw [count_finishWait_self]
    omega
  · exact fun other mem different =>
      (inv.placed other mem).setRemote (count_finishWait_of_ne different.symm)

/-! ## All steps -/

theorem WatchState.follow_eq (s : WatchState) (loop : LoopState) :
    ∃ deferred invoked,
    s.follow loop =
      { s with loop := loop, deferredFdRearms := deferred, invoked := invoked } := by
  unfold follow
  split <;> exact ⟨_, _, rfl⟩

theorem mentions_follow (mentioned : Mentions (s.follow loop) cb) :
    Mentions s cb := by
  unfold follow at mentioned
  split at mentioned
  · exact mentioned.registrations
  next _ _ item _ _ =>
    refine mentioned.imp id (fun _ => .inl) (fun _ => .inl) .inl (fun _ => .inl) fun mem => ?_
    split at mem
    · cases mem
    · exact (mem_append.mp mem).imp_right fun new =>
        .fire item (mem_of_carried (Option.mem_toList.mp new))
  · exact mentioned.registrations

theorem watching_follow (inv : Watching s)
    (cleanup : ReachesCleanup s.loop action)
    (moved : loopStep s.loop action = some loop) : Watching (s.follow loop) := by
  have after := conserving_loopStep inv.conserving cleanup moved
  have mentions : ∀ cb, Mentions (s.follow loop) cb → Mentions s cb :=
    fun _ => mentions_follow
  have placed : ∀ cb ∈ s.callbacks, Placed (s.follow loop) cb :=
    fun cb mem => (inv.placed cb mem).follow inv.scheduled inv.conserving after moved
  obtain ⟨_, _, moves⟩ := itemsMove_loopStep moved
  obtain ⟨deferred, invoked, same⟩ := s.follow_eq loop
  rw [same] at mentions placed ⊢
  exact
    { conserving := after
      scheduled := fun entry mem =>
        (inv.scheduled entry mem).imp_right (Nat.lt_of_lt_of_le · moves.scheduled)
      executing := by
        intro item executes
        cases itemStep_loopStep moved with
        | begins _ _ executing popped =>
          cases executing.symm.trans executes
          rw [popped]
          exact mem_append_right _ mem_cons_self
        | ends _ _ idle =>
          cases idle.symm.trans executes
        | stays same popped =>
          rw [popped]
          exact inv.executing item (same ▸ executes)
      distinct := inv.distinct
      numbered := fun cb known => inv.numbered cb (known.imp_left (mentions cb))
      live := fun cb mentioned => inv.live cb (mentions cb mentioned)
      current := inv.current
      placed := placed }

theorem watching_watchStep (inv : Watching s) {action : WatchAction}
    (cleanup : WatchReachesCleanup s action)
    (moved : watchStep s action = some next) : Watching next := by
  cases action with
  | loop =>
    simp only [watchStep] at moved
    split_ifs at moved
    obtain ⟨loop, stepped, rfl⟩ := Option.map_eq_some_iff.mp moved
    exact watching_follow inv cleanup stepped
  | addReader fd fileobj | addWriter fd fileobj =>
    simp only [watchStep] at moved
    split_ifs at moved
    cases moved
    exact watching_addWatch inv _ fd fileobj
  | removeReader fd fileobj order | removeWriter fd fileobj order =>
    simp only [watchStep] at moved
    split_ifs at moved
    cases moved
    exact watching_removeWatch inv _ fd fileobj order
  | localReady =>
    simp only [watchStep] at moved
    split_ifs at moved
    next waits => exact watching_localReady inv waits.2 moved
  | remoteReady =>
    simp only [watchStep] at moved
    split_ifs at moved
    next waits => exact watching_remoteReady inv waits.2 moved
  | dispatcher =>
    simp only [watchStep] at moved
    split at moved <;> cases moved
    rename_i cmd rest _ cmds
    exact watching_serve inv cmds
  | rearm =>
    simp only [watchStep] at moved
    split at moved <;> cases moved
    rename_i ready rest _ deferred
    exact watching_rearm inv deferred

/-! ## Callbacks that are not registered any more -/

/-- The registration of the callback has been removed or replaced: callbacks are
numbered, and this number has been given out. -/
def Superseded (s : WatchState) (cb : WatchCallback) : Prop :=
  cb.id < s.nextCallbackId ∧ cb ∉ s.callbacks

/-- What a step registers is new, and what it invokes is registered. -/
structure InvokesRegistered (s next : WatchState) : Prop where
  nextCallbackId : s.nextCallbackId ≤ next.nextCallbackId
  callbacks : ∀ callback ∈ next.callbacks,
    callback ∈ s.callbacks ∨ s.nextCallbackId ≤ callback.id
  invoked : ∃ added, next.invoked = s.invoked ++ added ∧
    ∀ callback ∈ added, callback ∈ s.callbacks

theorem InvokesRegistered.of_fewer
    (nextCallbackId : next.nextCallbackId = s.nextCallbackId)
    (callbacks : next.callbacks ⊆ s.callbacks)
    (invoked : next.invoked = s.invoked) : InvokesRegistered s next where
  nextCallbackId := Nat.le_of_eq nextCallbackId.symm
  callbacks := fun _ mem => .inl (callbacks mem)
  invoked := ⟨[], by rw [invoked, append_nil], nofun⟩

theorem RegistryFrame.invokesRegistered (frame : RegistryFrame s next) :
    InvokesRegistered s next :=
  .of_fewer frame.nextCallbackId (by rw [frame.callbacks]; exact List.Subset.refl _) frame.invoked

theorem callbacks_filter_subset (p : FdWatch → Bool) :
    (s.keepalive.filter p).map FdWatch.ready ⊆ s.callbacks :=
  (filter_sublist.map _).subset

theorem invokesRegistered_addWatch (s : WatchState) (writable : Bool)
    (fd : Int) (fileobj : Nat) :
    InvokesRegistered s (addWatch s writable fd fileobj) := by
  have added {middle : WatchState} (ready : WatchCallback)
      (nextCallbackId : middle.nextCallbackId = s.nextCallbackId + 1)
      (keepalive : middle.keepalive = ⟨fileobj, ⟨s.nextCallbackId, fd, writable⟩⟩ ::
          s.keepalive.filter fun watch =>
            decide (watch.ready.key ≠ (fd, writable)))
      (invoked : middle.invoked = s.invoked) :
      InvokesRegistered s (startFdWatch middle ready) := by
    have frame := registryFrame_startFdWatch middle ready
    refine ⟨?_, ?_, [], ?_, nofun⟩
    · rw [frame.nextCallbackId, nextCallbackId]
      exact Nat.le_succ _
    · rw [frame.callbacks]
      unfold WatchState.callbacks
      rw [keepalive]
      intro cb mem
      rcases mem_cons.mp mem with rfl | old
      · exact .inr (Nat.le_refl _)
      · exact .inl (callbacks_filter_subset _ old)
    · rw [frame.invoked, invoked, append_nil]
  unfold addWatch
  split
  next previous _ =>
    have frame := registryFrame_stopFdWatch
      { s with
        nextCallbackId := s.nextCallbackId + 1
        keepalive := ⟨fileobj, ⟨s.nextCallbackId, fd, writable⟩⟩ ::
          s.keepalive.filter fun watch =>
            decide (watch.ready.key ≠ (fd, writable))
        cancelled := previous.ready :: s.cancelled } fd writable
    exact added _ frame.nextCallbackId frame.keepalive frame.invoked
  · exact added _ rfl rfl rfl

theorem invokesRegistered_removeWatch (s : WatchState) (writable : Bool)
    (fd : Int) (fileobj order : Nat) :
    InvokesRegistered s (removeWatch s writable fd fileobj order) := by
  unfold removeWatch
  split
  next removed _ =>
    have frame := registryFrame_stopFdWatch
      { s with
        keepalive := s.keepalive.filter fun watch =>
          decide (watch.ready.key ≠ removed.ready.key)
        cancelled := removed.ready :: s.cancelled } removed.ready.fd writable
    refine .of_fewer frame.nextCallbackId ?_ frame.invoked
    rw [frame.callbacks]
    exact callbacks_filter_subset _
  · exact (registryFrame_stopFdWatch s fd writable).invokesRegistered

theorem invokesRegistered_follow (inv : Registry s) (loop : LoopState) :
    InvokesRegistered s (s.follow loop) := by
  unfold follow
  split
  next item _ _ =>
    refine ⟨Nat.le_refl _, fun _ mem => .inl mem, _, rfl, ?_⟩
    intro cb mem
    obtain ⟨carried, notCancelled⟩ := mem_filter.mp mem
    exact inv.live cb
      (.fire item (mem_of_carried (Option.mem_toList.mp carried)))
      (of_decide_eq_true notCancelled)
  · exact .of_fewer rfl (List.Subset.refl _) rfl
  · exact .of_fewer rfl (List.Subset.refl _) rfl

theorem invokesRegistered_scheduleReady
    (moved : s.scheduleReady cb tid action = some next) :
    InvokesRegistered s next := by
  unfold scheduleReady at moved
  split at moved
  · cases moved
    exact .of_fewer rfl (List.Subset.refl _) rfl
  · obtain ⟨loop, _, rfl⟩ := Option.map_eq_some_iff.mp moved
    exact .of_fewer rfl (List.Subset.refl _) rfl

theorem invokesRegistered_rearm (s : WatchState) (ready : WatchCallback) :
    InvokesRegistered s (rearmFdWatchIfNeeded s ready) := by
  unfold rearmFdWatchIfNeeded
  split
  · split
    · exact (registryFrame_startFdWatch s ready).invokesRegistered
    · exact .of_fewer rfl (List.Subset.refl _) rfl
  · exact .of_fewer rfl (List.Subset.refl _) rfl

theorem invokesRegistered_watchStep (inv : Registry s) {action : WatchAction}
    (moved : watchStep s action = some next) : InvokesRegistered s next := by
  cases action with
  | loop =>
    simp only [watchStep] at moved
    split_ifs at moved
    obtain ⟨loop, _, rfl⟩ := Option.map_eq_some_iff.mp moved
    exact invokesRegistered_follow inv loop
  | addReader fd fileobj | addWriter fd fileobj =>
    simp only [watchStep] at moved
    split_ifs at moved
    cases moved
    exact invokesRegistered_addWatch s _ fd fileobj
  | removeReader fd fileobj order | removeWriter fd fileobj order =>
    simp only [watchStep] at moved
    split_ifs at moved
    cases moved
    exact invokesRegistered_removeWatch s _ fd fileobj order
  | localReady fired | remoteReady fired tid =>
    simp only [watchStep] at moved
    split_ifs at moved
    exact { invokesRegistered_scheduleReady moved with }
  | dispatcher =>
    simp only [watchStep] at moved
    split at moved <;> cases moved
    rename_i cmd _ _ _
    cases cmd with
    | start started | stop fd writable => exact .of_fewer rfl (List.Subset.refl _) rfl
  | rearm =>
    simp only [watchStep] at moved
    split at moved <;> cases moved
    rename_i ready rest _ _
    exact { invokesRegistered_rearm { s with deferredFdRearms := rest } ready with }

theorem InvokesRegistered.superseded (invokes : InvokesRegistered s next)
    (superseded : Superseded s cb) :
    Superseded next cb ∧ next.invoked.count cb = s.invoked.count cb := by
  obtain ⟨bounded, unregistered⟩ := superseded
  refine ⟨⟨Nat.lt_of_lt_of_le bounded invokes.nextCallbackId, ?_⟩, ?_⟩
  · intro mem
    rcases invokes.callbacks cb mem with old | new
    · exact unregistered old
    · exact absurd bounded (Nat.not_lt.mpr new)
  · obtain ⟨added, invoked, registered⟩ := invokes.invoked
    rw [invoked, count_append, count_eq_zero.mpr fun mem =>
      unregistered (registered cb mem), Nat.add_zero]

/-- In all runs that reach their cleanup, the callback of a current registration
is in exactly one state, and a callback whose registration has been removed or
replaced is not invoked any more. -/
theorem inOneState_of_reachesCleanup (threads : Nat)
    {first second : List WatchAction} {before s : WatchState}
    (cleanup : Guarded watchStep WatchReachesCleanup (.new threads) first)
    (cleanupLater : Guarded watchStep WatchReachesCleanup before second)
    (reached : run watchStep (.new threads) first = some before)
    (later : run watchStep before second = some s) :
    (∀ fd writable watch, s.registered fd writable = some watch →
        InOneState s watch.ready) ∧
      ∀ cb, Superseded before cb →
        s.invoked.count cb = before.invoked.count cb := by
  have inv : Watching before :=
    invariant_of_run Watching
      (fun _ _ _ inv cleanup moved => watching_watchStep inv cleanup moved)
      (watching_new threads) cleanup reached
  constructor
  · have after : Watching s :=
      invariant_of_run Watching
        (fun _ _ _ inv cleanup moved => watching_watchStep inv cleanup moved)
        inv cleanupLater later
    intro fd writable watch found
    obtain ⟨member, _⟩ := registered_eq_some found
    exact (after.placed _ (mem_map_of_mem member)).inOneState
  · intro cb superseded
    obtain ⟨_, _, same⟩ : Watching s ∧ Superseded s cb ∧
        s.invoked.count cb = before.invoked.count cb :=
      invariant_of_run (fun current => Watching current ∧ Superseded current cb ∧
          current.invoked.count cb = before.invoked.count cb)
        (fun current _ changed all cleanup moved => by
          obtain ⟨inv, superseded, same⟩ := all
          obtain ⟨still, count⟩ :=
            (invokesRegistered_watchStep inv.toRegistry moved).superseded superseded
          exact ⟨watching_watchStep inv cleanup moved, still, count.trans same⟩)
        ⟨inv, superseded, rfl⟩ cleanupLater later
    exact same

/-- A reader registered while the loop is stopped fires once on the dispatcher
and, when it has been armed again, once on the loop's own runtime. It is removed
before that second item is executed. -/
def removedReader : List WatchAction :=
  List.flatten [[.addReader 5 0, .loop .dispatcher, .dispatcher, .remoteReady ⟨0, 5, false⟩ 1],
      List.replicate 2 (.loop (.producer 1)), [.loop .runForever],
      List.replicate 4 (.loop (.loop .proceed)),
      List.replicate 7 (.loop .dispatcher), [.loop (.loop (.timersDue 0))],
      List.replicate 3 (.loop (.loop .proceed)),
      [.loop (.loop (.executed .returned)), .loop (.loop .proceed), .rearm],
      List.replicate 2 (.loop (.loop .proceed)),
      [.localReady ⟨0, 5, false⟩, .removeReader 5 0 0]]

/-- The next turn skips the item, and the descriptor gets a new reader. -/
def skippedItem : List WatchAction :=
  List.flatten [[.loop (.loop .proceed), .loop (.loop (.timersDue 0))],
      List.replicate 3 (.loop (.loop .proceed)),
      [.addReader 5 0, .loop (.loop (.executed .returned)), .loop (.loop .proceed), .rearm]]

theorem inOneState_of_removedReader : ∃ before s,
      run watchStep (.new 2) removedReader = some before ∧ before.invoked = [⟨0, 5, false⟩] ∧
        before.queued ⟨0, 5, false⟩ = 1 ∧
        run watchStep before skippedItem = some s ∧
        s.queued ⟨0, 5, false⟩ = 0 ∧
        s.registered 5 false = some ⟨0, ⟨1, 5, false⟩⟩ ∧
        InOneState s ⟨1, 5, false⟩ ∧
        s.invoked.count ⟨0, 5, false⟩ = 1 := by
  obtain ⟨before, s, reached, later, cleanup, invoked, queued, superseded,
      skipped, registered⟩ :=
    exists_runs_of_any watchStep (.new 2) removedReader skippedItem (fun before s =>
        Guarded watchStep WatchReachesCleanup before skippedItem ∧
          before.invoked = [⟨0, 5, false⟩] ∧
          before.queued ⟨0, 5, false⟩ = 1 ∧
          (0 < before.nextCallbackId ∧ (⟨0, 5, false⟩ : WatchCallback) ∉ before.callbacks) ∧
          s.queued ⟨0, 5, false⟩ = 0 ∧
          s.registered 5 false = some ⟨0, ⟨1, 5, false⟩⟩)
      (by decide)
  obtain ⟨placed, silent⟩ := inOneState_of_reachesCleanup 2 (by decide) cleanup reached later
  refine ⟨before, s, reached, invoked, queued, later, skipped, registered,
    placed 5 false _ registered, ?_⟩
  rw [silent ⟨0, 5, false⟩ superseded, invoked]
  rfl

end Rsloop.Engine
