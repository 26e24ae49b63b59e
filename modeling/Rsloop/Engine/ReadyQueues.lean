import Rsloop.Engine.PendingReady

/-!
# The queues of the loop

A ready item waits on the command channel, in the dispatcher's batch, in the
queue of off-thread work of a run, in the loop thread's own queue or in the
batch of the current generation. The operations below are the ways in which
items move between them.
-/

namespace Rsloop.Engine

open List

inductive ReadyKind where
  | stop
  | callback
  | handle
  | timer
  | futureSetResult
  | futureSetException
  | streamTransportRead
  | streamTransportWrite
  | startSocketReader
  | processTransport
  | startServerAccept
  | stopServerAccept
  | serverAccepted
  | connectCompleted
  | loopWork
  deriving DecidableEq

/-- `thread` scheduled the item; the loop's own thread is thread `0`. Items are
numbered in the order in which they are scheduled. -/
structure ReadyItem where
  kind : ReadyKind
  thread : Nat
  stamp : Nat
  deriving DecidableEq

def ReadyItem.isHandle (item : ReadyItem) : Bool :=
  item.kind = .handle

/-- The items for which the dispatcher starts or stops an I/O task itself when
they reach it as a command. -/
def ReadyKind.runsOnDispatcher : ReadyKind → Bool
  | .startSocketReader | .startServerAccept | .stopServerAccept => true
  | _ => false

inductive Command where
  | schedule (item : ReadyItem)
  | io (item : ReadyItem)
  | enterRun (run localMark : Nat)
  | finishRun (run : Nat)
  deriving DecidableEq

def Command.ofItem (item : ReadyItem) : Command :=
  if item.kind.runsOnDispatcher then .io item else .schedule item

def Command.readyItem : Command → List ReadyItem
  | .schedule item => [item]
  | _ => []

/-- The runs' queues stand in `pendings`, one for every run, the oldest first.
`scheduled`, `enqueued` and `popped` are the history: all calls, all items that
have entered a queue, all items taken out for execution. -/
structure Queues where
  channel : List Command
  dispatcherBatch : List ReadyItem
  pendings : List (PendingReady ReadyItem)
  readyBatch : List ReadyItem
  localReady : List ReadyItem
  localTaken : Nat
  localEnqueues : Nat
  scheduled : List ReadyItem
  enqueued : List ReadyItem
  popped : List ReadyItem
  deriving DecidableEq

namespace Queues

def new : Queues where
  channel := []
  dispatcherBatch := []
  pendings := []
  readyBatch := []
  localReady := []
  localTaken := 0
  localEnqueues := 0
  scheduled := []
  enqueued := []
  popped := []

def pending (q : Queues) (run : Nat) : PendingReady ReadyItem :=
  q.pendings[run]?.getD .empty

def setPending (q : Queues) (run : Nat) (pending : PendingReady ReadyItem) : Queues :=
  { q with pendings := q.pendings.set run pending }

def nextItem (q : Queues) (kind : ReadyKind) (tid : Nat) : ReadyItem where
  kind := kind
  thread := tid
  stamp := q.scheduled.length

def schedule (q : Queues) (item : ReadyItem) : Queues :=
  { q with scheduled := q.scheduled ++ [item] }

/-- `try_enqueue_local_ready` on the loop thread. -/
def enqueueLocal (q : Queues) (item : ReadyItem) : Queues :=
  { q with
    scheduled := q.scheduled ++ [item]
    enqueued := q.enqueued ++ [item]
    localReady := q.localReady ++ [item]
    localEnqueues := q.localEnqueues + 1 }

/-- `LocalTimers::collect` moves due timers to the local queue. -/
def collect (q : Queues) : Nat → Queues
  | 0 => q
  | due + 1 => collect (q.enqueueLocal (q.nextItem .timer 0)) due

/-- The push of `try_enqueue_active_ready`. -/
def pushActive (q : Queues) (run : Nat) (item : ReadyItem) : Queues :=
  { q.setPending run ((q.pending run).push item q.localEnqueues) with
    enqueued := q.enqueued ++ [item] }

/-- `send_remote_command` -/
def send (q : Queues) (item : ReadyItem) : Queues :=
  { q with
    channel := q.channel ++ [Command.ofItem item]
    enqueued := q.enqueued ++ (Command.ofItem item).readyItem }

def sendRun (q : Queues) (cmd : Command) : Queues :=
  { q with channel := q.channel ++ [cmd] }

def receive (q : Queues) : Queues :=
  { q with
    channel := q.channel.tail
    dispatcherBatch := q.dispatcherBatch ++
      (q.channel.head?.toList.flatMap Command.readyItem) }

/-- The locked section of `forward_ready_batch` -/
def forward (q : Queues) (run localMark : Nat) : Queues :=
  { q.setPending run ((q.pending run).extend q.dispatcherBatch localMark) with
    dispatcherBatch := [] }

/-- The locked section of `finish_run` -/
def takeBack (q : Queues) (run : Nat) : Queues :=
  { q.setPending run .empty with
    dispatcherBatch := (q.pending run).items ++ q.dispatcherBatch }

/-- The last reference to the queue of a run goes. -/
def discard (q : Queues) (run : Nat) : Queues :=
  q.setPending run .empty

/-- `run_forever` makes its queue. -/
def openRun (q : Queues) : Queues :=
  { q with pendings := q.pendings ++ [.empty] }

def swap (q : Queues) : Queues :=
  { q with
    localTaken := q.localTaken + q.localReady.length
    readyBatch := q.localReady
    localReady := [] }

def merge (q : Queues) (run : Nat) : Queues :=
  let merged := mergeReadyGeneration q.localTaken q.localReady (q.pending run)
  { q.setPending run { items := merged.items, marks := [] } with
    readyBatch := merged.batch
    localReady := merged.localReady
    localTaken := merged.localTaken }

def pop (q : Queues) : Queues :=
  { q with
    readyBatch := q.readyBatch.tail
    popped := q.popped ++ q.readyBatch.head?.toList }

/-- The cleanup tail hands what it has not executed to the run's queue. -/
def leave (q : Queues) (run : Nat) : Queues :=
  let merged := mergeReadyGeneration q.localTaken q.localReady (q.pending run)
  { q.setPending run
      { items := q.readyBatch ++ merged.batch, marks := [] } with
    readyBatch := []
    localReady := merged.localReady
    localTaken := merged.localTaken }

/-- An early return drops the batch and the local queue. -/
def abandon (q : Queues) : Queues :=
  { q with readyBatch := [], localReady := [] }

/-- `run_forever` installs an empty local queue. -/
def install (q : Queues) : Queues :=
  { q with localReady := [], localTaken := q.localEnqueues }

/-! ## What waits -/

/-- The runs' queues, the newest first: what an older run has left is put behind
what the loop holds already. -/
def inRuns (q : Queues) : List ReadyItem :=
  q.pendings.reverse.flatMap PendingReady.items

def onChannel (q : Queues) : List ReadyItem :=
  q.channel.flatMap Command.readyItem

/-- All that waits outside the loop thread's own queue, in the order in which
it will be executed. -/
def waiting (q : Queues) : List ReadyItem :=
  q.readyBatch ++ (q.inRuns ++ (q.dispatcherBatch ++ q.onChannel))

def newerThan (q : Queues) (run : Nat) : List ReadyItem :=
  (q.pendings.drop (run + 1)).reverse.flatMap PendingReady.items

def olderThan (q : Queues) (run : Nat) : List ReadyItem :=
  (q.pendings.take run).reverse.flatMap PendingReady.items

/-- All items that the loop has had: executed, waiting, in the local queue. -/
def held (q : Queues) : List ReadyItem :=
  q.popped ++ (q.waiting ++ q.localReady)

/-! ## The operations and what is held -/

variable (q : Queues) {run : Nat} {item : ReadyItem} {p : ReadyItem → Bool}

theorem inRuns_eq (inRange : run < q.pendings.length) : q.inRuns =
      q.newerThan run ++ ((q.pending run).items ++ q.olderThan run) := by
  have split : q.pendings = q.pendings.take run ++
          q.pending run :: q.pendings.drop (run + 1) := by
    unfold pending
    rw [getElem?_eq_getElem inRange, Option.getD_some,
      getElem_cons_drop, take_append_drop]
  unfold inRuns newerThan olderThan
  nth_rewrite 1 [split]
  simp only [reverse_append, reverse_cons, append_assoc,
    flatMap_append, flatMap_cons, singleton_append]

theorem inRuns_setPending (inRange : run < q.pendings.length)
    (changed : PendingReady ReadyItem) :
    (q.setPending run changed).inRuns =
      q.newerThan run ++ (changed.items ++ q.olderThan run) := by
  have split : q.pendings.set run changed = q.pendings.take run ++
          changed :: q.pendings.drop (run + 1) :=
    by rw [set_eq_take_append_cons_drop, if_pos inRange]
  unfold inRuns newerThan olderThan setPending
  rw [split]
  simp only [reverse_append, reverse_cons, append_assoc,
    flatMap_append, flatMap_cons, singleton_append]

theorem newerThan_eq_nil (newest : run + 1 = q.pendings.length) :
    q.newerThan run = [] := by
  unfold newerThan
  rw [newest, drop_length]
  rfl

theorem held_receive : q.receive.held = q.held := by
  cases q with
  | mk chan =>
    cases chan with
    | nil | cons cmd rest => simp [held, waiting, receive, onChannel, inRuns]

theorem held_sendRun {cmd : Command} (carriesNone : cmd.readyItem = []) :
    (q.sendRun cmd).held = q.held := by
  simp [held, waiting, sendRun, onChannel, inRuns, carriesNone]

theorem held_openRun : q.openRun.held = q.held := by
  simp [held, waiting, openRun, onChannel, inRuns, PendingReady.empty]

theorem held_pop : q.pop.held = q.held := by
  cases batch : q.readyBatch with
  | nil | cons item rest => simp [held, waiting, pop, onChannel, inRuns, batch]

theorem held_enqueueLocal : (q.enqueueLocal item).held = q.held ++ [item] := by
  simp [held, waiting, enqueueLocal, onChannel, inRuns]

theorem held_install (none : q.localReady = []) : q.install.held = q.held := by
  simp [held, waiting, install, onChannel, inRuns, none]

section

variable (inRange : run < q.pendings.length)

include inRange

theorem held_setPending (changed : PendingReady ReadyItem) :
    (q.setPending run changed).held =
      q.popped ++ (q.readyBatch ++ (q.newerThan run ++
        (changed.items ++ (q.olderThan run ++ (q.dispatcherBatch ++ (q.onChannel ++
            q.localReady)))))) := by
  have inRuns := q.inRuns_setPending inRange changed
  unfold held waiting
  rw [inRuns]
  simp only [append_assoc]
  rfl

theorem held_eq : q.held =
      q.popped ++ (q.readyBatch ++ (q.newerThan run ++
        ((q.pending run).items ++ (q.olderThan run ++
          (q.dispatcherBatch ++ (q.onChannel ++ q.localReady)))))) := by
  unfold held waiting
  rw [q.inRuns_eq inRange]
  simp only [append_assoc]

/-- The items of all older runs have been taken back when the dispatcher
forwards to a run, so nothing is overtaken. -/
theorem held_forward (oldest : q.olderThan run = []) (localMark : Nat) :
    (q.forward run localMark).held = q.held := by
  have changed := held_setPending { q with dispatcherBatch := [] }
    inRange ((q.pending run).extend q.dispatcherBatch localMark)
  refine changed.trans ?_
  rw [q.held_eq inRange, oldest, PendingReady.items_extend]
  have same : olderThan { q with dispatcherBatch := [] } run = [] := oldest
  rw [same]
  simp only [append_assoc, nil_append]
  rfl

theorem held_takeBack (oldest : q.olderThan run = []) :
    (q.takeBack run).held = q.held := by
  have changed := held_setPending
    { q with dispatcherBatch := (q.pending run).items ++ q.dispatcherBatch }
    inRange .empty
  refine changed.trans ?_
  rw [q.held_eq inRange, oldest]
  have same : olderThan
        { q with
          dispatcherBatch := (q.pending run).items ++ q.dispatcherBatch } run = [] :=
    oldest
  rw [same]
  simp only [append_assoc, nil_append, PendingReady.empty]
  rfl

end

theorem held_discard_sublist : (q.discard run).held.Sublist q.held := by
  by_cases inRange : run < q.pendings.length
  · have emptied : (q.discard run).held = _ := q.held_setPending inRange .empty
    rw [emptied, q.held_eq inRange]
    refine (List.Sublist.refl _).append ((List.Sublist.refl _).append
      ((List.Sublist.refl _).append ?_))
    exact sublist_append_right _ _
  · have unchanged : q.discard run = q := by
      unfold discard setPending
      rw [set_eq_of_length_le (by omega)]
    rw [unchanged]

theorem held_abandon_sublist : q.abandon.held.Sublist q.held := by
  refine (List.Sublist.refl _).append ?_
  refine List.Sublist.append ?_ (nil_sublist _)
  exact sublist_append_right _ _

/-- An item that goes straight to the queue of the run passes everything that
the dispatcher has still to forward. -/
theorem filter_held_pushActive (inRange : run < q.pendings.length) (behind : p item →
      (q.olderThan run).filter p = [] ∧ q.dispatcherBatch.filter p = [] ∧
        q.onChannel.filter p = [] ∧ q.localReady.filter p = []) :
    (q.pushActive run item).held.filter p = q.held.filter p ++ [item].filter p := by
  have changed := q.held_setPending inRange
    ((q.pending run).push item q.localEnqueues)
  have same : (q.pushActive run item).held = (q.setPending run
          ((q.pending run).push item q.localEnqueues)).held := rfl
  rw [same, changed, q.held_eq inRange, PendingReady.items_push]
  by_cases counted : p item
  · obtain ⟨older, batch, chan, own⟩ := behind counted
    simp only [filter_append, older, batch, chan, own, append_nil, append_assoc]
  · simp [filter_append, counted]

theorem filter_held_send (behind : p item → q.localReady.filter p = []) :
    (q.send item).held.filter p =
      q.held.filter p ++ (Command.ofItem item).readyItem.filter p := by
  have kept : (Command.ofItem item).readyItem = [] ∨
        (Command.ofItem item).readyItem = [item] := by
    unfold Command.ofItem
    split
    · exact .inl rfl
    · exact .inr rfl
  rcases kept with none | one
  · simp [held, waiting, send, onChannel, inRuns, none]
  · have sent : (q.send item).held =
        q.popped ++ (q.waiting ++ ([item] ++ q.localReady)) := by
      simp [held, waiting, send, onChannel, inRuns, one]
    rw [sent, one, held]
    by_cases counted : p item
    · simp only [filter_append, behind counted, append_nil, append_assoc]
    · simp [filter_append, counted]

/-! ## Generations -/

theorem filter_held_swap (generationOver : q.readyBatch = [])
    (alone : q.localReady.filter p = [] ∨ q.waiting.filter p = []) :
    q.swap.held.filter p = q.held.filter p := by
  have swapped : q.swap.held = q.popped ++ (q.localReady ++ q.waiting) := by
    simp [held, waiting, swap, onChannel, inRuns, generationOver]
  rw [swapped, held]
  rcases alone with own | other
  · simp only [filter_append, own, nil_append, append_nil]
  · simp only [filter_append, other, nil_append, append_nil]

theorem held_swap_perm (generationOver : q.readyBatch = []) :
    q.swap.held.Perm q.held := by
  have swapped : q.swap.held = q.popped ++ (q.localReady ++ q.waiting) := by
    simp [held, waiting, swap, onChannel, inRuns, generationOver]
  rw [swapped, held]
  exact perm_append_comm.append_left _

/-- What the dispatcher has still to forward to the newest run. -/
def notForwarded (q : Queues) (run : Nat) : List ReadyItem :=
  q.olderThan run ++ (q.dispatcherBatch ++ q.onChannel)

/-- The merge as it appears in the list of all that is held, both for a new
generation and for what the cleanup tail leaves. -/
def merged (q : Queues) (run : Nat) : List ReadyItem :=
  (mergeReadyGeneration q.localTaken q.localReady (q.pending run)).batch

section

variable (newest : run + 1 = q.pendings.length)

include newest

theorem held_newest : q.held =
      q.popped ++ (q.readyBatch ++ ((q.pending run).items ++
        (q.notForwarded run ++ q.localReady))) := by
  rw [q.held_eq (by omega : run < q.pendings.length),
    q.newerThan_eq_nil newest, notForwarded]
  simp only [append_assoc, nil_append]

theorem held_merge (valid : (q.pending run).Valid)
    (generationOver : q.readyBatch = []) :
    (q.merge run).held = q.popped ++ (q.readyBatch ++
        (q.merged run ++ q.notForwarded run)) := by
  have changed := held_setPending
    { q with readyBatch := q.merged run, localReady := [] }
    (by omega : run < q.pendings.length) ⟨[], []⟩
  have same : (q.merge run).held = (setPending
        { q with readyBatch := q.merged run, localReady := [] } run ⟨[], []⟩).held := by
    unfold merge merged
    simp only [items_mergeReadyGeneration valid, localReady_mergeReadyGeneration]
    rfl
  have newer : newerThan
      { q with readyBatch := q.merged run, localReady := [] } run = [] :=
    q.newerThan_eq_nil newest
  rw [same, changed, newer, generationOver, notForwarded]
  simp only [nil_append, append_nil]
  rfl

theorem held_leave : (q.leave run).held =
      q.popped ++ (q.readyBatch ++ (q.merged run ++ q.notForwarded run)) := by
  have changed := held_setPending
    { q with readyBatch := [], localReady := [] }
    (by omega : run < q.pendings.length)
    ⟨q.readyBatch ++ q.merged run, []⟩
  have same : (q.leave run).held = (setPending
        { q with readyBatch := [], localReady := [] } run
        ⟨q.readyBatch ++ q.merged run, []⟩).held := by
    unfold leave merged
    simp only [localReady_mergeReadyGeneration]
    rfl
  have newer : newerThan
      { q with readyBatch := [], localReady := [] } run = [] :=
    q.newerThan_eq_nil newest
  rw [same, changed, newer, notForwarded]
  simp only [nil_append, append_nil, append_assoc]
  rfl

end

/-- Items keep their order in a merge if only one of the two queues has some of
them, or if the local ones stand behind all others. -/
theorem filter_merged (ordered : (q.merged run).filter p =
      (q.pending run).items.filter p ++ q.localReady.filter p)
    (alone : q.localReady.filter p = [] ∨ (q.notForwarded run).filter p = []) :
    (q.merged run ++ q.notForwarded run).filter p = ((q.pending run).items ++
        (q.notForwarded run ++ q.localReady)).filter p := by
  rw [filter_append, ordered]
  rcases alone with own | other
  · simp only [filter_append, own, append_nil]
  · simp only [filter_append, other, append_nil, nil_append]

theorem filter_held_merge (newest : run + 1 = q.pendings.length)
    (valid : (q.pending run).Valid) (generationOver : q.readyBatch = [])
    (ordered : (q.merged run).filter p =
      (q.pending run).items.filter p ++ q.localReady.filter p)
    (alone : q.localReady.filter p = [] ∨ (q.notForwarded run).filter p = []) :
    (q.merge run).held.filter p = q.held.filter p := by
  have together := q.filter_merged ordered alone
  rw [q.held_merge newest valid generationOver, q.held_newest newest]
  simp only [filter_append] at together ⊢
  rw [together]

theorem filter_held_leave (newest : run + 1 = q.pendings.length)
    (ordered : (q.merged run).filter p =
      (q.pending run).items.filter p ++ q.localReady.filter p)
    (alone : q.localReady.filter p = [] ∨ (q.notForwarded run).filter p = []) :
    (q.leave run).held.filter p = q.held.filter p := by
  have together := q.filter_merged ordered alone
  rw [q.held_leave newest, q.held_newest newest]
  simp only [filter_append] at together ⊢
  rw [together]

theorem filter_merged_of_localReady (valid : (q.pending run).Valid)
    (none : q.localReady.filter p = []) :
    (q.merged run).filter p =
      (q.pending run).items.filter p ++ q.localReady.filter p := by
  rw [merged, filter_mergeReadyGeneration_of_localReady valid none, none, append_nil]

theorem merged_perm (valid : (q.pending run).Valid) :
    (q.merged run ++ q.notForwarded run).Perm ((q.pending run).items ++
        (q.notForwarded run ++ q.localReady)) := by
  have both : (q.merged run).Perm (q.localReady ++ (q.pending run).items) :=
    mergeReadyGeneration_perm valid
  calc
    List.Perm _ (q.localReady ++
        ((q.pending run).items ++ q.notForwarded run)) := by
      rw [← append_assoc]
      exact both.append_right _
    List.Perm _ ((q.pending run).items ++
        (q.notForwarded run ++ q.localReady)) := by
      rw [← append_assoc (q.pending run).items]
      exact perm_append_comm

theorem held_merge_perm (newest : run + 1 = q.pendings.length)
    (valid : (q.pending run).Valid) (generationOver : q.readyBatch = []) :
    (q.merge run).held.Perm q.held := by
  rw [q.held_merge newest valid generationOver, q.held_newest newest]
  exact ((q.merged_perm valid).append_left _).append_left _

theorem held_leave_perm (newest : run + 1 = q.pendings.length)
    (valid : (q.pending run).Valid) : (q.leave run).held.Perm q.held := by
  rw [q.held_leave newest, q.held_newest newest]
  exact ((q.merged_perm valid).append_left _).append_left _

end Queues

end Rsloop.Engine
