import Mathlib.Data.List.Nodup
import Rsloop.Process.Transport

/-!
# The lifecycle of a child process

Everything that has been recorded about the child is in one list: the events
delivered, followed by those that the drain holds, the queue, and what the holder of
the state lock has still to publish. While the protocol is there the list follows
the flags and the set of open pipes, and the order in it is the order of the
callbacks.
-/

namespace Rsloop.Process

open Transition PendingProcessEvent List

/-! ## Histories -/

/-- Whether an event may come somewhere before another one. -/
def MayPrecede : PendingProcessEvent → PendingProcessEvent → Prop
  | connectionLost _, _ => False
  | pipeConnectionLost fd _, pipeDataReceived other _
  | pipeConnectionLost fd _, pipeConnectionLost other _ => fd ≠ other
  | processExited _, processExited _ => False
  | _, _ => True

def dataOf (fd : Nat) : PendingProcessEvent → Option (List UInt8)
  | pipeDataReceived other data => if other = fd then some data else none
  | _ => none

def pushes (publications : List Publication) : List PendingProcessEvent :=
  publications.filterMap fun
    | .push event => some event
    | .announce => none

def Drain.drained : Drain → List PendingProcessEvent
  | .delivering drained => drained
  | _ => []

namespace ProcessTransportCore

def queued (core : ProcessTransportCore) : List PendingProcessEvent :=
  core.delivered ++ (core.drain.drained ++ core.pendingEvents)

def history (core : ProcessTransportCore) : List PendingProcessEvent :=
  core.queued ++ pushes core.publishing

end ProcessTransportCore

/-- The flags, the pipes and the threads against a history of events -/
structure Tidy (pipes : List Nat) (core : ProcessTransportCore)
    (history : List PendingProcessEvent) : Prop where
  ordered : history.Pairwise MayPrecede
  pipes_distinct : core.openPipes.Nodup
  closed_lost : ∀ fd ∈ pipes, fd ∈ core.openPipes ∨ ∃ exc, pipeConnectionLost fd exc ∈ history
  open_unlost : ∀ fd ∈ core.openPipes, ∀ exc, pipeConnectionLost fd exc ∉ history
  exited_iff : core.exited ↔ ∃ code, processExited code ∈ history
  lost_iff : core.connectionLostCalled ↔ ∃ exc, connectionLost exc ∈ history
  lost_late : core.connectionLostCalled → core.exited ∧ core.openPipes = []
  reader_open : ∀ fd, core.readers fd ≠ .finished → fd ∈ core.openPipes
  stdin_unread : core.readers 0 = .finished
  returncode : core.returncode = core.recorded.head?
  recorded : core.exited ↔ core.recorded ≠ []
  observed : core.hasObservedExit →
    core.exited ∨ (∃ code, core.waiter = .observed code ∨ core.waiter = .exiting code) ∨
      (core.pendingExitCode.isSome ∧ 0 ∈ core.openPipes) ∨ core.stdinExit.isSome

variable {fd : Nat}

namespace Tidy

variable {pipes : List Nat} {core : ProcessTransportCore} {history : List PendingProcessEvent}

/-- While a pipe is open, `connection_lost` is not on its way. -/
theorem not_lost_of_open (tidy : Tidy pipes core history)
    (isOpen : fd ∈ core.openPipes) : core.connectionLostCalled = false := by
  cases called : core.connectionLostCalled with
  | false => rfl
  | true =>
    rw [(tidy.lost_late called).2] at isOpen
    cases isOpen

theorem not_lost_of_running (tidy : Tidy pipes core history)
    (running : core.exited = false) : core.connectionLostCalled = false := by
  cases called : core.connectionLostCalled with
  | false => rfl
  | true => exact absurd ((tidy.lost_late called).1.symm.trans running) Bool.noConfusion

variable {event : PendingProcessEvent}

theorem ne_connectionLost (tidy : Tidy pipes core history)
    (uncalled : core.connectionLostCalled = false)
    (mem : event ∈ history) (exc : Option String) :
    event ≠ connectionLost exc := by
  rintro rfl
  have called := tidy.lost_iff.mpr ⟨exc, mem⟩
  cases uncalled.symm.trans called

/-! ### Events that are added -/

theorem mem_insertData {before after : List PendingProcessEvent}
    {data : List UInt8}
    (other : event ≠ pipeDataReceived fd data) :
    event ∈ before ++ pipeDataReceived fd data :: after ↔ event ∈ before ++ after := by
  rw [mem_append, mem_append, mem_cons, or_iff_right other]

theorem read {before after : List PendingProcessEvent}
    (tidy : Tidy pipes core (before ++ after))
    (reading : core.readers fd = .reading)
    (data : List UInt8) :
    Tidy pipes (ProcessTransportCore.push
        { core with
          readers := Function.update core.readers fd .announcing
          chunks := Function.update core.chunks fd (core.chunks fd ++ [data]) }
        (pipeDataReceived fd data))
      (before ++ pipeDataReceived fd data :: after) := by
  have unfinished : core.readers fd ≠ .finished := by
    rw [reading]
    exact Reader.noConfusion
  have isOpen := tidy.reader_open fd unfinished
  have lost : ∀ other exc, pipeConnectionLost other exc ∈
      before ++ pipeDataReceived fd data :: after ↔
        pipeConnectionLost other exc ∈ before ++ after :=
    fun other exc => mem_insertData PendingProcessEvent.noConfusion
  refine { tidy with
    ordered := ?_, closed_lost := ?_, open_unlost := ?_, exited_iff := ?_, lost_iff := ?_,
    reader_open := ?_, stdin_unread := ?_ }
  · obtain ⟨early, late, across⟩ := pairwise_append.mp tidy.ordered
    refine pairwise_append.mpr ⟨early, pairwise_cons.mpr ⟨?_, late⟩, ?_⟩
    · intro event _
      cases event <;> trivial
    · intro event mem later here
      rcases mem_cons.mp here with rfl | behind
      · -- an earlier loss is of another pipe, because this one is open
        have earlier := mem_append_left after mem
        cases event with
        | pipeConnectionLost _ exc =>
          intro same
          exact tidy.open_unlost fd isOpen exc (same ▸ earlier)
        | connectionLost exc =>
          exact tidy.ne_connectionLost (tidy.not_lost_of_open isOpen) earlier exc rfl
        | pipeDataReceived other chunk | processExited code => trivial
      · exact across event mem later behind
  · intro other initial
    refine (tidy.closed_lost other initial).imp id ?_
    rintro ⟨exc, mem⟩
    exact ⟨exc, (lost other exc).mpr mem⟩
  · intro other mem exc present
    exact tidy.open_unlost other mem exc ((lost other exc).mp present)
  · refine tidy.exited_iff.trans (exists_congr fun code => ?_)
    exact (mem_insertData PendingProcessEvent.noConfusion).symm
  · refine tidy.lost_iff.trans (exists_congr fun exc => ?_)
    exact (mem_insertData PendingProcessEvent.noConfusion).symm
  · intro other active
    by_cases same : other = fd
    · rwa [same]
    · refine tidy.reader_open other fun finished => active ?_
      exact (Function.update_of_ne same _ _).trans finished
  · have apart : 0 ≠ fd := by
      rintro rfl
      exact unfinished tidy.stdin_unread
    exact (Function.update_of_ne apart _ _).trans tidy.stdin_unread

section

variable (tidy : Tidy pipes core history)

include tidy

theorem ordered_append (allowed : ∀ earlier ∈ history, MayPrecede earlier event) :
    (history ++ [event]).Pairwise MayPrecede := by
  refine pairwise_append.mpr ⟨tidy.ordered, pairwise_singleton _ _, ?_⟩
  intro earlier mem later here
  rw [mem_singleton.mp here]
  exact allowed earlier mem

theorem lose (isOpen : fd ∈ core.openPipes)
    (unread : core.readers fd = .finished)
    (free : fd = 0 → core.stdinExit = none) (exc : Option String)
    (publishing : List Publication) :
    Tidy pipes
      { core with
        openPipes := core.openPipes.erase fd
        pendingExitCode := if fd = 0 then none else core.pendingExitCode
        stdinExit := if fd = 0 then core.pendingExitCode else core.stdinExit
        publishing := publishing }
      (history ++ [pipeConnectionLost fd exc]) := by
  have uncalled := tidy.not_lost_of_open isOpen
  have stays : ∀ other, other ≠ fd → other ∈ core.openPipes → other ∈ core.openPipes.erase fd :=
    fun other apart mem => (mem_erase_of_ne apart).mpr mem
  refine { tidy with
    ordered := ?_, pipes_distinct := tidy.pipes_distinct.erase fd, closed_lost := ?_,
    open_unlost := ?_, exited_iff := ?_, lost_iff := ?_, lost_late := ?_,
    reader_open := ?_, observed := ?_ }
  · refine tidy.ordered_append ?_
    intro earlier mem
    cases earlier with
    | pipeConnectionLost _ text =>
      intro same
      exact tidy.open_unlost fd isOpen text (same ▸ mem)
    | connectionLost text => exact tidy.ne_connectionLost uncalled mem text rfl
    | pipeDataReceived other chunk | processExited code => trivial
  · intro other initial
    by_cases same : other = fd
    · exact Or.inr ⟨exc, same ▸ mem_append_right _ mem_cons_self⟩
    · refine (tidy.closed_lost other initial).imp (stays other same) ?_
      rintro ⟨text, mem⟩
      exact ⟨text, mem_append_left _ mem⟩
  · intro other mem text present
    obtain ⟨apart, still⟩ := tidy.pipes_distinct.mem_erase_iff.mp mem
    rcases mem_append.mp present with old | new
    · exact tidy.open_unlost other still text old
    · cases mem_singleton.mp new
      exact apart rfl
  · simp [tidy.exited_iff]
  · simp [tidy.lost_iff]
  · intro called
    cases uncalled.symm.trans called
  · intro other active
    refine stays other ?_ (tidy.reader_open other active)
    rintro rfl
    exact active unread
  · intro seen
    rcases tidy.observed seen with exited | busy | ⟨waiting, inside⟩ | taken
    · exact Or.inl exited
    · exact Or.inr (Or.inl busy)
    · by_cases stdin : fd = 0
      · refine Or.inr (Or.inr (Or.inr ?_))
        change (if fd = 0 then core.pendingExitCode else core.stdinExit).isSome
        rwa [if_pos stdin]
      · refine Or.inr (Or.inr (Or.inl ⟨?_, stays 0 (Ne.symm stdin) inside⟩))
        rwa [if_neg stdin]
    · refine Or.inr (Or.inr (Or.inr ?_))
      change (if fd = 0 then core.pendingExitCode else core.stdinExit).isSome
      rw [if_neg]
      · exact taken
      · intro stdin
        rw [free stdin] at taken
        cases taken

/-- Behind an exit it no longer matters where its code has been. -/
theorem exit (running : core.exited = false) (code : Int)
    (publishing : List Publication)
    (waiter : Waiter) (stdinExit : Option Int) :
    Tidy pipes
      { core with
        exited := true
        returncode := some code
        recorded := core.recorded ++ [code]
        publishing := publishing
        waiter := waiter
        stdinExit := stdinExit }
      (history ++ [processExited code]) := by
  have uncalled := tidy.not_lost_of_running running
  have unrecorded : core.recorded = [] := by
    by_contra some
    have exited := tidy.recorded.mpr some
    cases running.symm.trans exited
  refine { tidy with
    ordered := ?_, closed_lost := ?_, open_unlost := ?_, exited_iff := ?_, lost_iff := ?_,
    lost_late := ?_, returncode := ?_, recorded := ?_,
    observed := fun _ => Or.inl rfl }
  · refine tidy.ordered_append ?_
    intro earlier mem
    cases earlier with
    | processExited other =>
      have exited := tidy.exited_iff.mpr ⟨other, mem⟩
      cases running.symm.trans exited
    | connectionLost text => exact tidy.ne_connectionLost uncalled mem text rfl
    | pipeDataReceived other chunk | pipeConnectionLost other text => trivial
  · intro fd initial
    refine (tidy.closed_lost fd initial).imp id ?_
    rintro ⟨text, mem⟩
    exact ⟨text, mem_append_left _ mem⟩
  · intro fd mem text present
    rcases mem_append.mp present with old | new
    · exact tidy.open_unlost fd mem text old
    · cases mem_singleton.mp new
  · exact iff_of_true rfl ⟨code, mem_append_right _ mem_cons_self⟩
  · simp [tidy.lost_iff]
  · intro called
    cases uncalled.symm.trans called
  · rw [unrecorded]
    rfl
  · exact iff_of_true rfl (append_ne_nil_of_right_ne_nil _ (cons_ne_nil _ _))

theorem finish (exited : core.exited) (closed : core.openPipes = [])
    (uncalled : core.connectionLostCalled = false) (exc : Option String)
    (publishing : List Publication) :
    Tidy pipes { core with connectionLostCalled := true, publishing := publishing }
      (history ++ [connectionLost exc]) := by
  refine { tidy with
    ordered := ?_, closed_lost := ?_, open_unlost := ?_, exited_iff := ?_, lost_iff := ?_,
    lost_late := fun _ => ⟨exited, closed⟩ }
  · refine tidy.ordered_append ?_
    intro earlier mem
    cases earlier with
    | connectionLost text => exact tidy.ne_connectionLost uncalled mem text rfl
    | pipeDataReceived other chunk | pipeConnectionLost other text | processExited code => trivial
  · intro fd initial
    refine (tidy.closed_lost fd initial).imp id ?_
    rintro ⟨text, mem⟩
    exact ⟨text, mem_append_left _ mem⟩
  · intro fd mem
    rw [closed] at mem
    cases mem
  · simp [tidy.exited_iff]
  · exact iff_of_true rfl ⟨exc, mem_append_right _ mem_cons_self⟩

end

end Tidy

/-! ## Before the protocol is released -/

/-- The protocol is there and has not heard `connection_lost`. -/
structure Alive (pipes : List Nat) (core : ProcessTransportCore) : Prop where
  tidy : Tidy pipes core core.history
  hasProtocol : core.hasProtocol
  undelivered : ∀ exc, connectionLost exc ∉ core.delivered
  unreported : core.reported = []
  finishing : core.exited → core.openPipes = [] → core.connectionLostCalled

variable {action : ProcessAction} {exc : Option String} {stdinExit : Option Int}

namespace Alive

variable {pipes : List Nat} {core next : ProcessTransportCore}

theorem nodup_openPipes (pipes : ProcessPipes) : pipes.openPipes.Nodup := by
  obtain ⟨stdin, stdout, stderr⟩ := pipes
  cases stdin <;> cases stdout <;> cases stderr <;> decide

theorem spawn (pipes : ProcessPipes) (textConfig : Option ProcessTextConfig) :
    Alive pipes.openPipes (spawnProcessTransport pipes textConfig) := by
  have unread : (spawnProcessTransport pipes textConfig).readers 0 = .finished := rfl
  refine ⟨⟨List.Pairwise.nil, nodup_openPipes pipes, fun fd initial => Or.inl initial,
    ?_, ?_, ?_, ?_, ?_, unread, rfl, ?_, ?_⟩, rfl, fun _ => not_mem_nil, rfl, ?_⟩
  · exact fun _ _ _ => not_mem_nil
  · exact iff_of_false Bool.noConfusion fun ⟨_, mem⟩ => not_mem_nil mem
  · exact iff_of_false Bool.noConfusion fun ⟨_, mem⟩ => not_mem_nil mem
  · exact Bool.noConfusion
  · intro fd active
    obtain ⟨stdin, stdout, stderr⟩ := pipes
    by_cases reading : (fd = 1 ∧ stdout) ∨ (fd = 2 ∧ stderr)
    · rcases reading with ⟨rfl, rfl⟩ | ⟨rfl, rfl⟩
      · exact mem_append_left _ (mem_append_right _ mem_cons_self)
      · exact mem_append_right _ mem_cons_self
    · exact absurd (if_neg reading) active
  · exact iff_of_false Bool.noConfusion fun some => some rfl
  · exact Bool.noConfusion
  · exact Bool.noConfusion

theorem finishIf {shouldFinish : Bool} (tidy : Tidy pipes core core.history)
    (hasProtocol : core.hasProtocol)
    (undelivered : ∀ exc, connectionLost exc ∉ core.delivered)
    (unreported : core.reported = [])
    (due : shouldFinish = processConnectionLostEligible core.exited core.openPipes.isEmpty) :
    Alive pipes (core.finishIf shouldFinish) := by
  cases shouldFinish with
  | false =>
    change Alive pipes core
    refine ⟨tidy, hasProtocol, undelivered, unreported, ?_⟩
    intro exited closed
    rw [exited, closed] at due
    cases due
  | true =>
    obtain ⟨exited, closed⟩ := Bool.and_eq_true_iff.mp due.symm
    rw [ProcessTransportCore.finishIf, if_pos rfl, ProcessTransportCore.enqueueConnectionLostLocked]
    by_cases called : core.connectionLostCalled
    · rw [if_pos called]
      exact ⟨tidy, hasProtocol, undelivered, unreported, fun _ _ => called⟩
    · rw [if_neg called]
      have finished := tidy.finish exited (List.isEmpty_iff.mp closed)
        (Bool.eq_false_iff.mpr called) none
        (core.publishing ++ enqueuePendingEvent (connectionLost none))
      have grown : pushes (core.publishing ++ enqueuePendingEvent (connectionLost none)) =
          pushes core.publishing ++ [connectionLost none] := filterMap_append ..
      refine ⟨?_, hasProtocol, undelivered, unreported, fun _ _ => rfl⟩
      change Tidy pipes _ (core.queued ++ pushes (core.publishing ++ _))
      rwa [grown, ← append_assoc]

section

variable (alive : Alive pipes core)

include alive

theorem pipeConnectionLostMessage (free : core.publishing = [])
    (unread : core.readers fd = .finished)
    (idle : fd = 0 → core.stdinExit = none) :
    Alive pipes (core.pipeConnectionLostMessage fd exc) := by
  rw [ProcessTransportCore.pipeConnectionLostMessage]
  by_cases isOpen : fd ∈ core.openPipes
  · rw [if_pos isOpen]
    have tidy := alive.tidy
    rw [ProcessTransportCore.history, free] at tidy
    have lost := tidy.lose isOpen unread idle exc (enqueuePendingEvent (pipeConnectionLost fd exc))
    rw [show pushes [] = [] from rfl, append_nil] at lost
    exact finishIf lost alive.hasProtocol alive.undelivered alive.unreported rfl
  · rwa [if_neg isOpen]

theorem processExited {code : Int} {waiter : Waiter}
    (free : core.publishing = []) :
    Alive pipes (ProcessTransportCore.processExited
      { core with waiter := waiter, stdinExit := stdinExit } code) := by
  rcases Bool.eq_false_or_eq_true core.exited with exited | running
  · have some := alive.tidy.recorded.mp exited
    rw [ProcessTransportCore.processExited_of_exited (by exact exited)]
    refine { alive with tidy := { alive.tidy with
      returncode := ?_, recorded := ?_, observed := fun _ => Or.inl exited } }
    · exact alive.tidy.returncode.trans (head?_append_of_ne_nil _ some).symm
    · exact iff_of_true exited (append_ne_nil_of_left_ne_nil some _)
  · rw [ProcessTransportCore.processExited_of_running (by exact running)]
    have tidy := alive.tidy
    rw [ProcessTransportCore.history, free] at tidy
    have recorded := tidy.exit running code (enqueuePendingEvent (.processExited code))
      waiter stdinExit
    rw [show pushes [] = [] from rfl, append_nil] at recorded
    exact finishIf recorded alive.hasProtocol alive.undelivered alive.unreported rfl

theorem readers_update (active : core.readers fd ≠ .finished) (reader : Reader) :
    Alive pipes { core with readers := Function.update core.readers fd reader } := by
  refine { alive with tidy := { alive.tidy with reader_open := ?_, stdin_unread := ?_ } }
  · intro other running
    by_cases same : other = fd
    · rw [same]
      exact alive.tidy.reader_open fd active
    · refine alive.tidy.reader_open other fun finished => running ?_
      exact (Function.update_of_ne same _ _).trans finished
  · have apart : 0 ≠ fd := by
      rintro rfl
      exact active alive.tidy.stdin_unread
    exact (Function.update_of_ne apart _ _).trans alive.tidy.stdin_unread

theorem push {event : PendingProcessEvent} {rest : List Publication}
    (publishing : core.publishing = .push event :: rest) :
    Alive pipes (ProcessTransportCore.push { core with publishing := rest } event) := by
  have split : pushes core.publishing = event :: pushes rest := by
    rw [publishing]
    rfl
  have same : (ProcessTransportCore.push { core with publishing := rest } event).history =
      core.history := by
    simp only [ProcessTransportCore.history, ProcessTransportCore.queued,
      ProcessTransportCore.push, split, append_assoc, singleton_append]
  refine { alive with tidy := ?_ }
  rw [same]
  exact { alive.tidy with }

theorem takeAll (taking : core.drain = .taking) :
    Alive pipes { core with drain := .delivering core.pendingEvents, pendingEvents := [] } := by
  have same : ProcessTransportCore.history
      { core with drain := .delivering core.pendingEvents, pendingEvents := [] } =
        core.history := by
    simp only [ProcessTransportCore.history, ProcessTransportCore.queued, taking,
      Drain.drained, append_nil, nil_append]
  refine { alive with tidy := ?_ }
  rw [same]
  exact { alive.tidy with }

theorem drain_of_drained_eq_nil {drain : Drain} {cmds : Nat} {scheduled : Bool}
    (before : core.drain.drained = []) (after : drain.drained = []) :
    Alive pipes
      { core with drain := drain, commands := cmds, eventsScheduled := scheduled } := by
  have same : ProcessTransportCore.history
      { core with drain := drain, commands := cmds, eventsScheduled := scheduled } =
        core.history := by
    simp only [ProcessTransportCore.history, ProcessTransportCore.queued, before, after]
  refine { alive with tidy := ?_ }
  rw [same]
  exact { alive.tidy with }

theorem call {event : PendingProcessEvent} {rest : List PendingProcessEvent}
    (holding : core.drain = .delivering (event :: rest))
    (other : event.isConnectionLost = false) :
    Alive pipes
      { core with delivered := core.delivered ++ [event], drain := .delivering rest } := by
  have same : ProcessTransportCore.history
      { core with delivered := core.delivered ++ [event], drain := .delivering rest } =
        core.history := by
    simp only [ProcessTransportCore.history, ProcessTransportCore.queued, holding,
      Drain.drained, append_assoc, cons_append, nil_append]
  refine { alive with tidy := ?_, undelivered := ?_ }
  · rw [same]
    exact { alive.tidy with }
  · intro exc mem
    rcases mem_append.mp mem with old | new
    · exact alive.undelivered exc old
    · rw [← mem_singleton.mp new] at other
      cases other

/-- As long as the protocol is not released and waiting does not fail, the record
stays in order. -/
theorem step (move : ProcessMove core action next)
    (waits : action ≠ .failWait) (present : next.hasProtocol) :
    Alive pipes next := by
  cases move with
  | @read _ data reading =>
    refine { alive with tidy := ?_ }
    have read := alive.tidy.read reading data
    simp only [ProcessTransportCore.history, ProcessTransportCore.queued,
      ProcessTransportCore.push, append_assoc] at read ⊢
    exact read
  | @announceData fd announcing =>
    have active : core.readers fd ≠ .finished := by
      rw [announcing]
      exact Reader.noConfusion
    have updated := alive.readers_update active .reading
    exact { updated with tidy := { updated.tidy with } }
  | @closePipe fd _ reading free =>
    have active : core.readers fd ≠ .finished := by
      rw [reading]
      exact Reader.noConfusion
    refine (alive.readers_update active .finished).pipeConnectionLostMessage free
      (Function.update_self ..) ?_
    rintro rfl
    exact absurd alive.tidy.stdin_unread active
  | loseStdin idle free =>
    exact alive.pipeConnectionLostMessage free alive.tidy.stdin_unread fun _ => idle
  | exitAfterStdin taken free | reportExit exiting free => exact alive.processExited free
  | observeExit =>
    refine { alive with tidy := { alive.tidy with observed := fun _ => ?_ } }
    exact Or.inr (Or.inl ⟨_, Or.inl rfl⟩)
  | deferExit observed isOpen =>
    refine { alive with tidy := { alive.tidy with observed := fun _ => ?_ } }
    exact Or.inr (Or.inr (Or.inl ⟨rfl, isOpen⟩))
  | beginExit observed =>
    refine { alive with tidy := { alive.tidy with observed := fun _ => ?_ } }
    exact Or.inr (Or.inl ⟨_, Or.inr rfl⟩)
  | failWait => exact absurd rfl waits
  | disconnect waiting =>
    refine { alive with tidy := { alive.tidy with observed := fun seen => ?_ } }
    rcases alive.tidy.observed seen with exited | ⟨code, busy⟩ | deferred
    · exact Or.inl exited
    · rw [waiting] at busy
      rcases busy with busy | busy <;> cases busy
    · exact Or.inr (Or.inr deferred)
  | push publishing => exact alive.push publishing
  | announce publishing =>
    have same : pushes core.publishing = pushes _ := congrArg pushes publishing
    have tidy := alive.tidy
    rw [ProcessTransportCore.history, same] at tidy
    exact { alive with tidy := { tidy with } }
  | startDrain idle commanded | takeNone idle empty | endBatch idle =>
    exact alive.drain_of_drained_eq_nil (congrArg Drain.drained idle) rfl
  | takeAll taking => exact alive.takeAll taking
  | lose holding | raise holding other free | refuse holding other free refused => cases present
  | call holding other => exact alive.call holding other

end

end Alive

/-! ## Behind it -/

/-- Nothing is left but events of which the drain makes nothing. -/
structure Over (core : ProcessTransportCore) : Prop where
  hasProtocol : core.hasProtocol = false
  exited : core.exited
  closed : core.openPipes = []
  called : core.connectionLostCalled
  unread : ∀ fd, core.readers fd = .finished
  remaining : ∀ event ∈ core.drain.drained ++ core.pendingEvents, event.isConnectionLost
  publishing : ∀ event ∈ pushes core.publishing, event.isConnectionLost

structure Unchanged (core next : ProcessTransportCore) : Prop where
  delivered : next.delivered = core.delivered
  reported : next.reported = core.reported
  tidy : ∀ pipes history, Tidy pipes core history → Tidy pipes next history

namespace Over

variable {core next : ProcessTransportCore}

theorem pipeConnectionLostMessage (isOver : Over core) (fd : Nat)
    (exc : Option String) :
    core.pipeConnectionLostMessage fd exc = core := by
  rw [ProcessTransportCore.pipeConnectionLostMessage, isOver.closed, if_neg not_mem_nil]

theorem processExited {code : Int} {waiter : Waiter} (isOver : Over core) :
    Over (ProcessTransportCore.processExited
        { core with waiter := waiter, stdinExit := stdinExit } code) ∧
      Unchanged core (ProcessTransportCore.processExited
        { core with waiter := waiter, stdinExit := stdinExit } code) := by
  rw [ProcessTransportCore.processExited_of_exited (by exact isOver.exited)]
  refine ⟨{ isOver with }, rfl, rfl, ?_⟩
  intro pipes history tidy
  have some := tidy.recorded.mp isOver.exited
  refine { tidy with returncode := ?_, recorded := ?_, observed := fun _ => Or.inl isOver.exited }
  · exact tidy.returncode.trans (head?_append_of_ne_nil _ some).symm
  · exact iff_of_true isOver.exited (append_ne_nil_of_left_ne_nil some _)

theorem step (isOver : Over core)
    (move : ProcessMove core action next) (waits : action ≠ .failWait) :
    Over next ∧ Unchanged core next := by
  have observed : ∀ {waiter : Waiter} {pendingExitCode : Option Int} {hasObserved : Bool}
      {pipes : List Nat} {history : List PendingProcessEvent}, Tidy pipes core history →
      Tidy pipes
        { core with
          waiter := waiter
          pendingExitCode := pendingExitCode
          hasObservedExit := hasObserved } history :=
    fun tidy => { tidy with observed := fun _ => Or.inl isOver.exited }
  have finished : ∀ {fd : Nat} {reader : Reader}, core.readers fd = reader →
      reader ≠ .finished → False :=
    fun here active => active (here.symm.trans (isOver.unread _))
  cases move with
  | read reading | closePipe reading free => exact (finished reading Reader.noConfusion).elim
  | announceData announcing => exact (finished announcing Reader.noConfusion).elim
  | loseStdin =>
    rw [isOver.pipeConnectionLostMessage]
    exact ⟨isOver, rfl, rfl, fun _ _ tidy => tidy⟩
  | exitAfterStdin taken free | reportExit exiting free => exact isOver.processExited
  | observeExit waiting | deferExit seen isOpen | beginExit seen | disconnect waiting =>
    exact ⟨{ isOver with }, rfl, rfl, fun _ _ tidy => observed tidy⟩
  | failWait => exact absurd rfl waits
  | @push event rest publishing =>
    have split : pushes core.publishing = event :: pushes rest := by
      rw [publishing]
      rfl
    have lost := isOver.publishing
    rw [split] at lost
    obtain ⟨first, others⟩ := forall_mem_cons.mp lost
    refine ⟨{ isOver with remaining := ?_, publishing := others }, rfl, rfl,
      fun _ _ tidy => { tidy with }⟩
    intro other mem
    rw [ProcessTransportCore.push, ← append_assoc] at mem
    rcases mem_append.mp mem with old | new
    · exact isOver.remaining other old
    · rwa [mem_singleton.mp new]
  | announce publishing =>
    have lost := isOver.publishing
    rw [publishing] at lost
    exact ⟨{ isOver with publishing := lost }, rfl, rfl, fun _ _ tidy => { tidy with }⟩
  | startDrain idle commanded | takeNone idle empty | endBatch idle =>
    have left := isOver.remaining
    rw [idle] at left
    exact ⟨{ isOver with remaining := left }, rfl, rfl, fun _ _ tidy => { tidy with }⟩
  | takeAll taking =>
    have left := isOver.remaining
    rw [taking] at left
    refine ⟨{ isOver with remaining := ?_ }, rfl, rfl, fun _ _ tidy => { tidy with }⟩
    rwa [append_nil]
  | @lose _ exc =>
    have silent : (core.connectionLostWithPy exc).delivered = core.delivered :=
      if_neg (by rw [isOver.hasProtocol]; exact Bool.false_ne_true)
    refine ⟨{ isOver with hasProtocol := rfl, remaining := ?_ }, silent, rfl,
      fun _ _ tidy => { tidy with }⟩
    exact fun event mem => isOver.remaining event (mem_append_right _ mem)
  | call holding other | raise holding other free | refuse holding other free refused =>
    have lost := isOver.remaining _ (by rw [holding]; exact mem_cons_self)
    cases other.symm.trans lost

end Over

/-! ## The release -/

open ProcessTransportCore in
inductive Release (core : ProcessTransportCore) :
    ProcessAction → ProcessTransportCore → Prop where
  | lose {raises : Bool} {exc : Option String} {rest : List PendingProcessEvent}
      (holding : core.drain = .delivering (connectionLost exc :: rest)) :
      Release core (.deliver raises) (core.connectionLostWithPy exc).stopDrain
  | raise {event : PendingProcessEvent} {rest : List PendingProcessEvent}
      (holding : core.drain = .delivering (event :: rest))
      (other : event.isConnectionLost = false) (free : core.publishing = []) :
      Release core (.deliver true)
        (failDrain { core with delivered := core.delivered ++ [event] } event)
  | refuse {raises : Bool} {event : PendingProcessEvent} {rest : List PendingProcessEvent}
      (holding : core.drain = .delivering (event :: rest))
      (other : event.isConnectionLost = false) (free : core.publishing = [])
      (refused : event.hasPayload core.textConfig = false ∨ core.hasProtocol = false) :
      Release core (.deliver raises) (core.failDrain event)

theorem keeps_or_release {core next : ProcessTransportCore}
    (move : ProcessMove core action next) :
    next.hasProtocol = core.hasProtocol ∨ Release core action next := by
  cases move with
  | @closePipe fd exc =>
    obtain ⟨_, _, _, _, _, same⟩ := ProcessTransportCore.pipeConnectionLostMessage_eq
      { core with readers := Function.update core.readers fd .finished } fd exc
    exact Or.inl (by rw [same])
  | loseStdin =>
    obtain ⟨_, _, _, _, _, same⟩ := core.pipeConnectionLostMessage_eq 0 none
    exact Or.inl (by rw [same])
  | @exitAfterStdin code =>
    obtain ⟨_, _, _, _, _, same⟩ :=
      ProcessTransportCore.processExited_eq { core with stdinExit := none } code
    exact Or.inl (by rw [same])
  | @reportExit code =>
    obtain ⟨_, _, _, _, _, same⟩ :=
      ProcessTransportCore.processExited_eq { core with waiter := .waiting } code
    exact Or.inl (by rw [same])
  | failWait =>
    obtain ⟨_, _, same⟩ := ProcessTransportCore.enqueueConnectionLostLocked_eq
      (ProcessTransportCore.reportError { core with waiter := .finished }
        "subprocess wait failed") none
    exact Or.inl (by rw [same]; rfl)
  | lose holding => exact Or.inr (.lose holding)
  | raise holding other free => exact Or.inr (.raise holding other free)
  | refuse holding other free refused => exact Or.inr (.refuse holding other free refused)
  | _ => exact Or.inl rfl

namespace Alive

variable {pipes : List Nat} {core : ProcessTransportCore}

/-- `ConnectionLost` is the last event there is. -/
theorem nothing_behind {rest : List PendingProcessEvent}
    (alive : Alive pipes core)
    (holding : core.drain = .delivering (connectionLost exc :: rest)) :
    rest ++ (core.pendingEvents ++ pushes core.publishing) = [] := by
  have ordered := alive.tidy.ordered
  rw [ProcessTransportCore.history, ProcessTransportCore.queued, holding, append_assoc]
    at ordered
  have behind := (pairwise_append.mp ordered).2.1
  simp only [Drain.drained, cons_append, append_assoc] at behind
  refine eq_nil_iff_forall_not_mem.mpr ?_
  exact (pairwise_cons.mp behind).1

theorem finished_of_closed (alive : Alive pipes core)
    (closed : core.openPipes = [])
    (fd : Nat) : core.readers fd = .finished := by
  by_contra active
  have isOpen := alive.tidy.reader_open fd active
  rw [closed] at isOpen
  cases isOpen

/-- When `ConnectionLost` is delivered, all that was recorded has been delivered. -/
theorem lose {rest : List PendingProcessEvent}
    (alive : Alive pipes core)
    (holding : core.drain = .delivering (connectionLost exc :: rest)) :
    Over (core.connectionLostWithPy exc).stopDrain ∧
      (core.connectionLostWithPy exc).stopDrain.delivered = core.delivered ++ [connectionLost exc] ∧
      Tidy pipes (core.connectionLostWithPy exc).stopDrain
        (core.connectionLostWithPy exc).stopDrain.delivered := by
  have empty := alive.nothing_behind holding
  obtain ⟨noRest, noMore⟩ := append_eq_nil_iff.mp empty
  obtain ⟨noPending, noPushes⟩ := append_eq_nil_iff.mp noMore
  have whole : core.history = core.delivered ++ [connectionLost exc] := by
    rw [ProcessTransportCore.history, ProcessTransportCore.queued, holding, noPending, noPushes,
      noRest]
    simp only [Drain.drained, append_nil]
  have delivered : (core.connectionLostWithPy exc).stopDrain.delivered =
      core.delivered ++ [connectionLost exc] := if_pos alive.hasProtocol
  have called := alive.tidy.lost_iff.mpr ⟨exc, by
    rw [whole]
    exact mem_append_right _ mem_cons_self⟩
  obtain ⟨exited, closed⟩ := alive.tidy.lost_late called
  refine ⟨⟨rfl, exited, closed, called, alive.finished_of_closed closed, ?_, ?_⟩, delivered, ?_⟩
  · change ∀ event ∈ [] ++ core.pendingEvents, _
    rw [noPending]
    exact fun event mem => absurd mem not_mem_nil
  · change ∀ event ∈ pushes core.publishing, _
    rw [noPushes]
    exact fun event mem => absurd mem not_mem_nil
  · rw [delivered, ← whole]
    exact { alive.tidy with }

end Alive

/-! ## Chunks reach the protocol in order -/

variable {core next : ProcessTransportCore} {event : PendingProcessEvent}
  {textConfig : Option ProcessTextConfig}

def CarriesNoData (publications : List Publication) : Prop :=
  ∀ event ∈ pushes publications, ∀ fd, dataOf fd event = none

theorem carriesNoData_append {first second : List Publication}
    (none : CarriesNoData first) (noneLater : CarriesNoData second) :
    CarriesNoData (first ++ second) := by
  intro event mem
  unfold pushes at mem
  rw [filterMap_append] at mem
  rcases mem_append.mp mem with early | late
  · exact none event early
  · exact noneLater event late

theorem carriesNoData_enqueuePendingEvent (other : ∀ fd, dataOf fd event = none) :
    CarriesNoData (enqueuePendingEvent event) := by
  intro published mem
  have same : published = event := mem_singleton.mp mem
  rwa [same]

theorem carriesNoData_enqueueConnectionLostLocked
    (none : CarriesNoData core.publishing) :
    CarriesNoData (core.enqueueConnectionLostLocked exc).publishing := by
  rw [ProcessTransportCore.enqueueConnectionLostLocked]
  by_cases called : core.connectionLostCalled
  · rwa [if_pos called]
  · rw [if_neg called]
    exact carriesNoData_append none (carriesNoData_enqueuePendingEvent fun _ => rfl)

theorem carriesNoData_finishIf (none : CarriesNoData core.publishing)
    (shouldFinish : Bool) : CarriesNoData (core.finishIf shouldFinish).publishing := by
  cases shouldFinish with
  | false => exact none
  | true => exact carriesNoData_enqueueConnectionLostLocked none

theorem carriesNoData_pipeConnectionLostMessage
    (none : CarriesNoData core.publishing) :
    CarriesNoData (core.pipeConnectionLostMessage fd exc).publishing := by
  rw [ProcessTransportCore.pipeConnectionLostMessage]
  by_cases isOpen : fd ∈ core.openPipes
  · rw [if_pos isOpen]
    exact carriesNoData_finishIf (carriesNoData_enqueuePendingEvent fun _ => rfl) _
  · rwa [if_neg isOpen]

theorem carriesNoData_processExited {code : Int}
    (none : CarriesNoData core.publishing) :
    CarriesNoData (core.processExited code).publishing := by
  rcases Bool.eq_false_or_eq_true core.exited with exited | running
  · rwa [ProcessTransportCore.processExited_of_exited exited]
  · rw [ProcessTransportCore.processExited_of_running running]
    exact carriesNoData_finishIf (carriesNoData_enqueuePendingEvent fun _ => rfl) _

/-- In every run, whatever the callbacks do: the protocol has got the first chunks
of each pipe, and while it is there the others are on their way to it. -/
structure DataInOrder (textConfig : Option ProcessTextConfig)
    (core : ProcessTransportCore) : Prop where
  config : core.textConfig = textConfig
  publishing : CarriesNoData core.publishing
  sent : ∀ fd, core.delivered.filterMap (dataOf fd) <+: core.chunks fd
  queued : core.hasProtocol → ∀ fd, core.queued.filterMap (dataOf fd) = core.chunks fd

namespace DataInOrder

theorem spawn (pipes : ProcessPipes) (textConfig : Option ProcessTextConfig) :
    DataInOrder textConfig (spawnProcessTransport pipes textConfig) where
  config := rfl
  publishing := nofun
  sent := fun _ => nil_prefix
  queued := fun _ _ => rfl

section

variable (inOrder : DataInOrder textConfig core) (cfg : next.textConfig = core.textConfig)

include inOrder cfg

theorem frame (publishing : CarriesNoData next.publishing)
    (proto : next.hasProtocol = core.hasProtocol)
    (chunks : next.chunks = core.chunks)
    (delivered : next.delivered = core.delivered)
    (queued : next.queued = core.queued) :
    DataInOrder textConfig next where
  config := cfg.trans inOrder.config
  publishing := publishing
  sent := by
    rw [delivered, chunks]
    exact inOrder.sent
  queued := by
    rw [proto, queued, chunks]
    exact inOrder.queued

theorem release (publishing : next.publishing = core.publishing)
    (proto : next.hasProtocol = false) (chunks : next.chunks = core.chunks)
    (sent : ∀ fd, next.delivered.filterMap (dataOf fd) <+: core.chunks fd) :
    DataInOrder textConfig next where
  config := cfg.trans inOrder.config
  publishing := by
    rw [publishing]
    exact inOrder.publishing
  sent := by
    rwa [chunks]
  queued := by
    rw [proto]
    exact fun present => by cases present

end

theorem sent_connectionLost {delivered : List PendingProcessEvent}
    {chunks : List (List UInt8)} (exc : Option String) (present : Bool)
    (sent : delivered.filterMap (dataOf fd) <+: chunks) :
    (if present then delivered ++ [connectionLost exc] else delivered).filterMap
      (dataOf fd) <+: chunks := by
  cases present with
  | false => exact sent
  | true =>
    have same : (delivered ++ [connectionLost exc]).filterMap (dataOf fd) =
        delivered.filterMap (dataOf fd) := by
      rw [filterMap_append]
      exact append_nil _
    rwa [if_pos rfl, same]

section

variable (inOrder : DataInOrder textConfig core)

include inOrder

theorem sent_called {rest : List PendingProcessEvent}
    (present : core.hasProtocol)
    (holding : core.drain = .delivering (event :: rest))
    (fd : Nat) : (core.delivered ++ [event]).filterMap (dataOf fd) <+: core.chunks fd := by
  rw [← inOrder.queued present fd]
  unfold ProcessTransportCore.queued
  rw [holding]
  change _ <+: (core.delivered ++ ([event] ++ rest ++ core.pendingEvents)).filterMap _
  rw [append_assoc [event], ← append_assoc core.delivered,
    filterMap_append (l := core.delivered ++ [event])]
  exact prefix_append _ _

theorem read {data : List UInt8} :
    DataInOrder textConfig (ProcessTransportCore.push
        { core with
          readers := Function.update core.readers fd .announcing
          chunks := Function.update core.chunks fd (core.chunks fd ++ [data]) }
        (pipeDataReceived fd data)) where
  config := inOrder.config
  publishing := inOrder.publishing
  sent := by
    intro other
    change _ <+: Function.update core.chunks fd (core.chunks fd ++ [data]) other
    by_cases same : other = fd
    · subst same
      rw [Function.update_self]
      exact (inOrder.sent other).trans (prefix_append _ _)
    · rw [Function.update_of_ne same]
      exact inOrder.sent other
  queued := by
    intro present other
    change (core.delivered ++ (core.drain.drained ++
        (core.pendingEvents ++ [pipeDataReceived fd data]))).filterMap (dataOf other) =
      Function.update core.chunks fd (core.chunks fd ++ [data]) other
    have before : (core.delivered ++ (core.drain.drained ++
        core.pendingEvents)).filterMap (dataOf other) = core.chunks other :=
      inOrder.queued present other
    rw [← append_assoc core.drain.drained, ← append_assoc core.delivered,
      filterMap_append, before]
    by_cases same : other = fd
    · subst same
      simp [dataOf]
    · rw [Function.update_of_ne same]
      have elsewhere : dataOf other (pipeDataReceived fd data) = none := if_neg (Ne.symm same)
      rw [filterMap_cons_none elsewhere, filterMap_nil, append_nil]

theorem push {rest : List Publication}
    (publishing : core.publishing = .push event :: rest) :
    DataInOrder textConfig (ProcessTransportCore.push { core with publishing := rest } event) := by
  have none := inOrder.publishing
  rw [publishing] at none
  exact
    { config := inOrder.config
      publishing := fun other mem => none other (mem_cons_of_mem _ mem)
      sent := inOrder.sent
      queued := by
        intro present fd
        change (core.delivered ++ (core.drain.drained ++
          (core.pendingEvents ++ [event]))).filterMap (dataOf fd) = core.chunks fd
        have noData : dataOf fd event = .none := none event mem_cons_self fd
        have before : (core.delivered ++ (core.drain.drained ++
            core.pendingEvents)).filterMap (dataOf fd) = core.chunks fd :=
          inOrder.queued present fd
        rw [← append_assoc core.drain.drained, ← append_assoc core.delivered,
          filterMap_append, before, filterMap_cons_none noData,
          filterMap_nil, append_nil] }

theorem step (move : ProcessMove core action next) :
    DataInOrder textConfig next := by
  have none := inOrder.publishing
  have lose (changed : ProcessTransportCore) (fd : Nat) (exc : Option String)
      (before : DataInOrder textConfig changed) :
      DataInOrder textConfig (changed.pipeConnectionLostMessage fd exc) := by
    have published : CarriesNoData (changed.pipeConnectionLostMessage fd exc).publishing :=
      carriesNoData_pipeConnectionLostMessage before.publishing
    obtain ⟨_, _, _, _, _, same⟩ := changed.pipeConnectionLostMessage_eq fd exc
    rw [same] at published ⊢
    exact before.frame rfl published rfl rfl rfl rfl
  have exit (changed : ProcessTransportCore) (code : Int)
      (before : DataInOrder textConfig changed) :
      DataInOrder textConfig (changed.processExited code) := by
    have published : CarriesNoData (changed.processExited code).publishing :=
      carriesNoData_processExited before.publishing
    obtain ⟨_, _, _, _, _, same⟩ := changed.processExited_eq code
    rw [same] at published ⊢
    exact before.frame rfl published rfl rfl rfl rfl
  cases move with
  | read => exact inOrder.read
  | announceData announcing | observeExit waiting | deferExit observed isOpen
  | beginExit observed | disconnect waiting => exact inOrder.frame rfl none rfl rfl rfl rfl
  | closePipe => exact lose _ _ _ (inOrder.frame rfl none rfl rfl rfl rfl)
  | loseStdin => exact lose core 0 .none inOrder
  | exitAfterStdin taken free | reportExit exiting free =>
    exact exit _ _ (inOrder.frame rfl none rfl rfl rfl rfl)
  | failWait =>
    have reported : DataInOrder textConfig (ProcessTransportCore.reportError
        { core with waiter := .finished } "subprocess wait failed") :=
      inOrder.frame rfl none rfl rfl rfl rfl
    have published : CarriesNoData (ProcessTransportCore.reportError
        { core with waiter := .finished }
          "subprocess wait failed" |>.enqueueConnectionLostLocked .none).publishing :=
      carriesNoData_enqueueConnectionLostLocked reported.publishing
    obtain ⟨_, _, same⟩ := (ProcessTransportCore.reportError
      { core with waiter := .finished }
        "subprocess wait failed").enqueueConnectionLostLocked_eq .none
    rw [same] at published ⊢
    exact reported.frame rfl published rfl rfl rfl rfl
  | push publishing => exact inOrder.push publishing
  | announce publishing =>
    rw [publishing] at none
    exact inOrder.frame rfl none rfl rfl rfl rfl
  | startDrain idle commanded | takeNone idle empty | endBatch idle =>
    refine inOrder.frame rfl none rfl rfl rfl ?_
    unfold ProcessTransportCore.queued
    rw [idle]
    rfl
  | takeAll taking =>
    refine inOrder.frame rfl none rfl rfl rfl ?_
    unfold ProcessTransportCore.queued
    rw [taking]
    simp [Drain.drained]
  | @lose _ exc =>
    exact inOrder.release rfl rfl rfl rfl fun fd =>
      sent_connectionLost exc core.hasProtocol (inOrder.sent fd)
  | @call _ _ holding _ callable =>
    have present := (Bool.and_eq_true_iff.mp callable).2
    exact
      { config := inOrder.config
        publishing := none
        sent := inOrder.sent_called present holding
        queued := by
          intro _ fd
          rw [← inOrder.queued present fd]
          unfold ProcessTransportCore.queued
          rw [holding]
          simp [Drain.drained] }
  | @raise _ _ holding _ _ callable =>
    have present := (Bool.and_eq_true_iff.mp callable).2
    exact inOrder.release rfl rfl rfl rfl fun fd =>
      sent_connectionLost .none core.hasProtocol (inOrder.sent_called present holding fd)
  | refuse =>
    exact inOrder.release rfl rfl rfl rfl fun fd =>
      sent_connectionLost .none core.hasProtocol (inOrder.sent fd)

end

end DataInOrder

/-- Also when callbacks raise or chunks do not decode, the protocol gets the first
chunks of each pipe in order; while it is there, none of them is lost. -/
theorem delivered_isPrefix {pipes : ProcessPipes} {actions : List ProcessAction}
    (reached : run processStep (spawnProcessTransport pipes textConfig) actions = some core) :
    core.delivered.filterMap (dataOf fd) <+: core.chunks fd ∧
      (core.hasProtocol → core.queued.filterMap (dataOf fd) = core.chunks fd) := by
  have inOrder : DataInOrder textConfig core :=
    invariant_of_run (DataInOrder textConfig)
      (fun _ _ _ inOrder _ moved => inOrder.step (processMove_processStep moved))
      (DataInOrder.spawn pipes textConfig) (guarded_of_forall fun _ _ _ => trivial) reached
  exact ⟨inOrder.sent fd, fun present => inOrder.queued present fd⟩

/-- The protocol raises in the first of two calls: it has got the first chunk, and
nothing of the second one. -/
theorem delivered_isPrefix_raising : ∃ core, run processStep
        (spawnProcessTransport ⟨false, true, false⟩ none)
        [.read 1 [97], .announceData 1, .read 1 [98], .announceData 1, .startDrain, .take,
          .deliver true] = some core ∧
      core.delivered.filterMap (dataOf 1) <+: core.chunks 1 ∧
      core.delivered.filterMap (dataOf 1) = [[97]] ∧ core.chunks 1 = [[97], [98]] := by
  refine exists_run_imp (fun core => core.delivered.filterMap (dataOf 1) = [[97]] ∧
    core.chunks 1 = [[97], [98]]) (by decide) ?_
  intro core reached chunks
  exact ⟨(delivered_isPrefix reached).1, chunks⟩

end Rsloop.Process
