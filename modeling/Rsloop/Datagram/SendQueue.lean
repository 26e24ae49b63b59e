import Rsloop.Datagram.Transport

/-!
# The send queue of a datagram transport

A datagram is sent at once, or it waits behind others for the writer task. As
long as no callback raises inside the writer while something waits, every
datagram is sent or reported in the order of the `sendto` calls, and a writer
is there for those that wait.
-/

namespace Rsloop.Datagram

open Transition List

variable {Datagram : Type}

/-! ## Statement -/

def WriterAlive (s : State Datagram) : Prop :=
  ((s.writer.pc = .fresh ∨ s.writer.pc = .woken) ∧ .writer ∈ s.ready) ∨
    s.writer.pc = .waiting ∨ .flushLoop ∈ s.stack

structure QueueIntact (s : State Datagram) : Prop where
  conserved : s.handled.map Handled.datagram ++ s.buffer = s.accepted
  alive : s.buffer ≠ [] → WriterAlive s

def Action.spares : Action Datagram → Bool
  | .abort => false
  | _ => true

/-- The writer has called the protocol method that runs. -/
def State.writerCalls (s : State Datagram) : Bool :=
  match s.stack with
  | .running _ :: .flushLoop :: _ => true
  | _ => false

/-- A method that the writer has called raises only if nothing waits. -/
def CleanWriter (s : State Datagram) : Action Datagram → Prop
  | .callbackEnds true => s.writerCalls → s.buffer = []
  | _ => True

instance [DecidableEq Datagram] (s : State Datagram) :
    DecidablePred (CleanWriter s) := fun action =>
  match action with
  | .callbackEnds true =>
    inferInstanceAs (Decidable (s.writerCalls → s.buffer = []))
  | .callbackEnds false | .nextItem | .resume _ | .sendto _ _ | .close | .abort | .readable
  | .writable => .isTrue trivial

/-! ## Steps -/

/-- What holds of the writer in every run without an abort. The end of the
writer is never below another frame. -/
structure QueueFlows (s : State Datagram) : Prop where
  conserved : s.handled.map Handled.datagram ++ s.buffer = s.accepted
  notCancelled : s.writer.mustCancel = false
  notFinished : s.writer.pc ≠ .finished
  scheduled : s.writer.pc = .fresh ∨ s.writer.pc = .woken →
      .writer ∈ s.ready
  working : s.writer.pc = .running → .flushEnd ∉ s.stack → .flushLoop ∈ s.stack
  endOnTop : .flushEnd ∉ s.stack.tail
  waits : s.buffer ≠ [] → s.writer.pc ≠ .absent ∧ .flushEnd ∉ s.stack

theorem queueFlows_new : QueueFlows (State.new : State Datagram) where
  conserved := rfl
  notCancelled := rfl
  notFinished := by simp [State.new]
  scheduled := by simp [State.new]
  working := by simp [State.new]
  endOnTop := by simp [State.new]
  waits := by simp [State.new]

/-- The parts of the state that belong to the writer are as before. -/
structure KeepsQueue (s next : State Datagram) : Prop where
  writer : next.writer = s.writer
  buffer : next.buffer = s.buffer
  accepted : next.accepted = s.accepted
  handled : next.handled = s.handled
  ready : .writer ∈ s.ready → .writer ∈ next.ready

variable {limits : Limits Datagram} {s next : State Datagram}

theorem QueueFlows.keeps (inv : QueueFlows s) (keeps : KeepsQueue s next)
    (before : .flushEnd ∉ s.stack) (after : .flushEnd ∉ next.stack)
    (loops : .flushLoop ∈ s.stack → .flushLoop ∈ next.stack) :
    QueueFlows next where
  conserved := by
    rw [keeps.handled, keeps.buffer, keeps.accepted]
    exact inv.conserved
  notCancelled := by
    rw [keeps.writer]
    exact inv.notCancelled
  notFinished := by
    rw [keeps.writer]
    exact inv.notFinished
  scheduled := by
    rw [keeps.writer]
    exact fun pos => keeps.ready (inv.scheduled pos)
  working := by
    rw [keeps.writer]
    exact fun pos _ => loops (inv.working pos before)
  endOnTop := fun below => after (mem_of_mem_tail below)
  waits := by
    rw [keeps.buffer, keeps.writer]
    exact fun waiting => ⟨(inv.waits waiting).1, after⟩

variable {rest : List Frame}

theorem QueueFlows.no_flushEnd {frame : Frame} (inv : QueueFlows s)
    (stack : s.stack = frame :: rest) (other : frame ≠ .flushEnd) :
    .flushEnd ∉ s.stack ∧ .flushEnd ∉ rest := by
  have below := inv.endOnTop
  rw [stack] at below
  rw [stack]
  exact ⟨fun mem => (mem_cons.mp mem).elim (fun same => other same.symm) below, below⟩

theorem QueueFlows.no_flushEnd_of_applicationRuns
    (inv : QueueFlows s) (runs : applicationRuns s) : .flushEnd ∉ s.stack := by
  unfold applicationRuns at runs
  cases stack : s.stack with
  | nil => simp
  | cons frame =>
    rw [stack, Bool.and_eq_true] at runs
    have other : frame ≠ .flushEnd := by
      rintro rfl
      cases runs.2
    rw [← stack]
    exact (inv.no_flushEnd stack other).1

theorem mem_stack_callConnectionLost {frame : Frame} :
    (frame ∈ rest → frame ∈ (s.callConnectionLost rest).stack) ∧
      (frame ∈ (s.callConnectionLost rest).stack →
        frame ∈ rest ∨ frame = .running .connectionLost ∨ frame = .closeSocket) := by
  unfold State.callConnectionLost
  split
  · exact ⟨id, .inl⟩
  · split
    · simp only [State.callProtocol, mem_cons]
      refine ⟨fun below => .inr (.inr below), ?_⟩
      rintro (running | closing | below)
      · exact .inr (.inl running)
      · exact .inr (.inr closing)
      · exact .inl below
    · exact ⟨id, .inl⟩

theorem keepsQueue_callConnectionLost (rest : List Frame) :
    KeepsQueue s (s.callConnectionLost rest) := by
  unfold State.callConnectionLost
  split
  · exact ⟨rfl, rfl, rfl, rfl, id⟩
  · split <;> exact ⟨rfl, rfl, rfl, rfl, id⟩

section

variable (inv : QueueFlows s) (noEnd : .flushEnd ∉ s.stack)

include inv noEnd

theorem QueueFlows.callProtocol (cb : Callback) :
    QueueFlows (s.callProtocol cb s.stack) := by
  refine inv.keeps ⟨rfl, rfl, rfl, rfl, id⟩ noEnd ?_ ?_
  · intro mem
    rcases mem_cons.mp mem with same | below
    · cases same
    · exact noEnd below
  · exact mem_cons_of_mem _

theorem QueueFlows.maybePauseProtocol : QueueFlows (s.maybePauseProtocol limits) := by
  unfold State.maybePauseProtocol
  split
  · have flagged : QueueFlows { s with protocolPaused := true } := { inv with }
    exact flagged.callProtocol noEnd .pauseWriting
  · exact inv

theorem QueueFlows.maybeResumeProtocol : QueueFlows (s.maybeResumeProtocol limits) := by
  unfold State.maybeResumeProtocol
  split
  · have flagged : QueueFlows { s with protocolPaused := false } := { inv with }
    exact flagged.callProtocol noEnd .resumeWriting
  · exact inv

theorem QueueFlows.append (present : s.writer.pc ≠ .absent)
    (datagram : Datagram) :
    QueueFlows (s.append limits datagram) := by
  have appended : QueueFlows
      { s with
        buffer := s.buffer ++ [datagram]
        bufferSize := s.bufferSize + limits.size datagram
        accepted := s.accepted ++ [datagram] } :=
    { inv with
      conserved := by
        simp only [← append_assoc, inv.conserved]
      waits := fun _ => ⟨present, noEnd⟩ }
  exact appended.maybePauseProtocol noEnd

end

theorem QueueFlows.createWriter (inv : QueueFlows s) :
    QueueFlows s.createWriter := by
  unfold State.createWriter
  split
  next absent =>
    exact
      { inv with
        notCancelled := rfl
        notFinished := by simp
        scheduled := fun _ => mem_append_right _ mem_cons_self
        working := nofun
        waits := fun waiting => absurd absent (inv.waits waiting).1 }
  next => exact inv

theorem position_createWriter : s.createWriter.writer.pc ≠ .absent := by
  unfold State.createWriter
  split
  · simp
  · assumption

theorem stack_createWriter : s.createWriter.stack = s.stack := by
  unfold State.createWriter
  split <;> rfl

variable {reply : SocketReply}

section

variable (inv : QueueFlows s)

include inv

theorem queueFlows_sendto {datagram : Datagram}
    (noEnd : .flushEnd ∉ s.stack)
    (moved : s.sendto limits datagram reply = some next) :
    QueueFlows next := by
  unfold State.sendto at moved
  split at moved
  next first later buf =>
    cases moved
    have waiting : s.buffer ≠ [] := by simp [buf]
    exact inv.append noEnd (inv.waits waiting).1 datagram
  next buf =>
    have gone (outcome : Handled Datagram) (same : outcome.datagram = datagram) : QueueFlows
          { s with
            accepted := s.accepted ++ [datagram]
            handled := s.handled ++ [outcome] } := by
      refine { inv with conserved := ?_ }
      have conserved := inv.conserved
      rw [buf, append_nil] at conserved
      simp [buf, conserved, same]
    split_ifs at moved
    cases reply with
    | done =>
      cases moved
      exact gone (.sent datagram) rfl
    | wouldBlock =>
      cases moved
      refine inv.createWriter.append ?_ position_createWriter datagram
      rwa [stack_createWriter]
    | failed =>
      cases moved
      exact (gone (.reported datagram) rfl).callProtocol noEnd .errorReceived

theorem queueFlows_stepFlushLoop (stack : s.stack = .flushLoop :: rest)
    (moved : s.stepFlushLoop limits rest reply = some next) :
    QueueFlows next := by
  obtain ⟨noEnd, below⟩ := inv.no_flushEnd stack (by simp)
  unfold State.stepFlushLoop at moved
  split at moved
  next buf =>
    cases moved
    exact
      { inv with
        working := fun _ noEnd => absurd mem_cons_self noEnd
        endOnTop := below
        waits := fun waiting => absurd buf waiting }
  next first later buf =>
    have popped (outcome : Handled Datagram) (same : outcome.datagram = first) :
        QueueFlows (s.popleft limits first later outcome) :=
      { inv with
        conserved := by
          have conserved := inv.conserved
          rw [buf] at conserved
          simp [State.popleft, same, ← conserved]
        waits := fun _ => ⟨(inv.waits (by simp [buf])).1, noEnd⟩ }
    split_ifs at moved
    cases reply with
    | done =>
      cases moved
      exact (popped (.sent first) rfl).maybeResumeProtocol noEnd
    | wouldBlock =>
      cases moved
      have waiting : (s.writer.suspend .writer).1 =
          { s.writer with pc := .waiting } := by
        rw [Task.suspend, if_neg (by simp [inv.notCancelled])]
      rw [waiting]
      exact
        { inv with
          notCancelled := inv.notCancelled
          notFinished := by simp
          scheduled := by simp
          working := by simp
          endOnTop := fun mem => below (mem_of_mem_tail mem)
          waits := fun _ => ⟨by simp, below⟩ }
    | failed =>
      cases moved
      exact (popped (.reported first) rfl).callProtocol noEnd .errorReceived

theorem queueFlows_stepFlushEnd (stack : s.stack = .flushEnd :: rest) :
    QueueFlows (s.stepFlushEnd rest) := by
  have below : .flushEnd ∉ rest := by
    have onTop := inv.endOnTop
    rwa [stack] at onTop
  have empty : s.buffer = [] := by
    by_contra waiting
    exact (inv.waits waiting).2 (by rw [stack]; exact mem_cons_self)
  have ended : QueueFlows
      { s with writer := ⟨.absent, false⟩, stack := rest } :=
    { inv with
      notCancelled := rfl
      notFinished := by simp
      scheduled := by simp
      working := by simp
      endOnTop := fun mem => below (mem_of_mem_tail mem)
      waits := fun waiting => absurd empty waiting }
  unfold State.stepFlushEnd
  dsimp only
  split
  · refine ended.keeps (keepsQueue_callConnectionLost rest) below ?_ ?_
    · intro mem
      rcases mem_stack_callConnectionLost.2 mem with old | new | new
      · exact below old
      · cases new
      · cases new
    · exact mem_stack_callConnectionLost.1
  · exact ended

theorem queueFlows_resume (moved : s.resume limits reply = some next) :
    QueueFlows next := by
  unfold State.resume at moved
  cases stack : s.stack with
  | nil => simp [stack] at moved
  | cons frame =>
    cases frame with
    | running => simp [stack] at moved
    | flushLoop =>
      simp only [stack] at moved
      exact queueFlows_stepFlushLoop inv stack moved
    | flushEnd =>
      simp only [stack] at moved
      cases moved
      exact queueFlows_stepFlushEnd inv stack
    | readLoop =>
      simp only [stack] at moved
      cases moved
      obtain ⟨noEnd, below⟩ := inv.no_flushEnd stack (by simp)
      unfold State.stepReadLoop
      split
      · refine inv.keeps ⟨rfl, rfl, rfl, rfl, mem_append_left _⟩ noEnd below ?_
        simp [stack]
      · refine inv.keeps ⟨rfl, rfl, rfl, rfl, id⟩ noEnd ?_ ?_
        · simpa using below
        · simp [stack]
    | recvfrom =>
      simp only [stack] at moved
      cases moved
      obtain ⟨noEnd, below⟩ := inv.no_flushEnd stack (by simp)
      cases reply with
      | done | failed =>
        refine inv.keeps ⟨rfl, rfl, rfl, rfl, id⟩ noEnd ?_ ?_
        · simpa [State.stepRecvfrom, State.callProtocol] using below
        · simp [stack, State.stepRecvfrom, State.callProtocol]
      | wouldBlock =>
        refine inv.keeps ⟨rfl, rfl, rfl, rfl, mem_append_left _⟩ noEnd below ?_
        simp [stack, State.stepRecvfrom]
    | closeSocket =>
      simp only [stack] at moved
      cases moved
      obtain ⟨noEnd, below⟩ := inv.no_flushEnd stack (by simp)
      refine inv.keeps ⟨rfl, rfl, rfl, rfl, id⟩ noEnd below ?_
      simp [stack]

theorem queueFlows_nextItem {item : Item} {ready : List Item}
    (stack : s.stack = [])
    (queued : s.ready = item :: ready) :
    QueueFlows ({ s with ready := ready }.runItem item) := by
  have noEnd : .flushEnd ∉ s.stack := by simp [stack]
  have kept (other : item ≠ .writer) : QueueFlows { s with ready := ready } := by
    refine inv.keeps ⟨rfl, rfl, rfl, rfl, ?_⟩ noEnd noEnd id
    rw [queued]
    exact fun mem => (mem_cons.mp mem).resolve_left other.symm
  cases item with
  | reader =>
    have inv := kept (by simp)
    simp only [State.runItem]
    split
    · split
      · exact inv.keeps ⟨rfl, rfl, rfl, rfl, mem_append_left _⟩ noEnd noEnd id
      · exact inv.keeps ⟨rfl, rfl, rfl, rfl, id⟩ noEnd (by simp) (by simp [stack])
    · split
      · exact inv.keeps ⟨rfl, rfl, rfl, rfl, mem_append_left _⟩ noEnd noEnd id
      · exact inv.keeps ⟨rfl, rfl, rfl, rfl, id⟩ noEnd (by simp) (by simp [stack])
    · exact inv
  | writer =>
    have started : QueueFlows
        { s with ready := ready, writer := ⟨.running, false⟩, stack := [.flushLoop] } :=
      { inv with
        notCancelled := rfl
        notFinished := by simp
        scheduled := by simp
        working := by simp
        endOnTop := by simp
        waits := by simp }
    simp only [State.runItem]
    split
    · rwa [if_neg (by simp [inv.notCancelled])]
    · rwa [if_neg (by simp [inv.notCancelled])]
    next notFresh notWoken =>
      exact { inv with
        scheduled := fun pos =>
          (pos.elim notFresh notWoken).elim }
  | connectionMade =>
    have inv := kept (by simp)
    exact inv.keeps ⟨rfl, rfl, rfl, rfl, id⟩ noEnd
      (by simp [State.runItem, State.callProtocol]) (by simp [stack])
  | callConnectionLost =>
    have inv := kept (by simp)
    refine inv.keeps (keepsQueue_callConnectionLost []) noEnd ?_ (by simp [stack])
    intro mem
    rcases mem_stack_callConnectionLost.2 mem with old | new | new
    · cases old
    · cases new
    · cases new

theorem queueFlows_callbackEnds {cb : Callback} {raised : Bool}
    (stack : s.stack = .running cb :: rest)
    (clean : CleanWriter s (.callbackEnds raised)) :
    QueueFlows (if raised then s.unwind rest else { s with stack := rest }) := by
  obtain ⟨noEnd, below⟩ := inv.no_flushEnd stack (by simp)
  have returned : QueueFlows { s with stack := rest } :=
    inv.keeps ⟨rfl, rfl, rfl, rfl, id⟩ noEnd below (by simp [stack])
  cases raised with
  | false => exact returned
  | true =>
    rw [if_pos rfl]
    unfold State.unwind
    split
    next outer =>
      have deeper : .flushEnd ∉ outer := fun mem =>
        below (mem_cons_of_mem _ mem)
      exact inv.keeps ⟨rfl, rfl, rfl, rfl, mem_append_left _⟩ noEnd deeper (by simp [stack])
    next outer =>
      have deeper : .flushEnd ∉ outer := fun mem =>
        below (mem_cons_of_mem _ mem)
      have empty : s.buffer = [] := clean (by simp [State.writerCalls, stack])
      exact
        { inv with
          working := fun _ noEnd => absurd mem_cons_self noEnd
          endOnTop := deeper
          waits := fun waiting => absurd empty waiting }
    · exact returned

theorem QueueFlows.close (noEnd : .flushEnd ∉ s.stack) :
    QueueFlows s.close := by
  unfold State.close
  split
  · exact inv
  · dsimp only
    split
    · refine inv.keeps ⟨rfl, rfl, rfl, rfl, fun mem => ?_⟩ noEnd noEnd id
      exact mem_append_left _ (mem_append_left _ mem)
    · exact inv.keeps ⟨rfl, rfl, rfl, rfl, mem_append_left _⟩ noEnd noEnd id

theorem queueFlows_datagramStep {action : Action Datagram}
    (spares : action.spares)
    (clean : CleanWriter s action)
    (moved : datagramStep limits s action = some next) :
    QueueFlows next := by
  cases action with
  | nextItem =>
    simp only [datagramStep] at moved
    split at moved <;> cases moved
    rename_i item ready stack queued
    exact queueFlows_nextItem inv stack queued
  | resume => exact queueFlows_resume inv moved
  | callbackEnds =>
    simp only [datagramStep] at moved
    split at moved <;> cases moved
    rename_i cb rest stack
    exact queueFlows_callbackEnds inv stack clean
  | sendto =>
    simp only [datagramStep] at moved
    split_ifs at moved with runs
    exact queueFlows_sendto inv (inv.no_flushEnd_of_applicationRuns runs) moved
  | close =>
    simp only [datagramStep] at moved
    split_ifs at moved with runs
    cases moved
    exact inv.close (inv.no_flushEnd_of_applicationRuns runs)
  | abort => cases spares
  | readable =>
    simp only [datagramStep] at moved
    split_ifs at moved
    cases moved
    exact { inv with
      scheduled := fun pos =>
        mem_append_left _ (inv.scheduled pos) }
  | writable =>
    simp only [datagramStep] at moved
    split_ifs at moved with waiting
    cases moved
    exact
      { inv with
        notFinished := by simp
        scheduled := fun _ => mem_append_right _ mem_cons_self
        working := nofun
        waits := fun waits => ⟨by simp, (inv.waits waits).2⟩ }

theorem QueueFlows.intact : QueueIntact s := by
  refine ⟨inv.conserved, fun waiting => ?_⟩
  obtain ⟨present, noEnd⟩ := inv.waits waiting
  cases pos : s.writer.pc with
  | absent => exact absurd pos present
  | fresh => exact .inl ⟨.inl pos, inv.scheduled (.inl pos)⟩
  | woken => exact .inl ⟨.inr pos, inv.scheduled (.inr pos)⟩
  | waiting => exact .inr (.inl pos)
  | running => exact .inr (.inr (inv.working pos noEnd))
  | finished => exact absurd pos inv.notFinished

end

/-- In a run without an abort in which no callback raises inside the writer
while something waits, every accepted datagram has been sent or reported in
order or still waits, and a writer is there for those that wait. -/
theorem queueIntact_of_cleanWriter (limits : Limits Datagram)
    {actions : List (Action Datagram)}
    {s : State Datagram}
    (spares : ∀ action ∈ actions, action.spares)
    (clean : Guarded (datagramStep limits) CleanWriter State.new actions)
    (reached : run (datagramStep limits) State.new actions = some s) :
    QueueIntact s := by
  have kept : Guarded (datagramStep limits)
      (fun _ action => action.spares) State.new actions :=
    guarded_of_forall fun action member _ => spares action member
  have inv : QueueFlows s := by
    refine invariant_of_run QueueFlows ?_ queueFlows_new (kept.and clean) reached
    rintro before action after inv ⟨spares, clean⟩ moved
    exact queueFlows_datagramStep inv spares clean moved
  exact inv.intact

def numbered : Limits Nat := defaultLimits (fun _ => 10)

/-- The reader finds nothing, and `connection_made` returns. -/
def connected : List (Action Nat) :=
  [.nextItem, .resume .done, .resume .wouldBlock, .nextItem, .callbackEnds false]

/-- Three datagrams wait; the writer sends the first, is told that the second
has failed, and `error_received` sends a fourth. -/
def sentFromErrorReceived : List (Action Nat) :=
  connected ++ [.sendto 1 .wouldBlock, .sendto 2 .done, .sendto 3 .done, .nextItem,
      .resume .done, .resume .failed, .sendto 4 .done, .callbackEnds false,
      .resume .done, .resume .wouldBlock]

theorem queueIntact_of_sentFromErrorReceived : ∃ s,
      run (datagramStep numbered) State.new sentFromErrorReceived = some s ∧
        s.handled = [.sent 1, .reported 2, .sent 3] ∧
        s.buffer = [4] ∧ QueueIntact s := by
  refine exists_run_imp (fun s => s.handled = [.sent 1, .reported 2, .sent 3] ∧ s.buffer
      = [4]) (by decide) ?_
  rintro s reached ⟨handled, buf⟩
  exact ⟨handled, buf, queueIntact_of_cleanWriter numbered (by decide) (by decide) reached⟩

/-- Two datagrams wait, the first fails, and `error_received` raises: the writer
ends, and nobody sends the second. -/
theorem queue_stalls_after_raise : ∃ s, run (datagramStep numbered) State.new (connected ++
            [.sendto 1 .wouldBlock, .sendto 2 .done, .nextItem,
              .resume .failed, .callbackEnds true, .resume .done,
              .sendto 3 .done]) = some s ∧
        s.closing = false ∧ s.handled = [.reported 1] ∧
        s.buffer = [2, 3] ∧ s.writer.pc = .absent ∧
        s.ready = [] ∧ s.stack = [] :=
  exists_run_of_any _ _ _ _ (by decide)

end Rsloop.Datagram
