import Rsloop.Datagram.Transport

/-!
# The callback lifecycle of a datagram transport

`connection_made` comes first, `connection_lost` comes last, once. Two things
break this: the reader starts ahead of `connection_made` and may find a
datagram at once, and `sendto` works on a transport that is closing or closed.
-/

namespace Rsloop.Datagram

open Transition List

variable {Datagram : Type}

/-! ## Statement -/

/-- `connection_made` comes first; `connection_lost` comes once and last. -/
structure OrderlyLog (log : List Callback) : Prop where
  madeFirst : ∀ cb ∈ log.head?, cb = .connectionMade
  lostOnce : log.count .connectionLost ≤ 1
  lostLast : ∀ earlier later, log = earlier ++ .connectionLost :: later → later = []

def State.receives (s : State Datagram) : SocketReply → Bool
  | .wouldBlock => false
  | _ =>
    match s.stack with
    | .recvfrom :: _ => true
    | _ => false

/-- Nothing is received ahead of `connection_made`. A datagram that is sent
while the transport is closing does not find the socket full, and none fails
after the connection is lost. -/
def CleanCalls (s : State Datagram) : Action Datagram → Prop
  | .resume reply => s.receives reply → .connectionMade ∈ s.log
  | .sendto _ .wouldBlock => s.buffer = [] → s.closing = false
  | .sendto _ .failed => s.buffer = [] → s.connLost = false
  | _ => True

instance [DecidableEq Datagram] (s : State Datagram) :
    DecidablePred (CleanCalls s) := fun action =>
  match action with
  | .resume reply =>
    inferInstanceAs (Decidable (s.receives reply → .connectionMade ∈ s.log))
  | .sendto _ .wouldBlock =>
    inferInstanceAs (Decidable (s.buffer = [] → s.closing = false))
  | .sendto _ .failed => inferInstanceAs (Decidable (s.buffer = [] → s.connLost = false))
  | .sendto _ .done | .nextItem | .callbackEnds _ | .close | .abort | .readable
  | .writable => .isTrue trivial

/-! ## Steps -/

def Frame.isReader : Frame → Bool
  | .readLoop | .recvfrom => true
  | _ => false

def readerFrames (stack : List Frame) : Nat := stack.countP Frame.isReader

structure Orderly (s : State Datagram) : Prop where
  madeFirst : s.log ≠ [] → s.log.head? = some .connectionMade
  announced : s.ready.count .connectionMade + s.log.count .connectionMade ≤ 1
  notLost : s.connLost = false → .connectionLost ∉ s.log
  lostLast : s.connLost → ∃ earlier, s.log = earlier ++ [.connectionLost] ∧
      .connectionLost ∉ earlier
  lostAfterReader : s.connLost → s.reader.pc = .finished
  /-- Once the loss of the connection is on its way, nothing is sent. -/
  losing : .callConnectionLost ∈ s.ready ∨ 0 < s.doneCallbacks ∨ s.connLost →
      s.closing ∧ s.buffer = []
  known : s.closing ∨ s.buffer ≠ [] → .connectionMade ∈ s.log
  readerRuns : readerFrames s.stack =
    if s.reader.pc = .running then 1 else 0

theorem orderly_new : Orderly (State.new : State Datagram) where
  madeFirst := fun called => absurd rfl called
  announced := by simp [State.new]
  notLost := by simp [State.new]
  lostLast := by simp [State.new]
  lostAfterReader := by simp [State.new]
  losing := by simp [State.new]
  known := by simp [State.new]
  readerRuns := by simp [State.new, readerFrames]

variable {limits : Limits Datagram} {s next : State Datagram}

section

variable (inv : Orderly s)

include inv

theorem Orderly.log : OrderlyLog s.log := by
  refine ⟨?_, ?_, ?_⟩
  · intro cb first
    have called : s.log ≠ [] := by
      intro none
      simp [none] at first
    rw [inv.madeFirst called] at first
    exact (Option.some.inj first).symm
  · cases lost : s.connLost with
    | false => simp [count_eq_zero.mpr (inv.notLost lost)]
    | true =>
      obtain ⟨earlier, log, before⟩ := inv.lostLast lost
      simp [log, count_eq_zero.mpr before]
  · intro earlier later log
    cases lost : s.connLost with
    | false => exact absurd (by rw [log]; simp) (inv.notLost lost)
    | true =>
      obtain ⟨before, same, none⟩ := inv.lostLast lost
      rw [log] at same
      by_contra more
      obtain ⟨middle, last, rfl⟩ := eq_nil_or_concat later |>.resolve_left more
      rw [concat_eq_append, ← cons_append, ← append_assoc] at same
      have prefixes := (append_inj' same rfl).1
      exact none (by rw [← prefixes]; simp)

theorem Orderly.not_lost_of_waiting (waiting : s.buffer ≠ []) :
    s.connLost = false := by
  cases lost : s.connLost with
  | false => rfl
  | true => exact absurd (inv.losing (.inr (.inr lost))).2 waiting

theorem Orderly.not_lost_of_reader (active : s.reader.pc ≠ .finished) :
    s.connLost = false := by
  cases lost : s.connLost with
  | false => rfl
  | true => exact absurd (inv.lostAfterReader lost) active

theorem Orderly.restack {stack : List Frame}
    (reader : readerFrames stack = readerFrames s.stack) :
    Orderly { s with stack := stack } :=
  { inv with readerRuns := reader.trans inv.readerRuns }

theorem Orderly.schedule {items : List Item}
    (tasks : ∀ item ∈ items, item = .reader ∨ item = .writer) :
    Orderly { s with ready := s.ready ++ items } := by
  have noMade : items.count .connectionMade = 0 := by
    rw [count_eq_zero]
    intro mem
    rcases tasks _ mem with same | same <;> cases same
  have noLost : .callConnectionLost ∉ items := by
    intro mem
    rcases tasks _ mem with same | same <;> cases same
  refine { inv with announced := ?_, losing := ?_ }
  · rw [count_append, noMade, Nat.add_zero]
    exact inv.announced
  · rintro (queued | rest)
    · exact inv.losing (.inl ((mem_append.mp queued).resolve_right noLost))
    · exact inv.losing (.inr rest)

end

variable {rest : List Frame}

theorem Orderly.callProtocol (inv : Orderly s) {cb : Callback}
    (notLost : s.connLost = false) (made : .connectionMade ∈ s.log)
    (inner : cb ≠ .connectionMade ∧ cb ≠ .connectionLost)
    (reader : readerFrames rest = readerFrames s.stack) :
    Orderly (s.callProtocol cb rest) := by
  have started : s.log ≠ [] := ne_nil_of_mem made
  refine
    { inv with
      madeFirst := fun _ => ?_
      announced := ?_
      notLost := fun _ mem => ?_
      lostLast := fun lost => ?_
      known := fun _ => mem_append_left _ made
      readerRuns := reader.trans inv.readerRuns }
  · rw [State.callProtocol, head?_append_of_ne_nil _ started]
    exact inv.madeFirst started
  · have other : [cb].count .connectionMade = 0 := by
      rw [count_eq_zero, mem_singleton]
      exact inner.1.symm
    rw [State.callProtocol, count_append, other, Nat.add_zero]
    exact inv.announced
  · rcases mem_append.mp mem with old | new
    · exact inv.notLost notLost old
    · exact inner.2 (mem_singleton.mp new).symm
  · cases notLost.symm.trans lost

theorem Orderly.callConnectionLost (inv : Orderly s)
    (closing : s.closing) (empty : s.buffer = [])
    (reader : readerFrames rest = readerFrames s.stack) :
    Orderly (s.callConnectionLost rest) := by
  unfold State.callConnectionLost
  split
  · exact inv.restack reader
  next notLost =>
    have notLost : s.connLost = false := by simpa using notLost
    have made := inv.known (.inl closing)
    have started : s.log ≠ [] := ne_nil_of_mem made
    split
    next finished =>
      refine
        { inv with
          madeFirst := fun _ => ?_
          announced := ?_
          notLost := nofun
          lostLast := fun _ => ⟨s.log, rfl, inv.notLost notLost⟩
          lostAfterReader := fun _ => finished
          losing := fun _ => ⟨closing, empty⟩
          known := fun _ => mem_append_left _ made
          readerRuns := reader.trans inv.readerRuns }
      · rw [State.callProtocol, head?_append_of_ne_nil _ started]
        exact inv.madeFirst started
      · rw [State.callProtocol, count_append]
        exact inv.announced
    next =>
      exact
        { inv with
          losing := fun _ => ⟨closing, empty⟩
          readerRuns := reader.trans inv.readerRuns }

theorem running_cancel (task : Task) (item : Item) :
    (task.cancel item).1.pc = .running ↔ task.pc = .running := by
  unfold Task.cancel
  split
  next waiting => simp [waiting]
  next => rfl
  next => rfl
  next => rfl

theorem finished_cancel (task : Task) (item : Item) : (task.cancel item).1.pc = .finished ↔
      task.pc = .finished := by
  unfold Task.cancel
  split
  next waiting => simp [waiting]
  next => rfl
  next => rfl
  next => rfl

theorem mem_cancel {task : Task} {item other : Item}
    (mem : other ∈ (task.cancel item).2) : other = item := by
  unfold Task.cancel at mem
  split at mem <;> simp_all

theorem Orderly.cancelReader (inv : Orderly s) : Orderly s.cancelReader := by
  have cancelled : Orderly
      { s with reader := (s.reader.cancel .reader).1 } :=
    { inv with
      lostAfterReader := fun lost =>
        (finished_cancel _ _).mpr (inv.lostAfterReader lost)
      readerRuns := by
        rw [inv.readerRuns]
        simp only [running_cancel] }
  exact cancelled.schedule fun item mem => .inl (mem_cancel mem)

theorem Orderly.cancelWriter (inv : Orderly s) : Orderly s.cancelWriter := by
  have cancelled : Orderly { s with writer := (s.writer.cancel .writer).1 } := { inv with }
  exact cancelled.schedule fun item mem => .inr (mem_cancel mem)

theorem Orderly.finishReader (inv : Orderly s) (none : readerFrames rest = 0) :
    Orderly { s.finishReader with stack := rest } := by
  refine
    { inv with
      announced := ?_
      lostAfterReader := fun _ => rfl
      losing := ?_
      readerRuns := none }
  · rw [State.finishReader, count_append, count_replicate]
    exact inv.announced
  · rintro (queued | waits | lost)
    · rcases mem_append.mp queued with old | new
      · exact inv.losing (.inl old)
      · exact inv.losing (.inr (.inl (Nat.pos_of_ne_zero (mem_replicate.mp new).1)))
    · exact absurd waits (Nat.lt_irrefl 0)
    · exact inv.losing (.inr (.inr lost))

theorem Orderly.reader_on_top (inv : Orderly s) {frame : Frame}
    (stack : s.stack = frame :: rest) (isReader : frame.isReader) :
    s.reader.pc = .running ∧ readerFrames rest = 0 := by
  have runs := inv.readerRuns
  rw [stack, readerFrames, countP_cons_of_pos isReader] at runs
  split at runs
  next running =>
    exact ⟨running, by rw [readerFrames]; omega⟩
  next => omega

variable {reply : SocketReply}

theorem orderly_stepRecvfrom (inv : Orderly s)
    (stack : s.stack = .recvfrom :: rest)
    (clean : CleanCalls s (.resume reply)) : Orderly (s.stepRecvfrom rest reply) := by
  obtain ⟨running, none⟩ := inv.reader_on_top stack rfl
  have notLost := inv.not_lost_of_reader (by simp [running])
  have same : readerFrames (.readLoop :: rest) = readerFrames s.stack := by
    rw [stack]
    rfl
  cases reply with
  | done | failed =>
    have made := clean (by simp [State.receives, stack])
    exact inv.callProtocol notLost made (by simp) same
  | wouldBlock =>
    have pc : (s.reader.suspend .reader).1.pc ≠ .running := by
      unfold Task.suspend
      split <;> simp
    have suspended : Orderly
        { s with reader := (s.reader.suspend .reader).1, stack := rest } :=
      { inv with
        lostAfterReader := fun lost => by cases notLost.symm.trans lost
        readerRuns := none.trans (if_neg pc).symm }
    refine suspended.schedule ?_
    unfold Task.suspend
    split <;> simp

theorem orderly_stepFlushLoop (inv : Orderly s)
    (stack : s.stack = .flushLoop :: rest)
    (moved : s.stepFlushLoop limits rest reply = some next) : Orderly next := by
  have below : readerFrames rest = readerFrames s.stack := by
    rw [stack]
    rfl
  unfold State.stepFlushLoop at moved
  split at moved
  · cases moved
    exact inv.restack below
  next first later buf =>
    have waiting : s.buffer ≠ [] := by simp [buf]
    have notLost := inv.not_lost_of_waiting waiting
    have made := inv.known (.inr waiting)
    have popped (outcome : Handled Datagram) :
        Orderly (s.popleft limits first later outcome) :=
      { inv with
        losing := fun losing => absurd (inv.losing losing).2 waiting
        known := fun _ => made }
    split_ifs at moved
    cases reply with
    | done =>
      cases moved
      unfold State.maybeResumeProtocol
      split
      · have resumed : Orderly
            { s.popleft limits first later (.sent first) with
              protocolPaused := false } := { popped (.sent first) with }
        exact resumed.callProtocol notLost made (by simp) rfl
      · exact popped (.sent first)
    | wouldBlock =>
      cases moved
      have suspended : Orderly
          { s with writer := (s.writer.suspend .writer).1, stack := rest } :=
        { inv with readerRuns := below.trans inv.readerRuns }
      refine suspended.schedule ?_
      unfold Task.suspend
      split <;> simp
    | failed =>
      cases moved
      exact (popped (.reported first)).callProtocol notLost made (by simp) rfl

theorem orderly_resume (inv : Orderly s) (clean : CleanCalls s (.resume reply))
    (moved : s.resume limits reply = some next) : Orderly next := by
  unfold State.resume at moved
  split at moved
  next rest stack =>
    cases moved
    obtain ⟨-, none⟩ := inv.reader_on_top stack rfl
    unfold State.stepReadLoop
    split
    · exact inv.finishReader none
    · refine inv.restack ?_
      rw [stack]
      rfl
  next rest stack =>
    cases moved
    exact orderly_stepRecvfrom inv stack clean
  next rest stack => exact orderly_stepFlushLoop inv stack moved
  next rest stack =>
    cases moved
    have below : readerFrames rest = readerFrames s.stack := by
      rw [stack]
      rfl
    have ended : Orderly { s with writer := ⟨.absent, false⟩ } := { inv with }
    unfold State.stepFlushEnd
    dsimp only
    split
    next closes =>
      rw [Bool.and_eq_true, List.isEmpty_iff] at closes
      exact ended.callConnectionLost closes.1 closes.2 below
    next => exact ended.restack below
  next rest stack =>
    cases moved
    have closed : Orderly { s with socketClosed := true } := { inv with }
    refine closed.restack ?_
    rw [stack]
    rfl
  next => cases moved
  next => cases moved

theorem orderly_nextItem {item : Item} {ready : List Item} (inv : Orderly s)
    (stack : s.stack = []) (queued : s.ready = item :: ready) :
    Orderly ({ s with ready := ready }.runItem item) := by
  have taken : Orderly { s with ready := ready } := by
    refine { inv with announced := ?_, losing := ?_ }
    · have announced := inv.announced
      rw [queued, count_cons] at announced
      exact Nat.le_trans (Nat.add_le_add_right (Nat.le_add_right _ _) _) announced
    · rintro (later | rest)
      · exact inv.losing (.inl (by rw [queued]; exact mem_cons_of_mem _ later))
      · exact inv.losing (.inr rest)
  have none : readerFrames s.stack = 0 := by
    rw [stack]
    rfl
  have starts (frame : Frame) (isReader : frame.isReader)
      (active : s.reader.pc ≠ .finished) :
      Orderly { s with ready := ready, reader := ⟨.running, false⟩, stack := [frame] } :=
    { taken with
      lostAfterReader := fun lost => by
        cases (inv.not_lost_of_reader active).symm.trans lost
      readerRuns := by
        simp [readerFrames, isReader] }
  cases item with
  | reader =>
    simp only [State.runItem]
    split
    next fresh =>
      split
      · exact taken.finishReader none
      · exact starts .readLoop rfl (by simp_all)
    next woken =>
      split
      · exact taken.finishReader none
      · exact starts .recvfrom rfl (by simp_all)
    next => exact taken
  | writer =>
    have writes (writer : Task) (stack : List Frame) (unread : readerFrames stack = 0) : Orderly
          { s with ready := ready, writer := writer, stack := stack } :=
      { taken with readerRuns := unread.trans (none.symm.trans inv.readerRuns) }
    simp only [State.runItem]
    split
    · split
      · exact writes ⟨.finished, false⟩ s.stack none
      · exact writes ⟨.running, false⟩ [.flushLoop] rfl
    · split
      · exact writes ⟨.running, false⟩ [.flushEnd] rfl
      · exact writes ⟨.running, false⟩ [.flushLoop] rfl
    · exact taken
  | connectionMade =>
    -- it is scheduled once, so nothing has been called before it
    have announced := inv.announced
    rw [queued, count_cons_self] at announced
    have silent : s.log = [] := by
      by_contra called
      have first := inv.madeFirst called
      have made : .connectionMade ∈ s.log := mem_of_head? first
      have counted := count_pos_iff.mpr made
      omega
    have notLost : s.connLost = false := by
      cases lost : s.connLost with
      | false => rfl
      | true =>
        obtain ⟨earlier, log, -⟩ := inv.lostLast lost
        simp [silent] at log
    refine
      { taken with
        madeFirst := fun _ => ?_
        announced := ?_
        notLost := fun _ => ?_
        lostLast := fun lost => by cases notLost.symm.trans lost
        known := fun _ => ?_
        readerRuns := ?_ }
    · simp [State.runItem, State.callProtocol, silent]
    · simp [State.runItem, State.callProtocol, silent]
      omega
    · simp [State.runItem, State.callProtocol, silent]
    · simp [State.runItem, State.callProtocol]
    · exact none.symm.trans inv.readerRuns
  | callConnectionLost =>
    have losing := inv.losing (.inl (by rw [queued]; exact mem_cons_self))
    refine taken.callConnectionLost losing.1 losing.2 ?_
    rw [none]
    rfl

theorem orderly_callbackEnds {cb : Callback} (raised : Bool)
    (inv : Orderly s) (stack : s.stack = .running cb :: rest) :
    Orderly (if raised then s.unwind rest else { s with stack := rest }) := by
  have below : readerFrames rest = readerFrames s.stack := by
    rw [stack]
    rfl
  cases raised with
  | false => exact inv.restack below
  | true =>
    rw [if_pos rfl]
    unfold State.unwind
    split
    next outer =>
      obtain ⟨-, none⟩ := (inv.restack below).reader_on_top rfl rfl
      exact inv.finishReader none
    next outer => exact inv.restack below
    · exact inv.restack below

section

variable (inv : Orderly s) (made : .connectionMade ∈ s.log)

include inv made

theorem orderly_sendto {datagram : Datagram}
    (clean : CleanCalls s (.sendto datagram reply))
    (moved : s.sendto limits datagram reply = some next) : Orderly next := by
  have appended {s : State Datagram} (inv : Orderly s)
      (made : .connectionMade ∈ s.log)
      (stays : s.buffer ≠ [] ∨ s.closing = false) :
      Orderly (s.append limits datagram) := by
    have notLosing : ¬ (.callConnectionLost ∈ s.ready ∨
        0 < s.doneCallbacks ∨ s.connLost) := by
      intro losing
      obtain ⟨closing, empty⟩ := inv.losing losing
      rcases stays with waiting | opened
      · exact waiting empty
      · cases opened.symm.trans closing
    have queued : Orderly
        { s with
          buffer := s.buffer ++ [datagram]
          bufferSize := s.bufferSize + limits.size datagram
          accepted := s.accepted ++ [datagram] } :=
      { inv with losing := fun losing => absurd losing notLosing, known := fun _ => made }
    have notLost : s.connLost = false := by
      cases lost : s.connLost with
      | false => rfl
      | true => exact absurd (.inr (.inr lost)) notLosing
    unfold State.append State.maybePauseProtocol
    split
    · have paused : Orderly
          { s with
            buffer := s.buffer ++ [datagram]
            bufferSize := s.bufferSize + limits.size datagram
            accepted := s.accepted ++ [datagram]
            protocolPaused := true } := { queued with }
      exact paused.callProtocol notLost made (by simp) rfl
    · exact queued
  unfold State.sendto at moved
  split at moved
  next first later buf =>
    cases moved
    exact appended inv made (.inl (by simp [buf]))
  next buf =>
    split_ifs at moved
    cases reply with
    | done =>
      cases moved
      exact { inv with }
    | wouldBlock =>
      cases moved
      have opened := clean buf
      unfold State.createWriter
      split
      · have created : Orderly { s with writer := ⟨.fresh, false⟩ } := { inv with }
        have scheduled := created.schedule
          (show ∀ item ∈ [Item.writer], item = .reader ∨ item = .writer by
            simp)
        exact appended scheduled made (.inr opened)
      · exact appended inv made (.inr opened)
    | failed =>
      cases moved
      have reported : Orderly
          { s with
            accepted := s.accepted ++ [datagram]
            handled := s.handled ++ [.reported datagram] } :=
        { inv with }
      exact reported.callProtocol (clean buf) made (by simp) rfl

theorem Orderly.close : Orderly s.close := by
  unfold State.close
  split
  · exact inv
  · have closing : Orderly { s with closing := true } :=
      { inv with losing := fun losing => ⟨rfl, (inv.losing losing).2⟩, known := fun _ => made }
    have cancelled := closing.cancelReader
    dsimp only
    split
    next empty =>
      refine { cancelled with announced := ?_, losing := fun _ => ?_ }
      · rw [count_append]
        exact cancelled.announced
      · exact ⟨rfl, List.isEmpty_iff.mp empty⟩
    next => exact cancelled

theorem Orderly.abort : Orderly s.abort := by
  unfold State.abort
  split
  · exact inv
  · have cleared : Orderly
        { s with buffer := [], bufferSize := 0, closing := true } :=
      { inv with losing := fun _ => ⟨rfl, rfl⟩, known := fun _ => made }
    exact cleared.cancelReader.cancelWriter.callConnectionLost rfl rfl rfl

end

theorem orderly_datagramStep {action : Action Datagram} (inv : Orderly s)
    (clean : CleanCalls s action)
    (moved : datagramStep limits s action = some next) :
    Orderly next := by
  have known (runs : applicationRuns s) : .connectionMade ∈ s.log := by
    rw [applicationRuns, Bool.and_eq_true] at runs
    exact of_decide_eq_true runs.1
  cases action with
  | nextItem =>
    simp only [datagramStep] at moved
    split at moved <;> cases moved
    rename_i item ready stack queued
    exact orderly_nextItem inv stack queued
  | resume => exact orderly_resume inv clean moved
  | callbackEnds raised =>
    simp only [datagramStep] at moved
    split at moved <;> cases moved
    rename_i cb rest stack
    exact orderly_callbackEnds raised inv stack
  | sendto =>
    simp only [datagramStep] at moved
    split_ifs at moved with runs
    exact orderly_sendto inv (known runs) clean moved
  | close =>
    simp only [datagramStep] at moved
    split_ifs at moved with runs
    cases moved
    exact inv.close (known runs)
  | abort =>
    simp only [datagramStep] at moved
    split_ifs at moved with runs
    cases moved
    exact inv.abort (known runs)
  | readable =>
    simp only [datagramStep] at moved
    split_ifs at moved with waiting
    cases moved
    have woken : Orderly
        { s with reader := { s.reader with pc := .woken } } :=
      { inv with
        lostAfterReader := fun lost => by
          cases waiting.symm.trans (inv.lostAfterReader lost)
        readerRuns := by
          rw [inv.readerRuns, waiting]
          rfl }
    exact woken.schedule (by simp)
  | writable =>
    simp only [datagramStep] at moved
    split_ifs at moved
    cases moved
    have woken : Orderly
        { s with writer := { s.writer with pc := .woken } } :=
      { inv with }
    exact woken.schedule (by simp)

/-- In every run in which nothing is received ahead of `connection_made` and
`sendto` keeps away from a closing transport, `connection_made` comes first and
`connection_lost` at most once and last. -/
theorem orderlyLog_of_cleanCalls (limits : Limits Datagram)
    {actions : List (Action Datagram)}
    {s : State Datagram}
    (clean : Guarded (datagramStep limits) CleanCalls State.new actions)
    (reached : run (datagramStep limits) State.new actions = some s) :
    OrderlyLog s.log := by
  have inv : Orderly s := by
    refine invariant_of_run Orderly ?_ orderly_new clean reached
    intro before action after inv clean moved
    exact orderly_datagramStep inv clean moved
  exact inv.log

/-- A datagram arrives, and `datagram_received` aborts the transport. -/
def abortedInCallback : List (Action Nat) :=
  [.nextItem, .resume .done, .resume .wouldBlock, .nextItem,
    .callbackEnds false, .sendto 1 .wouldBlock, .readable, .nextItem,
    .resume .wouldBlock, .nextItem, .resume .done, .abort,
    .callbackEnds false, .resume .done, .nextItem, .resume .done, .close,
    .callbackEnds true, .resume .done, .nextItem]

theorem orderlyLog_of_abortedInCallback : ∃ s,
      run (datagramStep (defaultLimits fun _ => 10)) State.new abortedInCallback = some s ∧
        s.log = [.connectionMade, .datagramReceived, .connectionLost] ∧
        OrderlyLog s.log := by
  refine exists_run_imp
    (fun s => s.log = [.connectionMade, .datagramReceived, .connectionLost]) (by decide) ?_
  rintro s reached log
  exact ⟨log, orderlyLog_of_cleanCalls (defaultLimits fun _ => 10) (by decide) reached⟩

/-- A datagram that is there when the transport is created comes before
`connection_made`; and a datagram sent after the connection is lost is reported
to the protocol. -/
theorem log_out_of_order : (∃ s,
      run (datagramStep (defaultLimits fun _ : Nat => 10)) State.new
          [.nextItem, .resume .done, .resume .done, .callbackEnds false,
            .resume .done, .resume .wouldBlock, .nextItem,
            .callbackEnds false] = some s ∧
        s.log = [.datagramReceived, .connectionMade]) ∧
      ∃ s, run (datagramStep (defaultLimits fun _ : Nat => 10)) State.new
            [.nextItem, .resume .done, .resume .wouldBlock, .nextItem,
              .callbackEnds false, .close, .nextItem, .nextItem,
              .callbackEnds false, .resume .done, .sendto 1 .failed] =
            some s ∧
          s.log = [.connectionMade, .connectionLost, .errorReceived] := by
  constructor
  · exact exists_run_of_any _ State.new _ (fun s : State Nat =>
        s.log = [.datagramReceived, .connectionMade]) (by decide)
  · exact exists_run_of_any _ State.new _ (fun s : State Nat =>
        s.log = [.connectionMade, .connectionLost, .errorReceived])
      (by decide)

end Rsloop.Datagram
