import Rsloop.Stream.ReadCompleteness
import Rsloop.Stream.ReadFailures

/-!
# Queued read events and the wake-up of the loop

A producer pushes under the queue lock, swaps `read_events_scheduled` and sends
a command where the flag was down. A drain takes the flag down under the lock
when it finds the queue empty, and the budget path sends a command of its own
without looking at the flag. A queued event is still never forgotten.
-/

namespace Rsloop.Stream

open Transition List

variable {Byte : Type}

/-- No callback of the protocol raises. The exception handler may. -/
def NothingRaised (s : ReadState Byte) : ReadAction Byte → Prop
  | .drain .raised => s.drain.handles
  | _ => True

instance (s : ReadState Byte) : DecidablePred (NothingRaised s) :=
  fun action =>
    match action with
    | .drain .raised => inferInstanceAs (Decidable (_ = true))
    | .drain (.returned _) | .drain (.buffer _) | .enqueue _ | .producer _ | .reader _
    | .startDrain | .pauseReading | .resumeReading | .storeReading | .close => .isTrue trivial

/-- A producer has pushed and not yet swapped the flag. -/
def TailPhase.beforeSwap : TailPhase → Bool
  | .send => false
  | _ => true

/-- A command has been sent to the loop and not been taken. -/
def ReadState.commandInFlight (s : ReadState Byte) : Prop :=
  0 < s.streamReadCommands

/-- A producer has taken the flag and is about to send its command. -/
def ReadState.sending (s : ReadState Byte) : Prop :=
  ∃ tail ∈ s.tails, tail.phase = .send

def ReadState.swapPending (s : ReadState Byte) : Prop :=
  ∃ tail ∈ s.tails, tail.phase.beforeSwap

instance (s : ReadState Byte) : Decidable s.commandInFlight :=
  inferInstanceAs (Decidable (_ < _))

instance (s : ReadState Byte) : Decidable s.swapPending :=
  inferInstanceAs (Decidable (∃ _ ∈ s.tails, _))

/-! ## The invariant -/

/-- A drain will come, runs, or is no longer of use. -/
def ReadState.Awaited (s : ReadState Byte) : Prop :=
  s.lostCalled ∨ s.drain.isIdle = false ∨ s.commandInFlight ∨ s.sending

/-- Positions that are reached only behind `connection_lost`: its end, and the
failure of a flow-control method, which only a released protocol has here. -/
def Drain.behindLoss : Drain Byte → Bool
  | .losing | .release | .finish => true
  | .report _ failure | .handling _ failure => !failure.fatal
  | _ => false

/-- Events that wait have a drain on its way. -/
structure Attended (s : ReadState Byte) : Prop where
  rescheduled : s.drain.reschedules → 0 < s.streamReadCommands
  behindLoss : s.drain.behindLoss → s.lostCalled
  cleared : s.callbacksCleared → s.lostCalled
  announced : s.readEventsScheduled → s.Awaited
  queued : s.pendingReadEvents ≠ [] →
    s.Awaited ∨ s.readEventsScheduled ∨ s.swapPending

variable {cfg : ReadConfig} {s next : ReadState Byte} {reply : CallbackReply}

theorem attended_new (cfg : ReadConfig) :
    Attended (ReadState.new cfg : ReadState Byte) where
  rescheduled := nofun
  behindLoss := nofun
  cleared := nofun
  announced := nofun
  queued := fun nonempty => absurd rfl nonempty

section

variable (inv : Attended s) (cleared : next.callbacksCleared = s.callbacksCleared)

include inv cleared

section

variable (lostCalled : next.lostCalled = s.lostCalled)

include lostCalled

theorem Attended.busy (running : next.drain.isIdle = false)
    (rescheduled : next.drain.reschedules → 0 < next.streamReadCommands)
    (behindLoss : next.drain.behindLoss → s.lostCalled) : Attended next where
  rescheduled := rescheduled
  behindLoss := fun behind => lostCalled.trans (behindLoss behind)
  cleared := by
    rw [cleared, lostCalled]
    exact inv.cleared
  announced := fun _ => .inr (.inl running)
  queued := fun _ => .inl (.inr (.inl running))

theorem Attended.move (running : next.drain.isIdle = false)
    (calm : next.drain.reschedules = false)
    (early : next.drain.behindLoss = false) : Attended next := by
  refine inv.busy cleared lostCalled running ?_ ?_
  · intro reschedules
    cases calm.symm.trans reschedules
  · intro behind
    cases early.symm.trans behind

/-- A drain returns with another one on its way, or after the loss. -/
theorem Attended.returned (idle : next.drain = .idle)
    (awaited : next.lostCalled ∨ 0 < next.streamReadCommands) :
    Attended next := by
  have awaitedNow : next.Awaited := by
    rcases awaited with lost | scheduled
    · exact .inl lost
    · exact .inr (.inr (.inl scheduled))
  refine
    { rescheduled := ?_
      behindLoss := ?_
      cleared := ?_
      announced := fun _ => awaitedNow
      queued := fun _ => .inl awaitedNow }
  · rw [idle]
    exact nofun
  · rw [idle]
    exact nofun
  · rw [cleared, lostCalled]
    exact inv.cleared

end

end

theorem Hop.behindLoss {before after : Drain Byte} (hop : Hop s before after)
    (behind : after.behindLoss) : before.behindLoss ∨ s.lostCalled := by
  cases hop with
  | alreadyLost called => exact .inr called
  | released => exact .inl rfl
  | _ => cases behind

theorem attended_stepDrain (inv : Attended s)
    (quiet : reply = .raised → s.drain.handles)
    (moved : stepDrain cfg s reply = some next) : Attended next := by
  have rescheduled := inv.rescheduled
  have behindLoss := inv.behindLoss
  cases drainStep_of_stepDrain moved with
  | hop pos hop =>
    rw [pos] at rescheduled behindLoss
    refine inv.busy rfl rfl (by cases hop <;> rfl)
      (fun reschedules => rescheduled (hop.reschedules reschedules)) ?_
    intro behind
    exact (hop.behindLoss behind).elim behindLoss id
  | call pos call =>
    rw [pos] at rescheduled
    refine inv.busy rfl rfl (by cases call <;> rfl)
      (fun reschedules => rescheduled (call.reschedules reschedules)) ?_
    cases call <;> exact nofun
  | fail pos fails failing | popEvent pos drained failing =>
    cases failing <;> exact inv.move rfl rfl rfl rfl rfl
  | escape pos _ escapes =>
    rw [pos] at rescheduled
    refine inv.returned rfl rfl rfl (.inr (rescheduled ?_))
    cases escapes <;> rfl
  | flowFail pos failing =>
    rw [pos] at quiet
    refine inv.busy rfl rfl rfl nofun ?_
    cases failing with
    | pauseRunning raised | resumeRunning raised => cases quiet raised
    | pauseGone cleared | resumeGone cleared => exact fun _ => inv.cleared cleared
  | report pos =>
    rw [pos] at behindLoss
    exact inv.busy rfl rfl rfl nofun behindLoss
  | quit pos _ mild =>
    -- a failing handler leaves the drain, but only after the loss
    rw [pos] at behindLoss
    exact inv.returned rfl rfl rfl (.inl (behindLoss (by simp [Drain.behindLoss, mild])))
  | rescheduled pos =>
    rw [pos] at rescheduled
    exact inv.returned rfl rfl rfl (.inr (rescheduled rfl))
  | done _ empty =>
    exact
      { rescheduled := nofun
        behindLoss := nofun
        cleared := inv.cleared
        announced := nofun
        queued := fun nonempty => absurd empty nonempty }
  | popData _ _ goes =>
    rcases goes with rfl | rfl
    · exact inv.move rfl rfl rfl rfl rfl
    · exact inv.move rfl rfl rfl rfl rfl
  | reschedule =>
    exact inv.busy rfl rfl rfl (fun _ => Nat.succ_pos _) nofun
  | lose =>
    exact
      { rescheduled := nofun
        behindLoss := fun _ => rfl
        cleared := fun _ => rfl
        announced := fun _ => .inl rfl
        queued := fun _ => .inl (.inl rfl) }
  | release pos =>
    rw [pos] at behindLoss
    exact
      { rescheduled := nofun
        behindLoss := fun _ => behindLoss rfl
        cleared := fun _ => behindLoss rfl
        announced := fun _ => .inl (behindLoss rfl)
        queued := fun _ => .inl (.inl (behindLoss rfl)) }
  | finish pos =>
    rw [pos] at behindLoss
    exact inv.returned rfl rfl rfl (.inl (behindLoss rfl))
  | _ => exact inv.move rfl rfl rfl rfl rfl

/-! ### Producers -/

theorem Attended.enqueue (inv : Attended s) (event : PendingReadEvent Byte)
    (fromReader : Bool) : Attended (s.enqueuePendingReadEvent event fromReader) := by
  unfold ReadState.enqueuePendingReadEvent
  split
  · exact { inv with }
  · refine { inv with announced := ?_, queued := ?_ }
    · intro scheduled
      rcases inv.announced scheduled with lost | running | sent | ⟨tail, mem, sends⟩
      · exact .inl lost
      · exact .inr (.inl running)
      · exact .inr (.inr (.inl sent))
      · exact .inr (.inr (.inr ⟨tail, mem_append_left _ mem, sends⟩))
    · intro _
      refine .inr (.inr ⟨_, mem_append_right _ mem_cons_self, ?_⟩)
      split <;> rfl

variable {tails : List ProducerTail} {index : Nat} {tail : ProducerTail}

theorem mem_eraseIdx_of_ne {other : ProducerTail}
    (found : tails[index]? = some tail) (mem : other ∈ tails)
    (different : other ≠ tail) : other ∈ tails.eraseIdx index := by
  obtain ⟨pos, located⟩ := List.mem_iff_getElem?.mp mem
  refine List.mem_eraseIdx_iff_getElem?.mpr ⟨pos, ?_, located⟩
  rintro rfl
  rw [found] at located
  exact different (Option.some.inj located).symm

theorem mem_set_of_ne {new other : ProducerTail}
    (found : tails[index]? = some tail) (mem : other ∈ tails)
    (different : other ≠ tail) : other ∈ tails.set index new := by
  obtain ⟨pos, located⟩ := List.mem_iff_getElem?.mp mem
  refine List.mem_iff_getElem?.mpr ⟨pos, ?_⟩
  rw [getElem?_set_ne, located]
  rintro rfl
  rw [found] at located
  exact different (Option.some.inj located).symm

theorem mem_set_self (found : tails[index]? = some tail) (new : ProducerTail) :
    new ∈ tails.set index new := by
  obtain ⟨inside, -⟩ := List.getElem?_eq_some_iff.mp found
  exact mem_set inside new

/-- A producer moves on before its swap. -/
theorem Attended.beforeSwap {new : ProducerTail}
    (inv : Attended s) (found : s.tails[index]? = some tail)
    (notSending : tail.phase ≠ .send) (before : new.phase.beforeSwap)
    (same : next = { s with
      tails := s.tails.set index new
      readBackpressured := next.readBackpressured
      stateReading := next.stateReading
      reading := next.reading }) : Attended next := by
  rw [same]
  refine { inv with announced := ?_, queued := ?_ }
  · intro scheduled
    rcases inv.announced scheduled with lost | running | sent | ⟨other, mem, sends⟩
    · exact .inl lost
    · exact .inr (.inl running)
    · exact .inr (.inr (.inl sent))
    · refine .inr (.inr (.inr ⟨other, mem_set_of_ne found mem ?_, sends⟩))
      rintro rfl
      exact notSending sends
  · exact fun _ => .inr (.inr ⟨new, mem_set_self found new, before⟩)

theorem attended_stepProducer (inv : Attended s)
    (moved : stepProducer s index = some next) : Attended next := by
  unfold stepProducer at moved
  split at moved
  · cases moved
  next tail found =>
    cases phase : tail.phase with
    | backpressure =>
      simp only [phase, Option.some.injEq] at moved
      subst moved
      refine inv.beforeSwap found (by simp [phase]) ?_ rfl
      split <;> rfl
    | apply =>
      simp only [phase, Option.some.injEq] at moved
      subst moved
      unfold ReadState.applyPendingReadBackpressure
      split
      · exact inv.beforeSwap found (by simp [phase]) rfl rfl
      · exact inv.beforeSwap found (by simp [phase]) rfl rfl
    | swap =>
      simp only [phase] at moved
      split at moved
      next scheduled =>
        -- somebody else has announced the queue
        cases moved
        refine { inv with announced := ?_, queued := ?_ }
        · intro _
          rcases inv.announced scheduled with
            lost | running | sent | ⟨other, mem, sends⟩
          · exact .inl lost
          · exact .inr (.inl running)
          · exact .inr (.inr (.inl sent))
          · refine .inr (.inr (.inr ⟨other, mem_eraseIdx_of_ne found mem ?_, sends⟩))
            rintro rfl
            cases phase.symm.trans sends
        · exact fun _ => .inr (.inl scheduled)
      next =>
        cases moved
        have sends : ∃ other ∈ s.tails.set index { tail with phase := .send },
            other.phase = .send :=
          ⟨{ tail with phase := .send }, mem_set_self found _, rfl⟩
        exact
          { inv with
            announced := fun _ => .inr (.inr (.inr sends))
            queued := fun _ => .inr (.inl rfl) }
    | send =>
      simp only [phase, Option.some.injEq] at moved
      subst moved
      have sent : 0 < s.streamReadCommands + 1 := Nat.succ_pos _
      exact
        { inv with
          rescheduled := fun _ => sent
          announced := fun _ => .inr (.inr (.inl sent))
          queued := fun _ => .inl (.inr (.inr (.inl sent))) }

theorem attended_readStep {action : ReadAction Byte} (inv : Attended s)
    (quiet : NothingRaised s action)
    (moved : readStep cfg s action = some next) : Attended next := by
  cases readMove_of_readStep moved with
  | enqueue event => exact inv.enqueue event false
  | producer _ produced => exact attended_stepProducer inv produced
  | reader read =>
    rcases stepReader_cases read with same | ⟨event, fromReader, enqueued⟩
    · rw [same]
      exact { inv with }
    · rw [enqueued]
      exact { inv.enqueue event fromReader with }
  | startDrain => exact inv.move rfl rfl rfl rfl rfl
  | drain drained =>
    refine attended_stepDrain inv ?_ drained
    rintro rfl
    exact quiet
  | _ => exact { inv with }

/-! ## Whole runs -/

/-- While events wait on a connection that is not lost, a command is in flight
or about to be sent, a drain runs, or a producer is still before its swap. -/
theorem queued_attended_of_nothingRaised (cfg : ReadConfig)
    (actions : List (ReadAction Byte))
    (s : ReadState Byte)
    (quiet : Guarded (readStep cfg) NothingRaised (.new cfg) actions)
    (reached : run (readStep cfg) (.new cfg) actions = some s)
    (waiting : s.pendingReadEvents ≠ [])
    (notLost : s.lostCalled = false) :
    s.commandInFlight ∨ s.sending ∨ s.drain.isIdle = false ∨ s.swapPending := by
  have inv : Attended s := by
    refine invariant_of_run Attended ?_ (attended_new cfg) quiet reached
    intro before action after inv quietNow moved
    exact attended_readStep inv quietNow moved
  have awaited : s.Awaited ∨ s.swapPending := by
    rcases inv.queued waiting with awaited | scheduled | pending
    · exact .inl awaited
    · exact .inl (inv.announced scheduled)
    · exact .inr pending
  rcases awaited with (lost | running | sent | sends) | pending
  · cases notLost.symm.trans lost
  · exact .inr (.inr (.inl running))
  · exact .inl sent
  · exact .inr (.inl sends)
  · exact .inr (.inr (.inr pending))

/-- Two producers push; the first one takes the flag and sends. -/
theorem queued_attended_of_twoProducers : ∃ s,
      run (readStep plainProtocol) (ReadState.new plainProtocol)
          [.enqueue (.data [(1 : UInt8)]), .enqueue .eof, .producer 0,
            .producer 0, .producer 0, .producer 0] = some s ∧
        (s.pendingReadEvents ≠ [] ∧ s.lostCalled = false) ∧
        (s.commandInFlight ∨ s.sending ∨
          s.drain.isIdle = false ∨ s.swapPending) := by
  refine exists_run_imp
    (fun s => s.pendingReadEvents ≠ [] ∧ s.lostCalled = false) (by decide) ?_
  rintro s reached facts
  exact ⟨facts, queued_attended_of_nothingRaised plainProtocol _ s (by decide) reached facts.1
    facts.2⟩

/-- Between its swap and its send a producer has left the first state and not
reached the second: the command is not sent yet. -/
theorem queued_between_swap_and_send : ∃ s,
      run (readStep plainProtocol) (ReadState.new plainProtocol)
          [.enqueue (.data [(1 : UInt8)]), .producer 0, .producer 0] = some s ∧
        Guarded (readStep plainProtocol) NothingRaised (ReadState.new plainProtocol)
          [.enqueue (.data [(1 : UInt8)]), .producer 0, .producer 0] ∧
        s.pendingReadEvents ≠ [] ∧ s.lostCalled = false ∧
        ¬(s.commandInFlight ∨ s.drain.isIdle = false ∨ s.swapPending) := by
  refine exists_run_imp (fun s => s.pendingReadEvents ≠ [] ∧ s.lostCalled = false ∧
      ¬(s.commandInFlight ∨ s.drain.isIdle = false ∨ s.swapPending)) (by decide) ?_
  rintro s reached facts
  exact ⟨by decide, facts⟩

end Rsloop.Stream
