import Rsloop.Transition

/-!
# Cancelling timers

A timer's callback, the flag of its place in a queue and its cancellation are kept
under one lock, so `cancel`, `dequeue`, `take_ready` and the drop of a timer are
steps. A count shared by all timers of a loop says how many cancelled ones are
still in a queue.
-/

namespace Rsloop.Timers

open Transition List

variable {Ready : Type}

/-! ## The model -/

structure TimerCallback (Ready : Type) where
  ready : Option Ready
  queued : Bool
  cancelled : Bool

namespace TimerCallback

def new (ready : Ready) : TimerCallback Ready where
  ready := some ready
  queued := true
  cancelled := false

variable (timer : TimerCallback Ready) (cancelledTimers : Int)

def cancel : TimerCallback Ready × Int :=
  if timer.cancelled then (timer, cancelledTimers)
  else
    ({ timer with cancelled := true, ready := none },
      if timer.queued then cancelledTimers + 1 else cancelledTimers)

def dequeue : TimerCallback Ready × Int :=
  ({ timer with queued := false },
    if timer.queued && timer.cancelled then cancelledTimers - 1
    else cancelledTimers)

def takeReady : TimerCallback Ready × Option Ready :=
  ({ timer with ready := none }, timer.ready)

/-- What the drop of the object leaves of the count. -/
def drop : Int :=
  if timer.queued && timer.cancelled then cancelledTimers - 1 else cancelledTimers

end TimerCallback

inductive TimerEvent where
  | cancelled (timer : Nat)
  | taken (timer : Nat)
deriving DecidableEq

def TimerEvent.timer : TimerEvent → Nat
  | .cancelled timer | .taken timer => timer

/-- The timers in the order of their creation, `none` for one that has been
dropped. The count is unbounded here: it could only wrap around below zero. -/
structure TimerBook (Ready : Type) where
  timers : List (Option (TimerCallback Ready))
  cancelledTimers : Int
  log : List TimerEvent

def TimerBook.new : TimerBook Ready where
  timers := []
  cancelledTimers := 0
  log := []

def TimerBook.put (book : TimerBook Ready) (index : Nat)
    (timer : Option (TimerCallback Ready)) (cancelledTimers : Int) : TimerBook Ready :=
  { book with timers := book.timers.set index timer, cancelledTimers := cancelledTimers }

def TimerBook.record (book : TimerBook Ready) (event : TimerEvent) : TimerBook Ready :=
  { book with log := book.log ++ [event] }

inductive TimerOperation (Ready : Type) where
  | create (ready : Ready)
  | cancel (index : Nat)
  | dequeue (index : Nat)
  | takeReady (index : Nat)
  | drop (index : Nat)

/-- The operations on a timer need the timer, which is there until it is dropped. -/
def TimerBook.step (book : TimerBook Ready) : TimerOperation Ready → Option (TimerBook Ready)
  | .create ready => some { book with timers := book.timers ++ [some (.new ready)] }
  | .cancel index =>
    book.timers[index]?.join.map fun timer =>
      let (after, count) := timer.cancel book.cancelledTimers
      (book.put index (some after) count).record (.cancelled index)
  | .dequeue index =>
    book.timers[index]?.join.map fun timer =>
      let (after, count) := timer.dequeue book.cancelledTimers
      book.put index (some after) count
  | .takeReady index =>
    book.timers[index]?.join.map fun timer =>
      let (after, ready) := timer.takeReady
      let next := book.put index (some after) book.cancelledTimers
      match ready with
      | some _ => next.record (.taken index)
      | none => next
  | .drop index =>
    book.timers[index]?.join.map fun timer =>
      book.put index none (timer.drop book.cancelledTimers)

/-! ## The count and the callbacks -/

/-- A cancelled timer that is still queued. -/
def isTombstone : Option (TimerCallback Ready) → Bool
  | some timer => timer.queued && timer.cancelled
  | none => false

/-- A timer that has been taken or cancelled holds no callback any more. -/
structure Booked (book : TimerBook Ready) : Prop where
  counted : book.cancelledTimers = (book.timers.countP isTombstone : Int)
  known : ∀ event ∈ book.log, event.timer < book.timers.length
  spent : ∀ event ∈ book.log, ∀ timer,
    book.timers[event.timer]? = some (some timer) → timer.ready = none
  cancels : ∀ (index : Nat) (timer : TimerCallback Ready),
    book.timers[index]? = some (some timer) → timer.cancelled → timer.ready = none
  ordered : book.log.Pairwise fun earlier later => later ≠ .taken earlier.timer

variable {book next : TimerBook Ready} {index : Nat} {timer : TimerCallback Ready}

theorem countP_set_isTombstone (slot : Option (TimerCallback Ready))
    (isTimer : book.timers[index]? = some (some timer)) :
    (book.timers.set index slot).countP isTombstone + (isTombstone (some timer)).toNat =
      book.timers.countP isTombstone + (isTombstone slot).toNat := by
  obtain ⟨inside, isAt⟩ := List.getElem?_eq_some_iff.mp isTimer
  have counted := countP_set (p := isTombstone) (a := slot) inside
  have atMost : isTombstone (some timer) →
      0 < book.timers.countP isTombstone := fun isOne =>
    countP_pos_iff.mpr ⟨some timer, mem_of_getElem? isTimer, isOne⟩
  rw [isAt] at counted
  rw [counted]
  have toNat : ∀ value : Bool, (if value then 1 else 0) = value.toNat := by decide
  rw [toNat, toNat]
  cases isOne : isTombstone (some timer) with
  | false => rfl
  | true =>
    have positive := atMost isOne
    rw [Bool.toNat_true]
    omega

/-- A timer changes under its lock and its callback stays or goes. -/
theorem Booked.put (booked : Booked book)
    (isTimer : book.timers[index]? = some (some timer))
    {slot : Option (TimerCallback Ready)} {count : Int}
    (counted : count + (isTombstone (some timer)).toNat =
      book.cancelledTimers + (isTombstone slot).toNat)
    (keeps : ∀ after ∈ slot, after.ready = none ∨ after.ready = timer.ready)
    (cancels : ∀ after ∈ slot, after.cancelled → after.ready = none) :
    Booked (book.put index slot count) where
  counted := by
    have changed := countP_set_isTombstone slot isTimer
    have before := booked.counted
    change count = ((book.timers.set index slot).countP isTombstone : Int)
    omega
  known := by
    intro event logged
    rw [TimerBook.put, length_set]
    exact booked.known event logged
  spent := by
    intro event logged after isAfter
    simp only [TimerBook.put, getElem?_set] at isAfter
    split at isAfter
    next same =>
      rw [same] at isTimer
      have gone := booked.spent event logged timer isTimer
      rw [same, if_pos (booked.known event logged)] at isAfter
      cases isAfter
      exact (keeps after rfl).elim id fun ready => ready.trans gone
    · exact booked.spent event logged after isAfter
  cancels := by
    intro other after isAfter isCancelled
    simp only [TimerBook.put, getElem?_set] at isAfter
    split at isAfter
    · split_ifs at isAfter
      cases isAfter
      exact cancels after rfl isCancelled
    · exact booked.cancels other after isAfter isCancelled
  ordered := booked.ordered

/-- What is recorded is about a timer whose callback is gone by now. -/
theorem Booked.record (booked : Booked book) {event : TimerEvent}
    (known : event.timer < book.timers.length)
    (spent :
      ∀ timer, book.timers[event.timer]? = some (some timer) → timer.ready = none)
    (first : ∀ earlier ∈ book.log, event ≠ .taken earlier.timer) :
    Booked (book.record event) where
  counted := booked.counted
  known := by
    intro other logged
    rcases mem_append.mp logged with old | new
    · exact booked.known other old
    · rwa [mem_singleton.mp new]
  spent := by
    intro other logged
    rcases mem_append.mp logged with old | new
    · exact booked.spent other old
    · rwa [mem_singleton.mp new]
  cancels := booked.cancels
  ordered := by
    refine pairwise_append.mpr ⟨booked.ordered, pairwise_singleton _ _, ?_⟩
    intro earlier old later new
    rw [mem_singleton.mp new]
    exact first earlier old

theorem Booked.create (booked : Booked book) (ready : Ready) :
    Booked { book with timers := book.timers ++ [some (.new ready)] } where
  counted := by
    rw [countP_append]
    exact booked.counted
  known := by
    intro event logged
    rw [length_append]
    exact Nat.lt_add_right _ (booked.known event logged)
  spent := by
    intro event logged
    rw [getElem?_append_left (booked.known event logged)]
    exact booked.spent event logged
  cancels := by
    intro index timer isTimer isCancelled
    rw [getElem?_append] at isTimer
    split at isTimer
    · exact booked.cancels index timer isTimer isCancelled
    · have isNew := mem_singleton.mp (mem_of_getElem? isTimer)
      cases isNew
      cases isCancelled
  ordered := booked.ordered

theorem Booked.cancel (booked : Booked book)
    (isTimer : book.timers[index]? = some (some timer)) :
    Booked (book.put index (some (timer.cancel book.cancelledTimers).1)
      (timer.cancel book.cancelledTimers).2) := by
  unfold TimerCallback.cancel
  split
  · exact booked.put isTimer rfl (fun _ _ => .inr (by simp_all))
      (by rintro _ ⟨⟩; exact booked.cancels index timer isTimer)
  next uncancelled =>
    refine booked.put isTimer ?_ ?_ ?_
    · cases queued : timer.queued <;> simp [isTombstone, uncancelled, queued]
    · rintro _ ⟨⟩
      exact .inl rfl
    · rintro _ ⟨⟩ -
      rfl

theorem TimerCallback.cancel_ready (count : Int)
    (cancels : timer.cancelled → timer.ready = none) :
    (timer.cancel count).1.ready = none := by
  unfold cancel
  split
  next isCancelled => exact cancels isCancelled
  · rfl

section

variable (booked : Booked book) (isTimer : book.timers[index]? = some (some timer))

include booked isTimer

theorem Booked.dequeue :
    Booked (book.put index (some (timer.dequeue book.cancelledTimers).1)
      (timer.dequeue book.cancelledTimers).2) := by
  refine booked.put isTimer ?_ ?_ ?_
  · cases isOne : timer.queued && timer.cancelled <;>
      simp [isTombstone, TimerCallback.dequeue, isOne]
  · rintro _ ⟨⟩
    exact .inr rfl
  · rintro _ ⟨⟩
    exact booked.cancels index timer isTimer

theorem Booked.take : Booked (book.put index (some timer.takeReady.1) book.cancelledTimers) := by
  refine booked.put isTimer rfl ?_ ?_
  · rintro _ ⟨⟩
    exact .inl rfl
  · rintro _ ⟨⟩ -
    rfl

theorem Booked.drop : Booked (book.put index none (timer.drop book.cancelledTimers)) := by
  refine booked.put isTimer ?_ (by rintro _ ⟨⟩) (by rintro _ ⟨⟩)
  cases isOne : timer.queued && timer.cancelled <;> simp [isTombstone, TimerCallback.drop, isOne]

end

theorem booked_step {op : TimerOperation Ready} (booked : Booked book)
    (answered : book.step op = some next) : Booked next := by
  cases op with
  | create ready =>
    cases answered
    exact booked.create ready
  | cancel index =>
    obtain ⟨timer, isTimer, rfl⟩ := Option.map_eq_some_iff.mp answered
    rw [Option.join_eq_some_iff] at isTimer
    obtain ⟨inside, -⟩ := List.getElem?_eq_some_iff.mp isTimer
    refine (booked.cancel isTimer).record ?_ ?_ (fun _ _ => TimerEvent.noConfusion)
    · simpa [TimerBook.put, TimerEvent.timer] using inside
    · intro after isAfter
      simp only [TimerBook.put, TimerEvent.timer, getElem?_set_self inside] at isAfter
      cases isAfter
      exact TimerCallback.cancel_ready _ (booked.cancels index timer isTimer)
  | dequeue =>
    obtain ⟨timer, isTimer, rfl⟩ := Option.map_eq_some_iff.mp answered
    exact booked.dequeue (Option.join_eq_some_iff.mp isTimer)
  | takeReady =>
    obtain ⟨timer, isTimer, rfl⟩ := Option.map_eq_some_iff.mp answered
    rw [Option.join_eq_some_iff] at isTimer
    obtain ⟨inside, -⟩ := List.getElem?_eq_some_iff.mp isTimer
    cases held : timer.ready with
    | none =>
      simp only [TimerCallback.takeReady, held]
      exact booked.take isTimer
    | some =>
      simp only [TimerCallback.takeReady, held]
      refine (booked.take isTimer).record ?_ ?_ ?_
      · simpa [TimerBook.put, TimerEvent.timer] using inside
      · intro after isAfter
        simp only [TimerBook.put, TimerEvent.timer, getElem?_set_self inside] at isAfter
        cases isAfter
        rfl
      · -- An earlier event of this timer would have left no callback to take.
        intro earlier logged same
        cases same
        cases (booked.spent earlier logged timer isTimer).symm.trans held
  | drop =>
    obtain ⟨timer, isTimer, rfl⟩ := Option.map_eq_some_iff.mp answered
    exact booked.drop (Option.join_eq_some_iff.mp isTimer)

/-- In every interleaving the count is that of the cancelled timers in queues, and
nothing is taken from a timer after it was taken or cancelled. -/
theorem timerCallback_bookkeeping (operations : List (TimerOperation Ready))
    (final : TimerBook Ready)
    (reached : run TimerBook.step TimerBook.new operations = some final) :
    final.cancelledTimers = (final.timers.countP isTombstone : Int) ∧
      final.log.Pairwise fun earlier later => later ≠ .taken earlier.timer := by
  have initially : Booked (TimerBook.new : TimerBook Ready) :=
    ⟨rfl, by rintro _ ⟨⟩, by rintro _ ⟨⟩, by rintro _ _ ⟨⟩, List.Pairwise.nil⟩
  have booked : Booked final :=
    invariant_of_run Booked (fun _ _ _ booked _ answered => booked_step booked answered)
      initially (guarded_of_forall fun _ _ _ => trivial) reached
  exact ⟨booked.counted, booked.ordered⟩

/-- Two timers, one cancelled in its queue and one that is run. -/
theorem timerCallback_bookkeeping_two : ∃ final, run TimerBook.step TimerBook.new
        [.create (), .create (), .cancel 0, .takeReady 0, .dequeue 1, .takeReady 1,
          .cancel 1, .takeReady 1] = some final ∧
      (final.cancelledTimers = (final.timers.countP isTombstone : Int) ∧
        final.log.Pairwise fun earlier later => later ≠ .taken earlier.timer) ∧
      final.cancelledTimers = 1 := by
  refine exists_run_imp (fun final => final.cancelledTimers = 1) (by decide) ?_
  rintro final reached one
  exact ⟨timerCallback_bookkeeping _ final reached, one⟩

end Rsloop.Timers
