import Rsloop.Transition

/-!
# Drain waiters

`drain()` on a paused stream protocol makes a future that waits in a list.
`resume_writing` and `connection_lost` empty the list and complete what is still
pending in it; a future that is done takes itself out of the list in a callback
of its own, some time later. On a closing transport `StreamWriter.drain` is a
coroutine that yields once before it asks the protocol.
-/

namespace Rsloop.Stream

open Transition List

inductive DrainError (Exc : Type) where
  | connectionReset
  | raised (exc : Exc)
  deriving DecidableEq

inductive DrainOutcome (Exc : Type) where
  | pending
  | cancelled
  | result
  | exception (error : DrainError Exc)
  deriving DecidableEq

/-- `futures` are those that drain requests have returned, in the order of the
requests; `drainWaiters` refers to them by their numbers. -/
structure FastStreamProtocol (Exc : Type) where
  paused : Bool
  connectionLost : Bool
  /-- The writer's transport is closing. -/
  closing : Bool
  /-- The `drain_closing` coroutines that have yielded and not gone on. -/
  yielding : Nat
  readerException : Option Exc
  drainWaiters : List Nat
  futures : List (DrainOutcome Exc)
  deriving DecidableEq

inductive DrainAction (Exc : Type) where
  | pauseWriting
  | resumeWriting
  | close
  /-- `StreamWriter.drain` looks at the exception of the reader and at the
  transport first, and `_drain_helper` does not. -/
  | drain (byWriter : Bool)
  /-- A `drain_closing` coroutine goes on and calls `_drain_helper`. -/
  | drainClosing
  | cancel (future : Nat)
  | waiterDone (future : Nat)
  | connectionLost (exc : Option Exc)
  deriving DecidableEq

variable {Exc : Type}

def FastStreamProtocol.new : FastStreamProtocol Exc where
  paused := false
  connectionLost := false
  closing := false
  yielding := 0
  readerException := none
  drainWaiters := []
  futures := []

/-- A future is completed or cancelled at most once. -/
def DrainOutcome.settle (outcome : DrainOutcome Exc) : DrainOutcome Exc → DrainOutcome Exc :=
  match outcome with
  | .pending => id
  | settled => fun _ => settled

/-- What `resolve_drain_waiters` makes of a pending future. -/
def DrainOutcome.resolved : Option Exc → DrainOutcome Exc
  | some exc => .exception (.raised exc)
  | none => .result

namespace FastStreamProtocol

def resolveDrainWaiters (proto : FastStreamProtocol Exc) (exc : Option Exc) :
    FastStreamProtocol Exc :=
  { proto with
    drainWaiters := []
    futures := proto.drainWaiters.foldl
      (fun futures waiter => futures.modify waiter (·.settle (.resolved exc)))
      proto.futures }

/-- A future that is ready when the request returns. -/
def ready (proto : FastStreamProtocol Exc) (outcome : DrainOutcome Exc) :
    FastStreamProtocol Exc :=
  { proto with futures := proto.futures ++ [outcome] }

def pushDrainWaiter (proto : FastStreamProtocol Exc) : FastStreamProtocol Exc :=
  { proto with
    drainWaiters := proto.drainWaiters ++ [proto.futures.length]
    futures := proto.futures ++ [.pending] }

def buildDrainFuture (proto : FastStreamProtocol Exc) (readerException : Option Exc) :
    FastStreamProtocol Exc :=
  match readerException with
  | some exc => proto.ready (.exception (.raised exc))
  | none =>
    if proto.connectionLost then
      proto.ready (.exception .connectionReset)
    else if proto.paused then
      proto.pushDrainWaiter
    else
      proto.ready .result

def handleConnectionLost (proto : FastStreamProtocol Exc) (exc : Option Exc) :
    FastStreamProtocol Exc :=
  resolveDrainWaiters
    { proto with
      connectionLost := true
      readerException := exc.or proto.readerException } exc

/-- The request gets to the protocol, which answers with a future. -/
def asks (proto : FastStreamProtocol Exc) : DrainAction Exc → Bool
  | .drain byWriter => !(byWriter && proto.readerException.isNone && proto.closing)
  | .drainClosing => 0 < proto.yielding
  | _ => false

end FastStreamProtocol

def drainStep (proto : FastStreamProtocol Exc) :
    DrainAction Exc → Option (FastStreamProtocol Exc)
  | .pauseWriting => some { proto with paused := true }
  | .resumeWriting => some ({ proto with paused := false }.resolveDrainWaiters none)
  | .close => some { proto with closing := true }
  | .drain byWriter =>
    if proto.asks (.drain byWriter) then
      some (proto.buildDrainFuture (if byWriter then proto.readerException else none))
    else
      some { proto with yielding := proto.yielding + 1 }
  | .drainClosing =>
    if proto.asks .drainClosing then
      some ({ proto with yielding := proto.yielding - 1 }.buildDrainFuture none)
    else
      none
  | .cancel future =>
    some { proto with futures := proto.futures.modify future (·.settle .cancelled) }
  | .waiterDone future =>
    match proto.futures[future]? with
    | some .pending | none => none
    | some _ =>
      some { proto with drainWaiters := proto.drainWaiters.filter (· != future) }
  | .connectionLost exc => some (proto.handleConnectionLost exc)

/-! ## What becomes of one future -/

/-- What an action makes of a future that is pending. -/
def DrainAction.settles (number : Nat) : DrainAction Exc → DrainOutcome Exc
  | .resumeWriting => .result
  | .connectionLost exc => .resolved exc
  | .cancel future => if future = number then .cancelled else .pending
  | _ => .pending

/-- The first action that settles the future decides. -/
def settledBy (number : Nat) : List (DrainAction Exc) → DrainOutcome Exc
  | [] => .pending
  | action :: later => (action.settles number).settle (settledBy number later)

/-- Every pending future is in the list, and there is none unless the protocol is
paused and connected. -/
structure Waiters (proto : FastStreamProtocol Exc) : Prop where
  listed : ∀ number : Nat, proto.futures[number]? = some .pending →
    number ∈ proto.drainWaiters ∧ proto.paused ∧ proto.connectionLost = false
  exception : proto.connectionLost = false → proto.readerException = none

theorem waiters_new : Waiters (.new : FastStreamProtocol Exc) where
  listed _ pending := by cases pending
  exception _ := rfl

@[simp] theorem DrainOutcome.settle_pending (outcome : DrainOutcome Exc) :
    outcome.settle .pending = outcome := by
  cases outcome <;> rfl

theorem DrainOutcome.settle_assoc (first second third : DrainOutcome Exc) :
    (first.settle second).settle third = first.settle (second.settle third) := by
  cases first <;> rfl

theorem getElem?_foldl_settle (outcome : DrainOutcome Exc) (waiters : List Nat)
    (futures : List (DrainOutcome Exc)) (number : Nat) :
    (waiters.foldl (fun futures waiter => futures.modify waiter (·.settle outcome))
        futures)[number]? =
      futures[number]?.map fun before =>
        if number ∈ waiters then before.settle outcome else before := by
  induction waiters generalizing futures with
  | nil => simp
  | cons waiter rest ih =>
    have twice (before : DrainOutcome Exc) :
        (before.settle outcome).settle outcome = before.settle outcome := by
      cases before <;> cases outcome <;> rfl
    rw [foldl_cons, ih, getElem?_modify]
    by_cases here : waiter = number
    · simp [here, twice, Function.comp_def]
    · simp [here, Ne.symm here]

variable {proto next : FastStreamProtocol Exc} {action : DrainAction Exc}

/-- What is not in the list any more has been done before. -/
theorem Waiters.getElem?_resolve (inv : Waiters proto) (exc : Option Exc)
    (number : Nat) :
    (proto.resolveDrainWaiters exc).futures[number]? =
      proto.futures[number]?.map (·.settle (.resolved exc)) := by
  unfold FastStreamProtocol.resolveDrainWaiters
  rw [getElem?_foldl_settle]
  refine Option.map_congr fun outcome found => ?_
  split
  · rfl
  next unlisted =>
    cases outcome with
    | pending => exact absurd (inv.listed number found).1 unlisted
    | _ => rfl

variable {outcome : DrainOutcome Exc}

/-- A request adds one future, a pending one if and only if it has to wait. -/
theorem exists_futures_buildDrainFuture (proto : FastStreamProtocol Exc)
    (exc : Option Exc) :
    ∃ new : DrainOutcome Exc,
    (proto.buildDrainFuture exc).futures = proto.futures ++ [new] ∧
      (proto.connectionLost → ∃ error, new = .exception error) ∧
      (proto.paused → proto.connectionLost = false → exc = none → new = .pending) := by
  unfold FastStreamProtocol.buildDrainFuture
  split
  · exact ⟨_, rfl, fun _ => ⟨_, rfl⟩, nofun⟩
  · split_ifs with lost paused
    · exact ⟨_, rfl, fun _ => ⟨_, rfl⟩, fun _ connected => by simp [lost] at connected⟩
    · exact ⟨_, rfl, fun now => absurd now lost, fun _ _ _ => rfl⟩
    · exact ⟨_, rfl, fun now => absurd now lost, fun now => absurd now paused⟩

/-- A step keeps the outcome of a future that is done, and settles a pending one
as its action says. -/
theorem getElem?_drainStep (inv : Waiters proto) {number : Nat}
    (before : proto.futures[number]? = some outcome)
    (moved : drainStep proto action = some next) :
    next.futures[number]? = some (outcome.settle (action.settles number)) := by
  have resolves (exc : Option Exc) := inv.getElem?_resolve exc number
  rw [before] at resolves
  have asked (asking : FastStreamProtocol Exc) (same : asking.futures = proto.futures)
      (exc : Option Exc) :
      (asking.buildDrainFuture exc).futures[number]? = some (outcome.settle .pending) := by
    obtain ⟨new, appended, _⟩ := exists_futures_buildDrainFuture asking exc
    rw [appended, same, getElem?_append_left (List.getElem?_eq_some_iff.mp before).1, before,
      DrainOutcome.settle_pending]
  cases action with
  | pauseWriting | close =>
    cases moved
    simp [DrainAction.settles, before]
  | resumeWriting =>
    cases moved
    exact resolves none
  | drain byWriter =>
    simp only [drainStep] at moved
    split at moved <;> cases moved
    · exact asked _ rfl _
    · simp [DrainAction.settles, before]
  | drainClosing =>
    simp only [drainStep] at moved
    split_ifs at moved
    cases moved
    exact asked { proto with yielding := proto.yielding - 1 } rfl none
  | cancel future =>
    cases moved
    by_cases here : future = number <;>
      simp [DrainAction.settles, before, here]
  | waiterDone future =>
    simp only [drainStep] at moved
    split at moved <;> cases moved
    simp [DrainAction.settles, before]
  | connectionLost exc =>
    cases moved
    exact resolves exc

theorem of_getElem?_concat {futures : List (DrainOutcome Exc)}
    {new : DrainOutcome Exc}
    {number : Nat} (found : (futures ++ [new])[number]? = some outcome) :
    futures[number]? = some outcome ∨ number = futures.length ∧ new = outcome := by
  grind

theorem Waiters.ready (inv : Waiters proto)
    (settled : outcome ≠ .pending) : Waiters (proto.ready outcome) where
  listed number pending := by
    rcases of_getElem?_concat pending with before | ⟨_, new⟩
    · exact inv.listed number before
    · exact absurd new settled
  exception := inv.exception

theorem Waiters.buildDrainFuture (inv : Waiters proto) (exc : Option Exc) :
    Waiters (proto.buildDrainFuture exc) := by
  unfold FastStreamProtocol.buildDrainFuture
  split
  · exact inv.ready nofun
  · split_ifs with lost paused
    · exact inv.ready nofun
    · refine { inv with listed := fun number pending => ?_ }
      refine ⟨?_, paused, Bool.eq_false_iff.mpr lost⟩
      rcases of_getElem?_concat pending with before | ⟨rfl, _⟩
      · exact mem_append_left _ (inv.listed number before).1
      · exact mem_append_right _ mem_cons_self
    · exact inv.ready nofun

theorem waiters_drainStep (inv : Waiters proto)
    (moved : drainStep proto action = some next) : Waiters next := by
  have resolved (exc : Option Exc) (number : Nat) :
      (proto.resolveDrainWaiters exc).futures[number]? ≠ some .pending := by
    rw [inv.getElem?_resolve]
    intro pending
    obtain ⟨before, _, same⟩ := Option.map_eq_some_iff.mp pending
    cases before <;> cases exc <;> cases same
  cases action with
  | pauseWriting =>
    cases moved
    refine { inv with listed := fun number pending => ?_ }
    obtain ⟨mem, _, connected⟩ := inv.listed number pending
    exact ⟨mem, rfl, connected⟩
  | resumeWriting =>
    cases moved
    exact { inv with listed := fun number pending => absurd pending (resolved none number) }
  | close =>
    cases moved
    exact { inv with }
  | drain byWriter =>
    simp only [drainStep] at moved
    split at moved <;> cases moved
    · exact inv.buildDrainFuture _
    · exact { inv with }
  | drainClosing =>
    simp only [drainStep] at moved
    split_ifs at moved
    cases moved
    have fewer : Waiters { proto with yielding := proto.yielding - 1 } := { inv with }
    exact fewer.buildDrainFuture none
  | cancel future =>
    cases moved
    refine { inv with listed := fun number pending => inv.listed number ?_ }
    rw [getElem?_modify] at pending
    obtain ⟨before, found, same⟩ := Option.map_eq_some_iff.mp pending
    cases before <;> simp_all [DrainOutcome.settle]
  | waiterDone future =>
    simp only [drainStep] at moved
    split at moved <;> cases moved
    refine { inv with listed := fun number pending => ?_ }
    obtain ⟨mem, waits⟩ := inv.listed number pending
    refine ⟨mem_filter.mpr ⟨mem, bne_iff_ne.mpr ?_⟩, waits⟩
    rintro rfl
    simp_all
  | connectionLost exc =>
    cases moved
    exact ⟨fun number pending => absurd pending (resolved exc number), nofun⟩

/-- Along a run the first action that settles a future decides. -/
theorem getElem?_run (inv : Waiters proto) {actions : List (DrainAction Exc)}
    {number : Nat} (before : proto.futures[number]? = some outcome)
    (reached : run drainStep proto actions = some next) :
    next.futures[number]? = some (outcome.settle (settledBy number actions)) := by
  induction actions generalizing proto outcome with
  | nil =>
    cases reached
    simpa [settledBy] using before
  | cons action later ih =>
    obtain ⟨middle, moved, rest⟩ := run_cons_eq_some.mp reached
    rw [ih (waiters_drainStep inv moved) (getElem?_drainStep inv before moved) rest,
      DrainOutcome.settle_assoc]
    rfl

/-- What the protocol answers a request: it fails behind a loss and waits while
the protocol is paused and connected. -/
theorem exists_futures_of_asks (inv : Waiters proto) (asks : proto.asks action) :
    ∃ next new, drainStep proto action = some next ∧
      next.futures = proto.futures ++ [new] ∧
      (proto.connectionLost → ∃ error, new = .exception error) ∧
      (proto.paused → proto.connectionLost = false → new = .pending) := by
  cases action with
  | drain byWriter =>
    obtain ⟨new, appended, lost, waits⟩ := exists_futures_buildDrainFuture proto
      (if byWriter then proto.readerException else none)
    refine ⟨_, new, if_pos asks, appended, lost, fun paused connected => ?_⟩
    exact waits paused connected (by simp [inv.exception connected])
  | drainClosing =>
    obtain ⟨new, appended, lost, waits⟩ := exists_futures_buildDrainFuture
      { proto with yielding := proto.yielding - 1 } none
    exact ⟨_, new, if_pos asks, appended, lost, fun paused connected => waits paused connected rfl⟩
  | _ => cases asks

/-- A request that gets to the protocol fails at once after a loss, and waits if
the protocol is paused and connected. The first resume, loss or cancellation
after it then settles its future for good. A writer's request on a closing
transport gets there when it has yielded. -/
theorem drainWaiters_settle {actions : List (DrainAction Exc)}
    {proto : FastStreamProtocol Exc}
    (reached : run drainStep .new actions = some proto) :
    (∀ outcome ∈ proto.futures, outcome = .pending →
        proto.paused ∧ proto.connectionLost = false) ∧
      (∀ request, proto.asks request → proto.connectionLost → ∃ next error,
        drainStep proto request = some next ∧
          next.futures = proto.futures ++ [.exception error]) ∧
      (∀ request, proto.asks request → proto.paused → proto.connectionLost = false →
        ∃ middle, drainStep proto request = some middle ∧
          ∀ later next, run drainStep middle later = some next →
            next.futures[proto.futures.length]? =
              some (settledBy proto.futures.length later)) ∧
      ∀ byWriter, proto.asks (.drain byWriter) = false →
        ∃ next, drainStep proto (.drain byWriter) = some next ∧
          next.futures = proto.futures ∧ next.asks .drainClosing := by
  have inv : Waiters proto := by
    have free : Guarded drainStep (fun _ _ => True) .new actions :=
      guarded_of_forall fun _ _ _ => trivial
    exact invariant_of_run Waiters (fun _ _ _ inv _ moved => waiters_drainStep inv moved)
      waiters_new free reached
  refine ⟨?_, ?_, ?_, ?_⟩
  · rintro outcome member rfl
    obtain ⟨number, found⟩ := List.mem_iff_getElem?.mp member
    exact (inv.listed number found).2
  · intro request asks lost
    obtain ⟨next, new, moved, appended, fails, _⟩ := exists_futures_of_asks inv asks
    obtain ⟨error, rfl⟩ := fails lost
    exact ⟨next, error, moved, appended⟩
  · intro request asks paused connected
    obtain ⟨middle, new, moved, appended, _, waits⟩ := exists_futures_of_asks inv asks
    refine ⟨middle, moved, fun later next reached => ?_⟩
    have pending : middle.futures[proto.futures.length]? = some .pending := by
      simp [appended, waits paused connected]
    exact getElem?_run (waiters_drainStep inv moved) pending reached
  · intro byWriter yields
    refine ⟨_, if_neg (Bool.eq_false_iff.mp yields), rfl, ?_⟩
    simp [FastStreamProtocol.asks]

/-- Of two requests that wait the first is cancelled, and the loss fails the
other. -/
theorem drainWaiters_settle_lost : ∃ proto middle next : FastStreamProtocol String,
    run drainStep .new [.pauseWriting, .drain true, .close, .drain true] = some proto ∧
      drainStep proto .drainClosing = some middle ∧
      run drainStep middle [.cancel 0, .connectionLost (some "reset")] = some next ∧
      next.futures[proto.futures.length]? = some (.exception (.raised "reset")) := by
  have reached : run drainStep .new [.pauseWriting, .drain true, .close, .drain true] =
      some (⟨true, false, true, 1, none, [0], [.pending]⟩ : FastStreamProtocol String) := rfl
  obtain ⟨middle, moved, settles⟩ :=
    (drainWaiters_settle reached).2.2.1 .drainClosing rfl rfl rfl
  cases moved
  exact ⟨_, _, _, reached, rfl, rfl, settles [.cancel 0, .connectionLost (some "reset")] _ rfl⟩

end Rsloop.Stream
