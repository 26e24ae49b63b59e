import Rsloop.Transition

/-!
# Who closes the sockets of `create_connection`

The coroutine behind the resolution of its arguments, step by step: every socket
it creates, every connect task, and a cancellation at any of its awaits. An
operation succeeds, raises `OSError`, or raises something else; what the errors
say does not matter here.
-/

namespace Rsloop.Connect

open Transition List

/-! ## The state -/

inductive Outcome where
  | ok
  | osError
  | raises
  deriving DecidableEq, Repr

inductive SocketStatus where
  | opened
  | closed
  | handed
  deriving DecidableEq, Repr

inductive ConnectTask where
  | running
  | finished (outcome : Outcome)
  | cancelled
  deriving DecidableEq, Repr

/-- A socket, and the task that connects it in a race. -/
structure Socket where
  status : SocketStatus
  task : Option ConnectTask
  deriving DecidableEq, Repr

def Socket.close (socket : Socket) : Socket :=
  { socket with status := .closed }

/-- `task.cancel()` and `sock.close()`; a task that has ended stays as it is. -/
def Socket.abandon (socket : Socket) : Socket where
  status := .closed
  task := socket.task.map fun task =>
    match task with
    | .running => .cancelled
    | other => other

/-- The arguments of the call. Of an address only the family matters.
`keepsTransport` is whether a protocol that raises in `connection_made` keeps the
transport, in itself or in the traceback. -/
structure ConnectionPlan where
  families : List Nat
  localFamilies : Option (List Nat)
  racing : Bool
  ssl : Bool
  keepsTransport : Bool
  deriving DecidableEq, Repr

/-- The creation of a transport: up to `detach` the socket is Python's, then the
stream is Rust's alone (a TLS handshake belongs here), then `connection_made` is
called with the transport, and last the workers are started. -/
inductive TransportStage where
  | attached
  | detached
  | announced
  | starting
  deriving DecidableEq, Repr

def TransportStage.next : TransportStage → Option TransportStage
  | .attached => some .detached
  | .detached => some .announced
  | .announced => some .starting
  | .starting => none

/-- Where the coroutine is. Sockets go by their number. -/
inductive ConnectPosition where
  | nextAddress
  | create (family : Nat)
  | configure (family socket : Nat)
  | bind (family socket : Nat) (later : List Nat)
  | connecting (socket : Nat)
  | waiting (timed : Bool)
  | gathering (winner : Option Nat)
  | transport (stage : TransportStage) (socket : Nat)
  | finished (handed : Option Nat)
  deriving DecidableEq, Repr

structure ConnectState where
  sockets : List Socket
  /-- The dictionary of attempts. -/
  pending : List Nat
  todo : List Nat
  pc : ConnectPosition
  deriving DecidableEq, Repr

def ConnectState.new (plan : ConnectionPlan) : ConnectState where
  sockets := []
  pending := []
  todo := plan.families
  pc := .nextAddress

/-! ## Operations -/

namespace ConnectState

def goto (s : ConnectState) (pc : ConnectPosition) : ConnectState :=
  { s with pc := pc }

def closeSocket (s : ConnectState) (socket : Nat) : ConnectState :=
  { s with sockets := s.sockets.modify socket Socket.close }

def raised (s : ConnectState) : ConnectState :=
  s.goto (.finished none)

/-- What follows `__prepare_stream_socket`: the socket is connected, or enters
the race. -/
def prepared (plan : ConnectionPlan) (s : ConnectState) (socket : Option Nat) : ConnectState :=
  if plan.racing then
    let s :=
      match socket with
      | none => s
      | some socket =>
        { s with
          sockets := s.sockets.modify socket fun old =>
            { old with task := some .running }
          pending := s.pending ++ [socket] }
    s.goto (if s.pending.isEmpty || s.todo.isEmpty then .nextAddress
        else .waiting true)
  else
    match socket with
    | none => s.goto .nextAddress
    | some socket => s.goto (.connecting socket)

/-- The loop over the local addresses, up to the next one of the family. -/
def bindNext (plan : ConnectionPlan) (s : ConnectState) (family socket : Nat) :
    List Nat → ConnectState
  | [] => (s.closeSocket socket).prepared plan none
  | localFamily :: later =>
    if localFamily = family then s.goto (.bind family socket later)
    else s.bindNext plan family socket later

/-- A connected socket becomes a transport; without one the errors are
raised. -/
def decide (s : ConnectState) : Option Nat → ConnectState
  | none => s.raised
  | some socket => s.goto (.transport .attached socket)

/-- `__connect_with_happy_eyeballs` has returned: the attempts that are left are
cancelled and closed. -/
def returned (s : ConnectState) (winner : Option Nat) : ConnectState :=
  let abandoned :=
    { s with
      sockets := s.sockets.mapIdx fun index (socket : Socket) =>
        if index ∈ s.pending then socket.abandon else socket
      pending := [] }
  if s.pending.isEmpty then abandoned.decide winner
  else abandoned.goto (.gathering winner)

def taskOf (s : ConnectState) (socket : Nat) : Option ConnectTask :=
  s.sockets[socket]?.bind Socket.task

inductive Verdict where
  | winner (socket : Nat)
  | undecided
  | raised
  deriving DecidableEq, Repr

/-- `__consume_connection_attempts` -/
def consume : ConnectState → List Nat → ConnectState × Verdict
  | s, [] => (s, .undecided)
  | s, socket :: rest =>
    let popped := { s with pending := s.pending.erase socket }
    match s.taskOf socket with
    | some (.finished .ok) => (popped, .winner socket)
    | some (.finished .osError) => consume (popped.closeSocket socket) rest
    | _ => (popped.closeSocket socket, .raised)

/-- Behind a wait: with no winner the loop over the addresses goes on, or the
loop behind it. -/
def afterWait (timed : Bool) : ConnectState × Verdict → ConnectState
  | (s, .winner socket) => s.returned (some socket)
  | (s, .raised) => s.raised
  | (s, .undecided) =>
    if timed then s.goto .nextAddress
    else if s.pending.isEmpty then s.returned none
    else s.goto (.waiting false)

/-- What `asyncio.wait` may report. -/
def reports (s : ConnectState) (timed : Bool) (done : List Nat) : Bool :=
  (timed || !done.isEmpty) && done.Nodup && done.all fun socket =>
      socket ∈ s.pending &&
        match s.taskOf socket with
        | some (.finished _) => true
        | _ => false

/-! ## Steps -/

def proceed (plan : ConnectionPlan) (s : ConnectState) (outcome : Outcome) :
    Option ConnectState :=
  match s.pc with
  | .nextAddress =>
    match s.todo with
    | family :: later => some ({ s with todo := later }.goto (.create family))
    | [] =>
      if plan.racing then
        if s.pending.isEmpty then some (s.returned none)
        else some (s.goto (.waiting false))
      else
        some s.raised
  | .create family =>
    match outcome with
    | .ok =>
      some ({ s with sockets := s.sockets ++ [Socket.mk .opened none] }.goto
          (.configure family s.sockets.length))
    | _ => some s.raised
  | .configure family socket =>
    match outcome, plan.localFamilies with
    | .ok, none => some (s.prepared plan (some socket))
    | .ok, some families => some (s.bindNext plan family socket families)
    | _, _ => some s.raised
  | .bind family socket later =>
    match outcome with
    | .ok => some (s.prepared plan (some socket))
    | .osError => some (s.bindNext plan family socket later)
    | .raises => some s.raised
  | .connecting socket =>
    match outcome with
    | .ok => some (s.goto (.transport .attached socket))
    | .osError => some ((s.closeSocket socket).goto .nextAddress)
    | .raises => some (s.closeSocket socket).raised
  | .waiting _ => none
  | .gathering winner => some (s.decide winner)
  | .transport stage socket =>
    match outcome, stage.next with
    | .ok, some later => some (s.goto (.transport later socket))
    | .ok, none =>
      some ({ s with
        sockets := s.sockets.modify socket fun old =>
          { old with status := .handed } }.goto (.finished (some socket)))
    | _, _ =>
      -- a stream that nobody has is closed where it is dropped
      if stage = .announced ∧ plan.keepsTransport then some s.raised
      else some (s.closeSocket socket).raised
  | .finished _ => none

/-- `CancelledError` at the await at hand. A TLS transport is created in an
executor, which goes on; `close` does nothing to a detached socket. -/
def cancel (plan : ConnectionPlan) (s : ConnectState) : Option ConnectState :=
  match s.pc with
  | .connecting socket => some (s.closeSocket socket).raised
  | .waiting _ | .gathering _ => some s.raised
  | .transport stage socket =>
    if plan.ssl then some (if stage = .attached then s.closeSocket socket else s).raised
    else none
  | _ => none

/-- A connect task ends, by itself or after its cancellation. -/
def endTask (s : ConnectState) (socket : Nat) (outcome : Outcome) : Option ConnectState :=
  match s.taskOf socket with
  | none => none
  | some (.finished _) => none
  | some _ =>
    some { s with
      sockets := s.sockets.modify socket fun old =>
        { old with task := some (.finished outcome) } }

end ConnectState

inductive ConnectAction where
  | proceed (outcome : Outcome)
  | cancel
  | taskEnds (socket : Nat) (outcome : Outcome)
  | wait (done : List Nat)
  deriving DecidableEq, Repr

def connectStep (plan : ConnectionPlan) (s : ConnectState) :
    ConnectAction → Option ConnectState
  | .proceed outcome => s.proceed plan outcome
  | .cancel => s.cancel plan
  | .taskEnds socket outcome => s.endTask socket outcome
  | .wait done =>
    match s.pc with
    | .waiting timed =>
      if s.reports timed done then
        some (ConnectState.afterWait timed (s.consume done))
      else
        none
    | _ => none

/-! ## Statement -/

/-- Every socket is closed but the one that a transport has, and no connect task
goes on. -/
def NoLeak (s : ConnectState) : Prop :=
  ∀ index socket, s.sockets[index]? = some socket → (socket.status = .closed ∨
        socket.status = .handed ∧ s.pc = .finished (some index)) ∧
      socket.task ≠ some .running

/-- The answers that leave no socket behind: sockets are made nonblocking,
binding raises nothing but `OSError`, no socket is pending where creating another
one fails, and no transport is kept where `connection_made` raises. -/
def ConnectState.permits (plan : ConnectionPlan) (s : ConnectState) (outcome : Outcome) : Bool :=
  match s.pc with
  | .create _ => outcome == .ok || s.pending.isEmpty
  | .configure _ _ => outcome == .ok
  | .bind _ _ _ => outcome != .raises
  | .transport .announced _ => outcome == .ok || !plan.keepsTransport
  | _ => true

/-- The awaits of a race have no cleanup of their own, and nothing closes a socket
that has been detached. -/
def ConnectState.interruptible (s : ConnectState) : Bool :=
  match s.pc with
  | .waiting _ | .gathering _ => false
  | .transport stage _ => stage == .attached
  | _ => true

/-- In a race the waits are not cancelled, and no other attempt is pending when a
task has raised something else than `OSError`. -/
def CleanAttempts (plan : ConnectionPlan) (s : ConnectState) : ConnectAction → Prop
  | .proceed outcome => s.permits plan outcome
  | .cancel => s.interruptible
  | .taskEnds _ _ => True
  | .wait done => (s.consume done).2 = .raised → (s.consume done).1.pending = []

instance (plan : ConnectionPlan) (s : ConnectState) : DecidablePred (CleanAttempts plan s) :=
  fun action =>
    match action with
    | .proceed outcome => inferInstanceAs (Decidable (s.permits plan outcome))
    | .cancel => inferInstanceAs (Decidable (s.interruptible))
    | .taskEnds _ _ => .isTrue trivial
    | .wait done =>
      inferInstanceAs (Decidable ((s.consume done).2 = .raised →
        (s.consume done).1.pending = []))

/-! ## Ownership -/

def ConnectPosition.holds : ConnectPosition → List Nat
  | .configure _ socket | .bind _ socket _ | .connecting socket | .gathering (some socket)
  | .transport _ socket => [socket]
  | _ => []

def ConnectPosition.isAlone : ConnectPosition → Bool
  | .connecting _ | .gathering _ | .transport _ _ | .finished _ => true
  | _ => false

def ConnectPosition.handed : ConnectPosition → Option Nat
  | .finished handed => handed
  | _ => none

/-- Somebody will close the socket, and somebody will see to its task. -/
structure Attended (holds pending : List Nat) (handed : Option Nat) (index : Nat)
    (socket : Socket) : Prop where
  opened : socket.status = .opened → index ∈ holds ∨ index ∈ pending
  running : socket.task = some .running → index ∈ pending
  handed : socket.status = .handed → handed = some index

/-- All sockets are attended by what is in local variables and the attempts of
the state. -/
def AllAttended (holds : List Nat) (s : ConnectState) : Prop :=
  ∀ index socket, s.sockets[index]? = some socket →
    Attended holds s.pending none index socket

/-- Every open socket is in somebody's hands. -/
structure Owned (plan : ConnectionPlan) (s : ConnectState) : Prop where
  sockets : ∀ index socket, s.sockets[index]? = some socket →
    Attended s.pc.holds s.pending s.pc.handed index socket
  alone : plan.racing = false ∨ s.pc.isAlone → s.pending = []

theorem owned_new (plan : ConnectionPlan) : Owned plan (ConnectState.new plan) where
  sockets := by simp [ConnectState.new]
  alone := fun _ => rfl

variable {outcome : Outcome} {done : List Nat} {index : Nat} {plan : ConnectionPlan}
  {s next : ConnectState}

theorem Attended.mono {holds holds' pending pending' : List Nat}
    {handed : Option Nat}
    {socket : Socket} (attended : Attended holds pending handed index socket)
    (kept : index ∈ holds → index ∈ holds' ∨ index ∈ pending')
    (waits : index ∈ pending → index ∈ pending') :
    Attended holds' pending' handed index socket where
  opened := fun opened => by
    rcases attended.opened opened with held | waiting
    · exact kept held
    · exact .inr (waits waiting)
  running := fun running => waits (attended.running running)
  handed := attended.handed

theorem modify_cases {sockets : List Socket} {target : Nat}
    {change : Socket → Socket}
    {after : Socket}
    (found : (sockets.modify target change)[index]? = some after) :
    (index = target ∧ ∃ before, sockets[index]? = some before ∧ after = change before) ∨
      index ≠ target ∧ sockets[index]? = some after := by
  rw [getElem?_modify] at found
  obtain ⟨before, earlier, changed⟩ := Option.map_eq_some_iff.mp found
  split_ifs at changed with same
  · exact .inl ⟨same.symm, before, earlier, changed.symm⟩
  · subst changed
    exact .inr ⟨fun equal => same equal.symm, earlier⟩

/-! ### Single sockets -/

variable {target : Nat}

theorem AllAttended.closeSocket (all : AllAttended [target] s) :
    AllAttended [] (s.closeSocket target) := by
  intro index socket found
  rcases modify_cases found with ⟨-, before, earlier, rfl⟩ | ⟨other, same⟩
  · refine ⟨fun opened => ?_, fun running => ?_, fun handed => ?_⟩
    · cases opened
    · exact (all index before earlier).running running
    · cases handed
  · refine (all index socket same).mono (fun held => ?_) id
    exact absurd (mem_singleton.mp held) other

theorem AllAttended.openSocket (all : AllAttended [] s) :
    AllAttended [s.sockets.length]
      { s with sockets := s.sockets ++ [Socket.mk .opened none] } := by
  intro index socket found
  by_cases old : index < s.sockets.length
  · rw [getElem?_append_left old] at found
    refine (all index socket found).mono (fun held => ?_) id
    cases held
  · rw [getElem?_append_right (Nat.le_of_not_lt old)] at found
    rw [getElem?_singleton] at found
    split_ifs at found
    cases found
    refine ⟨fun _ => .inl ?_, fun running => ?_, fun handed => ?_⟩
    · exact mem_singleton.mpr (by omega)
    · cases running
    · cases handed

theorem AllAttended.enter (all : AllAttended [target] s) : AllAttended []
      { s with
        sockets := s.sockets.modify target fun old =>
          { old with task := some .running }
        pending := s.pending ++ [target] } := by
  intro index socket found
  rcases modify_cases found with ⟨rfl, before, earlier, rfl⟩ | ⟨other, same⟩
  · have joined : index ∈ s.pending ++ [index] := mem_append_right _ mem_cons_self
    exact ⟨fun _ => .inr joined, fun _ => joined, (all index before earlier).handed⟩
  · refine (all index socket same).mono (fun held => ?_) (fun waiting => ?_)
    · exact absurd (mem_singleton.mp held) other
    · exact mem_append_left _ waiting

theorem Owned.all {pos : ConnectPosition} (inv : Owned plan s)
    (here : s.pc = pos) (active : pos.handed = none) :
    AllAttended pos.holds s := by
  intro index socket found
  have attended := inv.sockets index socket found
  rwa [here, active] at attended

theorem AllAttended.goto {holds : List Nat} (all : AllAttended holds s)
    {pos : ConnectPosition} (same : pos.holds = holds)
    (active : pos.handed = none)
    (alone : plan.racing = false ∨ pos.isAlone → s.pending = []) :
    Owned plan (s.goto pos) := by
  refine ⟨fun index socket found => ?_, alone⟩
  have attended := all index socket found
  rwa [← same, ← active] at attended

/-- A race, or a position in which the coroutine is not alone. -/
theorem AllAttended.moveOn {holds : List Nat} (all : AllAttended holds s)
    {pos : ConnectPosition} (same : pos.holds = holds)
    (active : pos.handed = none)
    (notAlone : pos.isAlone = false)
    (sequential : plan.racing = false → s.pending = []) :
    Owned plan (s.goto pos) := by
  refine all.goto same active ?_
  rintro (slow | isAlone)
  · exact sequential slow
  · cases notAlone.symm.trans isAlone

theorem AllAttended.raised (all : AllAttended [] s) (alone : s.pending = []) :
    Owned plan s.raised :=
  all.goto rfl rfl fun _ => alone

/-! ### The race -/

variable {winner : Option Nat}

theorem AllAttended.decide (all : AllAttended winner.toList s)
    (alone : s.pending = []) : Owned plan (s.decide winner) := by
  cases winner with
  | none => exact all.raised alone
  | some socket => exact all.goto rfl rfl fun _ => alone

theorem AllAttended.returned (all : AllAttended winner.toList s) :
    Owned plan (s.returned winner) := by
  have abandoned : AllAttended winner.toList
      { s with
        sockets := s.sockets.mapIdx fun index (socket : Socket) =>
          if index ∈ s.pending then socket.abandon else socket
        pending := [] } := by
    intro index socket found
    rw [getElem?_mapIdx] at found
    obtain ⟨before, earlier, rfl⟩ := Option.map_eq_some_iff.mp found
    have attended := all index before earlier
    split
    next waiting =>
      refine ⟨fun opened => ?_, fun running => ?_, fun handed => ?_⟩
      · cases opened
      · cases task : before.task with
        | none => simp [Socket.abandon, task] at running
        | some task' => cases task' <;> simp [Socket.abandon, task] at running
      · cases handed
    next gone =>
      refine ⟨fun opened => ?_, fun running => ?_, attended.handed⟩
      · exact .inl ((attended.opened opened).resolve_right gone)
      · exact absurd (attended.running running) gone
  unfold ConnectState.returned
  split
  · exact abandoned.decide rfl
  · refine abandoned.goto ?_ rfl fun _ => rfl
    cases winner <;> rfl

theorem taskOf_eq_finished {socket : Socket}
    (found : s.sockets[index]? = some socket)
    (ended : s.taskOf index = some (.finished outcome)) :
    socket.task = some (.finished outcome) := by
  rwa [ConnectState.taskOf, found] at ended

theorem taskOf_closeSocket (target index : Nat) :
    (s.closeSocket target).taskOf index = s.taskOf index := by
  unfold ConnectState.taskOf ConnectState.closeSocket
  rw [getElem?_modify]
  cases s.sockets[index]? with
  | none => rfl
  | some =>
    split <;> rfl

theorem AllAttended.pop (all : AllAttended [] s)
    (ended : s.taskOf target = some (.finished outcome)) :
    AllAttended [target] { s with pending := s.pending.erase target } := by
  intro index socket found
  by_cases same : index = target
  · subst same
    refine ⟨fun _ => .inl mem_cons_self, fun running => ?_, (all index socket found).handed⟩
    cases (taskOf_eq_finished found ended).symm.trans running
  · refine (all index socket found).mono (fun held => ?_) (fun waiting => ?_)
    · cases held
    · exact (mem_erase_of_ne same).mpr waiting

/-- What `__consume_connection_attempts` returns is in hand. -/
theorem allAttended_consume (all : AllAttended [] s)
    (ended : ∀ socket ∈ done, ∃ outcome, s.taskOf socket = some (.finished outcome)) :
    match (s.consume done).2 with
    | .winner socket => AllAttended [socket] (s.consume done).1
    | _ => AllAttended [] (s.consume done).1 := by
  induction done generalizing s with
  | nil => exact all
  | cons target _ ih =>
    obtain ⟨outcome, here⟩ := ended target mem_cons_self
    have popped := all.pop here
    unfold ConnectState.consume
    simp only [here]
    cases outcome with
    | ok => exact popped
    | osError =>
      refine ih popped.closeSocket ?_
      intro socket mem
      obtain ⟨later, same⟩ := ended socket (mem_cons_of_mem _ mem)
      exact ⟨later, (taskOf_closeSocket target socket).trans same⟩
    | raises => exact popped.closeSocket

theorem exists_of_reports {timed : Bool} (reported : s.reports timed done) :
    ∀ socket ∈ done, ∃ outcome, s.taskOf socket = some (.finished outcome) := by
  intro socket mem
  unfold ConnectState.reports at reported
  rw [Bool.and_eq_true, all_eq_true] at reported
  have here := reported.2 socket mem
  cases task : s.taskOf socket with
  | none => simp [task] at here
  | some task' =>
    cases task' with
    | finished outcome => exact ⟨outcome, rfl⟩
    | running | cancelled => simp [task] at here

theorem pending_consume (waiting : index ∈ (s.consume done).1.pending) :
    index ∈ s.pending := by
  induction done generalizing s with
  | nil => exact waiting
  | cons _ _ ih =>
    simp only [ConnectState.consume] at waiting
    split at waiting
    · exact mem_of_mem_erase waiting
    · exact mem_of_mem_erase (ih waiting)
    · exact mem_of_mem_erase waiting

/-! ### Steps of the coroutine -/

theorem owned_prepared {socket : Option Nat} (all : AllAttended socket.toList s)
    (sequential : plan.racing = false → s.pending = []) :
    Owned plan (s.prepared plan socket) := by
  unfold ConnectState.prepared
  split
  next racing =>
    have goes {s : ConnectState} (all : AllAttended [] s) : Owned plan (s.goto
          (if s.pending.isEmpty || s.todo.isEmpty then .nextAddress
            else .waiting true)) := by
      refine all.goto ?_ ?_ ?_
      · split <;> rfl
      · split <;> rfl
      · rintro (slow | isAlone)
        · cases racing.symm.trans slow
        · split at isAlone <;> cases isAlone
    cases socket with
    | none => exact goes all
    | some => exact goes all.enter
  next slow =>
    have pending := sequential (by simpa using slow)
    cases socket with
    | none | some socket => exact all.goto rfl rfl fun _ => pending

theorem owned_bindNext {family socket : Nat} {families : List Nat}
    (all : AllAttended [socket] s)
    (sequential : plan.racing = false → s.pending = []) :
    Owned plan (s.bindNext plan family socket families) := by
  induction families with
  | nil =>
    have closed : AllAttended (none : Option Nat).toList
        (s.closeSocket socket) := all.closeSocket
    exact owned_prepared closed sequential
  | cons _ _ ih =>
    rw [ConnectState.bindNext]
    split
    · exact all.moveOn rfl rfl rfl sequential
    · exact ih

theorem AllAttended.closeAndRaise {socket : Nat} (all : AllAttended [socket] s)
    (alone : s.pending = []) : Owned plan (s.closeSocket socket).raised :=
  all.closeSocket.raised alone

section

variable (inv : Owned plan s)

include inv

theorem owned_proceed (clean : s.permits plan outcome)
    (moved : s.proceed plan outcome = some next) : Owned plan next := by
  unfold ConnectState.proceed at moved
  have sequential : plan.racing = false → s.pending = [] := fun slow =>
    inv.alone (.inl slow)
  cases pos : s.pc with
  | nextAddress =>
    have all := inv.all pos rfl
    simp only [pos] at moved
    split at moved
    next family later todo =>
      cases moved
      have taken : AllAttended [] { s with todo := later } := all
      exact taken.moveOn rfl rfl rfl sequential
    next todo =>
      split at moved
      next racing =>
        split at moved
        next empty =>
          cases moved
          exact AllAttended.returned all
        next =>
          cases moved
          exact all.moveOn rfl rfl rfl sequential
      next slow =>
        cases moved
        exact all.raised (sequential (by simpa using slow))
  | create =>
    have all := inv.all pos rfl
    simp only [pos] at moved
    cases outcome with
    | ok =>
      cases moved
      exact all.openSocket.moveOn rfl rfl rfl sequential
    | osError | raises =>
      cases moved
      exact all.raised (by simpa [ConnectState.permits, pos] using clean)
  | configure =>
    have all := inv.all pos rfl
    have answered : outcome = .ok := by
      simpa [ConnectState.permits, pos] using clean
    subst answered
    simp only [pos] at moved
    cases families : plan.localFamilies with
    | none =>
      rw [families] at moved
      cases moved
      exact owned_prepared all sequential
    | some =>
      rw [families] at moved
      cases moved
      exact owned_bindNext all sequential
  | bind =>
    have all := inv.all pos rfl
    simp only [pos] at moved
    cases outcome with
    | ok =>
      cases moved
      exact owned_prepared all sequential
    | osError =>
      cases moved
      exact owned_bindNext all sequential
    | raises => simp [ConnectState.permits, pos] at clean
  | connecting =>
    have all := inv.all pos rfl
    have alone := inv.alone (.inr (by rw [pos]; rfl))
    simp only [pos] at moved
    cases outcome with
    | ok =>
      cases moved
      exact all.goto rfl rfl fun _ => alone
    | osError =>
      cases moved
      exact all.closeSocket.goto rfl rfl fun _ => alone
    | raises =>
      cases moved
      exact all.closeAndRaise alone
  | waiting timed | finished handed => simp [pos] at moved
  | gathering winner =>
    have all := inv.all pos rfl
    have alone := inv.alone (.inr (by rw [pos]; rfl))
    simp only [pos] at moved
    cases moved
    refine AllAttended.decide ?_ alone
    cases winner <;> exact all
  | transport stage socket =>
    have all := inv.all pos rfl
    have alone := inv.alone (.inr (by rw [pos]; rfl))
    simp only [pos] at moved
    split at moved
    next =>
      cases moved
      exact all.goto rfl rfl fun _ => alone
    next =>
      cases moved
      refine ⟨fun index after found => ?_, fun _ => alone⟩
      rcases modify_cases found with ⟨rfl, before, earlier, rfl⟩ | ⟨other, same⟩
      · exact ⟨fun opened => (by cases opened), (all index before earlier).running, fun _ => rfl⟩
      · have attended := all index after same
        refine ⟨fun opened => .inr ?_, attended.running, fun handed => ?_⟩
        · exact (attended.opened opened).resolve_left
            (fun held => other (mem_singleton.mp held))
        · cases attended.handed handed
    next fails _ =>
      split_ifs at moved with kept
      · obtain ⟨rfl, keeps⟩ := kept
        simp [ConnectState.permits, pos, keeps] at clean
        exact absurd rfl (fails _ clean)
      · cases moved
        exact all.closeAndRaise alone

theorem owned_cancel (clean : s.interruptible)
    (moved : s.cancel plan = some next) : Owned plan next := by
  unfold ConnectState.cancel at moved
  unfold ConnectState.interruptible at clean
  cases pos : s.pc with
  | connecting =>
    have all := inv.all pos rfl
    simp only [pos] at moved
    cases moved
    exact all.closeAndRaise (inv.alone (.inr (by rw [pos]; rfl)))
  | transport stage socket =>
    have all := inv.all pos rfl
    simp only [pos, beq_iff_eq] at moved clean
    subst clean
    simp only [if_true] at moved
    split_ifs at moved
    cases moved
    exact all.closeAndRaise (inv.alone (.inr (by rw [pos]; rfl)))
  | waiting timed | gathering winner => simp [pos] at clean
  | nextAddress | create family | configure family socket | bind family socket later
  | finished => simp [pos] at moved

theorem owned_endTask {socket : Nat}
    (moved : s.endTask socket outcome = some next) : Owned plan next := by
  unfold ConnectState.endTask at moved
  split at moved
  · cases moved
  · cases moved
  · cases moved
    refine ⟨fun index after found => ?_, inv.alone⟩
    rcases modify_cases found with ⟨-, before, earlier, rfl⟩ | ⟨-, same⟩
    · have attended := inv.sockets index before earlier
      exact ⟨attended.opened, fun running => (by cases running), attended.handed⟩
    · exact inv.sockets index after same

theorem owned_wait {timed : Bool} (pos : s.pc = .waiting timed)
    (reported : s.reports timed done)
    (clean : CleanAttempts plan s (.wait done)) :
    Owned plan (ConnectState.afterWait timed (s.consume done)) := by
  have all := inv.all pos rfl
  have consumed := allAttended_consume all (exists_of_reports reported)
  have sequential : plan.racing = false → (s.consume done).1.pending = [] := by
    intro slow
    rw [eq_nil_iff_forall_not_mem]
    intro index waiting
    have before := pending_consume waiting
    rw [inv.alone (.inl slow)] at before
    cases before
  unfold CleanAttempts at clean
  rcases result : s.consume done with ⟨after, verdict⟩
  simp only [result] at consumed sequential clean
  cases verdict with
  | winner => exact AllAttended.returned consumed
  | raised => exact consumed.raised (clean rfl)
  | undecided =>
    simp only [ConnectState.afterWait]
    split
    · exact consumed.moveOn rfl rfl rfl sequential
    · split
      · exact AllAttended.returned consumed
      · exact consumed.moveOn rfl rfl rfl sequential

theorem owned_connectStep {action : ConnectAction}
    (clean : CleanAttempts plan s action)
    (moved : connectStep plan s action = some next) : Owned plan next := by
  cases action with
  | proceed => exact owned_proceed inv clean moved
  | cancel => exact owned_cancel inv clean moved
  | taskEnds => exact owned_endTask inv moved
  | wait =>
    simp only [connectStep] at moved
    split at moved
    next timed pos =>
      split at moved <;> cases moved
      rename_i reported
      exact owned_wait inv pos reported clean
    next => cases moved

end

/-- Let every answer, every cancellation and every end of a task leave no socket
without an owner. Then the coroutine, however it ends, has closed every socket
but the one of its transport, and no connect task goes on. -/
theorem noLeak_of_cleanAttempts (plan : ConnectionPlan)
    {actions : List ConnectAction}
    {s : ConnectState} {handed : Option Nat}
    (clean :
      Guarded (connectStep plan) (CleanAttempts plan) (ConnectState.new plan) actions)
    (reached : run (connectStep plan) (ConnectState.new plan) actions = some s)
    (finished : s.pc = .finished handed) : NoLeak s := by
  have inv : Owned plan s := by
    refine invariant_of_run (Owned plan) ?_ (owned_new plan) clean reached
    intro before action after inv clean moved
    exact owned_connectStep inv clean moved
  have alone : s.pending = [] := inv.alone (.inr (by rw [finished]; rfl))
  intro index socket found
  have attended := inv.sockets index socket found
  rw [finished, alone] at attended
  refine ⟨?_, fun running => by cases attended.running running⟩
  cases status : socket.status with
  | opened => rcases attended.opened status with held | waiting <;> contradiction
  | closed => exact .inl rfl
  | handed =>
    refine .inr ⟨rfl, ?_⟩
    rw [finished]
    exact congrArg _ (attended.handed status)

/-- A race that the second address wins: the first attempt is cancelled, its
socket closed, and the third address is not tried. -/
theorem noLeak_of_secondWins : ∃ s, run (connectStep ⟨[2, 10, 2], none, true, false, true⟩)
          (ConnectState.new ⟨[2, 10, 2], none, true, false, true⟩)
          [.proceed .ok, .proceed .ok, .proceed .ok, .wait [], .proceed .ok,
            .proceed .ok, .proceed .ok, .taskEnds 1 .ok, .wait [1],
            .taskEnds 0 .raises, .proceed .ok, .proceed .ok, .proceed .ok,
            .proceed .ok, .proceed .ok] = some s ∧
        s.pc = .finished (some 1) ∧ NoLeak s := by
  refine exists_run_imp (fun s => s.pc = .finished (some 1)) (by decide) ?_
  rintro s reached finished
  exact ⟨finished, noLeak_of_cleanAttempts _ (by decide) reached finished⟩

/-- The call ends without a transport, and with a leak. -/
def Leaks (plan : ConnectionPlan) (actions : List ConnectAction) : Prop :=
  ∃ s, run (connectStep plan) (ConnectState.new plan) actions = some s ∧
    s.pc = .finished none ∧ ¬ NoLeak s

theorem leaks_of_opened (plan : ConnectionPlan) (actions : List ConnectAction)
    (stranded : (run (connectStep plan) (ConnectState.new plan) actions).any
      (fun s => s.pc = .finished none ∧ s.sockets.any (·.status == .opened))) :
    Leaks plan actions := by
  refine exists_run_imp (fun s => s.pc = .finished none ∧ s.sockets.any (·.status
      == .opened)) stranded ?_
  rintro s reached ⟨finished, found⟩
  refine ⟨finished, fun noLeak => ?_⟩
  obtain ⟨socket, mem, opened⟩ := any_eq_true.mp found
  obtain ⟨index, here⟩ := getElem?_of_mem mem
  rcases (noLeak index socket here).1 with closed | ⟨handed, -⟩
  · simp [closed] at opened
  · simp [handed] at opened

/-- As many operations that succeed -/
def operations (count : Nat) : List ConnectAction :=
  replicate count (.proceed .ok)

/-- The call ends and a socket stays open: cancelled while a race waits for the
delay, cancelled while it gathers the losers behind a winner, raising where a
second socket cannot be created, raising because one attempt of two has raised
something else than `OSError`, and, without a race, raising in `bind`, cancelled
in a TLS handshake, and raising in `connection_made` of a protocol that has kept
the transport. -/
theorem sockets_leak :
    Leaks ⟨[2, 10], none, true, false, false⟩ (operations 3 ++ [.cancel]) ∧
    Leaks ⟨[2, 10], none, true, false, false⟩
      (operations 3 ++ [.wait []] ++ operations 4 ++
        [.taskEnds 1 .ok, .wait [1], .cancel]) ∧
    Leaks ⟨[2, 10], none, true, false, false⟩
      (operations 3 ++ [.wait [], .proceed .ok, .proceed .osError]) ∧
    Leaks ⟨[2, 10], none, true, false, false⟩
      (operations 3 ++ [.wait []] ++ operations 4 ++
        [.taskEnds 1 .raises, .wait [1]]) ∧
    Leaks ⟨[2], some [2], false, false, false⟩
      (operations 3 ++ [.proceed .raises]) ∧
    Leaks ⟨[2], none, false, true, false⟩ (operations 5 ++ [.cancel]) ∧
    Leaks ⟨[2], none, false, false, true⟩
      (operations 6 ++ [.proceed .raises]) := by
  refine ⟨?_, ?_, ?_, ?_, ?_, ?_, ?_⟩ <;> exact leaks_of_opened _ _ (by decide)

end Rsloop.Connect
