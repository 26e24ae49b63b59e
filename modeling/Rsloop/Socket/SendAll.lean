import Mathlib.Data.List.Basic

/-!
# Sending a whole buffer

`sock_sendall` sends at once what the socket takes and retries when it becomes
writable, at most sixteen sends at a time. The offset is all that is kept
between the attempts. An attempt does not look at the future between its sends,
so a send that cancels the future is followed by others.
-/

namespace Rsloop.Socket

open List

variable {Byte : Type}

/-- A contiguous buffer of items of any size. `castError` is raised by
`cast("B")` if its format is not a native one. -/
structure Buffer (Byte : Type) where
  items : List (List Byte)
  castError : Option String

def Buffer.bytes (buf : Buffer Byte) : List Byte :=
  buf.items.flatten

/-- At offset zero the object itself is sent, and the socket exports its bytes.
Later it is a slice of the byte view. -/
def Buffer.chunk (buf : Buffer Byte) (offset : Nat) : Except String (List Byte) :=
  if offset = 0 then .ok buf.items.flatten
  else match buf.castError with
    | some message => .error message
    | none => .ok ((buf.bytes.take buf.bytes.length).drop offset)

/-- What `socket.send` comes to: a count, an error to retry after, or another. -/
inductive SendOutcome where
  | count (count : Nat)
  | retryable
  | error (message : String)

inductive FutureState where
  | pending
  | result
  | exception (message : String)
  | cancelled
  deriving DecidableEq

/-- Only a pending future changes. -/
def FutureState.settle (future new : FutureState) : FutureState :=
  if future = .pending then new else future

/-- How a call of `socket.send` goes. The method may be the user's, and may have
cancelled the future when it returns. -/
structure SendCall where
  outcome : SendOutcome
  cancels : Bool

structure Send (Byte : Type) extends SendCall where
  offset : Nat
  chunk : List Byte

/-- How many of the offered bytes the socket has taken; none if the count is no
progress or more than what was offered. -/
def Send.taken (send : Send Byte) : Nat :=
  match send.outcome with
  | .count count => if count ≤ send.chunk.length then count else 0
  | _ => 0

def Send.fails (send : Send Byte) : Bool :=
  match send.outcome with
  | .count count => count = 0 || send.chunk.length < count
  | .retryable => false
  | .error _ => true

structure SendOperation (Byte : Type) where
  offset : Nat
  future : FutureState
  /-- All calls of `socket.send` so far. -/
  sends : List (Send Byte)

inductive Attempt where
  | done
  | again
  | failed (message : String)

def SendOperation.send (op : SendOperation Byte) (chunk : List Byte) (call : SendCall) :
    SendOperation Byte :=
  { op with
    future := if call.cancels then op.future.settle .cancelled else op.future
    sends := op.sends ++ [⟨call, op.offset, chunk⟩] }

/-- `SocketAction::attempt` of a `SendAll` with so many sends left. -/
def attempt (buf : Buffer Byte) (calls : Nat → SendCall) :
    Nat → SendOperation Byte → Attempt × SendOperation Byte
  | 0, op =>
    (if op.offset = buf.bytes.length then .done else .again, op)
  | sendsLeft + 1, op =>
    if op.offset = buf.bytes.length then (.done, op)
    else match buf.chunk op.offset with
      | .error message => (.failed message, op)
      | .ok chunk =>
        let sent := op.send chunk (calls sendsLeft)
        match (calls sendsLeft).outcome with
        | .count count =>
          if count = 0 ∨ buf.bytes.length - op.offset < count then
            (.failed "socket.send returned invalid progress", sent)
          else
            attempt buf calls sendsLeft { sent with offset := op.offset + count }
        | .retryable => (.again, sent)
        | .error message => (.failed message, sent)

inductive Action where
  /-- `poll_operation`, with the error of the wait, the sends and the error of
  waiting again, if there are any. -/
  | poll (waitError : Option String) (calls : Nat → SendCall) (armError : Option String)
  | cancel

/-- What `poll_operation` makes of the future, with the error of waiting again. -/
def Attempt.settles (armError : Option String) : Attempt → FutureState
  | .done => .result
  | .failed message => .exception message
  | .again =>
    match armError with
    | some message => .exception message
    | none => .pending

/-- A future that is done is neither polled for nor cancelled. One that a send
has cancelled takes no result. -/
def step (buf : Buffer Byte) (op : SendOperation Byte) (action : Action) :
    SendOperation Byte :=
  if op.future ≠ .pending then op
  else match action with
    | .cancel => { op with future := .cancelled }
    | .poll (some message) _ _ => { op with future := .exception message }
    | .poll none calls armError =>
      let (result, after) := attempt buf calls 16 op
      { after with future := after.future.settle (result.settles armError) }

/-- The checks of `sock_sendall` and `start`, which makes the first attempt like
any other. Nobody has the future before it returns. -/
def sockSendall (buf : Buffer Byte) (contiguous nonBlocking : Bool)
    (outcomes : Nat → SendOutcome) (armError : Option String) :
    Except String (SendOperation Byte) :=
  if !contiguous then .error "sendall requires a contiguous buffer"
  else if !nonBlocking then .error "the socket must be non-blocking"
  else
    .ok (step buf ⟨0, .pending, []⟩
      (.poll none (fun index => ⟨outcomes index, false⟩) armError))

/-! ## The offset accounts for all bytes -/

/-- The ranges the sends took follow each other from `start` to `stop`. -/
def Consecutive (start : Nat) (stop : Nat) : List (Send Byte) → Prop
  | [] => start = stop
  | send :: later => send.offset = start ∧ Consecutive (start + send.taken) stop later

/-- What holds between attempts, and within one until it fails. -/
structure Exact (buffer : Buffer Byte) (op : SendOperation Byte) : Prop where
  consecutive : Consecutive 0 op.offset op.sends
  bytes : op.sends.flatMap (fun send => send.chunk.take send.taken) =
    buffer.bytes.take op.offset

section Attempts

variable {buf : Buffer Byte} {op : SendOperation Byte}

theorem chunk_eq {offset : Nat} {chunk : List Byte}
    (offered : buf.chunk offset = .ok chunk) :
    chunk = buf.bytes.drop offset := by
  unfold Buffer.chunk at offered
  split at offered
  next front =>
      cases offered
      rw [front]
      rfl
  · split at offered
    · cases offered
    · cases offered
      rw [take_length]

theorem consecutive_concat {start stop : Nat} {sends : List (Send Byte)}
    {send : Send Byte}
    (consecutive : Consecutive start stop sends) (next : send.offset = stop) :
    Consecutive start (stop + send.taken) (sends ++ [send]) := by
  induction sends generalizing start with
  | nil =>
    cases consecutive
    exact ⟨next, rfl⟩
  | cons first later ih => exact ⟨consecutive.1, ih consecutive.2⟩

/-- Whatever a send comes to, the offset moves on by what the socket took. -/
theorem Exact.send {chunk : List Byte} {call : SendCall} {taken : Nat}
    (exact : Exact buf op) (offered : buf.chunk op.offset = .ok chunk)
    (takes : (⟨call, op.offset, chunk⟩ : Send Byte).taken = taken) :
    Exact buf { op.send chunk call with offset := op.offset + taken } := by
  refine ⟨takes ▸ consecutive_concat exact.consecutive rfl, ?_⟩
  simp only [SendOperation.send, flatMap_append, exact.bytes, flatMap_singleton, take_add, takes]
  rw [chunk_eq offered]

theorem Exact.refuse {chunk : List Byte} {call : SendCall}
    (exact : Exact buf op) (offered : buf.chunk op.offset = .ok chunk)
    (takes : (⟨call, op.offset, chunk⟩ : Send Byte).taken = 0) :
    Exact buf (op.send chunk call) :=
  exact.send offered takes

/-! ## What an attempt does -/

/-- How an attempt ends, by what it has sent. -/
def Attempt.Ends (buf : Buffer Byte) (sendsLeft : Nat) (after : SendOperation Byte)
    (new : List (Send Byte)) : Attempt → Prop
  | .done => after.offset = buf.bytes.length ∧ ∀ send ∈ new, send.fails = false
  | .again => after.offset ≠ buf.bytes.length ∧ (∀ send ∈ new, send.fails = false) ∧
      (new.length = sendsLeft ∨ ∃ send, new.getLast? = some send ∧ send.outcome = .retryable)
  | .failed _ => after.offset ≠ buf.bytes.length ∧
      ((∃ send ∈ new, send.fails) ∨ after.offset ≠ 0 ∧ buf.castError ≠ none)

theorem Attempt.Ends.cons {sendsLeft : Nat} {first : Send Byte}
    {new : List (Send Byte)}
    {result : Attempt} (valid : first.fails = false)
    (ends : result.Ends buf sendsLeft op new) :
    result.Ends buf (sendsLeft + 1) op (first :: new) := by
  cases result with
  | done => exact ⟨ends.1, forall_mem_cons.mpr ⟨valid, ends.2⟩⟩
  | again =>
    refine ⟨ends.1, forall_mem_cons.mpr ⟨valid, ends.2.1⟩, ends.2.2.imp (congrArg (· + 1)) ?_⟩
    rintro ⟨send, last, retryable⟩
    exact ⟨send, by rw [getLast?_cons, last]; rfl, retryable⟩
  | failed =>
    exact ⟨ends.1, ends.2.imp_left fun ⟨send, mem, fails⟩ =>
      ⟨send, mem_cons_of_mem _ mem, fails⟩⟩

structure Attempts (buf : Buffer Byte) (calls : Nat → SendCall)
    (before : SendOperation Byte) (sendsLeft : Nat)
    (result : Attempt) (after : SendOperation Byte) (new : List (Send Byte)) : Prop where
  exact : Exact buf after
  future : after.future =
    if new.any (·.cancels) then before.future.settle .cancelled else before.future
  sends : after.sends = before.sends ++ new
  bounded : new.length ≤ sendsLeft
  inOrder : ∀ index send, new[index]? = some send → send.toSendCall = calls (sendsLeft - 1 - index)
  ends : result.Ends buf sendsLeft after new

/-- An attempt that ends with its first send. -/
theorem Attempts.single {calls : Nat → SendCall} {sendsLeft : Nat}
    {chunk : List Byte}
    {result : Attempt}
    (exact : Exact buf (op.send chunk (calls sendsLeft)))
    (ends : result.Ends buf (sendsLeft + 1) (op.send chunk (calls sendsLeft))
      [⟨calls sendsLeft, op.offset, chunk⟩]) :
    Attempts buf calls op (sendsLeft + 1) result
      (op.send chunk (calls sendsLeft)) [⟨calls sendsLeft, op.offset, chunk⟩] where
  exact := exact
  future := by simp [SendOperation.send]
  sends := rfl
  bounded := Nat.le_add_left _ _
  inOrder index send found := by
    cases index with
    | zero =>
      cases found
      rfl
    | succ => cases found
  ends := ends

theorem attempts_attempt (exact : Exact buf op)
    (calls : Nat → SendCall) (sendsLeft : Nat) :
    ∃ new, Attempts buf calls op sendsLeft (attempt buf calls sendsLeft op).1
      (attempt buf calls sendsLeft op).2 new := by
  fun_induction attempt buf calls sendsLeft op with
  | case1 op =>
    refine ⟨[], exact, rfl, (append_nil _).symm, Nat.le_refl _, nofun, ?_⟩
    split
    next complete => exact ⟨complete, nofun⟩
    next short => exact ⟨short, nofun, .inl rfl⟩
  | case2 _ op complete =>
    exact ⟨[], exact, rfl, (append_nil _).symm, Nat.zero_le _, nofun, complete, nofun⟩
  | case3 _ op short message refused =>
    refine ⟨[], exact, rfl, (append_nil _).symm, Nat.zero_le _, nofun, short, .inr ?_⟩
    unfold Buffer.chunk at refused
    split at refused
    · cases refused
    next later =>
      split at refused
      next raises => exact ⟨later, by simp [raises]⟩
      next => cases refused
  | case4 sendsLeft op short chunk offered sent count outcome invalid =>
    have nothing : count ≤ chunk.length → count = 0 := by
      rw [chunk_eq offered, length_drop]
      omega
    refine ⟨_, .single (exact.refuse offered ?_) ⟨short, .inl ⟨_, mem_singleton_self _, ?_⟩⟩⟩
    · simpa only [Send.taken, outcome, ite_eq_right_iff] using nothing
    · simp only [Send.fails, outcome, Bool.or_eq_true, decide_eq_true_eq]
      rw [chunk_eq offered, length_drop]
      exact invalid
  | case5 sendsLeft op short chunk offered sent count outcome valid ih =>
    have fits : count ≤ chunk.length := by
      rw [chunk_eq offered, length_drop]
      omega
    obtain ⟨new, later⟩ := ih (exact.send offered (by simp only [Send.taken, outcome, if_pos fits]))
    refine ⟨_ :: new, later.exact, ?_, later.sends.trans (append_assoc ..),
      Nat.succ_le_succ later.bounded, fun index send found => ?_, later.ends.cons ?_⟩
    · rw [later.future, any_cons]
      simp only [sent, SendOperation.send]
      cases (calls sendsLeft).cancels <;> cases op.future <;> simp [FutureState.settle]
    · cases index with
      | zero =>
        cases found
        rfl
      | succ index =>
        rw [later.inOrder index send found]
        congr 1
        omega
    · simp only [Send.fails, outcome, Bool.or_eq_false_iff, decide_eq_false_iff_not]
      omega
  | case6 sendsLeft op short chunk offered sent outcome =>
    refine ⟨_, .single (exact.refuse offered (by simp only [Send.taken, outcome]))
      ⟨short, forall_mem_singleton.mpr ?_, .inr ⟨_, rfl, outcome⟩⟩⟩
    simp only [Send.fails, outcome]
  | case7 sendsLeft op short chunk offered sent message outcome =>
    refine ⟨_, .single (exact.refuse offered (by simp only [Send.taken, outcome]))
      ⟨short, .inl ⟨_, mem_singleton_self _, ?_⟩⟩⟩
    simp only [Send.fails, outcome]

/-- What a poll of a pending operation does: it makes the sends of an attempt and
settles the future by how they ended. -/
structure Polled (buf : Buffer Byte) (calls : Nat → SendCall) (armError : Option String)
    (before after : SendOperation Byte) (new : List (Send Byte)) : Prop where
  sends : after.sends = before.sends ++ new
  bounded : new.length ≤ 16
  inOrder : ∀ index send, new[index]? = some send → send.toSendCall = calls (15 - index)
  cancelled : after.future = .cancelled ↔ ∃ send ∈ new, send.cancels
  result : after.future = .result ↔
    after.offset = buf.bytes.length ∧ after.future ≠ .cancelled
  failed : ∀ send ∈ new, send.fails →
    (∃ message, after.future = .exception message) ∨ after.future = .cancelled
  pending : after.future = .pending → armError = none ∧
    (new.length = 16 ∨ ∃ send, new.getLast? = some send ∧ send.outcome = .retryable)
  raised : ∀ message, after.future = .exception message → armError = some message ∨
    (∃ send ∈ new, send.fails) ∨ after.offset ≠ 0 ∧ buf.castError ≠ none

theorem Attempts.polled {calls : Nat → SendCall} {result : Attempt}
    {after : SendOperation Byte} {new : List (Send Byte)}
    (armError : Option String)
    (attempts : Attempts buf calls op 16 result after new)
    (pending : op.future = .pending) :
    Polled buf calls armError op
      { after with future := after.future.settle (result.settles armError) } new := by
  obtain ⟨_, future, sends, bounded, inOrder, ends⟩ := attempts
  by_cases cancelled : new.any (·.cancels) = true
  · have stays : after.future.settle (result.settles armError) = .cancelled := by
      simp [future, cancelled, pending, FutureState.settle]
    rw [stays]
    exact ⟨sends, bounded, inOrder, ⟨fun _ => any_eq_true.mp cancelled, fun _ => rfl⟩,
      ⟨nofun, fun complete => absurd rfl complete.2⟩, fun _ _ _ => .inr rfl, nofun, nofun⟩
  · have takes : after.future.settle (result.settles armError) = result.settles armError := by
      simp [future, cancelled, pending, FutureState.settle]
    have nobody {future : FutureState} (other : future ≠ .cancelled) :
        future = .cancelled ↔ ∃ send ∈ new, send.cancels :=
      ⟨fun same => absurd same other, fun some => absurd (any_eq_true.mpr some) cancelled⟩
    have unfailed {future : FutureState} (none : ∀ send ∈ new, send.fails = false)
        (send : Send Byte) (mem : send ∈ new) (fails : send.fails) :
        (∃ message, future = .exception message) ∨ future = .cancelled := by
      cases fails.symm.trans (none send mem)
    rw [takes]
    cases result with
    | done =>
      exact ⟨sends, bounded, inOrder, nobody nofun, ⟨fun _ => ⟨ends.1, nofun⟩, fun _ => rfl⟩,
        unfailed ends.2, nofun, nofun⟩
    | failed message =>
      exact ⟨sends, bounded, inOrder, nobody nofun,
        ⟨nofun, fun complete => absurd complete.1 ends.1⟩, fun _ _ _ => .inl ⟨_, rfl⟩, nofun,
        fun _ _ => .inr ends.2⟩
    | again =>
      cases armError with
      | some message =>
        refine ⟨sends, bounded, inOrder, nobody nofun,
          ⟨nofun, fun complete => absurd complete.1 ends.1⟩, unfailed ends.2.1, nofun,
          fun _ raised => .inl ?_⟩
        cases raised
        rfl
      | none =>
        exact ⟨sends, bounded, inOrder, nobody nofun,
          ⟨nofun, fun complete => absurd complete.1 ends.1⟩, unfailed ends.2.1,
          fun _ => ⟨rfl, ends.2.2⟩, nofun⟩

/-- What holds in every state of an operation. -/
structure Accounted (buf : Buffer Byte) (op : SendOperation Byte) : Prop extends
    Exact buf op where
  complete : op.future = .result → op.offset = buf.bytes.length
  failed : ∀ send ∈ op.sends, send.fails →
    (∃ message, op.future = .exception message) ∨ op.future = .cancelled

theorem accounted_poll (accounted : Accounted buf op)
    (pending : op.future = .pending) (calls : Nat → SendCall)
    (armError : Option String) :
    Accounted buf (step buf op (.poll none calls armError)) ∧
      ∃ new, Polled buf calls armError op
        (step buf op (.poll none calls armError)) new := by
  obtain ⟨new, attempts⟩ := attempts_attempt accounted.toExact calls 16
  have polled := attempts.polled armError pending
  simp only [step, pending, ne_eq, not_true, if_false]
  refine ⟨{ attempts.exact with
    complete := fun done => (polled.result.mp done).1, failed := fun send mem fails => ?_ },
    new, polled⟩
  rw [polled.sends, mem_append] at mem
  rcases mem with before | mem
  · have settled := accounted.failed send before fails
    simp [pending] at settled
  · exact polled.failed send mem fails

theorem accounted_step (accounted : Accounted buf op) (action : Action) :
    Accounted buf (step buf op action) := by
  by_cases pending : op.future = .pending
  · rcases action with ⟨_ | message, calls, armError⟩ | _
    · exact (accounted_poll accounted pending calls armError).1
    · simp only [step, pending, ne_eq, not_true, if_false]
      exact { accounted with complete := nofun, failed := fun _ _ _ => .inl ⟨_, rfl⟩ }
    · simp only [step, pending, ne_eq, not_true, if_false]
      exact { accounted with complete := nofun, failed := fun _ _ _ => .inr rfl }
  · rw [step.eq_def, if_pos pending]
    exact accounted

end Attempts

/-- Over any number of attempts the bytes taken by the socket are the prefix up
to the offset in order, the future has a result only at the end of the buffer,
and nothing is done for a future that is done. A poll of a pending operation
sends until the end, a failure, a send to be retried, or sixteen sends; a send
that cancels the future does not end it. -/
theorem sockSendall_exact (buf : Buffer Byte) (outcomes : Nat → SendOutcome)
    (armError : Option String) :
    ∃ first, sockSendall buf true true outcomes armError = .ok first ∧
      first.sends.length ≤ 16 ∧
      ∀ actions : List Action,
        let op := actions.foldl (step buf) first
        Consecutive 0 op.offset op.sends ∧
        op.sends.flatMap (fun send => send.chunk.take send.taken) =
          buf.bytes.take op.offset ∧
        (op.future = .result → op.offset = buf.bytes.length) ∧
        (∀ send ∈ op.sends, send.fails →
          (∃ message, op.future = .exception message) ∨ op.future = .cancelled) ∧
        (op.future = .pending → ∀ calls armError, ∃ new,
          Polled buf calls armError op
            (step buf op (.poll none calls armError)) new) ∧
        (op.future ≠ .pending → ∀ action, step buf op action = op) := by
  have fresh : Accounted buf ⟨0, .pending, []⟩ :=
    { consecutive := rfl, bytes := rfl, complete := nofun, failed := nofun }
  obtain ⟨started, new, polled⟩ :=
    accounted_poll fresh rfl (fun index => ⟨outcomes index, false⟩) armError
  refine ⟨_, rfl, by simpa [polled.sends] using polled.bounded, fun actions => ?_⟩
  have accounted : Accounted buf (actions.foldl (step buf) _) :=
    List.foldlRecOn actions (step buf) started
      fun _ accounted action _ => accounted_step accounted action
  exact ⟨accounted.consecutive, accounted.bytes, accounted.complete, accounted.failed,
    fun pending calls armError => (accounted_poll accounted pending calls armError).2,
    fun done action => if_pos done⟩

/-- The first send of the second attempt takes a byte and cancels the future, and
two more sends are made in that attempt. -/
theorem send_after_cancel : ∃ first next : SendOperation Bool,
    sockSendall ⟨[[true, true, true]], none⟩ true true (fun _ => .retryable) none = .ok first ∧
      step ⟨[[true, true, true]], none⟩ first
        (.poll none (fun index => ⟨.count 1, index = 15⟩) none) = next ∧
      first.future = .pending ∧ next.future = .cancelled ∧
      next.sends.map (·.cancels) = [false, true, false, false] :=
  ⟨_, _, rfl, rfl, rfl, rfl, rfl⟩

end Rsloop.Socket
