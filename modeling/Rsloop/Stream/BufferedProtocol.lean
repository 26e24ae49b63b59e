import Rsloop.Stream.ReadEvents

/-!
# Delivery to a buffered protocol

`data_received_slow_path` copies a chunk piece by piece into the buffers that
`get_buffer` returns, and announces each piece to `buffer_updated`. How many pieces
there are is up to the protocol.
-/

namespace Rsloop.Stream

open Transition List

/-- What `get_buffer` has returned: the memory and how it may be exported. -/
structure ProtocolBuffer (Byte : Type) where
  contents : List Byte
  writable : Bool
  contiguous : Bool
  deriving DecidableEq

inductive CopyError where
  | refusedExport
  | runtimeError (message : String)
  deriving DecidableEq

variable {Byte : Type}

def ProtocolBuffer.Usable (buf : ProtocolBuffer Byte) : Prop :=
  buf.writable ∧ buf.contiguous ∧ buf.contents ≠ []

/-- How many bytes have been copied, and what the memory holds afterwards. -/
def copyToProtocolBuffer (buf : ProtocolBuffer Byte) (source : List Byte) :
    Except CopyError (Nat × List Byte) :=
  if buf.writable && buf.contiguous then
    if buf.contents.length = 0 then
      .error (.runtimeError "get_buffer() returned an empty buffer")
    else
      let count := min source.length buf.contents.length
      .ok (count, source.take count ++ buf.contents.drop count)
  else
    .error .refusedExport

/-- One turn: the argument and the result of `get_buffer`, then the count given to
`buffer_updated` with the memory as it finds it, unless the copy fails. -/
structure DeliveryTurn (Byte : Type) where
  sizeHint : Nat
  buffer : ProtocolBuffer Byte
  updated : Option (Nat × List Byte)
  deriving DecidableEq

/-- The bytes that `buffer_updated` is told of. -/
def DeliveryTurn.announced (turn : DeliveryTurn Byte) : List Byte :=
  match turn.updated with
  | none => []
  | some (count, contents) => contents.take count

theorem copyToProtocolBuffer_eq_ok {buf : ProtocolBuffer Byte}
    {source contents : List Byte}
    {count : Nat}
    (copied : copyToProtocolBuffer buf source = .ok (count, contents)) :
    buf.Usable ∧ count = min source.length buf.contents.length ∧
      contents = source.take count ++ buf.contents.drop count := by
  unfold copyToProtocolBuffer at copied
  split at copied
  next exported =>
    rw [Bool.and_eq_true] at exported
    split_ifs at copied
    next something =>
    cases copied
    exact ⟨⟨exported.1, exported.2, fun empty => something (by rw [empty]; rfl)⟩, rfl, rfl⟩
  · cases copied

theorem take_of_copied {buf : ProtocolBuffer Byte} {source contents : List Byte}
    {count : Nat}
    (copied : copyToProtocolBuffer buf source = .ok (count, contents)) :
    contents.take count = source.take count := by
  obtain ⟨-, size, filled⟩ := copyToProtocolBuffer_eq_ok copied
  rw [filled, take_left']
  rw [length_take]
  omega

theorem copyToProtocolBuffer_eq_error {buf : ProtocolBuffer Byte}
    {source : List Byte}
    {error : CopyError}
    (failed : copyToProtocolBuffer buf source = .error error) :
    ¬ buf.Usable := by
  rintro ⟨writable, contiguous, something⟩
  simp [copyToProtocolBuffer, writable, contiguous, something] at failed

/-- The branch for a protocol with `get_buffer` and `buffer_updated`. `getBuffer`
answers by what has happened so far. -/
def dataReceivedSlowPath (getBuffer : List (DeliveryTurn Byte) → Nat → ProtocolBuffer Byte)
    (earlier : List (DeliveryTurn Byte)) (rest : List Byte) :
    List (DeliveryTurn Byte) × Option CopyError :=
  if _left : rest = [] then
    ([], none)
  else
    let buf := getBuffer earlier rest.length
    match _copied : copyToProtocolBuffer buf rest with
    | .error error => ([⟨rest.length, buf, none⟩], some error)
    | .ok (count, contents) =>
      let turn : DeliveryTurn Byte := ⟨rest.length, buf, some (count, contents)⟩
      let (turns, error) := dataReceivedSlowPath getBuffer (earlier ++ [turn]) (rest.drop count)
      (turn :: turns, error)
  termination_by rest.length
  decreasing_by
    obtain ⟨⟨-, -, something⟩, rfl, -⟩ := copyToProtocolBuffer_eq_ok _copied
    have := List.length_pos_iff.mpr _left
    have := List.length_pos_iff.mpr something
    rw [List.length_drop]
    omega

variable (getBuffer : List (DeliveryTurn Byte) → Nat → ProtocolBuffer Byte)

/-- As long as the buffers are usable, the pieces that are announced make up the
chunk; every turn asks for what is left, and an unusable buffer is the last one. -/
theorem dataReceivedSlowPath_delivers (earlier : List (DeliveryTurn Byte))
    (rest : List Byte) :
    let result := dataReceivedSlowPath getBuffer earlier rest
    ((∀ turn ∈ result.1, turn.buffer.Usable) →
        result.2 = none ∧ result.1.flatMap DeliveryTurn.announced = rest) ∧
      ∀ before turn after, result.1 = before ++ turn :: after →
        turn.buffer = getBuffer (earlier ++ before) turn.sizeHint ∧
          turn.sizeHint + (before.flatMap DeliveryTurn.announced).length = rest.length ∧
          (∀ count contents, turn.updated = some (count, contents) →
            1 ≤ count ∧ count ≤ turn.buffer.contents.length) ∧
          (¬ turn.buffer.Usable → turn.updated = none ∧ after = [] ∧ result.2.isSome) := by
  fun_induction dataReceivedSlowPath getBuffer earlier rest with
  | case1 =>
    refine ⟨fun _ => ⟨rfl, rfl⟩, ?_⟩
    intro before turn after none
    cases before <;> cases none
  | case2 _ _ _ _ _ failed =>
    have unusable := copyToProtocolBuffer_eq_error failed
    refine ⟨fun usable => absurd (usable _ (mem_singleton_self _)) unusable, ?_⟩
    intro before turn after same
    cases before with
    | nil =>
      cases same
      exact ⟨by rw [append_nil], rfl, nofun, fun _ => ⟨rfl, rfl, rfl⟩⟩
    | cons => exact absurd (List.cons.inj same).2.symm (by simp)
  | case3 _ rest left _ count contents copied turn _ _ later ih =>
    obtain ⟨usable, size, -⟩ := copyToProtocolBuffer_eq_ok copied
    have announced : turn.announced = rest.take count := take_of_copied copied
    have positive : 1 ≤ count := by
      have := length_pos_iff.mpr left
      have := length_pos_iff.mpr usable.2.2
      omega
    rw [later] at ih
    obtain ⟨delivers, turnsDeliver⟩ := ih
    constructor
    · intro usable
      obtain ⟨complete, bytes⟩ := delivers fun turn member => usable turn (mem_cons_of_mem _ member)
      refine ⟨complete, ?_⟩
      rw [flatMap_cons, announced, bytes, take_append_drop]
    · intro before next after same
      cases before with
      | nil =>
        cases same
        refine ⟨by rw [append_nil], rfl, ?_, fun unusable => absurd usable unusable⟩
        rintro _ _ ⟨⟩
        exact ⟨positive, by rw [size]; exact Nat.min_le_right _ _⟩
      | cons _ before =>
        obtain ⟨rfl, behind⟩ := List.cons.inj same
        obtain ⟨answer, hint, sizes, unusable⟩ := turnsDeliver before next after behind
        refine ⟨?_, ?_, sizes, unusable⟩
        · rw [answer, append_assoc]
          rfl
        · rw [flatMap_cons, length_append, announced, length_take]
          rw [length_drop] at hint
          omega

/-! ## The same loop in the drain -/

def DeliveryTurn.replies (turn : DeliveryTurn Byte) : List CallbackReply :=
  match turn.updated with
  | none => [.raised]
  | some _ => [.buffer turn.buffer.contents.length, .returned true]

def DeliveryTurn.callbacks (turn : DeliveryTurn Byte) : List (ReadCallback Byte) :=
  .getBuffer turn.sizeHint ::
    match turn.updated with
    | none => []
    | some _ => [.data turn.announced]

/-- A drain in which the protocol answers like this makes these calls, and is
behind the flush or has failed in it. -/
theorem run_stepDrain_of_dataReceivedSlowPath (cfg : ReadConfig)
    (s : ReadState Byte)
    (d : DrainLocals Byte) (after : AfterFlush Byte)
    (earlier : List (DeliveryTurn Byte)) (rest : List Byte) :
    let result := dataReceivedSlowPath getBuffer earlier rest
    ∃ next, run (stepDrain cfg) (s.nextBuffer d rest after)
        (result.1.flatMap DeliveryTurn.replies) = some next ∧
      next.log = s.log ++ result.1.flatMap DeliveryTurn.callbacks ∧
      match result.2 with
      | none => next.drain = .flushed d after ∧ next.failures = s.failures
      | some _ => next.failures = s.failures ++ [.dataReceived] := by
  fun_induction dataReceivedSlowPath getBuffer earlier rest generalizing s with
  | case1 => exact ⟨_, rfl, (append_nil _).symm, by simp [ReadState.nextBuffer], by
      simp [ReadState.nextBuffer]⟩
  | case2 _ rest left _ _ failed =>
    have asks : s.nextBuffer d rest after =
        s.invoke (.getBuffer rest.length) (.gettingBuffer d rest after) := if_neg left
    rw [asks]
    exact ⟨_, rfl, by cases after <;> rfl, by cases after <;> rfl⟩
  | case3 _ rest left buf count contents copied turn turns error later ih =>
    have asks : s.nextBuffer d rest after =
        s.invoke (.getBuffer rest.length) (.gettingBuffer d rest after) := if_neg left
    obtain ⟨⟨-, -, something⟩, size, -⟩ := copyToProtocolBuffer_eq_ok copied
    have fits : min buf.contents.length rest.length = min count rest.length := by omega
    have tells : stepDrain cfg
        (s.invoke (.getBuffer rest.length) (.gettingBuffer d rest after))
        (.buffer buf.contents.length) =
          some ((s.invoke (.getBuffer rest.length) (.gettingBuffer d rest after)).invoke
            (.data turn.announced) (.updating d (rest.drop count) after)) := by
      have announced : turn.announced = rest.take count := take_of_copied copied
      rw [announced, ← take_eq_take_iff.mpr fits, ← drop_eq_drop_iff.mpr fits]
      exact if_neg fun empty => something (length_eq_zero_iff.mp empty)
    rw [later] at ih
    obtain ⟨next, reached, log, outcome⟩ := ih
      ((s.invoke (.getBuffer rest.length) (.gettingBuffer d rest after)).invoke
        (.data turn.announced) (.updating d (rest.drop count) after))
    refine ⟨next, ?_, ?_, outcome⟩
    · rw [asks, flatMap_cons]
      exact run_cons_eq_some.mpr ⟨_, tells, reached⟩
    · rw [log, flatMap_cons]
      simp [ReadState.invoke, DeliveryTurn.callbacks, turn]

end Rsloop.Stream
