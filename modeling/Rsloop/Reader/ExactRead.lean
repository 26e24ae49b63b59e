import Mathlib.Data.List.Induction
import Rsloop.Reader.ReadBuffer

/-!
# The memory of an exact read

An exact read collects into a `bytes` object that is allocated uninitialised and
written through a raw pointer. The accumulator of the reader's model is a list; here
it is compared with that memory.
-/

namespace Rsloop.Reader

open List

/-- `value` by the writes made to it so far, each a byte and its position. -/
structure ExactMemory where
  writes : List (UInt8 × Nat)
  filled : Nat
  expected : Nat
  deriving DecidableEq

namespace ExactMemory

def new (expected : Nat) : ExactMemory :=
  ⟨[], 0, expected⟩

def exactFillAmount (bufferLen filled expected : Nat) : Nat :=
  min bufferLen (expected - filled)

def fillFromSlice (memory : ExactMemory) (data : Bytes) : ExactMemory :=
  let amount := exactFillAmount data.length memory.filled memory.expected
  if amount = 0 then
    memory
  else
    { memory with
      writes := memory.writes ++ (data.take amount).zipIdx memory.filled
      filled := memory.filled + amount }

/-- What the last write has left at a position, `none` where there was none. -/
def byteAt (memory : ExactMemory) (position : Nat) : Option UInt8 :=
  (memory.writes.reverse.find? fun write => write.2 == position).map Prod.fst

def partialBytes (memory : ExactMemory) : List (Option UInt8) :=
  (List.range memory.filled).map memory.byteAt

def value (memory : ExactMemory) : List (Option UInt8) :=
  (List.range memory.expected).map memory.byteAt

theorem fillFromSlice_eq (memory : ExactMemory) (data : Bytes) :
    memory.fillFromSlice data =
      let amount := exactFillAmount data.length memory.filled memory.expected
      { memory with
        writes := memory.writes ++ (data.take amount).zipIdx memory.filled
        filled := memory.filled + amount } := by
  simp only [fillFromSlice]
  split
  next nothing => simp [nothing]
  · rfl

end ExactMemory

inductive ExactOutcome where
  | waiting
  | handedOut (value : List (Option UInt8))
  | incompleteRead (received : List (Option UInt8)) (expected : Nat)
  | prepended (received : List (Option UInt8))
  deriving DecidableEq

structure ExactWait where
  memory : ExactMemory
  outcome : ExactOutcome
  deriving DecidableEq

inductive ExactCall where
  | fillFrom (buf : ReadBuffer)
  | fillFromSlice (data : Bytes)
  | maybeComplete (eof : Bool)
  | clearCancelled

namespace ExactWait

def new (expected : Nat) : ExactWait :=
  ⟨.new expected, .waiting⟩

def fill (wait : ExactWait) (data : Bytes) : ExactWait :=
  { wait with memory := wait.memory.fillFromSlice data }

/-- The waiter is gone with its first outcome. -/
def perform (wait : ExactWait) (call : ExactCall) : ExactWait :=
  match wait.outcome with
  | .handedOut _ | .incompleteRead _ _ | .prepended _ => wait
  | .waiting =>
    match call with
    | .fillFrom buf => wait.fill buf.unread
    | .fillFromSlice data => wait.fill data
    | .maybeComplete eof =>
      if wait.memory.filled ≥ wait.memory.expected then
        { wait with outcome := .handedOut wait.memory.value }
      else if eof then
        { wait with outcome := .incompleteRead wait.memory.partialBytes wait.memory.expected }
      else
        wait
    | .clearCancelled => { wait with outcome := .prepended wait.memory.partialBytes }

theorem foldl_perform_of_ended {wait : ExactWait}
    (ended : wait.outcome ≠ .waiting)
    (calls : List ExactCall) : calls.foldl perform wait = wait := by
  induction calls with
  | nil => rfl
  | cons call calls ih =>
    have same : wait.perform call = wait := by
      unfold perform
      split
      · rfl
      · rfl
      · rfl
      next waits => exact absurd waits ended
    rw [foldl_cons, same, ih]

end ExactWait

/-- The bytes that an exact read of `n` has been offered when the calls are
made, by the data of the fills before the call that ends it. -/
def offeredBy (n : Nat) (offered : Bytes) : List ExactCall → Bytes
  | [] => offered
  | .fillFrom buf :: calls => offeredBy n (offered ++ buf.unread) calls
  | .fillFromSlice data :: calls => offeredBy n (offered ++ data) calls
  | .maybeComplete eof :: calls =>
    if n ≤ offered.length ∨ eof then offered else offeredBy n offered calls
  | .clearCancelled :: _ => offered

/-! ## The list in the memory -/

/-- The memory holds the accumulated bytes, each written once. -/
structure Represents (memory : ExactMemory) (acc : ExactReadAccumulator) : Prop where
  writes_eq : memory.writes = acc.filled.zipIdx
  filled_eq : memory.filled = acc.filled.length
  expected_eq : memory.expected = acc.expected

namespace Represents

variable {memory : ExactMemory} {acc : ExactReadAccumulator}
  (represents : Represents memory acc)

include represents

theorem fillFromSlice (data : Bytes) :
    Represents (memory.fillFromSlice data) (acc.fillFromSlice data) := by
  have amount : ExactMemory.exactFillAmount data.length memory.filled memory.expected =
      acc.fillAmount data.length := by
    rw [represents.filled_eq, represents.expected_eq]
    rfl
  have copied : acc.fillAmount data.length ≤ data.length := Nat.min_le_left _ _
  rw [ExactMemory.fillFromSlice_eq, amount]
  refine ⟨?_, ?_, represents.expected_eq⟩
  · change memory.writes ++ _ = (acc.filled ++ data.take _).zipIdx
    rw [zipIdx_append, represents.writes_eq, represents.filled_eq, Nat.zero_add]
  · change memory.filled + _ = (acc.filled ++ data.take _).length
    rw [length_append, length_take, represents.filled_eq, Nat.min_eq_left copied]

theorem byteAt_eq (position : Nat) : memory.byteAt position = acc.filled[position]? := by
  unfold ExactMemory.byteAt
  rw [represents.writes_eq]
  generalize acc.filled = bytes
  induction bytes using List.reverseRecOn with
  | nil => rfl
  | append_singleton bytes byte ih =>
    rw [zipIdx_append, reverse_append]
    by_cases last : bytes.length = position
    · subst last
      simp
    · have before : (bytes ++ [byte])[position]? = bytes[position]? := by
        rw [getElem?_append]
        split
        · rfl
        · rw [getElem?_eq_none (by simp; omega), getElem?_eq_none (by omega)]
      rw [before, ← ih]
      simp [last]

theorem map_byteAt_range {length : Nat} (whole : length = acc.filled.length) :
    (List.range length).map memory.byteAt = acc.filled.map some := by
  apply ext_getElem
  · simp [whole]
  · simp [represents.byteAt_eq]

theorem inside (write : UInt8 × Nat) (mem : write ∈ memory.writes) :
    write.2 < acc.expected := by
  rw [represents.writes_eq] at mem
  have position := (mem_zipIdx' mem).1
  exact Nat.lt_of_lt_of_le position acc.filled_le

end Represents

/-! ## Whole reads -/

/-- What the bytes that were handed to Python have to be. -/
def ExactOutcome.Initialised (outcome : ExactOutcome) (memory : ExactMemory) (received : Bytes) :
    Prop :=
  match outcome with
  | .waiting => True
  | .handedOut value => memory.filled = memory.expected ∧ value = received.map some
  | .incompleteRead bytes expected =>
    memory.filled < expected ∧ expected = memory.expected ∧ bytes = received.map some
  | .prepended bytes => bytes = received.map some

/-- A wait that has been offered these bytes. -/
structure Accumulates (wait : ExactWait) (offered : Bytes)
    (acc : ExactReadAccumulator) : Prop where
  represents : Represents wait.memory acc
  collected : acc.filled = offered.take acc.expected
  outcome : wait.outcome.Initialised wait.memory acc.filled

section

variable {wait : ExactWait} {offered : Bytes} {acc : ExactReadAccumulator}
  (accumulates : Accumulates wait offered acc)

include accumulates

theorem Accumulates.fill (waits : wait.outcome = .waiting) (data : Bytes) :
    Accumulates (wait.fill data) (offered ++ data) (acc.fillFromSlice data) := by
  refine ⟨accumulates.represents.fillFromSlice data, ?_, ?_⟩
  · change acc.filled ++ data.take (min data.length _) =
      (offered ++ data).take acc.expected
    rw [take_append, Nat.min_comm, ← take_eq_take_min, accumulates.collected,
      length_take]
    exact congrArg (_ ++ data.take ·) (by omega)
  · simp [ExactWait.fill, waits, ExactOutcome.Initialised]

theorem Accumulates.filled_eq : wait.memory.filled = min acc.expected offered.length := by
  rw [accumulates.represents.filled_eq, accumulates.collected, length_take]

theorem Accumulates.foldl_perform (waits : wait.outcome = .waiting)
    (calls : List ExactCall) :
    ∃ next, next.expected = acc.expected ∧
      Accumulates (calls.foldl ExactWait.perform wait)
        (offeredBy acc.expected offered calls) next := by
  induction calls generalizing wait offered acc with
  | nil => exact ⟨acc, rfl, accumulates⟩
  | cons call calls ih =>
    have ⟨represents, collected, _⟩ := accumulates
    rw [foldl_cons]
    simp only [ExactWait.perform, waits]
    cases call with
    | fillFrom buf =>
      have later := ih (accumulates.fill waits buf.unread) waits
      exact later
    | fillFromSlice data =>
      have later := ih (accumulates.fill waits data) waits
      exact later
    | maybeComplete eof =>
      have reached : wait.memory.filled ≥ wait.memory.expected ↔
          acc.expected ≤ offered.length := by
        rw [accumulates.filled_eq, represents.expected_eq]
        omega
      unfold offeredBy
      dsimp only
      split
      next full =>
        rw [ExactWait.foldl_perform_of_ended (by simp), if_pos (.inl (reached.mp full))]
        have all : wait.memory.filled = wait.memory.expected := by
          rw [accumulates.filled_eq, represents.expected_eq]
          exact Nat.min_eq_left (reached.mp full)
        exact ⟨acc, rfl, represents, collected, all,
          represents.map_byteAt_range (all.symm.trans represents.filled_eq)⟩
      next short =>
        split
        next atEof =>
          rw [ExactWait.foldl_perform_of_ended (by simp), if_pos (.inr atEof)]
          exact ⟨acc, rfl, represents, collected, Nat.lt_of_not_le short, rfl,
            represents.map_byteAt_range represents.filled_eq⟩
        next notEof =>
          rw [if_neg (not_or.mpr ⟨mt reached.mpr short, notEof⟩)]
          exact ih accumulates waits
    | clearCancelled =>
      rw [ExactWait.foldl_perform_of_ended (by simp)]
      exact ⟨acc, rfl, represents, collected,
        represents.map_byteAt_range represents.filled_eq⟩

end

/-- Whatever calls are made: the object receives the bytes that the fills offer,
each once and in order, until it is full, and Python is given no byte of it that
was not written. -/
theorem exactMemory_initialised (n : Nat) (calls : List ExactCall) :
    let wait := calls.foldl ExactWait.perform (.new n)
    let offered := offeredBy n [] calls
    (∀ write ∈ wait.memory.writes, write.2 < n) ∧
      wait.memory.writes = (offered.take n).zipIdx ∧
      wait.memory.filled = min n offered.length ∧
      wait.memory.partialBytes = (offered.take n).map some ∧
      wait.outcome.Initialised wait.memory (offered.take n) := by
  have started : Accumulates (.new n) [] (.new n) := ⟨⟨rfl, rfl, rfl⟩, take_nil.symm, trivial⟩
  obtain ⟨acc, expected, accumulates⟩ := started.foldl_perform rfl calls
  obtain rfl : acc.expected = n := expected
  obtain ⟨represents, collected, initialised⟩ := accumulates
  intro wait offered
  have filled : acc.filled = offered.take acc.expected := collected
  rw [← length_take, ← filled]
  exact ⟨represents.inside, represents.writes_eq, represents.filled_eq,
    represents.map_byteAt_range represents.filled_eq, initialised⟩

end Rsloop.Reader
