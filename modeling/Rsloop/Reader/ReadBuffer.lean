import Mathlib.Data.List.Basic

/-!
# The sliding read buffer

`ReadBuffer` keeps its unread bytes behind an offset. Reading moves the offset,
compaction removes what is before it, and an empty buffer adopts the allocation
of incoming data. All of this is invisible in `unread`, the bytes that a reader
still has to see.
-/

namespace Rsloop.Reader

open List

abbrev Bytes := List UInt8

/-- An allocation, and whether its slot belongs to the pool of a transport -/
structure OwnedReadBuffer where
  bytes : Bytes
  pooled : Bool
  capacity : Nat

namespace OwnedReadBuffer

def withCapacity (capacity : Nat) : OwnedReadBuffer where
  bytes := []
  pooled := false
  capacity := capacity

def fromPooled (bytes : Bytes) (capacity : Nat) : OwnedReadBuffer where
  bytes := bytes
  pooled := true
  capacity := capacity

/-- `Vec::reserve`, with the amortised growth of byte vectors -/
def reserve (buf : OwnedReadBuffer) (additional : Nat) : OwnedReadBuffer :=
  if additional ≤ buf.capacity - buf.bytes.length then
    buf
  else
    { buf with
      capacity := max 8 (max (2 * buf.capacity) (buf.bytes.length + additional)) }

def extendFromSlice (buf : OwnedReadBuffer) (data : Bytes) : OwnedReadBuffer :=
  { buf.reserve data.length with bytes := buf.bytes ++ data }

end OwnedReadBuffer

structure ReadBuffer where
  bytes : OwnedReadBuffer
  start : Nat
  baselineCapacity : Nat
  maxRetainedCapacity : Nat
  start_le : start ≤ bytes.bytes.length

/-- `MAX_STREAM_READ_BUFFER_SIZE` -/
def maxStreamReadBufferSize : Nat := 64 * 1024

namespace ReadBuffer

def withCapacity (capacity : Nat) : ReadBuffer where
  bytes := .withCapacity capacity
  start := 0
  baselineCapacity := capacity
  maxRetainedCapacity := maxStreamReadBufferSize
  start_le := Nat.zero_le _

def len (buf : ReadBuffer) : Nat :=
  buf.bytes.bytes.length - buf.start

def isEmpty (buf : ReadBuffer) : Bool :=
  buf.len = 0

def unread (buf : ReadBuffer) : Bytes :=
  buf.bytes.bytes.drop buf.start

/-- The allocation that a buffer without unread bytes goes on with. The slot of a
producer is released at once. -/
def emptied (buf : ReadBuffer) : OwnedReadBuffer :=
  if buf.bytes.pooled then
    .withCapacity 0
  else if buf.maxRetainedCapacity < buf.bytes.capacity then
    .withCapacity buf.baselineCapacity
  else
    { buf.bytes with bytes := [] }

def compactIfNeeded (buf : ReadBuffer) : ReadBuffer :=
  if buf.start = 0 then
    buf
  else if buf.start = buf.bytes.bytes.length then
    { buf with bytes := buf.emptied, start := 0, start_le := Nat.zero_le _ }
  else if 4096 ≤ buf.start ∧ buf.bytes.bytes.length ≤ buf.start * 2 then
    { buf with
      bytes := { buf.bytes with bytes := buf.unread }
      start := 0
      start_le := Nat.zero_le _ }
  else
    buf

def append (buf : ReadBuffer) (data : Bytes) : ReadBuffer :=
  { buf with
    bytes := buf.bytes.extendFromSlice data
    start_le := by
      change buf.start ≤ (buf.bytes.bytes ++ data).length
      rw [List.length_append]
      exact Nat.le_add_right_of_le buf.start_le }

def extend (buf : ReadBuffer) (data : Bytes) : ReadBuffer :=
  if data = [] then
    buf
  else if buf.bytes.capacity - buf.bytes.bytes.length < data.length then
    buf.compactIfNeeded.append data
  else
    buf.append data

def extendOwned (buf : ReadBuffer) (data : OwnedReadBuffer) : ReadBuffer :=
  if data.bytes = [] then
    buf
  else if buf.isEmpty then
    { buf with bytes := data, start := 0, start_le := Nat.zero_le _ }
  else
    buf.extend data.bytes

def advance (buf : ReadBuffer) (n : Nat) : ReadBuffer :=
  { buf with
    start := min (buf.start + n) buf.bytes.bytes.length
    start_le := Nat.min_le_right _ _ }

def consume (buf : ReadBuffer) (n : Nat) : ReadBuffer :=
  if (buf.advance n).start = buf.bytes.bytes.length then
    (buf.advance n).compactIfNeeded
  else
    buf.advance n

def consumeAll (buf : ReadBuffer) : ReadBuffer :=
  compactIfNeeded { buf with start := buf.bytes.bytes.length, start_le := Nat.le_refl _ }

def prepend (buf : ReadBuffer) (data : Bytes) : ReadBuffer :=
  if data = [] then
    buf
  else
    { buf with
      bytes :=
        { OwnedReadBuffer.withCapacity (data.length + buf.len) with
          bytes := data ++ buf.unread }
      start := 0
      start_le := Nat.zero_le _ }

def replace (buf : ReadBuffer) (data : Bytes) : ReadBuffer :=
  { buf with
    bytes := { buf.bytes with bytes := [] }.extendFromSlice data
    start := 0
    start_le := Nat.zero_le _ }

/-! ## What is unread -/

section

variable (buf : ReadBuffer) {n : Nat}

include buf

theorem length_unread : buf.unread.length = buf.len := by
  unfold unread len
  rw [length_drop]

theorem isEmpty_iff : buf.isEmpty ↔ buf.unread = [] := by
  unfold isEmpty
  rw [decide_eq_true_iff, ← length_unread, length_eq_zero_iff]

theorem bytes_emptied : buf.emptied.bytes = [] := by
  unfold emptied
  split
  · rfl
  · split <;> rfl

@[simp]
theorem unread_compactIfNeeded : buf.compactIfNeeded.unread = buf.unread := by
  unfold compactIfNeeded
  by_cases atStart : buf.start = 0
  · rw [if_pos atStart]
  · rw [if_neg atStart]
    by_cases atEnd : buf.start = buf.bytes.bytes.length
    · rw [if_pos atEnd]
      have drained : buf.unread = [] := by
        unfold unread
        rw [atEnd, drop_length]
      rw [drained]
      exact buf.bytes_emptied
    · rw [if_neg atEnd]
      split <;> rfl

@[simp]
theorem unread_append (data : Bytes) : (buf.append data).unread = buf.unread ++ data := by
  change (buf.bytes.bytes ++ data).drop buf.start = _
  rw [drop_append_of_le_length buf.start_le]
  rfl

@[simp]
theorem unread_extend (data : Bytes) : (buf.extend data).unread = buf.unread ++ data := by
  unfold extend
  by_cases nothing : data = []
  · rw [if_pos nothing, nothing, append_nil]
  · rw [if_neg nothing]
    split
    · rw [unread_append, unread_compactIfNeeded]
    · rw [unread_append]

@[simp]
theorem unread_extendOwned (data : OwnedReadBuffer) :
    (buf.extendOwned data).unread = buf.unread ++ data.bytes := by
  unfold extendOwned
  by_cases nothing : data.bytes = []
  · rw [if_pos nothing, nothing, append_nil]
  · rw [if_neg nothing]
    by_cases empty : buf.isEmpty
    · rw [if_pos empty, buf.isEmpty_iff.mp empty]
      rfl
    · rw [if_neg empty, unread_extend]

theorem unread_advance (n : Nat) : (buf.advance n).unread = buf.unread.drop n := by
  change buf.bytes.bytes.drop (min (buf.start + n) buf.bytes.bytes.length) = _
  unfold unread
  rw [drop_drop]
  by_cases inside : buf.start + n ≤ buf.bytes.bytes.length
  · rw [Nat.min_eq_left inside]
  · have atEnd := Nat.le_of_not_le inside
    rw [Nat.min_eq_right atEnd, drop_length, drop_of_length_le atEnd]

@[simp]
theorem unread_consume (n : Nat) : (buf.consume n).unread = buf.unread.drop n := by
  unfold consume
  split
  · rw [unread_compactIfNeeded, unread_advance]
  · rw [unread_advance]

@[simp]
theorem unread_consumeAll : buf.consumeAll.unread = [] := by
  unfold consumeAll
  rw [unread_compactIfNeeded]
  exact drop_length

@[simp]
theorem unread_prepend (data : Bytes) : (buf.prepend data).unread = data ++ buf.unread := by
  unfold prepend
  by_cases nothing : data = []
  · rw [if_pos nothing, nothing, nil_append]
  · rw [if_neg nothing]
    rfl

@[simp]
theorem unread_replace (data : Bytes) : (buf.replace data).unread = data :=
  drop_zero

/-! ## Where an empty buffer starts -/

theorem start_compactIfNeeded (atEnd : buf.start = buf.bytes.bytes.length) :
    buf.compactIfNeeded.start = 0 := by
  unfold compactIfNeeded
  by_cases atStart : buf.start = 0
  · rwa [if_pos atStart]
  · rw [if_neg atStart, if_pos atEnd]

theorem start_consume (empty : (buf.consume n).isEmpty) :
    (buf.consume n).start = 0 := by
  unfold consume at empty ⊢
  by_cases atEnd : (buf.advance n).start = buf.bytes.bytes.length
  · rw [if_pos atEnd]
    exact (buf.advance n).start_compactIfNeeded atEnd
  · rw [if_neg atEnd] at empty
    have inside : (buf.advance n).start ≤ buf.bytes.bytes.length :=
      (buf.advance n).start_le
    have nothing : buf.bytes.bytes.length - (buf.advance n).start = 0 :=
      of_decide_eq_true empty
    omega

end

inductive Operation where
  | extend (data : Bytes)
  | extendOwned (data : OwnedReadBuffer)
  | consume (n : Nat)
  | consumeAll
  | prepend (data : Bytes)
  | replace (data : Bytes)

def perform (buf : ReadBuffer) : Operation → ReadBuffer
  | .extend data => buf.extend data
  | .extendOwned data => buf.extendOwned data
  | .consume n => buf.consume n
  | .consumeAll => buf.consumeAll
  | .prepend data => buf.prepend data
  | .replace data => buf.replace data

def Operation.onList (bytes : Bytes) : Operation → Bytes
  | .extend data => bytes ++ data
  | .extendOwned data => bytes ++ data.bytes
  | .consume n => bytes.drop (min n bytes.length)
  | .consumeAll => []
  | .prepend data => data ++ bytes
  | .replace data => data

theorem unread_perform (buf : ReadBuffer) (op : Operation) :
    (buf.perform op).unread = op.onList buf.unread := by
  cases op with
  | extend data => exact buf.unread_extend data
  | extendOwned data => exact buf.unread_extendOwned data
  | consume n =>
    refine (buf.unread_consume n).trans ?_
    by_cases inside : n ≤ buf.unread.length
    · rw [Operation.onList, Nat.min_eq_left inside]
    · have beyond := Nat.le_of_not_le inside
      rw [Operation.onList, Nat.min_eq_right beyond, drop_length,
        drop_of_length_le beyond]
  | consumeAll => exact buf.unread_consumeAll
  | prepend data => exact buf.unread_prepend data
  | replace data => exact buf.unread_replace data

/-- A buffer that is empty has forgotten what it has read. -/
def Rewound (buf : ReadBuffer) : Prop :=
  buf.isEmpty → buf.start = 0

variable {buf : ReadBuffer}

theorem rewound_of_append {earlier data : Bytes}
    (unread : buf.unread = earlier ++ data) (some : data ≠ []) :
    buf.Rewound := by
  intro empty
  rw [isEmpty_iff, unread, append_eq_nil_iff] at empty
  exact absurd empty.2 some

theorem Rewound.extend (rewound : buf.Rewound) (data : Bytes) :
    (buf.extend data).Rewound := by
  by_cases nothing : data = []
  · rwa [ReadBuffer.extend, if_pos nothing]
  · exact rewound_of_append (buf.unread_extend data) nothing

theorem Rewound.perform (rewound : buf.Rewound) (op : Operation) :
    (buf.perform op).Rewound := by
  cases op with
  | extend data => exact rewound.extend data
  | extendOwned data =>
    by_cases nothing : data.bytes = []
    · rwa [ReadBuffer.perform, extendOwned, if_pos nothing]
    · exact rewound_of_append (buf.unread_extendOwned data) nothing
  | consume n => exact buf.start_consume
  | consumeAll => exact fun _ => start_compactIfNeeded _ rfl
  | prepend data =>
    by_cases nothing : data = []
    · rwa [ReadBuffer.perform, prepend, if_pos nothing]
    · intro _
      rw [ReadBuffer.perform, prepend, if_neg nothing]
  | replace data => exact fun _ => rfl

theorem rewound_foldl_perform (operations : List Operation)
    (rewound : buf.Rewound) : (operations.foldl perform buf).Rewound := by
  induction operations generalizing buf with
  | nil => exact rewound
  | cons op rest ih =>
    exact ih (rewound.perform op)

theorem unread_foldl_perform (operations : List Operation) (buf : ReadBuffer) :
    (operations.foldl perform buf).unread = operations.foldl Operation.onList buf.unread := by
  induction operations generalizing buf with
  | nil => rfl
  | cons op rest ih =>
    rw [foldl_cons, foldl_cons, ih, unread_perform]

/-- A buffer with any history shows what the same history makes of a plain
list. -/
theorem readBuffer_refines_list (capacity : Nat) (operations : List Operation) :
    let buf := operations.foldl perform (withCapacity capacity)
    buf.unread = operations.foldl Operation.onList [] ∧
      buf.start ≤ buf.bytes.bytes.length ∧
      (buf.isEmpty → buf.start = 0) := by
  intro buf
  refine ⟨unread_foldl_perform operations _, buf.start_le, ?_⟩
  exact rewound_foldl_perform operations fun _ => rfl

end ReadBuffer

/-! ## The accumulator of an exact read -/

/-- The part of the result that is filled, and the size it was allocated with -/
structure ExactReadAccumulator where
  filled : Bytes
  expected : Nat
  filled_le : filled.length ≤ expected

namespace ExactReadAccumulator

def new (expected : Nat) : ExactReadAccumulator where
  filled := []
  expected := expected
  filled_le := Nat.zero_le _

def fillAmount (acc : ExactReadAccumulator) (available : Nat) : Nat :=
  min available (acc.expected - acc.filled.length)

def fillFromSlice (acc : ExactReadAccumulator) (data : Bytes) : ExactReadAccumulator where
  filled := acc.filled ++ data.take (acc.fillAmount data.length)
  expected := acc.expected
  filled_le := by
    have room := acc.filled_le
    unfold fillAmount
    rw [List.length_append, List.length_take]
    omega

/-- `fill_from`: the accumulator and the buffer behind it -/
def fillFrom (acc : ExactReadAccumulator) (buf : ReadBuffer) :
    ExactReadAccumulator × ReadBuffer :=
  (acc.fillFromSlice buf.unread,
    buf.consume (acc.fillAmount buf.unread.length))

theorem filled_fillFrom (acc : ExactReadAccumulator) (buf : ReadBuffer) :
    (acc.fillFrom buf).1.filled ++ (acc.fillFrom buf).2.unread =
      acc.filled ++ buf.unread := by
  unfold fillFrom fillFromSlice
  rw [ReadBuffer.unread_consume, append_assoc, take_append_drop]

theorem unread_fillFrom (acc : ExactReadAccumulator) (buf : ReadBuffer)
    (short : (acc.fillFrom buf).1.filled.length <
      (acc.fillFrom buf).1.expected) :
    (acc.fillFrom buf).2.unread = [] := by
  have all : buf.unread.length ≤ acc.fillAmount buf.unread.length := by
    change (acc.filled ++
      buf.unread.take (acc.fillAmount buf.unread.length)).length <
        acc.expected at short
    rw [length_append, length_take] at short
    unfold fillAmount at short ⊢
    omega
  change (buf.consume (acc.fillAmount buf.unread.length)).unread = []
  rw [ReadBuffer.unread_consume]
  exact drop_of_length_le all

end ExactReadAccumulator

end Rsloop.Reader
