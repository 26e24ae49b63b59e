import Mathlib.Algebra.Order.Ring.Nat
import Mathlib.Data.List.Basic

/-!
# Write buffers, the writer queue and the write accounting

The data a stream transport moves its outgoing bytes in: one owned buffer with
its unsent suffix, the queue of writer commands between the loop thread and
the writer worker, and the byte count that turns into flow-control signals.
The code never looks at the value of a byte, so the type of bytes is left open.
-/

namespace Rsloop.Stream

open List

/-! ## Tuning -/

def defaultWriteBufferHighWater : Nat := 64 * 1024

def defaultWriteBufferLowWater : Nat := defaultWriteBufferHighWater / 4

def defaultMaxWriteBufferSize : Nat := 64 * 1024 * 1024

def streamReadBufferSize : Nat := 16 * 1024

def smallWriteCoalesceMinBytes : Nat := 64

def smallWriteCoalesceMaxBytes : Nat := streamReadBufferSize

/-- The size of the stack-allocated segment batch, at least what POSIX
guarantees for scatter/gather writes. -/
def writeBatchSegments : Nat := 16

def isWriteBatchCandidate (len : Nat) : Bool :=
  decide (len > smallWriteCoalesceMinBytes) && decide (len ≤ smallWriteCoalesceMaxBytes)

/-! ## Owned write buffers -/

/-- Bytes still owned by the transport. The storage is either a Python bytes
object or private memory; `offset` bytes of it have been written already. -/
structure OwnedWriteBuffer (Byte : Type) where
  bytes : List Byte
  pythonBytes : Option (List Byte)
  offset : Nat
  oneStorage : pythonBytes.isSome → bytes = []
  validOffset : offset ≤ (pythonBytes.getD bytes).length
  deriving DecidableEq

namespace OwnedWriteBuffer

variable {Byte : Type}

/-- The unsent suffix of the storage. -/
def remaining (buf : OwnedWriteBuffer Byte) : List Byte :=
  (buf.pythonBytes.getD buf.bytes).drop buf.offset

def len (buf : OwnedWriteBuffer Byte) : Nat :=
  buf.remaining.length

def isEmpty (buf : OwnedWriteBuffer Byte) : Bool :=
  buf.remaining.isEmpty

def fromPython (data : List Byte) : OwnedWriteBuffer Byte where
  bytes := []
  pythonBytes := some data
  offset := 0
  oneStorage _ := rfl
  validOffset := Nat.zero_le _

/-- An empty private buffer taken from the transport's pool. -/
def withPooledCapacity : OwnedWriteBuffer Byte where
  bytes := []
  pythonBytes := none
  offset := 0
  oneStorage _ := rfl
  validOffset := Nat.zero_le _

/-- Appending turns a Python-backed buffer into private storage that holds its
unsent suffix. The pooled variant of the source differs only in where the
private storage comes from. -/
def extendFromSlice (buf : OwnedWriteBuffer Byte) (data : List Byte) : OwnedWriteBuffer Byte :=
  match buf with
  | ⟨bytes, some python, offset, _, _⟩ =>
    { bytes := bytes ++ python.drop offset ++ data
      pythonBytes := none
      offset := 0
      oneStorage := fun impossible => by simp at impossible
      validOffset := Nat.zero_le _ }
  | ⟨bytes, none, offset, _, valid⟩ =>
    { bytes := bytes ++ data
      pythonBytes := none
      offset := offset
      oneStorage := fun impossible => by simp at impossible
      validOffset := by
        simp only [Option.getD_none, List.length_append] at valid ⊢
        omega }

def canAppend (offset currentLen incomingLen : Nat) : Bool :=
  decide (offset = 0) && decide (currentLen ≤ defaultWriteBufferHighWater) &&
    decide (incomingLen ≤ defaultWriteBufferHighWater - currentLen)

/-- `none` is the source's `false`: the buffer is left as it was. -/
def tryAppend (buf : OwnedWriteBuffer Byte) (data : List Byte) :
    Option (OwnedWriteBuffer Byte) :=
  if canAppend buf.offset buf.len data.length then
    some (buf.extendFromSlice data)
  else
    none

/-- Account for `written` bytes that the socket has taken. -/
def advance (buf : OwnedWriteBuffer Byte) (written : Nat)
    (accepted : written ≤ buf.len) : OwnedWriteBuffer Byte :=
  { buf with
    offset := buf.offset + written
    validOffset := by
      have valid := buf.validOffset
      simp only [len, remaining, List.length_drop] at accepted
      omega }

@[simp]
theorem remaining_fromPython (data : List Byte) : (fromPython data).remaining = data := rfl

@[simp]
theorem remaining_withPooledCapacity :
    (withPooledCapacity : OwnedWriteBuffer Byte).remaining = [] := rfl

@[simp]
theorem remaining_extendFromSlice (buf : OwnedWriteBuffer Byte)
    (data : List Byte) :
    (buf.extendFromSlice data).remaining = buf.remaining ++ data := by
  obtain ⟨bytes, python, offset, single, valid⟩ := buf
  cases python with
  | some stored =>
    have noPrivate : bytes = [] := single rfl
    simp [extendFromSlice, remaining, noPrivate]
  | none =>
    simp only [Option.getD_none] at valid
    simp [extendFromSlice, remaining, drop_append_of_le_length valid]

@[simp]
theorem remaining_advance (buf : OwnedWriteBuffer Byte) (written : Nat)
    (accepted : written ≤ buf.len) :
    (buf.advance written accepted).remaining = buf.remaining.drop written := by
  simp [advance, remaining, drop_drop]

section

variable {buf joined : OwnedWriteBuffer Byte} {data : List Byte}
  (appended : buf.tryAppend data = some joined)

include appended

theorem remaining_of_tryAppend : joined.remaining = buf.remaining ++ data := by
  unfold tryAppend at appended
  split_ifs at appended
  cases appended
  exact remaining_extendFromSlice buf data

theorem len_le_of_tryAppend : joined.len ≤ defaultWriteBufferHighWater := by
  have bytes := remaining_of_tryAppend appended
  unfold tryAppend at appended
  split_ifs at appended
  next fits =>
    simp only [canAppend, Bool.and_eq_true, decide_eq_true_eq] at fits
    have total : joined.len = buf.len + data.length := by
      simp only [len, bytes, length_append]
    omega

end

end OwnedWriteBuffer

/-! ## The writer queue -/

inductive WriterCommand (Byte : Type) where
  | data (buf : OwnedWriteBuffer Byte)
  | writeEof
  | close
  | abort
  | stop
  deriving DecidableEq

/-- The state behind the lock of the writer channel. -/
structure QueueState (Byte : Type) where
  commands : List (WriterCommand Byte)
  receiverAlive : Bool
  deriving DecidableEq

variable {Byte : Type}

def WriterCommand.isData : WriterCommand Byte → Bool
  | .data _ => true
  | _ => false

def WriterCommand.payload : WriterCommand Byte → List Byte
  | .data buf => buf.remaining
  | _ => []

/-- The bytes carried by a list of commands, in queue order. -/
def payloads (cmds : List (WriterCommand Byte)) : List Byte :=
  cmds.flatMap WriterCommand.payload

def QueueState.new : QueueState Byte where
  commands := []
  receiverAlive := true

/-- `none` hands the command back: the receiver is gone. A data command joins
the last queued one where their sizes allow it. -/
def QueueState.enqueue (queue : QueueState Byte) (cmd : WriterCommand Byte) :
    Option (QueueState Byte) :=
  if queue.receiverAlive then
    match cmd, queue.commands.getLast? with
    | .data incoming, some (.data pending) =>
      match pending.tryAppend incoming.remaining with
      | some joined => some { queue with commands := queue.commands.dropLast ++ [.data joined] }
      | none => some { queue with commands := queue.commands ++ [cmd] }
    | _, _ => some { queue with commands := queue.commands ++ [cmd] }
  else
    none

/-- Publish all buffers of one large write at once, without joining them. -/
def QueueState.sendBatch (queue : QueueState Byte) (buffers : List (OwnedWriteBuffer Byte)) :
    Option (QueueState Byte) :=
  if queue.receiverAlive then
    some { queue with commands := queue.commands ++ buffers.map WriterCommand.data }
  else
    none

/-- `none` is the `Empty` answer; the transport that owns the sender outlives
the worker, so the queue is never disconnected from that side. -/
def QueueState.tryDequeue (queue : QueueState Byte) :
    Option (WriterCommand Byte × QueueState Byte) :=
  match queue.commands with
  | [] => none
  | cmd :: rest => some (cmd, { queue with commands := rest })

@[simp]
theorem payloads_nil : payloads ([] : List (WriterCommand Byte)) = [] := rfl

@[simp]
theorem payloads_cons (cmd : WriterCommand Byte)
    (rest : List (WriterCommand Byte)) :
    payloads (cmd :: rest) = cmd.payload ++ payloads rest := rfl

@[simp]
theorem payloads_append (earlier later : List (WriterCommand Byte)) :
    payloads (earlier ++ later) = payloads earlier ++ payloads later := by
  simp [payloads]

@[simp]
theorem payloads_map_data (buffers : List (OwnedWriteBuffer Byte)) :
    payloads (buffers.map WriterCommand.data) = buffers.flatMap OwnedWriteBuffer.remaining := by
  simp [payloads, flatMap_map, WriterCommand.payload]

variable {queue next : QueueState Byte}

section

variable {cmd : WriterCommand Byte} (sent : queue.enqueue cmd = some next)

include sent

/-- What an accepted command does to the queue: it is appended, or its bytes
are appended to the data command at the end. -/
theorem QueueState.enqueue_cases :
    queue.receiverAlive ∧ (next = { queue with commands := queue.commands ++ [cmd] } ∨
        ∃ earlier pending incoming joined, cmd = .data incoming ∧
          queue.commands = earlier ++ [.data pending] ∧
          joined.remaining = pending.remaining ++ incoming.remaining ∧
          joined.len ≤ defaultWriteBufferHighWater ∧
          next = { queue with commands := earlier ++ [.data joined] }) := by
  unfold enqueue at sent
  split_ifs at sent with alive
  refine ⟨alive, ?_⟩
  split at sent
  next incoming pending last =>
    cases appended : pending.tryAppend incoming.remaining with
    | none =>
      rw [appended] at sent
      exact .inl (Option.some.inj sent).symm
    | some joined =>
      rw [appended] at sent
      refine .inr ⟨queue.commands.dropLast, pending, incoming, joined,
        rfl, ?_, OwnedWriteBuffer.remaining_of_tryAppend appended,
        OwnedWriteBuffer.len_le_of_tryAppend appended,
        (Option.some.inj sent).symm⟩
      exact (dropLast_append_getLast? _ last).symm
  next => exact .inl (Option.some.inj sent).symm

theorem QueueState.payloads_enqueue :
    payloads next.commands = payloads queue.commands ++ cmd.payload := by
  obtain ⟨-, rfl | ⟨earlier, pending, incoming, joined, rfl, equal, bytes, -, rfl⟩⟩ :=
    enqueue_cases sent
  · simp
  · simp [equal, WriterCommand.payload, bytes]

end

theorem QueueState.payloads_sendBatch {buffers : List (OwnedWriteBuffer Byte)}
    (sent : queue.sendBatch buffers = some next) :
    payloads next.commands = payloads queue.commands ++
        buffers.flatMap OwnedWriteBuffer.remaining := by
  unfold sendBatch at sent
  split_ifs at sent
  cases sent
  simp

/-! ## Write accounting -/

/-- The byte count of a transport and the decision it last announced. -/
structure StreamWriteBufferState where
  size : Nat
  highWater : Nat
  lowWater : Nat
  protocolPaused : Bool
  deriving DecidableEq, Repr

inductive WriteBufferSignal where
  | none
  | pause
  | resume
  deriving DecidableEq, Repr

namespace StreamWriteBufferState

def new : StreamWriteBufferState where
  size := 0
  highWater := defaultWriteBufferHighWater
  lowWater := defaultWriteBufferLowWater
  protocolPaused := false

/-- `none` rejects the write: it would exceed the hard cap. -/
def enqueueWriteBuffer (s : StreamWriteBufferState) (len cap : Nat) :
    Option (StreamWriteBufferState × WriteBufferSignal) :=
  if len = 0 then
    some (s, .none)
  else if len > cap - s.size then
    Option.none
  else if s.size + len > s.highWater ∧ s.protocolPaused = false then
    some ({ s with size := s.size + len, protocolPaused := true }, .pause)
  else
    some ({ s with size := s.size + len }, .none)

def drainWriteBuffer (s : StreamWriteBufferState) (len : Nat) :
    StreamWriteBufferState × WriteBufferSignal :=
  if s.protocolPaused ∧ s.size - len ≤ s.lowWater then
    ({ s with size := s.size - len, protocolPaused := false }, .resume)
  else
    ({ s with size := s.size - len }, .none)

def clearWriteBufferState (s : StreamWriteBufferState) (resumeProtocol : Bool) :
    StreamWriteBufferState × WriteBufferSignal :=
  ({ s with size := 0, protocolPaused := false },
    if resumeProtocol && s.protocolPaused then .resume else .none)

def reconcileWriteBufferLimits (s : StreamWriteBufferState) (lowWater highWater : Nat) :
    StreamWriteBufferState × WriteBufferSignal :=
  if s.size > highWater ∧ s.protocolPaused = false then
    ({ s with lowWater, highWater, protocolPaused := true }, .pause)
  else if s.protocolPaused ∧ s.size ≤ lowWater then
    ({ s with lowWater, highWater, protocolPaused := false }, .resume)
  else
    ({ s with lowWater, highWater }, .none)

/-- The limits asked for, low before high; `none` where they are not ordered or
the derived high-water mark does not fit a 64-bit `usize`. -/
def normalizeWriteBufferLimits (high low : Option Nat) : Option (Nat × Nat) :=
  let resolved : Option Nat :=
    match high, low with
    | some high, _ => some high
    | none, some low => if low * 4 < 2 ^ 64 then some (low * 4) else none
    | none, none => some defaultWriteBufferHighWater
  resolved.bind fun high =>
    let low := low.getD (high / 4)
    if high ≥ low then some (low, high) else none

/-- A signal is given exactly when the announced decision changes. -/
def Announces (before after : Bool) : WriteBufferSignal → Prop
  | .none => after = before
  | .pause => before = false ∧ after
  | .resume => before ∧ after = false

theorem enqueueWriteBuffer_announces
    {s next : StreamWriteBufferState} {signal : WriteBufferSignal}
    {len cap : Nat}
    (accepted : s.enqueueWriteBuffer len cap = some (next, signal)) :
    Announces s.protocolPaused next.protocolPaused signal ∧ signal ≠ .resume := by
  unfold enqueueWriteBuffer at accepted
  split at accepted
  · cases accepted
    exact ⟨rfl, by simp⟩
  · split at accepted
    · cases accepted
    · split at accepted
      next crossed =>
        cases accepted
        exact ⟨⟨crossed.2, rfl⟩, by simp⟩
      next =>
        cases accepted
        exact ⟨rfl, by simp⟩

theorem drainWriteBuffer_announces (s : StreamWriteBufferState) (len : Nat) :
    Announces s.protocolPaused (s.drainWriteBuffer len).1.protocolPaused
        (s.drainWriteBuffer len).2 ∧
      (s.drainWriteBuffer len).2 ≠ .pause := by
  unfold drainWriteBuffer
  split
  next crossed => exact ⟨⟨crossed.1, rfl⟩, by simp⟩
  next => exact ⟨rfl, by simp⟩

theorem reconcileWriteBufferLimits_announces
    (s : StreamWriteBufferState) (lowWater highWater : Nat) :
    Announces s.protocolPaused
      (s.reconcileWriteBufferLimits lowWater highWater).1.protocolPaused
      (s.reconcileWriteBufferLimits lowWater highWater).2 := by
  unfold reconcileWriteBufferLimits
  split
  next crossed => exact ⟨crossed.2, rfl⟩
  next =>
    split
    next crossed => exact ⟨crossed.1, rfl⟩
    next => rfl

end StreamWriteBufferState

end Rsloop.Stream
