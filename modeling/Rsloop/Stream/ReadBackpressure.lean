import Rsloop.Reader.ReadBuffer
import Rsloop.Stream.ReadDelivery

/-!
# Read backpressure

Readers count the bytes they queue and stop reading at the high-water mark; the
drain counts them off and lets reading go on at the low-water mark. The counter
is read before the lock is taken, and `resume_reading` and the drain store the
atomic copy of `reading` after they have released it. Data is read into buffers
of a pool, and a buffer goes with its event: the pool has so few of them that
the high-water mark is never reached.
-/

namespace Rsloop.Stream

open Transition List
open Rsloop.Reader (maxStreamReadBufferSize)

/-! ## The pool of read buffers -/

def readBufferPoolLimit : Nat := 4

/-- A buffer is its capacity; the last one released comes first. -/
structure ReadBufferPool where
  buffers : List Nat
  allocated : Nat
  deriving DecidableEq

/-- `Vec::reserve` on an empty buffer at least doubles what it has to extend. -/
def reserveCapacity (held capacity : Nat) : Nat :=
  if held < capacity then max (2 * held) capacity else held

def ReadBufferPool.tryAcquire (pool : ReadBufferPool) (capacity : Nat) :
    Option (Nat × ReadBufferPool) :=
  match pool.buffers with
  | held :: rest => some (reserveCapacity held capacity, { pool with buffers := rest })
  | [] =>
    if pool.allocated < readBufferPoolLimit then
      some (capacity, { pool with allocated := pool.allocated + 1 })
    else
      none

def ReadBufferPool.release (pool : ReadBufferPool) (capacity : Nat) : ReadBufferPool :=
  if capacity ≤ maxStreamReadBufferSize ∧ pool.buffers.length < readBufferPoolLimit then
    { pool with buffers := capacity :: pool.buffers }
  else
    { pool with allocated := pool.allocated - 1 }

def nextReadCapacityFor (len allocatedCapacity : Nat) : Nat :=
  let capacity := max allocatedCapacity streamReadBufferSize
  if len = capacity ∧ capacity < maxStreamReadBufferSize then
    min (capacity * 2) maxStreamReadBufferSize
  else if capacity > streamReadBufferSize ∧ len < capacity / 4 then
    max (capacity / 2) streamReadBufferSize
  else
    capacity

/-! ## Reading into its buffers -/

variable {Byte : Type}

def PendingReadEvent.isData : PendingReadEvent Byte → Bool
  | .data _ => true
  | _ => false

/-- The events whose bytes are counted: those of the drain and those behind it. -/
def ReadState.queued (s : ReadState Byte) : List (PendingReadEvent Byte) :=
  s.readEventDrain ++ s.pendingReadEvents

structure PooledRead (Byte : Type) where
  transport : ReadState Byte
  pool : ReadBufferPool
  /-- The buffer the reader holds, and the capacity it will ask for next. -/
  buffer : Option Nat
  nextCapacity : Nat
  deriving DecidableEq

def PooledRead.new (cfg : ReadConfig) : PooledRead Byte where
  transport := .new cfg
  pool := ⟨[], 0⟩
  buffer := none
  nextCapacity := streamReadBufferSize

/-- The buffers that are known to be somewhere: in the pool, with the reader, or
in a queued event. -/
def PooledRead.placed (s : PooledRead Byte) : Nat :=
  s.pool.buffers.length + s.buffer.toList.length +
    s.transport.queued.countP PendingReadEvent.isData

/-- `release` is the end of a buffer whose event has left the queue or was
refused by the gate. A stream reader that kept it may have let it grow. -/
inductive PooledAction (Byte : Type) where
  | read (action : ReadAction Byte)
  | release (capacity : Nat)
  deriving DecidableEq

/-- The reader waits for a buffer wherever it goes on without one, reads no more
than its buffer takes, and gives the buffer away with the data; nobody else
queues data. The reader of a task adapts the capacity, the others do not. -/
def pooledStep (cfg : ReadConfig) (adaptive : Bool) (s : PooledRead Byte) :
    PooledAction Byte → Option (PooledRead Byte)
  | .release capacity =>
    if s.placed < s.pool.allocated then
      some { s with pool := s.pool.release capacity }
    else
      none
  | .read action =>
    let move (s : PooledRead Byte) :=
      (readStep cfg s.transport action).map fun next => { s with transport := next }
    match action, s.transport.reader, s.buffer with
    | .enqueue (.data _), _, _ => none
    | .reader _, .acquire, none | .reader _, .next, none =>
      if s.transport.closing then
        move s
      else
        (s.pool.tryAcquire s.nextCapacity).bind fun acquired =>
          move { s with pool := acquired.2, buffer := some acquired.1 }
    | .reader (.data bytes), .reading, some capacity =>
      if bytes.length ≤ capacity then
        move { s with
          buffer := none
          nextCapacity :=
            if adaptive then nextReadCapacityFor bytes.length capacity
            else streamReadBufferSize }
      else
        none
    | .reader (.data _), .reading, none => none
    | _, _, _ => move s

/-! ## What waits is counted against the buffers -/

/-- No buffer takes more, whatever is released and reserved. -/
def maxCapacity : Nat := 2 * maxStreamReadBufferSize

/-- Every queued data event holds a buffer of the pool. -/
structure Pooled (s : PooledRead Byte) : Prop where
  slots : s.pool.allocated ≤ readBufferPoolLimit
  placed : s.placed ≤ s.pool.allocated
  retained : ∀ capacity ∈ s.pool.buffers, capacity ≤ maxStreamReadBufferSize
  buffer : ∀ capacity ∈ s.buffer, capacity ≤ maxCapacity
  asked : s.nextCapacity ≤ maxCapacity
  counted : s.transport.pendingReadBytes = dataLength s.transport.queued
  small : ∀ event ∈ s.transport.queued, event.dataLen ≤ maxCapacity

/-- Nothing is or will be backpressured, and on an open transport the copy of
`reading`, or the value about to be stored, says whether the user has paused. -/
structure Mirrors (s : ReadState Byte) : Prop where
  calm : s.readBackpressured = false
  phases : ∀ tail ∈ s.tails, tail.phase ≠ .apply
  stores : ∀ d data value, s.drain ≠ .storeReading d data value
  mirror : s.closing = false → s.resuming.getD s.reading = !s.readPaused

theorem dataLength_le {events : List (PendingReadEvent Byte)} {bound : Nat}
    (small : ∀ event ∈ events, event.dataLen ≤ bound) :
    dataLength events ≤ bound * events.countP PendingReadEvent.isData := by
  induction events with
  | nil => exact Nat.zero_le _
  | cons event rest ih =>
    obtain ⟨first, later⟩ := forall_mem_cons.mp small
    have tail := ih later
    cases event with
    | data bytes =>
      rw [countP_cons_of_pos rfl, Nat.mul_succ, Nat.add_comm]
      exact Nat.add_le_add first tail
    | _ =>
      rw [countP_cons_of_neg (by simp [PendingReadEvent.isData])]
      exact (Nat.zero_add _).le.trans tail

/-- The whole pool holds less than the high-water mark. -/
theorem Pooled.pendingReadBytes_lt {s : PooledRead Byte} (pooled : Pooled s) :
    s.transport.pendingReadBytes < pendingReadHighWater := by
  have waiting := dataLength_le pooled.small
  have placed := pooled.placed
  have slots := pooled.slots
  unfold PooledRead.placed at placed
  rw [← pooled.counted] at waiting
  have few : s.transport.queued.countP PendingReadEvent.isData ≤ readBufferPoolLimit := by omega
  have most := waiting.trans (Nat.mul_le_mul_left maxCapacity few)
  exact most.trans_lt (by decide)

/-- What a step does to the queued events and to their count of bytes. -/
inductive QueueMove (s : ReadState Byte) (action : ReadAction Byte)
    (next : ReadState Byte) : Prop
  | kept (events : next.queued.Perm s.queued)
      (bytes : next.pendingReadBytes = s.pendingReadBytes)
  | popped (event) (events : s.queued = event :: next.queued)
      (bytes : next.pendingReadBytes = s.pendingReadBytes - event.dataLen)
  | added {event} (events : next.queued = s.queued ++ [event])
      (bytes : next.pendingReadBytes = s.pendingReadBytes + event.dataLen)
      (own : ∀ bytes, event = .data bytes → action = .enqueue event ∨
        action = .reader (.data bytes) ∧ s.reader = .reading)

variable {cfg : ReadConfig} {adaptive : Bool} {s next : ReadState Byte}
  {action : ReadAction Byte}

theorem queueMove_of_enqueue (event : PendingReadEvent Byte) (fromReader : Bool)
    (reader : Reader)
    (own : ∀ bytes, event = .data bytes → action = .enqueue event ∨
      action = .reader (.data bytes) ∧ s.reader = .reading) :
    QueueMove s action { s.enqueuePendingReadEvent event fromReader with reader := reader } := by
  unfold ReadState.enqueuePendingReadEvent
  split
  · exact .kept (.refl _) rfl
  · exact .added (append_assoc _ _ _).symm rfl own

theorem queueMove_of_stepReader {reply : ReaderReply Byte}
    (moved : stepReader s reply = some next) : QueueMove s (.reader reply) next := by
  unfold stepReader at moved
  split at moved
  · cases moved
    exact .kept (.refl _) rfl
  · split_ifs at moved
    · cases moved
      exact queueMove_of_enqueue _ _ _ nofun
    · cases moved
      exact .kept (.refl _) rfl
  next reading =>
    split at moved
    · split_ifs at moved
      cases moved
      refine queueMove_of_enqueue _ true _ fun bytes same => .inr ⟨?_, reading⟩
      cases same
      rfl
    · cases moved
      exact queueMove_of_enqueue _ _ _ nofun
    · cases moved
      exact .kept (.refl _) rfl
    · cases moved
      exact queueMove_of_enqueue _ _ _ nofun
  · repeat' split at moved
    all_goals
      cases moved
      exact .kept (.refl _) rfl
  · cases moved
  · cases moved

theorem queueMove_of_drainStep {reply : CallbackReply}
    (drained : DrainStep s reply next) :
    QueueMove s action next := by
  cases drained with
  | swap => exact .kept perm_append_comm rfl
  | popData _ drained =>
    refine .popped (.data _) ?_ rfl
    rw [ReadState.queued, drained]
    rfl
  | @popEvent _ event _ _ _ drained behind =>
    have uncounted : event.dataLen = 0 := by cases behind <;> rfl
    refine .popped event ?_ (by rw [uncounted]; rfl)
    rw [ReadState.queued, drained]
    rfl
  | _ => exact .kept (.refl _) rfl

theorem queueMove_of_readStep (moved : readStep cfg s action = some next) :
    QueueMove s action next := by
  cases readMove_of_readStep moved with
  | enqueue event => exact queueMove_of_enqueue event _ _ fun _ _ => .inl rfl
  | producer moves =>
    rw [moves.keeps]
    exact .kept (.refl _) rfl
  | reader moved => exact queueMove_of_stepReader moved
  | drain moved => exact queueMove_of_drainStep (drainStep_of_stepDrain moved)
  | _ => exact .kept (.refl _) rfl

/-! ## The pool keeps its count -/

theorem nextReadCapacityFor_le {len capacity : Nat}
    (small : capacity ≤ maxCapacity) :
    nextReadCapacityFor len capacity ≤ maxCapacity := by
  unfold nextReadCapacityFor
  dsimp only
  split_ifs
  all_goals
    simp only [maxCapacity, maxStreamReadBufferSize, streamReadBufferSize] at *
    omega

section

variable {s : PooledRead Byte} (pooled : Pooled s)

include pooled

/-- Data is added only for a buffer that is nowhere else. -/
theorem Pooled.move (moved : QueueMove s.transport action next)
    (lent : ∀ bytes, action = .enqueue (.data bytes) ∨
        action = .reader (.data bytes) ∧ s.transport.reader = .reading →
      s.placed < s.pool.allocated ∧ bytes.length ≤ maxCapacity) :
    Pooled { s with transport := next } := by
  have unchanged (fewer : next.queued.countP PendingReadEvent.isData ≤
      s.transport.queued.countP PendingReadEvent.isData) :
      PooledRead.placed { s with transport := next } ≤ s.pool.allocated :=
    (Nat.add_le_add_left fewer _).trans pooled.placed
  cases moved with
  | kept events bytes =>
    refine { pooled with placed := unchanged (events.countP_eq _).le, counted := ?_, small := ?_ }
    · exact bytes.trans (pooled.counted.trans (events.map _).sum_nat.symm)
    · exact fun event queued => pooled.small event (events.mem_iff.mp queued)
  | popped _ events bytes =>
    refine { pooled with placed := unchanged ?_, counted := ?_, small := fun event queued => ?_ }
    · rw [events]
      exact (sublist_cons_self _ _).countP_le
    · have counted := pooled.counted
      rw [events] at counted
      exact bytes.trans (counted ▸ Nat.add_sub_cancel_left ..)
    · exact pooled.small event (events ▸ mem_cons_of_mem _ queued)
  | @added event events bytes own =>
    have fits : PooledRead.placed { s with transport := next } ≤ s.pool.allocated ∧
        event.dataLen ≤ maxCapacity := by
      cases event with
      | data data =>
        obtain ⟨free, small⟩ := lent data (own data rfl)
        refine ⟨?_, small⟩
        simp only [PooledRead.placed, events, countP_append] at free ⊢
        exact free
      | _ => exact ⟨unchanged (by simp [events, PendingReadEvent.isData]), Nat.zero_le _⟩
    refine { pooled with placed := fits.1, counted := ?_, small := ?_ }
    · simp [bytes, events, pooled.counted, dataLength]
    · rw [events, forall_mem_append, forall_mem_singleton]
      exact ⟨pooled.small, fits.2⟩

theorem Pooled.acquire {acquired : Nat × ReadBufferPool}
    (without : s.buffer = none)
    (given : s.pool.tryAcquire s.nextCapacity = some acquired) :
    Pooled { s with pool := acquired.2, buffer := some acquired.1 } := by
  have slots := pooled.slots
  have placed := pooled.placed
  have asked := pooled.asked
  unfold PooledRead.placed at placed
  unfold ReadBufferPool.tryAcquire at given
  split at given
  next held rest buffers =>
    cases given
    obtain ⟨first, later⟩ := forall_mem_cons.mp (buffers ▸ pooled.retained)
    refine { pooled with placed := ?_, retained := later, buffer := ?_ }
    · simp only [PooledRead.placed, buffers, without, length_cons, Option.toList] at placed ⊢
      simpa [Nat.add_right_comm] using placed
    · rintro _ ⟨⟩
      unfold reserveCapacity maxCapacity at *
      split <;> omega
  next buffers =>
    split_ifs at given with free
    cases given
    refine { pooled with slots := free, placed := ?_, buffer := ?_ }
    · simp only [PooledRead.placed, buffers, without, Option.toList] at placed ⊢
      simp at placed ⊢
      omega
    · rintro _ ⟨⟩
      exact asked

theorem Pooled.release (lent : s.placed < s.pool.allocated) (capacity : Nat) :
    Pooled { s with pool := s.pool.release capacity } := by
  have slots := pooled.slots
  unfold ReadBufferPool.release
  split
  next retained =>
    refine { pooled with
      placed := ?_, retained := forall_mem_cons.mpr ⟨retained.1, pooled.retained⟩ }
    simp only [PooledRead.placed, length_cons] at lent ⊢
    omega
  next =>
    exact { pooled with slots := (Nat.sub_le _ _).trans slots, placed := Nat.le_sub_one_of_lt lent }

/-- The reader parts with its buffer. -/
theorem Pooled.give {capacity asked : Nat} (own : s.buffer = some capacity)
    (small : asked ≤ maxCapacity) :
    Pooled { s with buffer := none, nextCapacity := asked } ∧
      PooledRead.placed { s with buffer := none, nextCapacity := asked } < s.pool.allocated := by
  have placed := pooled.placed
  simp only [PooledRead.placed, own, Option.toList, length_singleton] at placed
  have fewer : PooledRead.placed { s with buffer := none, nextCapacity := asked } <
      s.pool.allocated := by
    simp only [PooledRead.placed, Option.toList, length_nil]
    omega
  exact ⟨{ pooled with placed := fewer.le, buffer := nofun, asked := small }, fewer⟩

end

/-- Every step of the pooled reader keeps the account, and moves the transport as
`readStep` does or not at all. -/
theorem pooled_step {s next : PooledRead Byte} {action : PooledAction Byte}
    (pooled : Pooled s)
    (moved : pooledStep cfg adaptive s action = some next) :
    Pooled next ∧ (next.transport = s.transport ∨
      ∃ action, readStep cfg s.transport action = some next.transport) := by
  cases action with
  | release capacity =>
    simp only [pooledStep] at moved
    split_ifs at moved with lent
    cases moved
    exact ⟨pooled.release lent capacity, .inl rfl⟩
  | read action =>
    have goes {s' : PooledRead Byte} (pooled : Pooled s') (same : s'.transport = s.transport)
        (lent : ∀ bytes, action = .enqueue (.data bytes) ∨
            action = .reader (.data bytes) ∧ s'.transport.reader = .reading →
          s'.placed < s'.pool.allocated ∧ bytes.length ≤ maxCapacity)
        (moved : ((readStep cfg s'.transport action).map fun next =>
          { s' with transport := next }) = some next) :
        Pooled next ∧ (next.transport = s.transport ∨
          ∃ action, readStep cfg s.transport action = some next.transport) := by
      obtain ⟨transport, went, rfl⟩ := Option.map_eq_some_iff.mp moved
      exact ⟨pooled.move (queueMove_of_readStep went) lent, .inr ⟨action, same ▸ went⟩⟩
    unfold pooledStep at moved
    dsimp only at moved
    split at moved
    · cases moved
    iterate 2
      next reader without =>
        split_ifs at moved
        · exact goes pooled rfl (by simp [reader]) moved
        · obtain ⟨acquired, given, moved⟩ := Option.bind_eq_some_iff.mp moved
          exact goes (pooled.acquire without given) rfl (by simp [reader]) moved
    next bytes capacity _ own =>
      have small := pooled.buffer capacity own
      have asked : (if adaptive then nextReadCapacityFor bytes.length capacity
          else streamReadBufferSize) ≤ maxCapacity := by
        cases adaptive with
        | true => exact nextReadCapacityFor_le small
        | false => exact (by decide : streamReadBufferSize ≤ maxCapacity)
      split at moved
      next fits =>
        obtain ⟨given, lent⟩ := pooled.give own asked
        refine goes given rfl ?_ moved
        rintro _ (other | ⟨same, _⟩)
        · cases other
        · cases same
          exact ⟨lent, fits.trans small⟩
      next => cases moved
    · cases moved
    next noData _ _ withBuffer without =>
      refine goes pooled rfl ?_ moved
      rintro bytes (posted | ⟨posted, reading⟩)
      · exact absurd posted (noData bytes)
      · cases own : s.buffer with
        | none => exact absurd own (without bytes posted reading)
        | some capacity => exact absurd own (withBuffer bytes capacity posted reading)

/-! ## The copy of `reading` -/

section

variable (mirrors : Mirrors s)

include mirrors

theorem Mirrors.enqueue (event : PendingReadEvent Byte) (fromReader : Bool)
    (reader : Reader) :
    Mirrors { s.enqueuePendingReadEvent event fromReader with reader := reader } := by
  unfold ReadState.enqueuePendingReadEvent
  split
  · exact { mirrors with }
  · refine { mirrors with phases := forall_mem_append.mpr ⟨mirrors.phases, ?_⟩ }
    rw [forall_mem_singleton]
    dsimp only
    split <;> nofun

/-- Below the high-water mark no producer goes on to apply backpressure. -/
theorem Mirrors.producer {index : Nat}
    (low : s.pendingReadBytes < pendingReadHighWater)
    (moved : stepProducer s index = some next) : Mirrors next := by
  unfold stepProducer at moved
  split at moved
  · cases moved
  next tail found =>
    have proceeds {phase : TailPhase} (other : phase ≠ .apply) (changed : ProducerTail)
        (mem : changed ∈ s.tails.set index { tail with phase := phase }) :
        changed.phase ≠ .apply := by
      rcases mem_or_eq_of_mem_set mem with same | rfl
      · exact mirrors.phases _ same
      · exact other
    have left (other : ProducerTail) (kept : other ∈ s.tails.eraseIdx index) :
        other.phase ≠ .apply :=
      mirrors.phases _ (mem_of_mem_eraseIdx kept)
    cases phase : tail.phase with
    | backpressure =>
      simp only [phase, if_pos low, Option.some.injEq] at moved
      subst moved
      exact { mirrors with phases := proceeds nofun }
    | apply => exact absurd phase (mirrors.phases tail (mem_of_getElem? found))
    | swap =>
      simp only [phase] at moved
      split at moved
      · cases moved
        exact { mirrors with phases := left }
      · cases moved
        exact { mirrors with phases := proceeds nofun }
    | send =>
      simp only [phase, Option.some.injEq] at moved
      subst moved
      exact { mirrors with phases := left }

theorem Mirrors.drain {reply : CallbackReply} (drained : DrainStep s reply next) :
    Mirrors next := by
  cases drained with
  | hop _ hop => exact { mirrors with stores := by cases hop <;> nofun }
  | call _ call => exact { mirrors with stores := by cases call <;> nofun }
  | popData _ _ goes =>
    refine { mirrors with stores := ?_ }
    rcases goes with rfl | rfl <;> nofun
  | relieve _ held => exact absurd held (Bool.eq_false_iff.mp mirrors.calm)
  | storeReading pos => exact absurd pos (mirrors.stores _ _ _)
  | closeAfterEof | lose => exact { mirrors with stores := nofun, mirror := nofun }
  | _ => exact { mirrors with stores := nofun }

theorem Mirrors.step (low : s.pendingReadBytes < pendingReadHighWater)
    (moved : readStep cfg s action = some next) : Mirrors next := by
  cases readMove_of_readStep moved with
  | enqueue event => exact mirrors.enqueue event _ _
  | producer _ moved => exact mirrors.producer low moved
  | reader moved =>
    rcases stepReader_cases moved with same | ⟨event, fromReader, same⟩
    · rw [same]
      exact { mirrors with }
    · rw [same]
      exact mirrors.enqueue event fromReader _
  | startDrain => exact { mirrors with stores := nofun }
  | drain moved => exact mirrors.drain (drainStep_of_stepDrain moved)
  | pauseReading _ calm => exact { mirrors with mirror := fun _ => by rw [calm]; rfl }
  | resumeReading =>
    refine { mirrors with mirror := fun opened => ?_ }
    simp_all [mirrors.calm]
  | storeReading resuming =>
    refine { mirrors with mirror := fun opened => ?_ }
    have mirror := mirrors.mirror opened
    rwa [resuming] at mirror
  | close => exact { mirrors with mirror := nofun }

end

/-- A chunk is queued, and the user pauses and resumes before it is drained. -/
def resumedAboveChunk : List (PooledAction Bool) :=
  [.read (.reader .wouldBlock), .read (.reader .wouldBlock), .read (.reader (.data [true, false])),
    .read (.producer 0), .read .pauseReading, .read (.producer 0), .read .resumeReading,
    .read (.producer 0), .read .storeReading]

end Rsloop.Stream
