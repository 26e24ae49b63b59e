import Rsloop.Stream.WriteBuffers

/-!
# The channel between a transport and its writer worker

The two ends of the writer queue. The sender may join a write to the data
command at the end of the queue, so the worker does not receive the commands
that were sent, but it receives the same bytes between the same control
commands. Every operation takes the lock of the queue once and is one step; a
receiver that waits tries again each time it is woken.
-/

namespace Rsloop.Stream

open List

/-! ## Runs of bytes between control commands -/

/-- A command without regard to the storage of its bytes. -/
inductive Piece (Byte : Type) where
  | bytes (data : List Byte)
  | writeEof
  | close
  | abort
  | stop
  deriving DecidableEq

variable {Byte : Type}

def WriterCommand.piece : WriterCommand Byte → Piece Byte
  | .data buf => .bytes buf.remaining
  | .writeEof => .writeEof
  | .close => .close
  | .abort => .abort
  | .stop => .stop

/-- Put a piece in front of others: bytes join the bytes they meet. -/
def Piece.join : Piece Byte → List (Piece Byte) → List (Piece Byte)
  | .bytes first, .bytes second :: rest => .bytes (first ++ second) :: rest
  | piece, rest => piece :: rest

/-- The commands of a queue with adjacent data commands concatenated. -/
def concatenated (cmds : List (WriterCommand Byte)) : List (Piece Byte) :=
  (cmds.map WriterCommand.piece).foldr Piece.join []

theorem Piece.join_join (first second : List Byte) (rest : List (Piece Byte)) :
    Piece.join (.bytes first) (Piece.join (.bytes second) rest) =
      Piece.join (.bytes (first ++ second)) rest := by
  cases rest with
  | nil => rfl
  | cons head =>
    cases head with
    | bytes => simp [Piece.join]
    | writeEof | close | abort | stop => rfl

theorem Piece.foldr_join (piece : Piece Byte) (pieces rest : List (Piece Byte)) :
    (piece.join pieces).foldr Piece.join rest = piece.join (pieces.foldr Piece.join rest) := by
  cases piece with
  | bytes first =>
    cases pieces with
    | nil => rfl
    | cons head =>
      cases head with
      | bytes second => exact (Piece.join_join first second _).symm
      | writeEof | close | abort | stop => rfl
  | writeEof | close | abort | stop => rfl

theorem concatenated_append (earlier later : List (WriterCommand Byte)) :
    concatenated (earlier ++ later) =
      (concatenated earlier).foldr Piece.join (concatenated later) := by
  induction earlier with
  | nil => rfl
  | cons cmd earlier ih =>
    change cmd.piece.join (concatenated (earlier ++ later)) =
      (cmd.piece.join (concatenated earlier)).foldr Piece.join _
    rw [ih, Piece.foldr_join]

theorem concatenated_append_congr
    {earlier earlier' later later' : List (WriterCommand Byte)}
    (sameEarlier : concatenated earlier = concatenated earlier')
    (sameLater : concatenated later = concatenated later') :
    concatenated (earlier ++ later) = concatenated (earlier' ++ later') := by
  rw [concatenated_append, concatenated_append, sameEarlier, sameLater]

theorem concatenated_joined {pending incoming joined : OwnedWriteBuffer Byte}
    (bytes : joined.remaining = pending.remaining ++ incoming.remaining) :
    concatenated [.data joined] = concatenated [.data pending, .data incoming] := by
  change [Piece.bytes joined.remaining] = [Piece.bytes (pending.remaining ++ incoming.remaining)]
  rw [bytes]

/-! ## The channel -/

/-- The queue, and whether its sender still exists. -/
structure Channel (Byte : Type) where
  queue : QueueState Byte
  senderAlive : Bool
  deriving DecidableEq

inductive ChannelOperation (Byte : Type) where
  | send (cmd : WriterCommand Byte)
  | sendBatch (buffers : List (OwnedWriteBuffer Byte))
  | recv
  | tryRecv
  | dropSender
  | dropReceiver
  deriving DecidableEq

/-- What an operation answers. `returned` and `refused` are the errors of the
two ways to send; `waits` is a `recv` that stays asleep. -/
inductive ChannelAnswer (Byte : Type) where
  | done
  | returned (cmd : WriterCommand Byte)
  | refused
  | received (cmd : WriterCommand Byte)
  | empty
  | disconnected
  | waits
  deriving DecidableEq

namespace Channel

def new : Channel Byte where
  queue := .new
  senderAlive := true

def send (chan : Channel Byte) (cmd : WriterCommand Byte) :
    ChannelAnswer Byte × Channel Byte :=
  match chan.queue.enqueue cmd with
  | some queue => (.done, { chan with queue := queue })
  | none => (.returned cmd, chan)

def sendBatch (chan : Channel Byte) (buffers : List (OwnedWriteBuffer Byte)) :
    ChannelAnswer Byte × Channel Byte :=
  match chan.queue.sendBatch buffers with
  | some queue => (.done, { chan with queue := queue })
  | none => (.refused, chan)

/-- Queued commands are drained before the disconnection is reported. -/
def tryRecv (chan : Channel Byte) : ChannelAnswer Byte × Channel Byte :=
  match chan.queue.tryDequeue with
  | some (cmd, queue) => (.received cmd, { chan with queue := queue })
  | none => (if chan.senderAlive then .empty else .disconnected, chan)

/-- One turn of the loop of `recv`, at the call or when it is woken. -/
def recv (chan : Channel Byte) : ChannelAnswer Byte × Channel Byte :=
  match chan.tryRecv with
  | (.empty, same) => (.waits, same)
  | answered => answered

def perform (chan : Channel Byte) : ChannelOperation Byte → ChannelAnswer Byte × Channel Byte
  | .send cmd => chan.send cmd
  | .sendBatch buffers => chan.sendBatch buffers
  | .recv => chan.recv
  | .tryRecv => chan.tryRecv
  | .dropSender => (.done, { chan with senderAlive := false })
  | .dropReceiver =>
    (.done, { chan with queue := { chan.queue with receiverAlive := false } })

section

variable {chan : Channel Byte} {op : ChannelOperation Byte}

section

variable (receives : op = .recv ∨ op = .tryRecv)

include receives

/-- The receiver is given the first command of the queue. -/
theorem perform_of_queued {cmd : WriterCommand Byte}
    {rest : List (WriterCommand Byte)}
    (queued : chan.queue.commands = cmd :: rest) :
    chan.perform op =
      (.received cmd,
        { chan with queue := { chan.queue with commands := rest } }) := by
  rcases receives with rfl | rfl
  all_goals simp [perform, recv, tryRecv, QueueState.tryDequeue, queued]

theorem perform_of_nothingQueued (queued : chan.queue.commands = []) :
    (chan.perform op).1 ∈ [.empty, .disconnected, .waits] ∧
      (chan.perform op).2 = chan := by
  cases alive : chan.senderAlive with
  | false | true =>
    rcases receives with rfl | rfl
    all_goals simp [perform, recv, tryRecv, QueueState.tryDequeue, queued, alive]

end

theorem perform_send_of_gone (gone : chan.queue.receiverAlive = false)
    (cmd : WriterCommand Byte) :
    chan.perform (.send cmd) = (.returned cmd, chan) := by
  simp [perform, send, QueueState.enqueue, gone]

theorem perform_sendBatch_of_gone (gone : chan.queue.receiverAlive = false)
    (buffers : List (OwnedWriteBuffer Byte)) :
    chan.perform (.sendBatch buffers) = (.refused, chan) := by
  simp [perform, sendBatch, QueueState.sendBatch, gone]

theorem perform_send_of_alive (alive : chan.queue.receiverAlive)
    (cmd : WriterCommand Byte) :
    (chan.perform (.send cmd)).1 = .done := by
  simp only [perform, send, QueueState.enqueue, if_pos alive]
  split
  · rfl
  next refused =>
    split at refused
    · split at refused <;> cases refused
    · cases refused

theorem perform_sendBatch_of_alive (alive : chan.queue.receiverAlive)
    (buffers : List (OwnedWriteBuffer Byte)) :
    (chan.perform (.sendBatch buffers)).1 = .done := by
  simp [perform, sendBatch, QueueState.sendBatch, alive]

end

end Channel

/-- The commands that an operation with this answer put into the queue. -/
def ChannelOperation.accepted :
    ChannelOperation Byte → ChannelAnswer Byte → List (WriterCommand Byte)
  | .send cmd, .done => [cmd]
  | .sendBatch buffers, .done => buffers.map WriterCommand.data
  | _, _ => []

/-- The command that an answer takes out of the queue. -/
def ChannelAnswer.taken : ChannelAnswer Byte → List (WriterCommand Byte)
  | .received cmd => [cmd]
  | _ => []

/-- A channel with the logs of both ends. -/
structure Exchange (Byte : Type) where
  channel : Channel Byte
  sent : List (WriterCommand Byte)
  received : List (WriterCommand Byte)
  deriving DecidableEq

namespace Exchange

def new : Exchange Byte where
  channel := .new
  sent := []
  received := []

def perform (exchange : Exchange Byte) (op : ChannelOperation Byte) : Exchange Byte :=
  let outcome := exchange.channel.perform op
  { channel := outcome.2
    sent := exchange.sent ++ op.accepted outcome.1
    received := exchange.received ++ outcome.1.taken }

def performAll (exchange : Exchange Byte) (operations : List (ChannelOperation Byte)) :
    Exchange Byte :=
  operations.foldl perform exchange

/-! ## What one operation does -/

/-- What an operation does to the queue and to the logs. -/
inductive Moves (exchange : Exchange Byte) : Exchange Byte → Prop where
  | keeps (chan : Channel Byte)
      (queued : chan.queue.commands = exchange.channel.queue.commands) :
      Moves exchange { exchange with channel := chan }
  | appends (chan : Channel Byte) (cmds : List (WriterCommand Byte))
      (queued : chan.queue.commands = exchange.channel.queue.commands ++ cmds) :
      Moves exchange { exchange with channel := chan, sent := exchange.sent ++ cmds }
  | joins (chan : Channel Byte) (earlier : List (WriterCommand Byte))
      (pending incoming joined : OwnedWriteBuffer Byte)
      (last : exchange.channel.queue.commands = earlier ++ [.data pending])
      (queued : chan.queue.commands = earlier ++ [.data joined])
      (bytes : joined.remaining = pending.remaining ++ incoming.remaining)
      (fits : joined.len ≤ defaultWriteBufferHighWater) :
      Moves exchange { exchange with channel := chan, sent := exchange.sent ++ [.data incoming] }
  | takes (chan : Channel Byte) (cmd : WriterCommand Byte)
      (first : exchange.channel.queue.commands = cmd :: chan.queue.commands) :
      Moves exchange
        { exchange with channel := chan, received := exchange.received ++ [cmd] }

variable {op : ChannelOperation Byte}

section

variable (exchange : Exchange Byte)

include exchange

theorem moves_send (cmd : WriterCommand Byte) :
    exchange.Moves (exchange.perform (.send cmd)) := by
  cases sent : exchange.channel.queue.enqueue cmd with
  | none =>
    have refused : exchange.perform (.send cmd) = exchange := by
      simp [perform, Channel.perform, Channel.send, sent,
        ChannelOperation.accepted, ChannelAnswer.taken]
    rw [refused]
    exact .keeps exchange.channel rfl
  | some queue =>
    have accepted : exchange.perform (.send cmd) =
        { exchange with
          channel := { exchange.channel with queue := queue }
          sent := exchange.sent ++ [cmd] } := by
      simp [perform, Channel.perform, Channel.send, sent,
        ChannelOperation.accepted, ChannelAnswer.taken]
    rw [accepted]
    obtain ⟨-, rfl | ⟨earlier, pending, incoming, joined, rfl, last, bytes, fits, rfl⟩⟩ :=
      QueueState.enqueue_cases sent
    · exact .appends _ [cmd] rfl
    · exact .joins _ earlier pending incoming joined last rfl bytes fits

theorem moves_sendBatch (buffers : List (OwnedWriteBuffer Byte)) :
    exchange.Moves (exchange.perform (.sendBatch buffers)) := by
  cases alive : exchange.channel.queue.receiverAlive with
  | false =>
    have refused : exchange.perform (.sendBatch buffers) = exchange := by
      simp [perform, Channel.perform, Channel.sendBatch,
        QueueState.sendBatch, alive, ChannelOperation.accepted,
        ChannelAnswer.taken]
    rw [refused]
    exact .keeps exchange.channel rfl
  | true =>
    have accepted : exchange.perform (.sendBatch buffers) =
        { exchange with
          channel := { exchange.channel with
            queue := { exchange.channel.queue with
              commands := exchange.channel.queue.commands ++ buffers.map WriterCommand.data } }
          sent := exchange.sent ++ buffers.map WriterCommand.data } := by
      simp [perform, Channel.perform, Channel.sendBatch,
        QueueState.sendBatch, alive, ChannelOperation.accepted,
        ChannelAnswer.taken]
    rw [accepted]
    exact .appends _ (buffers.map WriterCommand.data) rfl

theorem moves_recv (receives : op = .recv ∨ op = .tryRecv) :
    exchange.Moves (exchange.perform op) := by
  have nothingSent : ∀ answer, op.accepted answer = [] := by
    intro answer
    rcases receives with rfl | rfl <;> rfl
  cases queued : exchange.channel.queue.commands with
  | nil =>
    obtain ⟨answer, same⟩ := Channel.perform_of_nothingQueued receives queued
    have nothing : exchange.perform op = exchange := by
      simp only [mem_cons, not_mem_nil, or_false] at answer
      unfold perform
      rcases answer with answer | answer | answer
      all_goals simp [answer, same, nothingSent, ChannelAnswer.taken]
    rw [nothing]
    exact .keeps exchange.channel rfl
  | cons cmd rest =>
    simp only [perform, Channel.perform_of_queued receives queued, nothingSent, append_nil]
    exact .takes _ cmd queued

theorem moves_perform (op : ChannelOperation Byte) :
    exchange.Moves (exchange.perform op) := by
  have dropped : ∀ chan : Channel Byte,
      chan.queue.commands = exchange.channel.queue.commands →
      exchange.Moves ⟨chan, exchange.sent ++ [], exchange.received ++ []⟩ := by
    intro chan same
    rw [append_nil, append_nil]
    exact .keeps chan same
  cases op with
  | send cmd => exact exchange.moves_send cmd
  | sendBatch buffers => exact exchange.moves_sendBatch buffers
  | recv => exact exchange.moves_recv (.inl rfl)
  | tryRecv => exact exchange.moves_recv (.inr rfl)
  | dropSender | dropReceiver => exact dropped _ rfl

end

/-! ## The invariant -/

/-- What was received, followed by what is still queued, is what was sent, and
only a command that was sent as it is exceeds the limit. -/
structure Faithful (exchange : Exchange Byte) : Prop where
  order : concatenated (exchange.received ++ exchange.channel.queue.commands) =
      concatenated exchange.sent
  limited : ∀ buffer, WriterCommand.data buffer ∈
        exchange.received ++ exchange.channel.queue.commands →
      buffer.len ≤ defaultWriteBufferHighWater ∨ WriterCommand.data buffer ∈ exchange.sent

theorem faithful_new : (new : Exchange Byte).Faithful where
  order := rfl
  limited := fun _ impossible => absurd impossible not_mem_nil

theorem Faithful.moves {exchange next : Exchange Byte}
    (faithful : exchange.Faithful) (moves : exchange.Moves next) :
    next.Faithful := by
  cases moves with
  | keeps _ queued =>
    exact { order := by rw [queued]; exact faithful.order
            limited := by rw [queued]; exact faithful.limited }
  | appends _ cmds queued =>
    refine ⟨?_, ?_⟩
    · rw [queued, ← append_assoc]
      exact concatenated_append_congr faithful.order rfl
    · intro buf mem
      rw [queued, ← append_assoc] at mem
      rcases mem_append.mp mem with old | new
      · exact (faithful.limited buf old).imp_right (mem_append_left cmds)
      · exact .inr (mem_append_right _ new)
  | joins chan earlier pending incoming joined last queued bytes fits =>
    refine ⟨?_, ?_⟩
    · have order := faithful.order
      rw [last] at order
      calc
        concatenated (exchange.received ++ chan.queue.commands)
          = concatenated ((exchange.received ++ earlier) ++ [.data joined]) := by
            rw [queued, append_assoc]
        _ = concatenated ((exchange.received ++ earlier) ++ [.data pending, .data incoming]) :=
            concatenated_append_congr rfl (concatenated_joined bytes)
        _ = concatenated ((exchange.received ++ (earlier ++ [.data pending])) ++
                [.data incoming]) := by
            simp only [append_assoc, cons_append, nil_append]
        _ = concatenated (exchange.sent ++ [.data incoming]) := concatenated_append_congr order rfl
    · intro buf mem
      rw [queued, ← append_assoc] at mem
      rcases mem_append.mp mem with old | new
      · refine (faithful.limited buf ?_).imp_right (mem_append_left _)
        rw [last, ← append_assoc]
        exact mem_append_left _ old
      · cases mem_singleton.mp new
        exact .inl fits
  | takes chan cmd first =>
    have same : (exchange.received ++ [cmd]) ++ chan.queue.commands =
        exchange.received ++ exchange.channel.queue.commands := by
      rw [first, append_assoc, singleton_append]
    exact { order := by rw [same]; exact faithful.order
            limited := by rw [same]; exact faithful.limited }

variable {exchange : Exchange Byte}

theorem Faithful.performAll
    (faithful : exchange.Faithful) (operations : List (ChannelOperation Byte)) :
    (exchange.performAll operations).Faithful := by
  induction operations generalizing exchange with
  | nil => exact faithful
  | cons op _ ih =>
    exact ih (faithful.moves (exchange.moves_perform op))

/-! ## The two ends after a drop -/

variable {chan : Channel Byte}

theorem receiverAlive_perform (op : ChannelOperation Byte) :
    (chan.perform op).2.queue.receiverAlive ↔
      chan.queue.receiverAlive ∧ op ≠ .dropReceiver := by
  have receives : ∀ op : ChannelOperation Byte,
      op = .recv ∨ op = .tryRecv →
      (chan.perform op).2.queue.receiverAlive =
        chan.queue.receiverAlive := by
    intro op receives
    cases queued : chan.queue.commands with
    | nil => rw [(Channel.perform_of_nothingQueued receives queued).2]
    | cons => rw [Channel.perform_of_queued receives queued]
  cases op with
  | send cmd =>
    simp only [Channel.perform, Channel.send]
    cases sent : chan.queue.enqueue cmd with
    | none => simp
    | some =>
      obtain ⟨-, rfl | ⟨_, _, _, _, _, _, _, _, rfl⟩⟩ := QueueState.enqueue_cases sent
      all_goals simp
  | sendBatch buffers =>
    simp only [Channel.perform, Channel.sendBatch, QueueState.sendBatch]
    cases alive : chan.queue.receiverAlive <;> simp [alive]
  | recv => simp [receives .recv (.inl rfl)]
  | tryRecv => simp [receives .tryRecv (.inr rfl)]
  | dropSender | dropReceiver => simp [Channel.perform]

theorem receiverAlive_performAll (operations : List (ChannelOperation Byte)) :
    (exchange.performAll operations).channel.queue.receiverAlive ↔
      exchange.channel.queue.receiverAlive ∧
        ChannelOperation.dropReceiver ∉ operations := by
  induction operations generalizing exchange with
  | nil => simp [performAll]
  | cons op rest ih =>
    change ((exchange.perform op).performAll rest).channel.queue.receiverAlive ↔ _
    rw [ih, mem_cons, not_or, ← and_assoc, eq_comm (b := op)]
    exact and_congr_left' (receiverAlive_perform op)

theorem commands_of_disconnected
    (reported : (chan.perform op).1 = .disconnected) :
    chan.queue.commands = [] := by
  cases queued : chan.queue.commands with
  | nil => rfl
  | cons =>
    cases op with
    | send =>
      simp only [Channel.perform, Channel.send] at reported
      split at reported <;> cases reported
    | sendBatch =>
      simp only [Channel.perform, Channel.sendBatch] at reported
      split at reported <;> cases reported
    | recv =>
      rw [Channel.perform_of_queued (.inl rfl) queued] at reported
      cases reported
    | tryRecv =>
      rw [Channel.perform_of_queued (.inr rfl) queued] at reported
      cases reported
    | dropSender | dropReceiver => cases reported

end Exchange

/-! ## The channel is a queue of bytes and control commands -/

/-- After any sequence of operations: the commands received and those still
queued are the commands sent, with adjacent data concatenated; a receiver is
given the first command that is queued; a command over the limit was sent like
that; until the receiver is dropped every send is accepted, and afterwards it
hands its command back and changes nothing; and whoever is told of the
disconnection has received everything. -/
theorem writerChannel_refines_fifo (operations : List (ChannelOperation Byte)) :
    let reached := Exchange.new.performAll operations
    concatenated (reached.received ++ reached.channel.queue.commands) =
        concatenated reached.sent ∧
      (∀ cmd rest, reached.channel.queue.commands = cmd :: rest →
        ∀ receives ∈ [ChannelOperation.recv, .tryRecv],
          reached.channel.perform receives =
            (.received cmd, { reached.channel with
              queue := { reached.channel.queue with commands := rest } })) ∧
      (∀ buf, WriterCommand.data buf ∈ reached.received ++ reached.channel.queue.commands →
        buf.len ≤ defaultWriteBufferHighWater ∨ WriterCommand.data buf ∈ reached.sent) ∧
      (ChannelOperation.dropReceiver ∉ operations →
        (∀ cmd, (reached.channel.perform (.send cmd)).1 = .done) ∧
        ∀ buffers, (reached.channel.perform (.sendBatch buffers)).1 = .done) ∧
      (ChannelOperation.dropReceiver ∈ operations →
        (∀ cmd, reached.channel.perform (.send cmd) =
          (.returned cmd, reached.channel)) ∧
        ∀ buffers, reached.channel.perform (.sendBatch buffers) = (.refused, reached.channel)) ∧
      ∀ op, (reached.channel.perform op).1 = .disconnected →
        reached.channel.queue.commands = [] ∧
          concatenated reached.received = concatenated reached.sent := by
  intro reached
  have faithful : reached.Faithful := Exchange.faithful_new.performAll operations
  have alive_iff : reached.channel.queue.receiverAlive ↔ _ :=
    Exchange.receiverAlive_performAll operations
  refine ⟨faithful.order, ?_, faithful.limited, ?_, ?_, ?_⟩
  · intro cmd rest queued receives mem
    exact Channel.perform_of_queued (by simpa using mem) queued
  · intro kept
    have alive := alive_iff.mpr ⟨rfl, kept⟩
    exact ⟨Channel.perform_send_of_alive alive, Channel.perform_sendBatch_of_alive alive⟩
  · intro dropped
    have gone : reached.channel.queue.receiverAlive = false :=
      Bool.eq_false_iff.mpr fun alive => (alive_iff.mp alive).2 dropped
    exact ⟨Channel.perform_send_of_gone gone, Channel.perform_sendBatch_of_gone gone⟩
  · intro op reported
    have drained := Exchange.commands_of_disconnected reported
    have order := faithful.order
    rw [drained, append_nil] at order
    exact ⟨drained, order⟩

end Rsloop.Stream
