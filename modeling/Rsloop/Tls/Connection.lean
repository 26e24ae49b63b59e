import Mathlib.Data.List.Basic

/-!
# The TLS connection

What the transport sees of a rustls connection. A record layer cuts the bytes
off the socket into records and decrypts them. `process_new_packets` appends
the plaintext of each record to a buffer of chunks and stops at the first
invalid one. `fill_buf` and `consume` hand the chunks out in order.
-/

namespace Rsloop.Tls

open List

/-! ## Records -/

/-- What one record turns out to be. -/
inductive Record (Byte : Type) where
  | plaintext (data : List Byte)
  | closeNotify
  | invalid (message : String)
  deriving DecidableEq

/-- A record layer. Bytes that come later do not change a complete record. -/
structure RecordLayer (Session Byte : Type) where
  next : Session → List Byte → Option (Record Byte × Session × List Byte)
  shorter : ∀ {session bytes record after rest}, next session bytes = some (record, after, rest) →
      rest.length < bytes.length
  stable : ∀ {session bytes record after rest},
    next session bytes = some (record, after, rest) → ∀ more,
      next session (bytes ++ more) = some (record, after, rest ++ more)
  /-- What a reader is told when the stream ends without a close alert. -/
  unexpectedEof : String

/-- How far a connection has come: it takes records, it has seen the close
alert, or it has failed for good. -/
inductive Ending where
  | running
  | closed
  | invalid (message : String)
  deriving DecidableEq

structure Decoded (Session Byte : Type) where
  chunks : List (List Byte)
  session : Session
  rest : List Byte
  ending : Ending
  deriving DecidableEq

namespace Decoded

variable {Session Byte : Type}

/-- Nothing but an incomplete record. -/
def waiting (session : Session) (bytes : List Byte) : Decoded Session Byte where
  chunks := []
  session := session
  rest := bytes
  ending := .running

/-- What is decoded behind some chunks. -/
def behind (chunks : List (List Byte)) (later : Decoded Session Byte) : Decoded Session Byte :=
  { later with chunks := chunks ++ later.chunks }

/-- The bytes of all records that were accepted. -/
def plaintext (decoded : Decoded Session Byte) : List Byte :=
  decoded.chunks.flatten

theorem behind_behind (first second : List (List Byte))
    (later : Decoded Session Byte) :
    behind first (behind second later) = behind (first ++ second) later := by
  simp [behind]

theorem plaintext_behind (chunks : List (List Byte))
    (later : Decoded Session Byte) :
    (behind chunks later).plaintext = chunks.flatten ++ later.plaintext := by
  simp [behind, plaintext]

end Decoded

namespace RecordLayer

variable {Session Byte : Type}

def decodeFuel (layer : RecordLayer Session Byte) :
    Nat → Session → List Byte → Decoded Session Byte
  | 0, session, bytes => .waiting session bytes
  | fuel + 1, session, bytes =>
    match layer.next session bytes with
    | none => .waiting session bytes
    | some (.plaintext data, after, rest) => .behind [data] (layer.decodeFuel fuel after rest)
    | some (.closeNotify, after, _) => ⟨[], after, [], .closed⟩
    | some (.invalid message, after, _) => ⟨[], after, [], .invalid message⟩

/-- All complete records, up to a close alert or an invalid record. -/
def decode (layer : RecordLayer Session Byte) (session : Session)
    (bytes : List Byte) : Decoded Session Byte :=
  layer.decodeFuel bytes.length session bytes

variable (layer : RecordLayer Session Byte)

theorem next_nil (session : Session) : layer.next session [] = none := by
  cases record : layer.next session [] with
  | none => rfl
  | some found =>
    exact absurd (layer.shorter record) (Nat.not_lt_zero _)

theorem decodeFuel_eq_decode {fuel : Nat} {session : Session}
    {bytes : List Byte}
    (enough : bytes.length ≤ fuel) :
    layer.decodeFuel fuel session bytes = layer.decode session bytes := by
  -- both sides take the same records; the induction is on the larger fuel
  induction fuel using Nat.strongRecOn generalizing session bytes with
  | ind fuel ih =>
    unfold decode
    cases fuel with
    | zero =>
      rw [length_eq_zero_iff.mp (Nat.le_zero.mp enough)]
      rfl
    | succ fuel =>
      cases length : bytes.length with
      | zero =>
        rw [length_eq_zero_iff.mp length]
        simp [decodeFuel, next_nil]
      | succ count =>
        simp only [decodeFuel]
        cases record : layer.next session bytes with
        | none => rfl
        | some found =>
          obtain ⟨kind, after, rest⟩ := found
          have shorter := layer.shorter record
          cases kind with
          | plaintext =>
            simp only
            rw [ih fuel (Nat.lt_succ_self fuel) (by omega), ih count (by omega) (by omega)]
          | closeNotify | invalid message => rfl

theorem decode_eq (session : Session) (bytes : List Byte) :
    layer.decode session bytes =
      match layer.next session bytes with
      | none => .waiting session bytes
      | some (.plaintext data, after, rest) => .behind [data] (layer.decode after rest)
      | some (.closeNotify, after, _) => ⟨[], after, [], .closed⟩
      | some (.invalid message, after, _) => ⟨[], after, [], .invalid message⟩ := by
  rw [← layer.decodeFuel_eq_decode (Nat.le_succ bytes.length)]
  simp only [decodeFuel]
  cases record : layer.next session bytes with
  | none => rfl
  | some found =>
    obtain ⟨kind, after, rest⟩ := found
    cases kind with
    | plaintext =>
      simp only
      rw [layer.decodeFuel_eq_decode (Nat.le_of_lt (layer.shorter record))]
    | closeNotify | invalid message => rfl

/-- The split of a stream into reads does not matter: while the connection
runs, the bytes of a later read are decoded behind the unfinished record. -/
theorem decode_append (session : Session) (bytes more : List Byte) :
    layer.decode session (bytes ++ more) =
      if (layer.decode session bytes).ending = .running then
        .behind (layer.decode session bytes).chunks
          (layer.decode (layer.decode session bytes).session
            ((layer.decode session bytes).rest ++ more))
      else
        layer.decode session bytes := by
  induction length : bytes.length using Nat.strongRecOn generalizing session bytes with
  | ind _ ih =>
    cases record : layer.next session bytes with
    | none =>
      rw [layer.decode_eq session bytes, record]
      rfl
    | some found =>
      obtain ⟨kind, after, rest⟩ := found
      have later := layer.stable record more
      rw [layer.decode_eq session (bytes ++ more), later, layer.decode_eq session bytes, record]
      cases kind with
      | plaintext =>
        simp only
        rw [ih rest.length (by rw [← length]; exact layer.shorter record) after rest rfl]
        by_cases running : (layer.decode after rest).ending = .running
        · rw [if_pos running, if_pos (by exact running), Decoded.behind_behind]
          rfl
        · rw [if_neg running, if_neg (by exact running)]
      | closeNotify | invalid message => rfl

end RecordLayer

/-! ## Decrypted chunks -/

/-- The buffer of decrypted plaintext. Empty chunks are not kept. -/
structure ChunkBuffer (Byte : Type) where
  chunks : List (List Byte)
  nonempty : ∀ chunk ∈ chunks, chunk ≠ []
  deriving DecidableEq

namespace ChunkBuffer

variable {Byte : Type}

def empty : ChunkBuffer Byte where
  chunks := []
  nonempty := by simp

def append (buf : ChunkBuffer Byte) (new : List (List Byte)) : ChunkBuffer Byte where
  chunks := buf.chunks ++ new.filter (fun chunk => !chunk.isEmpty)
  nonempty := by
    intro chunk member
    rcases List.mem_append.mp member with old | added
    · exact buf.nonempty chunk old
    · simpa using (List.mem_filter.mp added).2

/-- Take `amount` bytes off the first chunk. -/
def consume (buf : ChunkBuffer Byte) (amount : Nat) : ChunkBuffer Byte where
  chunks :=
    match buf.chunks with
    | [] => []
    | chunk :: rest => if amount < chunk.length then chunk.drop amount :: rest else rest
  nonempty := by
    have nonempty := buf.nonempty
    cases chunks : buf.chunks with
    | nil => simp
    | cons chunk rest =>
      rw [chunks] at nonempty
      have later := (List.forall_mem_cons.mp nonempty).2
      simp only
      split
      next smaller =>
        refine List.forall_mem_cons.mpr ⟨?_, later⟩
        intro none
        rw [List.drop_eq_nil_iff] at none
        omega
      next => exact later

def bytes (buf : ChunkBuffer Byte) : List Byte := buf.chunks.flatten

theorem bytes_append (buf : ChunkBuffer Byte) (new : List (List Byte)) :
    (buf.append new).bytes = buf.bytes ++ new.flatten := by
  rw [bytes, append, flatten_append, bytes, flatten_filter_not_isEmpty]

theorem bytes_eq_nil {buf : ChunkBuffer Byte} : buf.bytes = [] ↔ buf.chunks = [] := by
  constructor
  · intro none
    cases chunks : buf.chunks with
    | nil => rfl
    | cons chunk =>
      rw [bytes, chunks, flatten_cons, append_eq_nil_iff] at none
      exact absurd none.1 (buf.nonempty chunk (by rw [chunks]; exact mem_cons_self))
  · intro none
    rw [bytes, none, flatten_nil]

end ChunkBuffer

/-! ## The connection -/

structure Connection (Session Byte : Type) where
  session : Session
  /-- Absorbed bytes that are not part of a processed record. -/
  unprocessed : List Byte
  received : ChunkBuffer Byte
  ending : Ending
  sawEof : Bool
  deriving DecidableEq

/-- What `fill_buf` answers. -/
inductive FillBuf (Byte : Type) where
  | chunk (bytes : List Byte)
  | cleanEnd
  | wouldBlock
  | unexpectedEof
  deriving DecidableEq

namespace Connection

variable {Session Byte : Type}

/-- A connection that has been given bytes and has processed nothing. -/
def new (session : Session) (bytes : List Byte) : Connection Session Byte where
  session := session
  unprocessed := bytes
  received := .empty
  ending := .running
  sawEof := false

/-- `read_tls` with the bytes a socket read has brought; none at its end. -/
def readTls (conn : Connection Session Byte) (bytes : List Byte) : Connection Session Byte :=
  { conn with
    unprocessed := conn.unprocessed ++ bytes
    sawEof := conn.sawEof || bytes.isEmpty }

/-- An invalid record is the answer of this call and of every later one. What
follows a close alert is ignored. -/
def processNewPackets (layer : RecordLayer Session Byte) (conn : Connection Session Byte) :
    Connection Session Byte :=
  match conn.ending with
  | .running =>
    let decoded := layer.decode conn.session conn.unprocessed
    { conn with
      session := decoded.session
      unprocessed := decoded.rest
      received := conn.received.append decoded.chunks
      ending := decoded.ending }
  | .closed => { conn with unprocessed := [] }
  | .invalid _ => conn

def fillBuf (conn : Connection Session Byte) : FillBuf Byte :=
  match conn.received.chunks with
  | chunk :: _ => .chunk chunk
  | [] =>
    if conn.ending = .closed then .cleanEnd
    else if conn.sawEof then .unexpectedEof
    else .wouldBlock

/-- The loop of `reader_drain`: each turn takes a whole chunk or fills the
buffer. -/
def readerDrainLoop (layer : RecordLayer Session Byte) (limit : Nat) :
    Nat → Connection Session Byte → List Byte → Except String (List Byte) × Connection Session Byte
  | 0, conn, buf => (.ok buf, conn)
  | fuel + 1, conn, buf =>
    if buf.length < limit then
      match conn.fillBuf with
      | .cleanEnd | .wouldBlock => (.ok buf, conn)
      | .unexpectedEof =>
        if buf.isEmpty then (.error layer.unexpectedEof, conn)
        else (.ok buf, conn)
      | .chunk chunk =>
        let take := min chunk.length (limit - buf.length)
        readerDrainLoop layer limit fuel
          { conn with received := conn.received.consume take }
          (buf ++ chunk.take take)
    else
      (.ok buf, conn)

/-- Fill a buffer of the given capacity with plaintext. -/
def readerDrain (layer : RecordLayer Session Byte) (conn : Connection Session Byte)
    (limit : Nat) : Except String (List Byte) × Connection Session Byte :=
  readerDrainLoop layer limit (conn.received.chunks.length + 1) conn []

/-- A drain changes the plaintext buffer only. -/
structure SameSession (conn after : Connection Session Byte) : Prop where
  session : after.session = conn.session
  unprocessed : after.unprocessed = conn.unprocessed
  ending : after.ending = conn.ending

theorem SameSession.refl (conn : Connection Session Byte) :
    SameSession conn conn :=
  ⟨rfl, rfl, rfl⟩

variable {conn : Connection Session Byte}

theorem exists_of_fillBuf_chunk {chunk : List Byte}
    (filled : conn.fillBuf = .chunk chunk) :
    ∃ rest, conn.received.chunks = chunk :: rest := by
  unfold fillBuf at filled
  cases chunks : conn.received.chunks with
  | nil =>
    rw [chunks] at filled
    simp only at filled
    split at filled
    · cases filled
    · split at filled <;> cases filled
  | cons _ rest =>
    rw [chunks] at filled
    cases filled
    exact ⟨rest, rfl⟩

theorem chunks_eq_nil_of_fillBuf (filled : ∀ chunk, conn.fillBuf ≠ .chunk chunk) :
    conn.received.chunks = [] := by
  cases chunks : conn.received.chunks with
  | nil => rfl
  | cons chunk =>
    refine absurd ?_ (filled chunk)
    rw [fillBuf, chunks]

/-- One turn of the loop takes bytes, and either a whole chunk or as many as the
buffer has room for. -/
theorem consume_turn {chunk : List Byte} {rest : List (List Byte)} {room : Nat}
    (chunks : conn.received.chunks = chunk :: rest) (some : 0 < room) :
    let take := min chunk.length room
    chunk.take take ≠ [] ∧ chunk.take take ++ (conn.received.consume take).bytes =
        conn.received.bytes ∧
      ((conn.received.consume take).chunks = rest ∨ take = room) := by
  have nonempty : chunk ≠ [] :=
    conn.received.nonempty chunk (by rw [chunks]; exact mem_cons_self)
  have positive := length_pos_of_ne_nil nonempty
  simp only [ChunkBuffer.bytes, ChunkBuffer.consume, chunks]
  refine ⟨?_, ?_, ?_⟩
  · intro none
    rw [take_eq_nil_iff] at none
    rcases none with zero | empty
    · omega
    · exact nonempty empty
  · split
    · rw [flatten_cons, flatten_cons, ← append_assoc, take_append_drop]
    · rw [flatten_cons, take_of_length_le (by omega)]
  · split
    · exact .inr (by omega)
    · exact .inl rfl

variable {data : List Byte} {limit : Nat}

section

variable {conn after : Connection Session Byte} (layer : RecordLayer Session Byte)

include layer

/-- What the loop has taken is what the buffer has lost. Where it took nothing,
the limit was reached or there was nothing. -/
theorem readerDrainLoop_ok {fuel : Nat} {buf : List Byte}
    (drained : readerDrainLoop layer limit fuel conn buf = (.ok data, after)) :
    ∃ taken, data = buf ++ taken ∧ taken ++ after.received.bytes = conn.received.bytes ∧
      (taken = [] → fuel = 0 ∨ limit ≤ buf.length ∨ conn.received.chunks = []) ∧
      SameSession conn after := by
  induction fuel generalizing conn buf with
  | zero =>
    cases drained
    exact ⟨[], (append_nil _).symm, rfl, fun _ => .inl rfl, .refl _⟩
  | succ fuel ih =>
    simp only [readerDrainLoop] at drained
    by_cases room : buf.length < limit
    · rw [if_pos room] at drained
      have done (nothing : conn.received.chunks = []) (same : (Except.ok buf, conn) =
            ((Except.ok data : Except String (List Byte)), after)) :
          ∃ taken, data = buf ++ taken ∧
            taken ++ after.received.bytes = conn.received.bytes ∧
            (taken = [] → fuel + 1 = 0 ∨ limit ≤ buf.length ∨ conn.received.chunks = []) ∧
            SameSession conn after := by
        cases same
        exact ⟨[], (append_nil _).symm, rfl, fun _ => .inr (.inr nothing), .refl _⟩
      cases filled : conn.fillBuf with
      | chunk =>
        rw [filled] at drained
        obtain ⟨rest, chunks⟩ := exists_of_fillBuf_chunk filled
        obtain ⟨took, bytes, -⟩ := consume_turn chunks (Nat.sub_pos_of_lt room)
        obtain ⟨taken, rfl, remaining, -, same⟩ := ih drained
        refine ⟨_, append_assoc _ _ _, ?_, fun none => ?_,
          same.session, same.unprocessed, same.ending⟩
        · rwa [append_assoc, remaining]
        · exact absurd (append_eq_nil_iff.mp none).1 took
      | cleanEnd | wouldBlock =>
        rw [filled] at drained
        exact done (chunks_eq_nil_of_fillBuf (by simp [filled])) drained
      | unexpectedEof =>
        rw [filled] at drained
        simp only at drained
        split at drained
        · cases drained
        · exact done (chunks_eq_nil_of_fillBuf (by simp [filled])) drained
    · cases (if_neg room).symm.trans drained
      exact ⟨[], (append_nil _).symm, rfl,
        fun _ => .inr (.inl (Nat.not_lt.mp room)), .refl _⟩

theorem readerDrainLoop_error {fuel : Nat} {buf : List Byte} {message : String}
    (drained : readerDrainLoop layer limit fuel conn buf = (.error message, after)) :
    buf = [] ∧ conn.received.chunks = [] ∧ after = conn := by
  induction fuel generalizing conn buf with
  | zero => cases drained
  | succ _ ih =>
    simp only [readerDrainLoop] at drained
    by_cases room : buf.length < limit
    · rw [if_pos room] at drained
      cases filled : conn.fillBuf with
      | chunk =>
        rw [filled] at drained
        obtain ⟨rest, chunks⟩ := exists_of_fillBuf_chunk filled
        obtain ⟨took, -, -⟩ := consume_turn chunks (Nat.sub_pos_of_lt room)
        obtain ⟨none, -, -⟩ := ih drained
        exact absurd (append_eq_nil_iff.mp none).2 took
      | cleanEnd | wouldBlock =>
        rw [filled] at drained
        cases drained
      | unexpectedEof =>
        rw [filled] at drained
        simp only at drained
        split at drained <;> cases drained
        rename_i none
        exact ⟨List.isEmpty_iff.mp none, chunks_eq_nil_of_fillBuf (by simp [filled]), rfl⟩
    · cases (if_neg room).symm.trans drained

/-- `reader_drain` hands out bytes from the front. With room for a byte it hands
out nothing only if there is nothing. -/
theorem readerDrain_ok (room : 0 < limit)
    (drained : conn.readerDrain layer limit = (.ok data, after)) :
    data ++ after.received.bytes = conn.received.bytes ∧
      (data = [] → conn.received.bytes = []) ∧
      SameSession conn after := by
  obtain ⟨taken, rfl, bytes, nothing, same⟩ := readerDrainLoop_ok layer drained
  refine ⟨bytes, fun none => ?_, same⟩
  rcases nothing none with zero | full | empty
  · exact absurd zero (Nat.succ_ne_zero _)
  · exact absurd full (Nat.not_le.mpr room)
  · exact ChunkBuffer.bytes_eq_nil.mpr empty

theorem readerDrain_error {message : String}
    (drained : conn.readerDrain layer limit = (.error message, after)) :
    conn.received.bytes = [] ∧ after = conn := by
  obtain ⟨-, empty, same⟩ := readerDrainLoop_error layer drained
  exact ⟨ChunkBuffer.bytes_eq_nil.mpr empty, same⟩

end

/-! ## Connections and streams -/

/-- The connection has processed exactly the given stream, and `handed` has been
taken out of it. -/
structure Processed (layer : RecordLayer Session Byte) (session : Session)
    (stream handed : List Byte) (connection : Connection Session Byte) : Prop where
  ending : connection.ending = (layer.decode session stream).ending
  plaintext : handed ++ connection.received.bytes = (layer.decode session stream).plaintext
  running : connection.ending = .running →
    connection.session = (layer.decode session stream).session ∧
      connection.unprocessed = (layer.decode session stream).rest

variable {layer : RecordLayer Session Byte} {session : Session}
variable {stream handed : List Byte} {conn : Connection Session Byte}

theorem processed_new (layer : RecordLayer Session Byte) (session : Session)
    (stream : List Byte) :
    Processed layer session stream []
      ((Connection.new session stream).processNewPackets layer) where
  ending := rfl
  plaintext := ChunkBuffer.bytes_append _ _
  running := fun _ => ⟨rfl, rfl⟩

theorem Processed.read (processed : Processed layer session stream handed conn)
    (bytes : List Byte) :
    Processed layer session (stream ++ bytes) handed
      ((conn.readTls bytes).processNewPackets layer) := by
  have decoded := layer.decode_append session stream bytes
  cases ending : conn.ending with
  | running =>
    have running := processed.ending.symm.trans ending
    obtain ⟨atSession, rest⟩ := processed.running ending
    rw [if_pos running] at decoded
    simp only [processNewPackets, readTls, ending]
    rw [atSession, rest]
    refine ⟨?_, ?_, fun _ => ?_⟩
    · rw [decoded]
      rfl
    · rw [decoded, Decoded.plaintext_behind, ChunkBuffer.bytes_append,
        ← append_assoc, processed.plaintext]
      rfl
    · rw [decoded]
      exact ⟨rfl, rfl⟩
  | closed | invalid message =>
    have stopped := processed.ending.symm.trans ending
    rw [if_neg (by simp [stopped])] at decoded
    simp only [processNewPackets, readTls, ending]
    refine ⟨?_, ?_, fun running => ?_⟩
    · rw [decoded, stopped]
    · rw [decoded]
      exact processed.plaintext
    · cases running

theorem Processed.drain {after : Connection Session Byte}
    (processed : Processed layer session stream handed conn)
    (bytes : data ++ after.received.bytes = conn.received.bytes)
    (same : SameSession conn after) :
    Processed layer session stream (handed ++ data) after where
  ending := same.ending.trans processed.ending
  plaintext := by
    rw [append_assoc, bytes]
    exact processed.plaintext
  running := by
    rw [same.ending, same.session, same.unprocessed]
    exact processed.running

end Connection

end Rsloop.Tls
