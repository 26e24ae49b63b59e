import Rsloop.Tls.Connection
import Rsloop.Transition

/-!
# The TLS reader

`run_tls_reader` hands decrypted plaintext to the transport in buffers from a
pool, waits for the socket, reads records and drains what they decrypt to. The
session lock is held from `read_tls` to the end of the flush; the writer worker
does not touch received plaintext.
-/

namespace Rsloop.Tls

open Transition List

variable {Session Byte : Type}

/-- What the reader enqueues for the loop thread. -/
inductive ReadEvent (Byte : Type) where
  | data (bytes : List Byte)
  | eof
  | connectionLost (message : Option String)
  deriving DecidableEq

/-- The caller of `drain_tls_plaintext`: `drain_buffered_tls_plaintext`, or
`read_tls_records` behind an empty read or behind records. -/
inductive DrainFor where
  | buffered
  | socketEnd
  | records
  deriving DecidableEq, Repr

/-- Where `run_tls_reader` is. -/
inductive Position where
  | start
  | top
  | waitUntilReadable
  | drain (purpose : DrainFor) (sawData : Bool)
  | acquire (purpose : DrainFor)
  | waitSocket
  | readTls
  | flush
  | finished
  deriving DecidableEq, Repr

structure TlsReader (Session Byte : Type) where
  connection : Connection Session Byte
  pc : Position
  /-- The capacity of the plaintext buffer. -/
  capacity : Nat
  closing : Bool
  stop : Bool
  /-- Every event the reader has enqueued. -/
  events : List (ReadEvent Byte)
  /-- Every byte the socket has given to the reader. -/
  taken : List Byte
  deriving DecidableEq

/-- The reader of a connection that has processed `early` bytes in its
handshake. -/
def TlsReader.new (layer : RecordLayer Session Byte) (session : Session)
    (early : List Byte) : TlsReader Session Byte where
  connection := (Connection.new session early).processNewPackets layer
  pc := .start
  capacity := 0
  closing := false
  stop := false
  events := []
  taken := []

/-- The environment's answer to the operation at hand. -/
inductive TlsReply (Byte : Type) where
  | done
  | acquired (capacity : Nat)
  | read (bytes : List Byte)
  | wouldBlock
  | failed (message : String)
  deriving DecidableEq

namespace TlsReader

def enqueue (s : TlsReader Session Byte) (event : ReadEvent Byte)
    (pc : Position) : TlsReader Session Byte :=
  { s with events := s.events ++ [event], pc := pc }

/-- The reader reports the loss of the connection and returns. -/
def lost (s : TlsReader Session Byte) (message : Option String) : TlsReader Session Byte :=
  s.enqueue (.connectionLost message) .finished

/-- What the caller of `drain_tls_plaintext` does with its success. -/
def drained (s : TlsReader Session Byte) (purpose : DrainFor) (sawData : Bool) :
    TlsReader Session Byte :=
  match purpose with
  | .buffered => { s with pc := if sawData then .top else .waitSocket }
  | .socketEnd =>
    if sawData then { s with pc := .top }
    else s.enqueue .eof .finished
  | .records => { s with pc := .top }

/-- One turn of `drain_tls_plaintext`. -/
def stepDrain (layer : RecordLayer Session Byte) (s : TlsReader Session Byte)
    (purpose : DrainFor) (sawData : Bool) : TlsReader Session Byte :=
  match s.connection.readerDrain layer s.capacity with
  | (.error message, conn) => { s with connection := conn }.lost (some message)
  | (.ok [], conn) => { s with connection := conn }.drained purpose sawData
  | (.ok data, conn) =>
    { s with connection := conn }.enqueue (.data data) (.acquire purpose)

/-- `acquire_read_buffer_blocking` gives up only on a closing transport. The
first call looks at the stop flag too. -/
def stepAcquire (s : TlsReader Session Byte) (givesUp : Bool)
    (gaveUp : TlsReader Session Byte) (pc : Position) :
    TlsReply Byte → Option (TlsReader Session Byte)
  | .acquired capacity =>
    if givesUp then some gaveUp
    else if capacity = 0 then none
    else some { s with capacity := capacity, pc := pc }
  | _ => if givesUp then some gaveUp else none

/-- `read_tls_records` up to the flush. After a close alert nothing more is
read from the socket. -/
def stepReadTls (layer : RecordLayer Session Byte) (s : TlsReader Session Byte) :
    TlsReply Byte → Option (TlsReader Session Byte)
  | .read bytes =>
    if s.connection.ending = .closed ∧ bytes ≠ [] then
      none
    else
      let conn :=
        (s.connection.readTls bytes).processNewPackets layer
      let s :=
        { s with connection := conn, taken := s.taken ++ bytes }
      match conn.ending with
      | .invalid message => some (s.lost (some message))
      | _ =>
        some { s with
          pc :=
            if bytes = [] then .drain .socketEnd false else .flush }
  | .wouldBlock => some { s with pc := .top }
  | .failed message => some (s.lost (some message))
  | _ => none

end TlsReader

inductive TlsAction (Byte : Type) where
  | reader (reply : TlsReply Byte)
  | close
  | stop
  deriving DecidableEq

def stepTlsReader [DecidableEq Byte] (layer : RecordLayer Session Byte)
    (s : TlsReader Session Byte) (reply : TlsReply Byte) : Option (TlsReader Session Byte) :=
  match s.pc with
  | .start =>
    s.stepAcquire (s.closing || s.stop) { s with pc := .finished } .top reply
  | .top =>
    if s.stop then some { s with pc := .finished }
    else if s.closing then some (s.lost none)
    else some { s with pc := .waitUntilReadable }
  | .waitUntilReadable =>
    if s.closing then some (s.lost none)
    else some { s with pc := .drain .buffered false }
  | .drain purpose sawData => some (s.stepDrain layer purpose sawData)
  | .acquire purpose =>
    s.stepAcquire s.closing
      ({ s with capacity := 0 }.drained purpose true)
      (.drain purpose true) reply
  | .waitSocket =>
    match reply with
    | .done => some { s with pc := .readTls }
    | .failed message => some (s.lost (some message))
    | _ => none
  | .readTls => s.stepReadTls layer reply
  | .flush =>
    match reply with
    | .done => some { s with pc := .drain .records false }
    | .wouldBlock => some s
    | .failed message => some (s.lost (some message))
    | _ => none
  | .finished => none

def tlsStep [DecidableEq Byte] (layer : RecordLayer Session Byte)
    (s : TlsReader Session Byte) :
    TlsAction Byte → Option (TlsReader Session Byte)
  | .reader reply => stepTlsReader layer s reply
  | .close => some { s with closing := true }
  | .stop => some { s with stop := true }

/-! ## Delivery -/

def ReadEvent.bytes : ReadEvent Byte → List Byte
  | .data bytes => bytes
  | _ => []

def ReadEvent.isFinal : ReadEvent Byte → Bool
  | .data _ => false
  | _ => true

/-- The bytes of all data events, in order. -/
def eventBytes (events : List (ReadEvent Byte)) : List Byte :=
  events.flatMap ReadEvent.bytes

def TlsAction.keepsOpen : TlsAction Byte → Bool
  | .reader _ => true
  | .close | .stop => false

/-- The connection has failed for good. -/
def Ending.isInvalid : Ending → Bool
  | .invalid _ => true
  | _ => false

/-- The answer at which the reader gives up with what it has decrypted since the
last drain: an invalid record, or a failing flush. -/
def TlsReader.strands (layer : RecordLayer Session Byte) (s : TlsReader Session Byte) :
    TlsReply Byte → List Byte
  | .read bytes =>
    let conn :=
      (s.connection.readTls bytes).processNewPackets layer
    if s.pc = .readTls ∧ conn.ending.isInvalid then
      conn.received.bytes
    else
      []
  | .failed _ => if s.pc = .flush then s.connection.received.bytes else []
  | _ => []

/-- An invalid record comes first in its batch, and a flush fails only behind
records without plaintext. -/
def CleanFailures (layer : RecordLayer Session Byte) (s : TlsReader Session Byte) :
    TlsAction Byte → Prop
  | .reader reply => s.strands layer reply = []
  | _ => True

instance [DecidableEq Byte] (layer : RecordLayer Session Byte) (s : TlsReader Session Byte) :
    DecidablePred (CleanFailures layer s) := fun action =>
  match action with
  | .reader reply => inferInstanceAs (Decidable (s.strands layer reply = []))
  | .close | .stop => .isTrue trivial

@[simp]
theorem eventBytes_append (earlier later : List (ReadEvent Byte)) :
    eventBytes (earlier ++ later) = eventBytes earlier ++ eventBytes later := by
  simp [eventBytes]

variable {event : ReadEvent Byte}

theorem eventBytes_final (final : event.isFinal) : eventBytes [event] = [] := by
  cases event with
  | data => cases final
  | eof | connectionLost message => rfl

/-- Positions at which everything decrypted has been handed out. -/
def Position.isDry : Position → Bool
  | .waitSocket | .readTls | .finished => true
  | _ => false

/-- What holds of the reader of an open transport while failures are clean. -/
structure Delivering (layer : RecordLayer Session Byte) (session : Session)
    (early : List Byte) (s : TlsReader Session Byte) : Prop where
  notClosing : s.closing = false
  notStopped : s.stop = false
  capacity : s.pc ≠ .start → 0 < s.capacity
  processed : Connection.Processed layer session (early ++ s.taken)
    (eventBytes s.events) s.connection
  dry : s.pc.isDry → s.connection.received.bytes = []
  dataOnly : s.pc ≠ .finished → ∀ event ∈ s.events, event.isFinal = false
  ended : s.pc = .finished → ∃ datas final, s.events = datas ++ [final] ∧
      (∀ event ∈ datas, event.isFinal = false) ∧ final.isFinal

variable {layer : RecordLayer Session Byte} {session : Session}
variable {early : List Byte} {s next : TlsReader Session Byte}

theorem delivering_new (layer : RecordLayer Session Byte) (session : Session)
    (early : List Byte) :
    Delivering layer session early (TlsReader.new layer session early) where
  notClosing := rfl
  notStopped := rfl
  capacity := fun started => absurd rfl started
  processed := by
    change Connection.Processed layer session (early ++ []) [] _
    rw [append_nil]
    exact Connection.processed_new layer session early
  dry := nofun
  dataOnly := fun _ event mem => by cases mem
  ended := fun finished => by cases finished

theorem Delivering.move (inv : Delivering layer session early s)
    (active : s.pc ≠ .finished) (pc : Position)
    (goesOn : pc ≠ .finished) {capacity : Nat} (room : 0 < capacity)
    (dry : pc.isDry → s.connection.received.bytes = []) :
    Delivering layer session early { s with pc := pc, capacity := capacity } :=
  { inv with
    capacity := fun _ => room
    dry := dry
    dataOnly := fun _ => inv.dataOnly active
    ended := fun finished => absurd finished goesOn }

/-- The reader reports the end, with nothing left to hand out. -/
theorem Delivering.finish (inv : Delivering layer session early s)
    (active : s.pc ≠ .finished) (started : s.pc ≠ .start)
    (dry : s.connection.received.bytes = []) (final : event.isFinal) :
    Delivering layer session early (s.enqueue event .finished) :=
  { inv with
    capacity := fun _ => inv.capacity started
    processed := by
      change Connection.Processed layer session _ (eventBytes (s.events ++ [event])) _
      rw [eventBytes_append, eventBytes_final final, append_nil]
      exact inv.processed
    dry := fun _ => dry
    dataOnly := fun goesOn => absurd rfl goesOn
    ended := fun _ => ⟨s.events, event, rfl, inv.dataOnly active, final⟩ }

variable {reply : TlsReply Byte}

/-- A wait for a buffer that does not give up ends with one. -/
theorem exists_of_stepAcquire
    {givesUp : Bool} {gaveUp : TlsReader Session Byte} {pc : Position}
    (stays : givesUp = false)
    (moved : s.stepAcquire givesUp gaveUp pc reply = some next) :
    ∃ capacity, 0 < capacity ∧
      next = { s with capacity := capacity, pc := pc } := by
  subst stays
  cases reply with
  | acquired capacity =>
    simp only [TlsReader.stepAcquire, Bool.false_eq_true, if_false] at moved
    split_ifs at moved with some
    cases moved
    exact ⟨capacity, Nat.pos_of_ne_zero some, rfl⟩
  | _ => simp [TlsReader.stepAcquire] at moved

section

variable (inv : Delivering layer session early s)

include inv

theorem Delivering.drained (active : s.pc ≠ .finished)
    (started : s.pc ≠ .start) (purpose : DrainFor) (sawData : Bool)
    (dry : sawData = false → s.connection.received.bytes = []) :
    Delivering layer session early (s.drained purpose sawData) := by
  have room := inv.capacity started
  cases purpose with
  | buffered =>
    cases sawData with
    | true => exact inv.move active .top (by simp) room (by simp [Position.isDry])
    | false => exact inv.move active .waitSocket (by simp) room (fun _ => dry rfl)
  | socketEnd =>
    cases sawData with
    | true => exact inv.move active .top (by simp) room (by simp [Position.isDry])
    | false => exact inv.finish active started (dry rfl) rfl
  | records => exact inv.move active .top (by simp) room (by simp [Position.isDry])

theorem delivering_stepDrain {purpose : DrainFor} {sawData : Bool}
    (pos : s.pc = .drain purpose sawData) :
    Delivering layer session early (s.stepDrain layer purpose sawData) := by
  have active : s.pc ≠ .finished := by simp [pos]
  have started : s.pc ≠ .start := by simp [pos]
  have room := inv.capacity started
  unfold TlsReader.stepDrain
  split
  next message conn drained =>
    obtain ⟨dry, rfl⟩ := Connection.readerDrain_error layer drained
    exact inv.finish active started dry rfl
  next conn drained =>
    obtain ⟨bytes, nothing, same⟩ := Connection.readerDrain_ok layer room drained
    have processed := inv.processed.drain bytes same
    rw [append_nil] at processed
    have dry : conn.received.bytes = [] := by
      exact bytes.trans (nothing rfl)
    have inv' : Delivering layer session early
        { s with connection := conn } :=
      { inv with processed := processed, dry := fun _ => dry }
    exact inv'.drained active started purpose sawData (fun _ => dry)
  next data conn _ drained =>
    obtain ⟨bytes, -, same⟩ := Connection.readerDrain_ok layer room drained
    refine
      { inv with
        capacity := fun _ => room
        processed := ?_
        dry := nofun
        dataOnly := fun _ => ?_
        ended := nofun }
    · change Connection.Processed layer session _
        (eventBytes (s.events ++ [.data data])) conn
      rw [eventBytes_append]
      exact inv.processed.drain (by simpa [eventBytes, ReadEvent.bytes] using bytes) same
    · intro event mem
      rcases mem_append.mp mem with old | new
      · exact inv.dataOnly active event old
      · rw [mem_singleton.mp new]
        rfl

theorem delivering_stepReadTls (pc : s.pc = .readTls)
    (clean : s.strands layer reply = [])
    (moved : s.stepReadTls layer reply = some next) :
    Delivering layer session early next := by
  have active : s.pc ≠ .finished := by simp [pc]
  have started : s.pc ≠ .start := by simp [pc]
  have room := inv.capacity started
  unfold TlsReader.stepReadTls at moved
  cases reply with
  | read bytes =>
    simp only at moved
    split at moved
    · cases moved
    have processed := inv.processed.read bytes
    rw [append_assoc] at processed
    have read : Delivering layer session early
        { s with
          connection := (s.connection.readTls bytes).processNewPackets layer
          taken := s.taken ++ bytes
          pc := .flush } :=
      { inv with
        capacity := fun _ => room
        processed := processed
        dry := nofun
        dataOnly := fun _ => inv.dataOnly active
        ended := nofun }
    split at moved
    next message ending =>
      cases moved
      have dry : ((s.connection.readTls bytes).processNewPackets
          layer).received.bytes = [] := by
        simpa [TlsReader.strands, pc, ending, Ending.isInvalid] using clean
      exact read.finish (by simp) (by simp) dry rfl
    next =>
      cases moved
      by_cases ends : bytes = []
      · rw [if_pos ends]
        exact read.move (by simp) (.drain .socketEnd false) (by simp) room
          (by simp [Position.isDry])
      · rwa [if_neg ends]
  | wouldBlock =>
    cases moved
    exact inv.move active .top (by simp) room (by simp [Position.isDry])
  | failed =>
    cases moved
    exact inv.finish active started (inv.dry (by rw [pc]; rfl)) rfl
  | done | acquired capacity => cases moved

theorem delivering_stepTlsReader [DecidableEq Byte]
    (clean : s.strands layer reply = [])
    (moved : stepTlsReader layer s reply = some next) :
    Delivering layer session early next := by
  unfold stepTlsReader at moved
  cases pos : s.pc with
  | start =>
    simp only [pos] at moved
    have stays : (s.closing || s.stop) = false := by
      rw [inv.notClosing, inv.notStopped]
      rfl
    obtain ⟨capacity, room, rfl⟩ := exists_of_stepAcquire stays moved
    exact inv.move (by simp [pos]) .top (by simp) room (by simp [Position.isDry])
  | top =>
    simp only [pos] at moved
    rw [if_neg (by simp [inv.notStopped]), if_neg (by simp [inv.notClosing])] at moved
    cases moved
    exact inv.move (by simp [pos]) .waitUntilReadable (by simp)
      (inv.capacity (by simp [pos])) (by simp [Position.isDry])
  | waitUntilReadable =>
    simp only [pos] at moved
    rw [if_neg (by simp [inv.notClosing])] at moved
    cases moved
    exact inv.move (by simp [pos]) (.drain .buffered false) (by simp)
      (inv.capacity (by simp [pos])) (by simp [Position.isDry])
  | drain =>
    simp only [pos] at moved
    cases moved
    exact delivering_stepDrain inv pos
  | acquire purpose =>
    simp only [pos] at moved
    obtain ⟨capacity, room, rfl⟩ := exists_of_stepAcquire inv.notClosing moved
    exact inv.move (by simp [pos]) (.drain purpose true) (by simp) room (by simp [Position.isDry])
  | waitSocket =>
    simp only [pos] at moved
    have dry := inv.dry (by rw [pos]; rfl)
    cases reply with
    | done =>
      cases moved
      exact inv.move (by simp [pos]) .readTls (by simp)
        (inv.capacity (by simp [pos])) (fun _ => dry)
    | failed =>
      cases moved
      exact inv.finish (by simp [pos]) (by simp [pos]) dry rfl
    | acquired capacity | read bytes | wouldBlock => cases moved
  | readTls =>
    simp only [pos] at moved
    exact delivering_stepReadTls inv pos clean moved
  | flush =>
    simp only [pos] at moved
    cases reply with
    | done =>
      cases moved
      exact inv.move (by simp [pos]) (.drain .records false) (by simp)
        (inv.capacity (by simp [pos])) (by simp [Position.isDry])
    | wouldBlock =>
      cases moved
      exact inv
    | failed =>
      cases moved
      have dry : s.connection.received.bytes = [] := by
        simpa [TlsReader.strands, pos] using clean
      exact inv.finish (by simp [pos]) (by simp [pos]) dry rfl
    | acquired capacity | read bytes => cases moved
  | finished => simp [pos] at moved

end

/-- Let the reader of an open transport run on any stream, cut into any reads,
with buffers of any size. If each failure is clean, then by the time the reader
has reported the end, its data events carry the plaintext of all records that
were accepted. -/
theorem eventBytes_eq_plaintext_of_cleanFailures
    [DecidableEq Byte] (layer : RecordLayer Session Byte) (session : Session)
    (early : List Byte) {actions : List (TlsAction Byte)}
    {s : TlsReader Session Byte}
    (keepsOpen : ∀ action ∈ actions, action.keepsOpen)
    (clean : Guarded (tlsStep layer) (CleanFailures layer)
      (TlsReader.new layer session early) actions)
    (reached :
      run (tlsStep layer) (TlsReader.new layer session early) actions = some s)
    (finished : s.pc = .finished) :
    ∃ datas final, s.events = datas ++ [final] ∧
      (∀ event ∈ datas, event.isFinal = false) ∧ final.isFinal ∧
      eventBytes datas = (layer.decode session (early ++ s.taken)).plaintext := by
  have stays : Guarded (tlsStep layer) (fun _ action => action.keepsOpen)
      (TlsReader.new layer session early) actions :=
    guarded_of_forall fun action member _ => keepsOpen action member
  have inv : Delivering layer session early s := by
    refine invariant_of_run (Delivering layer session early) ?_
      (delivering_new layer session early) (stays.and clean) reached
    rintro before action after inv ⟨stays, clean⟩ moved
    cases action with
    | reader => exact delivering_stepTlsReader inv clean moved
    | close | stop => cases stays
  obtain ⟨datas, final, events, dataOnly, isFinal⟩ := inv.ended finished
  refine ⟨datas, final, events, dataOnly, isFinal, ?_⟩
  have plaintext := inv.processed.plaintext
  rw [inv.dry (by rw [finished]; rfl), append_nil, events,
    eventBytes_append, eventBytes_final isFinal, append_nil] at plaintext
  exact plaintext

/-! ## A record layer without encryption -/

/-- A record is its length and its plaintext; length 0 is the close alert and
255 is not valid. -/
def nextTagged : Unit → List UInt8 → Option (Record UInt8 × Unit × List UInt8)
  | _, [] => none
  | _, tag :: rest =>
    if tag = 0 then some (.closeNotify, (), rest)
    else if tag = 255 then some (.invalid "bad record", (), rest)
    else if tag.toNat ≤ rest.length then
      some (.plaintext (rest.take tag.toNat), (), rest.drop tag.toNat)
    else
      none

def taggedLayer : RecordLayer Unit UInt8 where
  next := nextTagged
  shorter := by
    intro session bytes record after rest found
    cases bytes with
    | nil => cases found
    | cons tag body =>
      simp only [nextTagged] at found
      split at found
      · cases found
        exact Nat.lt_succ_self _
      · split at found
        · cases found
          exact Nat.lt_succ_self _
        · split_ifs at found
          cases found
          rw [List.length_drop, List.length_cons]
          omega
  stable := by
    intro session bytes record after rest found more
    cases bytes with
    | nil => cases found
    | cons tag body =>
      simp only [nextTagged, List.cons_append] at found ⊢
      by_cases close : tag = 0
      · rw [if_pos close] at found ⊢
        cases found
        rfl
      · rw [if_neg close] at found ⊢
        by_cases bad : tag = 255
        · rw [if_pos bad] at found ⊢
          cases found
          rfl
        · rw [if_neg bad] at found ⊢
          split_ifs at found with complete
          cases found
          rw [if_pos (by rw [List.length_append]; omega),
            List.take_append_of_le_length complete,
            List.drop_append_of_le_length complete]
  unexpectedEof := "unexpected end of file"

/-- From the top of the loop to the next read of records. -/
def upToRead : List (TlsAction UInt8) :=
  [.reader .done, .reader .done, .reader .done, .reader .done]

/-- A record comes in two reads and is handed out byte by byte; then an invalid
record comes alone. -/
def invalidAlone : List (TlsAction UInt8) :=
  List.flatten [[.reader (.acquired 1)], upToRead,
      [.reader (.read [2, 10]), .reader .done, .reader .done], upToRead,
      [.reader (.read [11]), .reader .done, .reader .done,
        .reader (.acquired 1), .reader .done, .reader (.acquired 1),
        .reader .done],
      upToRead, [.reader (.read [255])]]

theorem eventBytes_eq_plaintext_of_invalidAlone : ∃ s,
      run (tlsStep taggedLayer) (TlsReader.new taggedLayer () []) invalidAlone = some s ∧
        s.events = [.data [10], .data [11], .connectionLost (some "bad record")] ∧
        ∃ datas final, s.events = datas ++ [final] ∧
          (∀ event ∈ datas, event.isFinal = false) ∧ final.isFinal ∧
          eventBytes datas = (taggedLayer.decode () ([] ++ s.taken)).plaintext := by
  refine exists_run_imp (fun s => s.pc = .finished ∧ s.events = [.data [10], .data
      [11], .connectionLost (some "bad record")]) (by decide) ?_
  rintro s reached ⟨finished, events⟩
  exact ⟨events, eventBytes_eq_plaintext_of_cleanFailures taggedLayer () [] (by decide) (by decide)
    reached finished⟩

/-- A valid record and an invalid one in a single read, and a valid record
behind which the flush fails. -/
theorem plaintext_stranded : (∃ s, run (tlsStep taggedLayer) (TlsReader.new taggedLayer () [])
          (.reader (.acquired 16) :: upToRead ++ [.reader (.read [2, 10, 11, 255])]) = some s ∧
        s.events = [.connectionLost (some "bad record")] ∧
        (taggedLayer.decode () s.taken).plaintext = [10, 11]) ∧
      ∃ s, run (tlsStep taggedLayer) (TlsReader.new taggedLayer () [])
            (.reader (.acquired 16) :: upToRead ++ [.reader (.read [2, 10, 11]),
                .reader (.failed "broken pipe")]) = some s ∧
          s.events = [.connectionLost (some "broken pipe")] ∧
          (taggedLayer.decode () s.taken).plaintext = [10, 11] := by
  constructor
  · exact exists_run_of_any (tlsStep taggedLayer) (TlsReader.new taggedLayer () []) _
      (fun s => s.events = [.connectionLost (some "bad record")] ∧
        (taggedLayer.decode () s.taken).plaintext = [10, 11]) (by decide)
  · exact exists_run_of_any (tlsStep taggedLayer) (TlsReader.new taggedLayer () []) _
      (fun s => s.events = [.connectionLost (some "broken pipe")] ∧
        (taggedLayer.decode () s.taken).plaintext = [10, 11]) (by decide)

end Rsloop.Tls
