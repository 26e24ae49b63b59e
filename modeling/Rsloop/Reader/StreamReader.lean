import Mathlib.Algebra.Order.Ring.Nat
import Mathlib.Data.List.Sort
import Rsloop.Reader.ReadBuffer

/-!
# The native stream reader

`PyFastStreamReader`: bytes are fed into a sliding buffer, and a read either
takes them from there at once or leaves a waiter, of which there is at most one.
The waiter of an exact read collects its bytes in an accumulator. Futures are
cancelled behind the reader's back; it finds out at its next call or when the
done callback runs.
-/

namespace Rsloop.Reader

/-! ## Separators -/

/-- First occurrence of `needle` in `haystack` -/
def find (needle : Bytes) : Bytes → Option Nat
  | [] => if needle.isPrefixOf [] then some 0 else none
  | byte :: rest =>
    if needle.isPrefixOf (byte :: rest) then some 0
    else (find needle rest).map (· + 1)

def findFrom (haystack needle : Bytes) (start : Nat) : Option Nat :=
  if haystack.length < start then none else (find needle (haystack.drop start)).map (· + start)

/-- Shortest first; separators of one length keep their order. -/
def sortByLength (separators : List Bytes) : List Bytes :=
  separators.insertionSort fun first second => first.length ≤ second.length

inductive UntilScan where
  | found (matchStart matchEnd : Nat)
  | needMore
  | overLimit (consumed : Nat)
  deriving DecidableEq

def UntilScan.isPending (scan : UntilScan) (eof : Bool) : Bool :=
  decide (scan = .needMore) && !eof

/-- One `readuntil()` or `readline()`. The first `offset` bytes of the buffer are
known not to start a separator. -/
structure UntilReadState where
  separators : List Bytes
  minSeplen : Nat
  maxSeplen : Nat
  offset : Nat
  lineMode : Bool
  minSeplen_pos : 0 < minSeplen

namespace UntilReadState

def new (separators : List Bytes) (lineMode : Bool) : Except String UntilReadState :=
  match sortByLength separators with
  | [] => .error "Separator should contain at least one element"
  | shortest :: rest =>
    if positive : 0 < shortest.length then
      .ok
        { separators := shortest :: rest
          minSeplen := shortest.length
          maxSeplen := ((shortest :: rest).getLast?.map List.length).getD 0
          offset := 0
          lineMode := lineMode
          minSeplen_pos := positive }
    else
      .error "Separator should be at least one-byte string"

/-- `consider`: a match replaces one that ends later. -/
def consider (buf : Bytes) (offset : Nat) (best : Option (Nat × Nat))
    (separator : Bytes) : Option (Nat × Nat) :=
  match findFrom buf separator offset with
  | none => best
  | some matchStart =>
    let matchEnd := matchStart + separator.length
    match best with
    | none => some (matchStart, matchEnd)
    | some (_, bestEnd) => if matchEnd < bestEnd then some (matchStart, matchEnd) else best

def scan (s : UntilReadState) (buf : Bytes) (limit : Nat) : UntilScan × UntilReadState :=
  if buf.length - s.offset < s.minSeplen then
    (.needMore, s)
  else
    match s.separators.foldl (consider buf s.offset) none with
    | some (matchStart, matchEnd) => (.found matchStart matchEnd, s)
    | none =>
      let offset := buf.length + 1 - s.maxSeplen
      if limit < offset then
        (.overLimit offset, { s with offset := offset })
      else
        (.needMore, { s with offset := offset })

end UntilReadState

/-! ## Waiters and futures -/

/-- What a pending read waits for, with its accumulator or its search state -/
inductive ReadWaitKind where
  | any (n : Nat)
  | exactly (acc : ExactReadAccumulator)
  | all
  | separator (s : UntilReadState)

/-- The bytes that a pending read has taken out of the buffer -/
def ReadWaitKind.collected : ReadWaitKind → Bytes
  | .exactly acc => acc.filled
  | .any _ | .all | .separator _ => []

structure ReadWaiter where
  future : Nat
  kind : ReadWaitKind

inductive ReadRequest where
  | any (n : Nat)
  | exactly (n : Nat)
  | all
  | separator (s : UntilReadState)

inductive FutureState where
  | pending
  | cancelled
  | finished
  deriving DecidableEq

inductive PyError where
  | valueError (message : String)
  | overflowError
  | invalidStateError
  | other (text : String)
  deriving DecidableEq

/-- What a call has come to: the value or the exception of its awaitable, or the
exception that the call itself raises. `discarded` is what `readline()` drops with
a line that is over the limit. -/
inductive Outcome where
  | value (data : Bytes)
  | incompleteRead (received : Bytes) (expected : Option Nat)
  | limitOverrun (message : String) (consumed : Nat)
  | lineTooLong (message : String) (discarded : Bytes)
  | exception (error : PyError)
  | raised (error : PyError)
  deriving DecidableEq

inductive TransportCall where
  | pauseReading
  | resumeReading
  deriving DecidableEq

/-- The transport that is paused and resumed, with the reader's calls on it;
`pauses` is false for one whose `pause_reading` is not implemented. -/
structure ReaderTransport where
  pauses : Bool
  calls : List TransportCall

def ReaderTransport.call (call : TransportCall) (transport : ReaderTransport) : ReaderTransport :=
  { transport with calls := transport.calls ++ [call] }

/-- `futures` are the futures of the reads so far, by number. `outcomes` is the
history: what the reads have come to. -/
structure StreamReader where
  limit : Nat
  buffer : ReadBuffer
  waiter : Option ReadWaiter
  transport : Option ReaderTransport
  paused : Bool
  eof : Bool
  exception : Option PyError
  futures : List FutureState
  outcomes : List Outcome

namespace StreamReader

def new (limit : Nat) : StreamReader where
  limit := limit
  buffer := .withCapacity (min limit 4096)
  waiter := none
  transport := none
  paused := false
  eof := false
  exception := none
  futures := []
  outcomes := []

/-- The call or its awaitable comes to its end at once. -/
def finish (r : StreamReader) (outcome : Outcome) : StreamReader :=
  { r with outcomes := r.outcomes ++ [outcome] }

/-- `set_future_result_or_ignore_cancelled` and
`set_future_exception_or_ignore_cancelled` -/
def settle (r : StreamReader) (future : Nat) (outcome : Outcome) : StreamReader :=
  match r.futures[future]? with
  | some .pending =>
    { r with
      futures := r.futures.set future .finished
      outcomes := r.outcomes ++ [outcome] }
  | some .cancelled => r
  | _ => r.finish (.raised .invalidStateError)

def maybeResumeTransport (r : StreamReader) : StreamReader :=
  if r.paused ∧ r.buffer.len ≤ r.limit ∧ r.transport.isSome then
    { r with paused := false, transport := r.transport.map (.call .resumeReading) }
  else
    r

/-- A waiting coroutine is never starved: the transport is only paused while
nobody waits. -/
def maybePauseTransport (r : StreamReader) : StreamReader :=
  match r.transport with
  | none => r
  | some transport =>
    if r.waiter.isNone ∧ r.paused = false ∧
        2 * r.limit < r.buffer.len then
      if transport.pauses then
        { r with paused := true, transport := some (transport.call .pauseReading) }
      else
        { r with transport := none }
    else
      r

/-- What an exact read has collected goes back in front of newer data. -/
def clearCancelledWaiter (r : StreamReader) : StreamReader :=
  match r.waiter with
  | none => r
  | some waiter =>
    if r.futures[waiter.future]? = some .cancelled then
      maybePauseTransport
        { r with waiter := none, buffer := r.buffer.prepend waiter.kind.collected }
    else
      r

/-! ## Reads that end with a separator -/

def newline : UInt8 := 10

/-- What `readline()` drops: the line with its newline, or everything -/
def overlongLine (unread : Bytes) (consumed : Nat) : Nat :=
  if unread[consumed]? = some newline then consumed + 1 else unread.length

def untilLimitOverrun (r : StreamReader) (message : String) (consumed : Nat)
    (lineMode : Bool) : StreamReader × Outcome :=
  if lineMode then
    let dropped := overlongLine r.buffer.unread consumed
    (maybeResumeTransport { r with buffer := r.buffer.consume dropped },
      .lineTooLong message (r.buffer.unread.take dropped))
  else
    -- the buffer is left for another try with a larger limit
    (r, .limitOverrun message consumed)

def resolveUntilScan (r : StreamReader) (scan : UntilScan) (lineMode : Bool) :
    StreamReader × Outcome :=
  match scan with
  | .found matchStart matchEnd =>
    if r.limit < matchStart then
      r.untilLimitOverrun "Separator is found, but chunk is longer than limit"
        matchStart lineMode
    else
      (maybeResumeTransport { r with buffer := r.buffer.consume matchEnd },
        .value (r.buffer.unread.take matchEnd))
  | .overLimit consumed =>
    r.untilLimitOverrun "Separator is not found, and chunk exceed the limit" consumed lineMode
  | .needMore =>
    ({ r with buffer := r.buffer.consumeAll },
      if lineMode then .value r.buffer.unread
      else .incompleteRead r.buffer.unread none)

/-! ## The waiter -/

def completeAny (r : StreamReader) (future n : Nat) : StreamReader :=
  if r.buffer.isEmpty ∧ r.eof = false then
    r
  else
    (maybeResumeTransport
      { r with waiter := none, buffer := r.buffer.consume n }).settle future
      (.value (r.buffer.unread.take n))

def completeExactly (r : StreamReader) (future : Nat)
    (acc : ExactReadAccumulator) : StreamReader :=
  let (filled, buf) := acc.fillFrom r.buffer
  if filled.expected ≤ filled.filled.length then
    (maybeResumeTransport { r with waiter := none, buffer := buf }).settle future
      (.value filled.filled)
  else if r.eof then
    settle { r with waiter := none, buffer := buf } future
      (.incompleteRead filled.filled (some filled.expected))
  else
    { r with waiter := some { future := future, kind := .exactly filled }, buffer := buf }

def completeAll (r : StreamReader) (future : Nat) : StreamReader :=
  if r.eof then
    settle
      { r with waiter := none, buffer := r.buffer.consumeAll } future
      (.value r.buffer.unread)
  else
    r

def completeSeparator (r : StreamReader) (future : Nat) (s : UntilReadState) :
    StreamReader :=
  let (scan, next) := s.scan r.buffer.unread r.limit
  if scan.isPending r.eof then
    { r with waiter := some { future := future, kind := .separator next } }
  else
    let (resolved, outcome) :=
      resolveUntilScan { r with waiter := none } scan s.lineMode
    resolved.settle future outcome

def completeWaiter (r : StreamReader) (waiter : ReadWaiter) : StreamReader :=
  match r.exception with
  | some error => settle { r with waiter := none } waiter.future (.exception error)
  | none =>
    match waiter.kind with
    | .any n => r.completeAny waiter.future n
    | .exactly acc => r.completeExactly waiter.future acc
    | .all => r.completeAll waiter.future
    | .separator s => r.completeSeparator waiter.future s

def maybeCompleteWaiter (r : StreamReader) : StreamReader :=
  let cleared := r.clearCancelledWaiter
  match cleared.waiter with
  | none => cleared
  | some waiter => cleared.completeWaiter waiter

def maxSize : Nat := 2 ^ 63 - 1

def resumeForWaiter (r : StreamReader) : StreamReader :=
  if r.paused ∧ r.transport.isSome then
    { r with paused := false, transport := r.transport.map (.call .resumeReading) }
  else
    r

/-- A new future, and the waiter that holds it -/
def attachWaiter (r : StreamReader) (kind : ReadWaitKind) : StreamReader :=
  { r with
    futures := r.futures ++ [.pending]
    waiter := some { future := r.futures.length, kind := kind } }

def startWaiter (r : StreamReader) (funcName : String) (request : ReadRequest) :
    StreamReader :=
  if r.waiter.isSome then
    r.finish (.raised (.valueError (funcName ++
      "() called while another coroutine is already waiting for incoming data")))
  else
    match request with
    | .any n => r.resumeForWaiter.attachWaiter (.any n)
    | .all => r.resumeForWaiter.attachWaiter .all
    | .separator s => r.resumeForWaiter.attachWaiter (.separator s)
    | .exactly n =>
      if maxSize < n then
        finish
          { r.resumeForWaiter with futures := r.futures ++ [.pending] }
          (.raised .overflowError)
      else
        let (filled, buf) := (ExactReadAccumulator.new n).fillFrom r.buffer
        attachWaiter { r.resumeForWaiter with buffer := buf } (.exactly filled)

/-! ## Feeding -/

/-- Bytes for a pending exact read go straight into its accumulator. -/
def fillExactFromIncoming (r : StreamReader) (data : Bytes) : StreamReader × Nat :=
  let cleared := r.clearCancelledWaiter
  match cleared.waiter with
  | some { future, kind := .exactly acc } =>
    if cleared.exception = none ∧ cleared.buffer.isEmpty then
      ({ cleared with
          waiter := some { future := future, kind := .exactly (acc.fillFromSlice data) } },
        acc.fillAmount data.length)
    else
      (cleared, 0)
  | _ => (cleared, 0)

def feedData (r : StreamReader) (data : Bytes) : StreamReader :=
  if r.eof then
    r.finish (.raised (.valueError "feed_data after feed_eof"))
  else
    let (filled, consumed) := r.fillExactFromIncoming data
    maybePauseTransport (maybeCompleteWaiter
      { filled with buffer := filled.buffer.extend (data.drop consumed) })

/-- The allocation of a transport's pool comes with the bytes. -/
def feedOwnedData (r : StreamReader) (data : Bytes) (capacity : Nat) : StreamReader :=
  if r.eof then
    r.finish (.raised (.valueError "feed_data after feed_eof"))
  else
    let (filled, consumed) := r.fillExactFromIncoming data
    maybePauseTransport (maybeCompleteWaiter
      { filled with
        buffer :=
          if consumed = 0 then filled.buffer.extendOwned (.fromPooled data capacity)
          else filled.buffer.extend (data.drop consumed) })

def feedEof (r : StreamReader) : StreamReader :=
  maybeCompleteWaiter { r with eof := true }

def setException (r : StreamReader) (error : PyError) : StreamReader :=
  maybeCompleteWaiter { r with exception := some error }

/-! ## Reading -/

/-- `unread_bytes_object`, handed out at once -/
def readNow (r : StreamReader) (n : Nat) : StreamReader :=
  (maybeResumeTransport { r with buffer := r.buffer.consume n }).finish
    (.value (r.buffer.unread.take n))

/-- `build_read_future` behind its checks -/
def readAtMost (r : StreamReader) (n : Int) : StreamReader :=
  if n = 0 then
    r.finish (.value [])
  else if n < 0 then
    if r.eof then
      finish { r with buffer := r.buffer.consumeAll } (.value r.buffer.unread)
    else
      r.startWaiter "read" .all
  else if r.buffer.isEmpty = false ∨ r.eof then
    r.readNow n.toNat
  else
    r.startWaiter "read" (.any n.toNat)

def buildReadFuture (r : StreamReader) (n : Int) : StreamReader :=
  match r.clearCancelledWaiter.exception with
  | some error => r.clearCancelledWaiter.finish (.exception error)
  | none => r.clearCancelledWaiter.readAtMost n

/-- `build_readexactly_future` behind its checks -/
def readSize (r : StreamReader) (n : Nat) : StreamReader :=
  if n = 0 then
    r.finish (.value [])
  else if n ≤ r.buffer.len then
    r.readNow n
  else if r.eof then
    finish { r with buffer := r.buffer.consumeAll }
      (.incompleteRead r.buffer.unread (some n))
  else
    r.startWaiter "readexactly" (.exactly n)

def buildReadexactlyFuture (r : StreamReader) (n : Nat) : StreamReader :=
  match r.clearCancelledWaiter.exception with
  | some error => r.clearCancelledWaiter.finish (.exception error)
  | none => r.clearCancelledWaiter.readSize n

/-- `build_until_future` behind its checks. The buffer is searched before the end
of the stream may end the read. -/
def readSeparated (r : StreamReader) (funcName : String) (s : UntilReadState) :
    StreamReader :=
  let (scan, next) := s.scan r.buffer.unread r.limit
  if scan.isPending r.eof then
    r.startWaiter funcName (.separator next)
  else
    let (resolved, outcome) := r.resolveUntilScan scan s.lineMode
    resolved.finish outcome

def buildUntilFuture (r : StreamReader) (funcName : String)
    (s : UntilReadState) : StreamReader :=
  match r.exception with
  | some error => r.finish (.exception error)
  | none => r.clearCancelledWaiter.readSeparated funcName s

def read (r : StreamReader) (n : Int) : StreamReader :=
  if -(2 ^ 63) ≤ n ∧ n < 2 ^ 63 then
    r.buildReadFuture n
  else
    r.finish (.raised .overflowError)

def readexactly (r : StreamReader) (n : Int) : StreamReader :=
  if n < 0 then
    r.finish (.exception (.valueError "readexactly size can not be less than zero"))
  else if n < 2 ^ 64 then
    r.buildReadexactlyFuture n.toNat
  else
    r.finish (.raised .overflowError)

def readuntil (r : StreamReader) (separators : List Bytes) : StreamReader :=
  match UntilReadState.new separators false with
  | .error message => r.finish (.exception (.valueError message))
  | .ok s => r.buildUntilFuture "readuntil" s

def readline (r : StreamReader) : StreamReader :=
  match UntilReadState.new [[newline]] true with
  | .error message => r.finish (.raised (.valueError message))
  | .ok s => r.buildUntilFuture "readline" s

/-! ## Behind the reader's back -/

/-- `future.cancel()` -/
def cancel (r : StreamReader) (future : Nat) : StreamReader :=
  if r.futures[future]? = some .pending then
    { r with futures := r.futures.set future .cancelled }
  else
    r

/-- The deferred done callback of a future -/
def waiterDone (r : StreamReader) (future : Nat) : StreamReader :=
  match r.waiter with
  | none => r
  | some waiter => if waiter.future = future then r.clearCancelledWaiter else r

def setTransportObj (r : StreamReader) (transport : Option ReaderTransport) : StreamReader :=
  maybeResumeTransport { r with transport := transport }

def setBuffer (r : StreamReader) (data : Bytes) : StreamReader :=
  { r with buffer := r.buffer.replace data }

end StreamReader

inductive ReaderCall where
  | feedData (data : Bytes)
  | feedOwnedData (data : Bytes) (capacity : Nat)
  | feedEof
  | read (n : Int)
  | readexactly (n : Int)
  | readuntil (separators : List Bytes)
  | readline
  | cancel (future : Nat)
  | waiterDone (future : Nat)
  | setTransportObj (transport : Option ReaderTransport)
  | setException (error : PyError)
  | setBuffer (data : Bytes)

def perform (r : StreamReader) : ReaderCall → StreamReader
  | .feedData data => r.feedData data
  | .feedOwnedData data capacity => r.feedOwnedData data capacity
  | .feedEof => r.feedEof
  | .read n => r.read n
  | .readexactly n => r.readexactly n
  | .readuntil separators => r.readuntil separators
  | .readline => r.readline
  | .cancel future => r.cancel future
  | .waiterDone future => r.waiterDone future
  | .setTransportObj transport => r.setTransportObj transport
  | .setException error => r.setException error
  | .setBuffer data => r.setBuffer data

def performAll (r : StreamReader) (calls : List ReaderCall) : StreamReader :=
  calls.foldl perform r

end Rsloop.Reader
