import Mathlib.Data.List.Basic

/-!
# Connecting to one of several addresses

`create_connection` behind the resolution of its arguments: the addresses are
interleaved by family, and their sockets are created, bound and connected either
one after the other or, with `happy_eyeballs_delay`, in a race. What the operating
system answers is part of an address.
-/

namespace Rsloop.Connect

/-! ## Errors -/

inductive OSError where
  | message (text : String)
  | numbered (errno : Option Int) (strerror : String)
  deriving DecidableEq

def OSError.str : OSError → String
  | .message text => text
  | .numbered none strerror => "[Errno None] " ++ strerror
  | .numbered (some errno) strerror => "[Errno " ++ toString errno ++ "] " ++ strerror

/-- What `create_connection` raises; `indexError` is that of an empty list of
exceptions. -/
inductive Raised where
  | os (error : OSError)
  | exceptionGroup (message : String) (errors : List OSError)
  | indexError
  deriving DecidableEq

def raiseConnectionError (exceptions : List OSError)
    (allErrors hasExceptionGroup : Bool) : Raised :=
  if allErrors && hasExceptionGroup then
    .exceptionGroup "create_connection failed" exceptions
  else
    match exceptions with
    | [] => .indexError
    | [error] => .os error
    | error :: rest =>
      if (error :: rest).all fun other => other.str = error.str then
        .os error
      else
        .os (.message ("Multiple exceptions: " ++
          ", ".intercalate ((error :: rest).map OSError.str)))

/-! ## Addresses -/

/-- `address` is the text that errors show. -/
structure LocalAddrinfo where
  family : Nat
  address : String

/-- An address, and the errors that creating its socket, binding it and
connecting it end with, if any. -/
structure Addrinfo where
  family : Nat
  socket : Option OSError
  bind : LocalAddrinfo → Option OSError
  connect : Option OSError

/-- `grouped.setdefault(addrinfo[0], []).append(addrinfo)` -/
def insertGroup (addrinfo : Addrinfo) : List (Nat × List Addrinfo) → List (Nat × List Addrinfo)
  | [] => [(addrinfo.family, [addrinfo])]
  | (family, members) :: rest =>
    if family = addrinfo.family then
      (family, members ++ [addrinfo]) :: rest
    else
      (family, members) :: insertGroup addrinfo rest

def groupByFamily (addrinfos : List Addrinfo) : List (List Addrinfo) :=
  (addrinfos.foldl (fun groups addrinfo => insertGroup addrinfo groups) []).map Prod.snd

/-- `zip_longest`, without the padding -/
def zipLongest (lists : List (List Addrinfo)) : List Addrinfo :=
  (List.range (lists.foldl (fun most list => max most list.length) 0)).flatMap
    fun index => lists.filterMap fun list => list[index]?

def interleaveAddrinfos (addrinfos : List Addrinfo) (firstAddressFamilyCount : Int) :
    List Addrinfo :=
  match groupByFamily addrinfos with
  | [] => []
  | first :: others =>
    if 1 < firstAddressFamilyCount then
      let ahead := (firstAddressFamilyCount - 1).toNat
      first.take ahead ++ zipLongest (first.drop ahead :: others)
    else
      zipLongest (first :: others)

/-! ## One socket -/

def bindError (localAddrinfo : LocalAddrinfo) (error : OSError) : OSError :=
  let text := "error while attempting to bind on address " ++ localAddrinfo.address ++ ": "
  match error with
  | .message detail => .numbered none (text ++ detail)
  | .numbered errno strerror =>
    .numbered errno (text ++ (if strerror = "" then error.str else strerror.toLower))

/-- The loop over the local addresses: whether the socket has been bound, and the
errors on the way -/
def bindLocal (addrinfo : Addrinfo) : List LocalAddrinfo → List OSError → Bool × List OSError
  | [], exceptions => (false, exceptions)
  | localAddrinfo :: rest, exceptions =>
    if localAddrinfo.family = addrinfo.family then
      match addrinfo.bind localAddrinfo with
      | none => (true, exceptions)
      | some error => bindLocal addrinfo rest (exceptions ++ [bindError localAddrinfo error])
    else
      bindLocal addrinfo rest exceptions

/-- Whether there is a socket to connect, and the errors of the attempt so far. An
error of the socket's creation is raised. -/
def prepareStreamSocket (addrinfo : Addrinfo) (localAddrinfos : Option (List LocalAddrinfo)) :
    Except OSError (Bool × List OSError) :=
  match addrinfo.socket with
  | some error => .error error
  | none =>
    match localAddrinfos with
    | none => .ok (true, [])
    | some locals =>
      match bindLocal addrinfo locals [] with
      | (false, []) =>
        .ok (false, [.message ("no matching local address with family=" ++
          toString addrinfo.family ++ " found")])
      | attempt => .ok attempt

/-! ## One after the other -/

def connectInTurn (localAddrinfos : Option (List LocalAddrinfo)) :
    List Addrinfo → List (List OSError) → Except OSError (Option Addrinfo × List (List OSError))
  | [], exceptions => .ok (none, exceptions)
  | addrinfo :: rest, exceptions =>
    match prepareStreamSocket addrinfo localAddrinfos with
    | .error error => .error error
    | .ok (false, attempt) => connectInTurn localAddrinfos rest (exceptions ++ [attempt])
    | .ok (true, attempt) =>
      match addrinfo.connect with
      | none => .ok (some addrinfo, exceptions)
      | some error => connectInTurn localAddrinfos rest (exceptions ++ [attempt ++ [error]])

/-! ## In a race -/

/-- A connection attempt that has not been looked at since it was started -/
structure Attempt where
  key : Nat
  addrinfo : Addrinfo
  exceptions : List OSError

structure Race where
  pending : List Attempt
  exceptions : List (List OSError)

/-- The attempts that `asyncio.wait` reports, in the order in which the loop over
them takes them. The answer names them by their keys. -/
def Race.done (race : Race) (answer : List Nat) : List Attempt :=
  answer.dedup.filterMap fun key => race.pending.find? fun attempt => attempt.key = key

/-- Without a timeout at least one attempt is reported. -/
def Race.doneAtLast (race : Race) (answer : List Nat) : List Attempt :=
  if (race.done answer).isEmpty then race.pending.take 1 else race.done answer

def consumeConnectionAttempts : List Attempt → Race → Option Addrinfo × Race
  | [], race => (none, race)
  | attempt :: rest, race =>
    let pending := race.pending.filter fun other => other.key ≠ attempt.key
    match attempt.addrinfo.connect with
    | none => (some attempt.addrinfo, { race with pending := pending })
    | some error =>
      consumeConnectionAttempts rest
        { pending := pending, exceptions := race.exceptions ++ [attempt.exceptions ++ [error]] }

/-- What happens to an address that is prepared for the race -/
def Race.enter (race : Race) (key : Nat) (addrinfo : Addrinfo) : Bool × List OSError → Race
  | (true, attempt) =>
    { race with pending := race.pending ++
      [{ key := key, addrinfo := addrinfo, exceptions := attempt }] }
  | (false, attempt) => { race with exceptions := race.exceptions ++ [attempt] }

/-- The loop over the addresses. `answers` are those of the timed waits; the last
component counts them. -/
def startAttempts (localAddrinfos : Option (List LocalAddrinfo)) (answers : Nat → List Nat) :
    List Addrinfo → Nat → Nat → Race → Except OSError (Option Addrinfo × Race × Nat)
  | [], _, waits, race => .ok (none, race, waits)
  | addrinfo :: rest, index, waits, race =>
    match prepareStreamSocket addrinfo localAddrinfos with
    | .error error => .error error
    | .ok prepared =>
      let entered := race.enter index addrinfo prepared
      if entered.pending.isEmpty || rest.isEmpty then
        startAttempts localAddrinfos answers rest (index + 1) waits entered
      else
        match consumeConnectionAttempts (entered.done (answers waits)) entered with
        | (some winner, left) => .ok (some winner, left, waits + 1)
        | (none, left) => startAttempts localAddrinfos answers rest (index + 1) (waits + 1) left

/-- The loop behind it. Every wait takes an attempt out, so the number of attempts
bounds the number of waits. -/
def awaitAttempts (answers : Nat → List Nat) : Nat → Nat → Race → Option Addrinfo × Race
  | 0, _, race => (none, race)
  | bound + 1, waits, race =>
    if race.pending.isEmpty then
      (none, race)
    else
      match consumeConnectionAttempts (race.doneAtLast (answers waits)) race with
      | (some winner, left) => (some winner, left)
      | (none, left) => awaitAttempts answers bound (waits + 1) left

def connectWithHappyEyeballs (addrinfos : List Addrinfo)
    (localAddrinfos : Option (List LocalAddrinfo)) (answers : Nat → List Nat) :
    Except OSError (Option Addrinfo × Race) :=
  match startAttempts localAddrinfos answers addrinfos 0 0
      { pending := [], exceptions := [] } with
  | .error error => .error error
  | .ok (some winner, race, _) => .ok (some winner, race)
  | .ok (none, race, waits) => .ok (awaitAttempts answers race.pending.length waits race)

/-! ## The call -/

/-- The arguments of `create_connection` that matter here. `racing` is the answers
of the waits where `happy_eyeballs_delay` is given. -/
structure ConnectionRequest where
  addrinfos : List Addrinfo
  localAddrinfos : Option (List LocalAddrinfo)
  interleave : Option Int
  racing : Option (Nat → List Nat)
  allErrors : Bool
  hasExceptionGroup : Bool

namespace ConnectionRequest

/-- A delay asks for interleaving, and a count of zero is none. -/
def order (request : ConnectionRequest) : List Addrinfo :=
  let interleave :=
    if request.racing.isSome && request.interleave.isNone then some 1
    else request.interleave
  match interleave with
  | none => request.addrinfos
  | some count =>
    if count = 0 then request.addrinfos
    else interleaveAddrinfos request.addrinfos count

/-- What the loops end with: the address whose socket is connected, if any, and the
errors of the others -/
def connected (request : ConnectionRequest) :
    Except OSError (Option Addrinfo × List (List OSError)) :=
  match request.racing with
  | none => connectInTurn request.localAddrinfos request.order []
  | some answers =>
    match connectWithHappyEyeballs request.order request.localAddrinfos answers with
    | .error error => .error error
    | .ok (winner, race) => .ok (winner, race.exceptions)

def createConnection (request : ConnectionRequest) : Except Raised Addrinfo :=
  match request.connected with
  | .error error => .error (.os error)
  | .ok (some addrinfo, _) => .ok addrinfo
  | .ok (none, exceptions) =>
    .error (raiseConnectionError exceptions.flatten request.allErrors request.hasExceptionGroup)

end ConnectionRequest

end Rsloop.Connect
