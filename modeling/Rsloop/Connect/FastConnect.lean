import Mathlib.Algebra.Order.Ring.Nat
import Mathlib.Data.List.Basic

/-!
# The two ways to connect a socket

`connect_socket_to_address` calls `socket.connect` and waits for writability on
the async runtime. `fast_sock_connect` calls `connect` itself when the host is an
IP literal, and otherwise `socket.connect`; it waits on the loop's own reactor.
Name resolution, the parser of IP literals and what the operating system answers
are given by an environment, and the numbers of errors are those of Linux.
-/

namespace Rsloop.Connect

/-! ## Error numbers -/

def eintr : Int := 4

def ebadf : Int := 9

/-- Also `EAGAIN` -/
def ewouldblock : Int := 11

def eisconn : Int := 106

def ealready : Int := 114

def einprogress : Int := 115

def wsaeisconn : Int := 10056

def isAlreadyConnectedErrno (errno : Int) : Bool :=
  decide (errno = eisconn ∨ errno = wsaeisconn)

def isConnectInProgressErrno (errno : Int) : Bool :=
  decide (errno = einprogress ∨ errno = ealready ∨ errno = ewouldblock)

/-- The function of the same name in `fd_ops` -/
def FdOps.isAlreadyConnectedErrno (errno : Int) : Bool :=
  decide (errno = eisconn)

/-- What `socket.connect` raises: an `OSError` with its number, or an exception
without a number. -/
inductive ConnectError where
  | osError (errno : Int)
  | other
  deriving DecidableEq

/-- `BlockingIOError` and `InterruptedError` are the classes of these numbers. -/
def FdOps.isRetryableSocketError : ConnectError → Bool
  | .osError errno =>
    decide (errno = einprogress ∨ errno = ealready ∨ errno = ewouldblock) || decide (errno = eintr)
  | .other => false

def extractI32 (value : Int) : Option Int :=
  if -2 ^ 31 ≤ value ∧ value < 2 ^ 31 then some value else none

def isAlreadyConnectedSocketError : ConnectError → Bool
  | .osError errno => (extractI32 errno).any isAlreadyConnectedErrno
  | .other => false

/-! ## Addresses -/

inductive AddressFamily where
  | inet
  | inet6
  deriving DecidableEq

inductive IpAddr where
  | v4 (ip : BitVec 32)
  | v6 (ip : BitVec 128)
  deriving DecidableEq

def IpAddr.family : IpAddr → AddressFamily
  | .v4 _ => .inet
  | .v6 _ => .inet6

inductive SockAddr where
  | v4 (ip : BitVec 32) (port : BitVec 16)
  | v6 (ip : BitVec 128) (port : BitVec 16) (flowinfo scopeId : BitVec 32)
  deriving DecidableEq

inductive HostField where
  | text (host : String)
  | bytes (host : List UInt8)
  | other
  deriving DecidableEq

inductive IntField where
  | int (value : Int)
  | other
  deriving DecidableEq

/-- `(host, port)` or `(host, port, flowinfo, scope_id)` -/
structure Address where
  host : HostField
  port : IntField
  scope : Option (IntField × IntField)

/-- A wait for writability ends; an error may carry a number. -/
inductive Writable where
  | ready
  | failed (rawOsError : Option Int)

inductive SoError where
  | value (errno : Int)
  | failed (rawOsError : Option Int)

structure Wait where
  writable : Writable
  soError : SoError

/-- `connect` answers `none` when the socket is connected at once, and `waits`
is what follows when it is in progress. -/
structure Environment where
  parseIp : String → Option IpAddr
  resolveInet : HostField → Except ConnectError (BitVec 32)
  resolveInet6 : HostField → Except ConnectError (BitVec 128)
  connect : SockAddr → Option Int
  waits : List Wait

/-- Connecting ends, or the socket is still waited for. -/
inductive ConnectOutcome where
  | succeeded
  | failed
  | waiting
  deriving DecidableEq

/-- The address for which `connect` was called, and what it came to. -/
structure ConnectAttempt where
  target : Option SockAddr
  outcome : ConnectOutcome
  deriving DecidableEq

/-! ## The socket method of Python -/

section SocketConnect

variable (env : Environment)

/-- A literal of the socket's own family is not looked up. -/
def setInetAddr (host : HostField) : Except ConnectError (BitVec 32) :=
  match host with
  | .text name =>
    match env.parseIp name with
    | some (.v4 ip) => .ok ip
    | _ => env.resolveInet host
  | _ => env.resolveInet host

def setInet6Addr (host : HostField) : Except ConnectError (BitVec 128) :=
  match host with
  | .text name =>
    match env.parseIp name with
    | some (.v6 ip) => .ok ip
    | _ => env.resolveInet6 host
  | _ => env.resolveInet6 host

def parsePort : IntField → Except ConnectError (BitVec 16)
  | .int value =>
    if 0 ≤ value ∧ value < 2 ^ 16 then .ok (BitVec.ofInt 16 value) else .error .other
  | .other => .error .other

/-- The argument format `I` takes integers modulo `2 ^ 32`. -/
def parseUnsigned : IntField → Except ConnectError (BitVec 32)
  | .int value => .ok (BitVec.ofInt 32 value)
  | .other => .error .other

/-- An address of family `AF_INET` has to be a pair. -/
def getInetAddr (address : Address) : Except ConnectError SockAddr :=
  match address.scope with
  | some _ => .error .other
  | none =>
    match setInetAddr env address.host, parsePort address.port with
    | .ok ip, .ok port => .ok (.v4 ip port)
    | .error error, _ | _, .error error => .error error

/-- `flowinfo` has twenty bits. -/
def parseScoped : Option (IntField × IntField) → Except ConnectError (BitVec 32 × BitVec 32)
  | none => .ok (0, 0)
  | some (flowinfo, scopeId) =>
    match parseUnsigned flowinfo, parseUnsigned scopeId with
    | .ok flowinfo, .ok scopeId =>
      if flowinfo.toNat < 2 ^ 20 then .ok (flowinfo, scopeId) else .error .other
    | .error error, _ | _, .error error => .error error

def getInet6Addr (address : Address) : Except ConnectError SockAddr :=
  match setInet6Addr env address.host, parsePort address.port, parseScoped address.scope with
  | .ok ip, .ok port, .ok (flowinfo, scopeId) => .ok (.v6 ip port flowinfo scopeId)
  | .error error, _, _ | _, .error error, _ | _, _, .error error => .error error

def getSockAddr : AddressFamily → Address → Except ConnectError SockAddr
  | .inet => getInetAddr env
  | .inet6 => getInet6Addr env

/-- `socket.connect`: the address for which it calls `connect`, and what it
raises. -/
def socketConnect (family : AddressFamily) (address : Address) :
    Option SockAddr × Option ConnectError :=
  match getSockAddr env family address with
  | .error error => (none, some error)
  | .ok sockaddr => (some sockaddr, (env.connect sockaddr).map ConnectError.osError)

end SocketConnect

/-! ## The general way -/

/-- The loop of `connect_socket_to_address` -/
def waitConnected : List Wait → ConnectOutcome
  | [] => .waiting
  | wait :: rest =>
    match wait.writable, wait.soError with
    | .failed _, _ | .ready, .failed _ => .failed
    | .ready, .value soError =>
      if soError = 0 then
        .succeeded
      else if isConnectInProgressErrno soError then
        waitConnected rest
      else if isAlreadyConnectedErrno soError then
        .succeeded
      else
        .failed

def connectSocketToAddress (env : Environment) (family : AddressFamily)
    (address : Address) : ConnectAttempt where
  target := (socketConnect env family address).1
  outcome :=
    match (socketConnect env family address).2 with
    | none => .succeeded
    | some error =>
      if FdOps.isRetryableSocketError error then
        waitConnected env.waits
      else if isAlreadyConnectedSocketError error then
        .succeeded
      else
        .failed

/-! ## The fast way -/

def extractU16 : IntField → Option (BitVec 16)
  | .int value => if 0 ≤ value ∧ value < 2 ^ 16 then some (BitVec.ofInt 16 value) else none
  | .other => none

/-- `SocketAddr::new` has neither a flow label nor a scope. -/
def SockAddr.new (ip : IpAddr) (port : BitVec 16) : SockAddr :=
  match ip with
  | .v4 ip => .v4 ip port
  | .v6 ip => .v6 ip port 0 0

/-- The IP literal and the port, if `address` begins with them. -/
def Address.literal (env : Environment) (address : Address) : Option (IpAddr × BitVec 16) :=
  match address.host with
  | .text host =>
    match env.parseIp host, extractU16 address.port with
    | some ip, some port => some (ip, port)
    | _, _ => none
  | _ => none

/-- The address and the number that `connect` leaves, zero for success -/
def libcConnectNumeric (env : Environment) (address : Address) : Option (SockAddr × Int) :=
  (address.literal env).map fun (ip, port) =>
    (.new ip port, (env.connect (.new ip port)).getD 0)

/-- The number of a raised exception, as `fast_sock_connect` reads it. -/
def raisedErrno : Option ConnectError → Int
  | none => 0
  | some (.osError errno) => (extractI32 errno).getD 0
  | some .other => 0

/-- The `wait_errno` that is reported. -/
def runConnectWatchTask (wait : Wait) : Int :=
  match wait.writable with
  | .ready => 0
  | .failed rawOsError => rawOsError.getD ebadf

inductive Completion where
  | setResult
  | setException
  | rearm
  deriving DecidableEq

def SoError.errno : SoError → Int
  | .value errno => errno
  | .failed rawOsError => rawOsError.getD ebadf

def resolveConnectCompleted (soError : SoError) (waitErrno : Int) : Completion :=
  let errno := if soError.errno ≠ 0 then soError.errno else waitErrno
  if errno = 0 ∨ FdOps.isAlreadyConnectedErrno errno then
    .setResult
  else if isConnectInProgressErrno errno then
    .rearm
  else
    .setException

/-- The watch task and the completions that arm it again. -/
def watchConnect : List Wait → ConnectOutcome
  | [] => .waiting
  | wait :: rest =>
    match resolveConnectCompleted wait.soError (runConnectWatchTask wait) with
    | .setResult => .succeeded
    | .setException => .failed
    | .rearm => watchConnect rest

/-- The address and the first number that `fast_sock_connect` gets. -/
def startConnect (env : Environment) (family : AddressFamily)
    (address : Address) : Option SockAddr × Int :=
  match libcConnectNumeric env address with
  | some (sockaddr, errno) => (some sockaddr, errno)
  | none =>
    ((socketConnect env family address).1, raisedErrno (socketConnect env family address).2)

def fastSockConnect (env : Environment) (family : AddressFamily)
    (address : Address) : ConnectAttempt where
  target := (startConnect env family address).1
  outcome :=
    let errno := (startConnect env family address).2
    if errno = 0 ∨ isAlreadyConnectedErrno errno then
      .succeeded
    else if !isConnectInProgressErrno errno then
      .failed
    else
      watchConnect env.waits

/-! ## Agreement -/

/-- The waits for writability come to the same: `SO_ERROR` is not a number of
Windows as long as it is read, and where the general way fails since a wait or
the reading of `SO_ERROR` failed, the fast one fails too, there or later. -/
def WaitsAgree : List Wait → Prop
  | [] => True
  | wait :: rest =>
    match wait.writable, wait.soError with
    | .ready, .value errno =>
      errno ≠ wsaeisconn ∧ (isConnectInProgressErrno errno → WaitsAgree rest)
    | .failed _, _ | .ready, .failed _ =>
      match resolveConnectCompleted wait.soError (runConnectWatchTask wait) with
      | .setResult => False
      | .setException => True
      | .rearm => watchConnect rest = .failed

/-- A literal is one of the socket's own family, and there is no other scope
behind it than the default one. -/
def LiteralAgrees (env : Environment) (family : AddressFamily) (address : Address) : Prop :=
  ∀ ip port, address.literal env = some (ip, port) → ip.family = family ∧
    (family = .inet → address.scope = none) ∧
    (family = .inet6 → parseScoped address.scope = .ok (0, 0))

/-- Whatever `socket.connect` raises has a number, behind `EINTR` the general way
fails as well, and a connection in progress is waited for with the same end. -/
@[mk_iff]
structure ConnectAgrees (env : Environment) (family : AddressFamily)
    (address : Address) : Prop where
  literal : LiteralAgrees env family address
  numbered : (socketConnect env family address).2 ≠ none → (startConnect env family address).2 ≠ 0
  interrupted : (socketConnect env family address).2 = some (.osError eintr) →
    waitConnected env.waits = .failed
  waits : ∀ errno, (socketConnect env family address).2 = some (.osError errno) →
    isConnectInProgressErrno errno → WaitsAgree env.waits

variable {env : Environment} {family : AddressFamily} {address : Address}

theorem watchConnect_ready (errno : Int) (rest : List Wait) :
    watchConnect (⟨.ready, .value errno⟩ :: rest) =
      if errno = 0 ∨ FdOps.isAlreadyConnectedErrno errno then
        .succeeded
      else if isConnectInProgressErrno errno then
        watchConnect rest
      else
        .failed := by
  rw [watchConnect]
  by_cases zero : errno = 0
  · subst zero
    rfl
  · simp only [resolveConnectCompleted, runConnectWatchTask, SoError.errno, ne_eq, zero,
      not_false_eq_true, if_true, false_or]
    split_ifs <;> rfl

theorem watchConnect_eq_failed_iff (wait : Wait) (rest : List Wait) :
    watchConnect (wait :: rest) = .failed ↔
      match resolveConnectCompleted wait.soError (runConnectWatchTask wait) with
      | .setResult => False
      | .setException => True
      | .rearm => watchConnect rest = .failed := by
  rw [watchConnect]
  cases resolveConnectCompleted wait.soError (runConnectWatchTask wait) <;> simp

theorem not_inProgress_of_connected {errno : Int}
    (connected : isAlreadyConnectedErrno errno) :
    isConnectInProgressErrno errno = false := by
  rcases of_decide_eq_true connected with same | same <;> rw [same] <;> rfl

theorem watchConnect_eq_waitConnected_iff (waits : List Wait) :
    watchConnect waits = waitConnected waits ↔ WaitsAgree waits := by
  induction waits with
  | nil => exact ⟨fun _ => trivial, fun _ => rfl⟩
  | cons wait rest ih =>
    obtain ⟨writable, soError⟩ := wait
    rcases writable with _ | number
    · rcases soError with errno | number
      · rw [watchConnect_ready]
        unfold waitConnected WaitsAgree
        by_cases windows : errno = wsaeisconn
        · subst windows
          simp [isConnectInProgressErrno, isAlreadyConnectedErrno, FdOps.isAlreadyConnectedErrno,
            wsaeisconn, eisconn, einprogress, ealready, ewouldblock]
        · have same : isAlreadyConnectedErrno errno = FdOps.isAlreadyConnectedErrno errno := by
            simp [isAlreadyConnectedErrno, FdOps.isAlreadyConnectedErrno, windows]
          by_cases connected : isAlreadyConnectedErrno errno
          · have notInProgress := not_inProgress_of_connected connected
            simp [windows, ← same, connected, notInProgress]
          · by_cases zero : errno = 0
            · subst zero
              simp [windows, isConnectInProgressErrno, einprogress, ealready, ewouldblock]
            · by_cases inProgress : isConnectInProgressErrno errno
              · simp [windows, ← same, connected, zero, inProgress, ih]
              · simp [windows, ← same, connected, zero, inProgress]
      · exact watchConnect_eq_failed_iff _ rest
    · exact watchConnect_eq_failed_iff _ rest

theorem parsePort_of_extractU16 {field : IntField} {port : BitVec 16}
    (extracted : extractU16 field = some port) :
    parsePort field = .ok port := by
  cases field with
  | int value =>
    simp only [extractU16] at extracted
    split at extracted <;> cases extracted
    rename_i inRange
    exact if_pos inRange
  | other => cases extracted

/-- What `socket.connect` makes of a literal is the address without a scope
exactly if the literal agrees. -/
theorem getSockAddr_eq_iff {ip : IpAddr} {port : BitVec 16}
    (literal : address.literal env = some (ip, port)) :
    getSockAddr env family address = .ok (.new ip port) ↔ ip.family = family ∧
      (family = .inet → address.scope = none) ∧
      (family = .inet6 → parseScoped address.scope = .ok (0, 0)) := by
  obtain ⟨host, portField, scope⟩ := address
  unfold Address.literal at literal
  split at literal
  next name isText =>
    split at literal <;> cases literal
    rename_i parsed extracted parsedIp extractedPort
    have portOk := parsePort_of_extractU16 extractedPort
    simp only at isText parsedIp portOk
    subst isText
    cases family with
    | inet =>
      cases scope <;> cases ip <;>
        simp [getSockAddr, getInetAddr, setInetAddr, parsedIp, portOk, SockAddr.new,
          IpAddr.family]
      -- a literal of the other family is looked up, and what is found is no `v6`
      split <;> simp
    | inet6 =>
      cases ip <;> cases fields : parseScoped scope <;>
        simp [getSockAddr, getInet6Addr, setInet6Addr, parsedIp, portOk, fields, SockAddr.new,
          IpAddr.family, Prod.ext_iff]
      all_goals split <;> simp_all
  next => cases literal

/-- Both ways call `connect` for the same address exactly if a literal agrees. -/
theorem startConnect_fst_eq_iff : (startConnect env family address).1 =
      (socketConnect env family address).1 ↔ LiteralAgrees env family address := by
  unfold LiteralAgrees startConnect libcConnectNumeric
  cases literal : address.literal env with
  | none => simp
  | some found =>
    obtain ⟨ip, port⟩ := found
    have parsed : getSockAddr env family address = _ ↔ _ := getSockAddr_eq_iff literal
    simp only [Option.map_some, Option.some.injEq, Prod.mk.injEq, and_imp,
      forall_apply_eq_imp_iff, forall_eq', ← parsed]
    unfold socketConnect
    cases getSockAddr env family address <;> simp [eq_comm]

/-- The fast way goes on with the number that it reads off what is raised, or
with the number that `connect` has left. -/
theorem startConnect_snd (same : LiteralAgrees env family address) :
    (startConnect env family address).2 = raisedErrno (socketConnect env family address).2 ∨
      (socketConnect env family address).2 =
        some (.osError (startConnect env family address).2) := by
  unfold startConnect libcConnectNumeric
  cases literal : address.literal env with
  | none => exact .inl rfl
  | some found =>
    obtain ⟨ip, port⟩ := found
    have parsed := (getSockAddr_eq_iff literal).mpr (same ip port literal)
    simp only [socketConnect, parsed, Option.map_some]
    cases env.connect (.new ip port) with
    | none => exact .inl rfl
    | some errno => exact .inr rfl

theorem isAlreadyConnectedSocketError_osError (errno : Int) :
    isAlreadyConnectedSocketError (.osError errno) = isAlreadyConnectedErrno errno := by
  change (extractI32 errno).any isAlreadyConnectedErrno = _
  by_cases connected : isAlreadyConnectedErrno errno
  · rcases of_decide_eq_true connected with isConnected | isConnected <;> rw [isConnected] <;> rfl
  · unfold extractI32
    split_ifs <;> simp [connected]

/-- What the two ways make of one number. -/
theorem outcome_eq_iff (errno : Int) (waits : List Wait) :
    (if errno = 0 ∨ isAlreadyConnectedErrno errno then
        ConnectOutcome.succeeded
      else if !isConnectInProgressErrno errno then
        .failed
      else
        watchConnect waits) =
      (if FdOps.isRetryableSocketError (.osError errno) then
        waitConnected waits
      else if isAlreadyConnectedSocketError (.osError errno) then
        .succeeded
      else
        .failed) ↔
    errno ≠ 0 ∧ (errno = eintr → waitConnected waits = .failed) ∧
      (isConnectInProgressErrno errno → WaitsAgree waits) := by
  rw [isAlreadyConnectedSocketError_osError]
  have retryable : FdOps.isRetryableSocketError (.osError errno) =
      (isConnectInProgressErrno errno || decide (errno = eintr)) := rfl
  rw [retryable]
  by_cases interrupted : errno = eintr
  · subst interrupted
    simp [isConnectInProgressErrno, isAlreadyConnectedErrno, eintr, eisconn, wsaeisconn,
      einprogress, ealready, ewouldblock, eq_comm]
  · by_cases zero : errno = 0
    · subst zero
      simp [interrupted, isConnectInProgressErrno, isAlreadyConnectedErrno, eisconn, wsaeisconn,
        einprogress, ealready, ewouldblock]
    · by_cases inProgress : isConnectInProgressErrno errno
      · have notConnected : ¬ isAlreadyConnectedErrno errno := fun connected => by
          rw [not_inProgress_of_connected connected] at inProgress
          cases inProgress
        simp [interrupted, zero, inProgress, notConnected, watchConnect_eq_waitConnected_iff]
      · by_cases connected : isAlreadyConnectedErrno errno <;>
          simp [interrupted, zero, inProgress, connected]

def loopbackInet6 : BitVec 128 := 1

/-- Two literals and one name; `connect` always gives the same answer. -/
def smallEnvironment (answer : Option Int) (waits : List Wait) : Environment where
  parseIp := fun host =>
    if host = "127.0.0.1" then
      some (.v4 0x7f000001)
    else if host = "::1" then
      some (.v6 loopbackInet6)
    else
      none
  resolveInet := fun host =>
    if host = .text "localhost" then .ok 0x7f000001 else .error (.osError (-2))
  resolveInet6 := fun _ => .error (.osError (-2))
  connect := fun _ => answer
  waits := waits

def loopback : Address := ⟨.text "127.0.0.1", .int 80, none⟩

-- an interrupted call agrees where the wait behind it fails
example : fastSockConnect (smallEnvironment (some eintr) [⟨.failed none, .value 0⟩]) .inet
      loopback =
    connectSocketToAddress (smallEnvironment (some eintr) [⟨.failed none, .value 0⟩]) .inet
      loopback := by
  decide

end Rsloop.Connect
