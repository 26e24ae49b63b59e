import Mathlib.Data.List.Dedup
import Rsloop.Connect.EveryAddress
import Rsloop.Connect.SocketOwnership

/-!
# The coroutine behind the result

The loops of `create_connection` are stated by what they return and, for the
sockets, step by step. The steps do what the loops return: where the operating
system answers as the addresses say, a run of the coroutine comes to the transport
with the socket of the address that is returned, or raises.
-/

namespace Rsloop.Connect

open Transition List ConnectState

/-- The arguments as the steps see them -/
def ConnectionRequest.plan (request : ConnectionRequest) (ssl keepsTransport : Bool) :
    ConnectionPlan where
  families := request.order.map Addrinfo.family
  localFamilies := request.localAddrinfos.map (map LocalAddrinfo.family)
  racing := request.racing.isSome
  ssl := ssl
  keepsTransport := keepsTransport

def outcomeOf (error : Option OSError) : Outcome :=
  if error.isNone then .ok else .osError

/-- Nothing is cancelled and the operating system answers as the addresses say.
Sockets are numbered like the addresses. -/
def Answers (request : ConnectionRequest) (s : ConnectState) : ConnectAction → Prop
  | .cancel => False
  | .wait _ => True
  | .taskEnds socket outcome =>
    ∃ addrinfo, request.order[socket]? = some addrinfo ∧ outcome = outcomeOf addrinfo.connect
  | .proceed outcome =>
    match s.pc with
    | .create _ => ∃ addrinfo, request.order[s.sockets.length]? = some addrinfo ∧
        outcome = outcomeOf addrinfo.socket
    | .bind _ socket later => ∃ addrinfo localAddrinfo rest,
        request.order[socket]? = some addrinfo ∧
        localAddrinfo :: rest <:+ request.localAddrinfos.getD [] ∧
        rest.map LocalAddrinfo.family = later ∧
        outcome = outcomeOf (addrinfo.bind localAddrinfo)
    | .connecting socket => ∃ addrinfo, request.order[socket]? = some addrinfo ∧
        outcome = outcomeOf addrinfo.connect
    | _ => outcome = .ok

/-- Such a run makes a transport of the socket of `won`, or raises where that is
none. -/
def Ends (request : ConnectionRequest) (ssl keeps : Bool) (s : ConnectState)
    (won : Option Addrinfo) : Prop :=
  ∃ actions last, Guarded (connectStep (request.plan ssl keeps)) (Answers request) s actions ∧
    run (connectStep (request.plan ssl keeps)) s actions = some last ∧
    match won with
    | none => last.pc = .finished none
    | some addrinfo => ∃ socket, last.pc = .transport .attached socket ∧
        request.order[socket]? = some addrinfo

variable {request : ConnectionRequest} {ssl keeps : Bool} {s next : ConnectState}
  {won : Option Addrinfo} {addrinfo : Addrinfo} {rest : List Addrinfo} {socket index : Nat}

theorem Ends.step (action : ConnectAction) (allowed : Answers request s action)
    (moved : connectStep (request.plan ssl keeps) s action = some next)
    (later : Ends request ssl keeps next won) :
    Ends request ssl keeps s won := by
  obtain ⟨actions, last, guarded, reached, ended⟩ := later
  refine ⟨action :: actions, last, ⟨allowed, ?_⟩, ?_, ended⟩
  · rwa [moved]
  · exact run_cons_eq_some.mpr ⟨next, moved, reached⟩

theorem ends_raised : Ends request ssl keeps s.raised none :=
  ⟨[], _, trivial, rfl, rfl⟩

theorem ends_transport (known : request.order[socket]? = some addrinfo) :
    Ends request ssl keeps (s.goto (.transport .attached socket)) (some addrinfo) :=
  ⟨[], _, trivial, rfl, socket, rfl, known⟩

/-! ## One socket -/

variable {plan : ConnectionPlan}

theorem prepared_goto (pc : ConnectPosition) (chosen : Option Nat) :
    (s.goto pc).prepared plan chosen = s.prepared plan chosen := by
  unfold prepared
  cases chosen <;> rfl

/-- The state behind the attempt to bind a socket -/
def ConnectState.bound (plan : ConnectionPlan) (s : ConnectState) (socket : Nat) :
    Bool → ConnectState
  | true => s.prepared plan (some socket)
  | false => (s.closeSocket socket).prepared plan none

theorem ends_bindNext (pc : ConnectPosition)
    (here : request.order[socket]? = some addrinfo)
    {locals : List LocalAddrinfo}
    (part : locals <:+ request.localAddrinfos.getD [])
    (later : Ends request ssl keeps
      (s.bound (request.plan ssl keeps) socket (addrinfo.binds (some locals))) won) :
    Ends request ssl keeps ((s.goto pc).bindNext (request.plan ssl keeps) addrinfo.family socket
      (locals.map LocalAddrinfo.family)) won := by
  induction locals generalizing pc with
  | nil =>
    change Ends _ _ _ (prepared _ ((s.closeSocket socket).goto pc) none) _
    rwa [prepared_goto]
  | cons localAddrinfo rest ih =>
    have tail := (suffix_cons localAddrinfo rest).trans part
    rw [map_cons, bindNext]
    rw [Addrinfo.binds, any_cons] at later
    split
    next same =>
      rw [decide_eq_true same, Bool.true_and] at later
      have allowed : Answers request ((s.goto pc).goto
          (.bind addrinfo.family socket (rest.map LocalAddrinfo.family)))
          (.proceed (outcomeOf (addrinfo.bind localAddrinfo))) :=
        ⟨addrinfo, localAddrinfo, rest, here, part, rfl, rfl⟩
      cases answer : addrinfo.bind localAddrinfo with
      | none =>
        rw [answer] at later allowed
        exact .step _ allowed (congrArg some (prepared_goto _ _))
          ((prepared_goto pc _).symm ▸ later)
      | some =>
        rw [answer] at later allowed
        exact .step _ allowed rfl (ih _ tail later)
    next other =>
      rw [decide_eq_false other, Bool.false_and, Bool.false_or] at later
      exact ih pc tail later

/-- The state behind the creation of the next socket -/
def ConnectState.opens (s : ConnectState) (later : List Nat) : ConnectState :=
  { s with todo := later, sockets := s.sockets ++ [Socket.mk .opened none] }

theorem length_opens {change : Socket → Socket}
    (opened : s.sockets.length = index) :
    ((s.sockets ++ [Socket.mk .opened none]).modify index change).length = index + 1 := by
  rw [length_modify, length_append, opened]
  rfl

/-- The coroutine has created `index` sockets. -/
structure Stands (request : ConnectionRequest) (index : Nat) (pc : ConnectPosition)
    (s : ConnectState) : Prop where
  pc : s.pc = pc
  todo : s.todo = (request.order.drop index).map Addrinfo.family
  opened : s.sockets.length = index

section

variable (left : request.order.drop index = addrinfo :: rest)

include left

theorem getElem?_of_drop : request.order[index]? = some addrinfo := by
  rw [← head?_drop, left]
  rfl

theorem drop_succ_of_drop : request.order.drop (index + 1) = rest := by
  rw [← tail_drop, left]
  rfl

variable (stands : Stands request index .nextAddress s)

include stands

theorem ends_of_created (later : Ends request ssl keeps
      ({ s with todo := rest.map Addrinfo.family }.goto (.create addrinfo.family)) won) :
    Ends request ssl keeps s won := by
  refine .step (.proceed .ok) ?_ ?_ later
  · simp only [Answers, stands.pc]
  · simp only [connectStep, proceed, stands.pc, stands.todo, left, map_cons]

theorem ends_of_error {error : OSError} (failed : prepareStreamSocket addrinfo
      request.localAddrinfos = .error error) : Ends request ssl keeps s none := by
  have allowed := prepareStreamSocket_error_iff.mp ⟨error, failed⟩
  refine ends_of_created left stands (.step (.proceed .osError) ?_ rfl ends_raised)
  refine ⟨addrinfo, stands.opened ▸ getElem?_of_drop left, ?_⟩
  rw [outcomeOf, if_neg (by simpa using allowed)]

theorem ends_of_prepared {binds : Bool} {errors : List OSError}
    (made :
      prepareStreamSocket addrinfo request.localAddrinfos = .ok (binds, errors))
    (later : Ends request ssl keeps ((s.opens (rest.map Addrinfo.family)).bound
      (request.plan ssl keeps) index binds) won) :
    Ends request ssl keeps s won := by
  obtain ⟨created, rfl⟩ := prepareStreamSocket_ok made
  obtain rfl := stands.opened
  have here := getElem?_of_drop left
  refine ends_of_created left stands (.step (.proceed .ok) ?_ rfl ?_)
  · exact ⟨addrinfo, here, by rw [created]; rfl⟩
  change Ends request ssl keeps ((s.opens (rest.map Addrinfo.family)).goto
    (.configure addrinfo.family s.sockets.length)) won
  cases bindsTo : request.localAddrinfos with
  | none =>
    rw [bindsTo] at later
    refine .step (.proceed .ok) rfl ?_ later
    simp only [connectStep, proceed, goto, ConnectionRequest.plan, bindsTo, Option.map_none]
    exact congrArg some (prepared_goto (s := s.opens _) (.configure _ _) _)
  | some locals =>
    rw [bindsTo] at later
    have all : locals <:+ request.localAddrinfos.getD [] := by
      rw [bindsTo]
      exact suffix_rfl
    refine .step (.proceed .ok) rfl ?_ (ends_bindNext (.configure addrinfo.family s.sockets.length)
      here all later)
    simp only [connectStep, proceed, goto, ConnectionRequest.plan, bindsTo, Option.map_some]

end

/-! ## One after the other -/

theorem ends_connectInTurn (inTurn : request.racing = none)
    (exceptions : List (List OSError))
    (stands : Stands request index .nextAddress s)
    (left : request.order.drop index = rest) :
    Ends request ssl keeps s
      ((connectInTurn request.localAddrinfos rest exceptions).toOption.bind Prod.fst) := by
  induction rest generalizing s exceptions index with
  | nil =>
    refine .step (.proceed .ok) ?_ ?_ (ends_raised (s := s))
    · simp only [Answers, stands.pc]
    · simp only [connectStep, proceed, stands.pc, stands.todo, left, ConnectionRequest.plan, inTurn]
      rfl
  | cons addrinfo rest ih =>
    rw [connectInTurn]
    cases made : prepareStreamSocket addrinfo request.localAddrinfos with
    | error => exact ends_of_error left stands made
    | ok answer =>
      obtain ⟨binds, errors⟩ := answer
      refine ends_of_prepared left stands made ?_
      have here := getElem?_of_drop left
      have later := drop_succ_of_drop left
      simp only [bound, ConnectState.prepared, ConnectionRequest.plan, inTurn]
      cases binds with
      | false => exact ih _ ⟨rfl, congrArg _ later.symm, length_opens stands.opened⟩ later
      | true =>
        have allowed : Answers request ((s.opens (rest.map Addrinfo.family)).goto
            (.connecting index)) (.proceed (outcomeOf addrinfo.connect)) :=
          ⟨addrinfo, here, rfl⟩
        cases connected : addrinfo.connect with
        | none =>
          rw [connected] at allowed
          exact .step _ allowed rfl (ends_transport here)
        | some =>
          rw [connected] at allowed
          exact .step _ allowed rfl
            (ih _ ⟨rfl, congrArg _ later.symm, length_opens stands.opened⟩ later)

/-! ## In a race -/

/-- The coroutine has got where the race has. The tasks of the sockets in `ended`
have ended as the addresses say, and the other ones run. -/
structure Follows (request : ConnectionRequest) (index : Nat) (race : Race)
    (pc : ConnectPosition) (ended : List Nat) (s : ConnectState) : Prop
    extends Stands request index pc s where
  fair : ∃ started, race.Fair request.localAddrinfos started index
  addresses : ∀ attempt ∈ race.pending, request.order[attempt.key]? = some attempt.addrinfo
  pending : s.pending = race.pending.map Attempt.key
  tasks : ∀ attempt ∈ race.pending, s.taskOf attempt.key = some
    (if attempt.key ∈ ended then .finished (outcomeOf attempt.addrinfo.connect) else .running)

variable {race : Race} {pc : ConnectPosition} {ended : List Nat} {attempt : Attempt}
  {done : List Attempt}

theorem Follows.endTask (follows : Follows request index race pc ended s)
    (mem : attempt ∈ race.pending) (running : attempt.key ∉ ended) :
    ∃ next, connectStep plan s
        (.taskEnds attempt.key (outcomeOf attempt.addrinfo.connect)) = some next ∧
      Follows request index race pc (attempt.key :: ended) next := by
  have task := follows.tasks attempt mem
  rw [if_neg running] at task
  obtain ⟨started, fair⟩ := follows.fair
  simp only [connectStep, ConnectState.endTask, task]
  refine ⟨_, rfl, { follows with opened := (length_modify ..).trans follows.opened, tasks := ?_ }⟩
  intro other known
  by_cases same : other.key = attempt.key
  · rw [inj_on_of_nodup_map fair.distinct known mem same, if_pos mem_cons_self]
    obtain ⟨socket, found, -⟩ := Option.bind_eq_some_iff.mp task
    simp [taskOf, found]
  · have before := follows.tasks other known
    simp only [taskOf, getElem?_modify, if_neg (Ne.symm same), mem_cons, same, false_or,
      id_map'] at before ⊢
    exact before

section

variable (unique : (done.map Attempt.key).Nodup)
  (reported : ∀ attempt ∈ done, attempt ∈ race.pending)

include unique reported

theorem ends_of_ended (follows : Follows request index race pc [] s)
    (later : ∀ next, Follows request index race pc (done.map Attempt.key) next →
      Ends request ssl keeps next won) :
    Ends request ssl keeps s won := by
  induction done with
  | nil => exact later s follows
  | cons attempt done ih =>
    obtain ⟨new, unique⟩ := nodup_cons.mp unique
    have mem := reported attempt mem_cons_self
    refine ih unique (fun other mem => reported other (mem_cons_of_mem _ mem)) ?_
    intro t follows
    obtain ⟨next, moved, after⟩ := follows.endTask mem new
    refine .step (.taskEnds _ _) ?_ moved (later next after)
    exact ⟨attempt.addrinfo, follows.addresses attempt mem, rfl⟩

/-- A look at the tasks has the same winner, or leaves the same attempts. -/
theorem Follows.consume
    (follows : Follows request index race pc (done.map Attempt.key) s) :
    match consumeConnectionAttempts done race with
    | (some winner, _) => ∃ t socket, s.consume (done.map Attempt.key) = (t, .winner socket) ∧
        request.order[socket]? = some winner
    | (none, left) => ∃ t, s.consume (done.map Attempt.key) = (t, .undecided) ∧
        Follows request index left pc [] t := by
  induction done generalizing s race with
  | nil => exact ⟨s, rfl, follows⟩
  | cons attempt done ih =>
    have here := reported attempt mem_cons_self
    have task := follows.tasks attempt here
    rw [map_cons, if_pos mem_cons_self, outcomeOf] at task
    obtain ⟨started, fair⟩ := follows.fair
    obtain ⟨new, unique⟩ := nodup_cons.mp unique
    rw [consumeConnectionAttempts, map_cons, ConnectState.consume, task]
    cases connected : attempt.addrinfo.connect with
    | none => exact ⟨_, attempt.key, rfl, follows.addresses attempt here⟩
    | some error =>
      have kept {other : Attempt} (mem : other ∈ race.pending.filter (·.key ≠ attempt.key)) :
          other ∈ race.pending ∧ other.key ≠ attempt.key :=
        ⟨(mem_filter.mp mem).1, of_decide_eq_true (mem_filter.mp mem).2⟩
      refine ih unique ?_ ⟨⟨follows.pc, follows.todo, (length_modify ..).trans follows.opened⟩,
        ⟨started, fair.consume (fun other mem => mem_singleton.mp mem ▸ here) (by
          simp only [consumeConnectionAttempts, connected])⟩,
        fun other mem => follows.addresses other (kept mem).1, ?_, ?_⟩
      · intro other mem
        refine mem_filter.mpr ⟨reported other (mem_cons_of_mem _ mem), decide_eq_true ?_⟩
        exact fun same => new (same ▸ mem_map_of_mem mem)
      · change s.pending.erase _ = _
        rw [follows.pending, fair.distinct.erase_eq_filter, filter_map]
        refine congrArg (map Attempt.key) (filter_congr fun other _ => ?_)
        rw [Bool.eq_iff_iff]
        simp
      · intro other mem
        have before := follows.tasks other (kept mem).1
        simp only [map_cons, mem_cons, (kept mem).2, false_or] at before
        exact (taskOf_closeSocket _ _).trans before

theorem ends_of_look {timed : Bool} (look : timed ∨ done ≠ [])
    (follows : Follows request index race (.waiting timed) [] s)
    (later : match consumeConnectionAttempts done race with
      | (some winner, _) => won = some winner
      | (none, left) => ∀ next, Follows request index left (.waiting timed) [] next →
          Ends request ssl keeps (afterWait timed (next, .undecided)) won) :
    Ends request ssl keeps s won := by
  refine ends_of_ended unique reported follows fun t follows => ?_
  have visible : t.reports timed (done.map Attempt.key) := by
    simp only [reports, Bool.and_eq_true, all_eq_true, forall_mem_map]
    refine ⟨⟨by simpa using look, decide_eq_true unique⟩, ?_⟩
    intro attempt mem
    rw [follows.tasks attempt (reported attempt mem), if_pos (mem_map_of_mem mem),
      follows.pending]
    exact ⟨decide_eq_true (mem_map_of_mem (reported attempt mem)), rfl⟩
  have moved : connectStep (request.plan ssl keeps) t (.wait (done.map Attempt.key)) =
      some (afterWait timed (t.consume (done.map Attempt.key))) := by
    simp only [connectStep, follows.pc, visible, if_true]
  refine .step (.wait _) trivial moved ?_
  have looked := follows.consume unique reported
  cases consumed : consumeConnectionAttempts done race with
  | mk winner left =>
    rw [consumed] at looked later
    cases winner with
    | none =>
      obtain ⟨next, same, follows⟩ := looked
      rw [same]
      exact later next follows
    | some winner =>
      obtain ⟨next, socket, same, known⟩ := looked
      rw [same, later, afterWait, returned]
      split
      · exact ends_transport known
      · exact .step (.proceed .ok) rfl rfl (ends_transport known)

end

theorem unique_done (race : Race) (answer : List Nat) :
    ((race.done answer).map Attempt.key).Nodup := by
  rw [Race.done, map_filterMap]
  refine (nodup_dedup answer).filterMap ?_
  intro key key' _ found found'
  obtain ⟨attempt, here, rfl⟩ := Option.map_eq_some_iff.mp found
  obtain ⟨attempt', here', same⟩ := Option.map_eq_some_iff.mp found'
  have first := find?_some here
  have second := find?_some here'
  simp only [decide_eq_true_eq] at first second
  exact first.symm.trans (same.symm.trans second)

/-- The loop behind the addresses, from where it is entered -/
theorem ends_awaitAttempts (answers : Nat → List Nat) (waits : Nat)
    {bound : Nat}
    (follows : Follows request index race pc [] s)
    (enough : race.pending.length ≤ bound) :
    Ends request ssl keeps (if s.pending.isEmpty then s.returned none else s.goto (.waiting false))
      (awaitAttempts answers bound waits race).1 := by
  induction bound generalizing s race pc waits with
  | zero =>
    have empty : s.pending = [] := by
      rw [follows.pending, eq_nil_of_length_eq_zero (Nat.le_zero.mp enough), map_nil]
    simp only [empty, isEmpty_nil, if_true, returned]
    exact ends_raised
  | succ bound ih =>
    rw [awaitAttempts, follows.pending, isEmpty_map]
    split
    next empty =>
      rw [returned, follows.pending, isEmpty_map, if_pos empty]
      exact ends_raised
    next busy =>
      have some : race.doneAtLast (answers waits) ≠ [] :=
        Race.doneAtLast_ne_nil fun none => busy (isEmpty_iff.mpr none)
      have unique : ((race.doneAtLast (answers waits)).map Attempt.key).Nodup := by
        obtain ⟨_, fair⟩ := follows.fair
        unfold Race.doneAtLast
        split
        · rw [map_take]
          exact (take_sublist _ _).nodup fair.distinct
        · exact unique_done race (answers waits)
      refine ends_of_look unique (fun _ => Race.mem_doneAtLast) (.inr some)
        { follows with pc := rfl } ?_
      cases consumed : consumeConnectionAttempts (race.doneAtLast (answers waits)) race with
      | mk winner left =>
        cases winner with
        | none =>
          have fewer := length_pending_lt_of_consume (fun _ => Race.mem_doneAtLast) some consumed
          exact fun next follows => ih (waits + 1) follows (by omega)
        | some => rfl

theorem Follows.enter {binds : Bool} {errors : List OSError}
    (racing : plan.racing)
    (follows : Follows request index race .nextAddress [] s)
    (left : request.order.drop index = addrinfo :: rest)
    (made : prepareStreamSocket addrinfo request.localAddrinfos = .ok (binds, errors)) :
    Follows request (index + 1) (race.enter index addrinfo (binds, errors))
      (if (race.enter index addrinfo (binds, errors)).pending.isEmpty || rest.isEmpty then
        .nextAddress else .waiting true) []
      ((s.opens (rest.map Addrinfo.family)).bound plan index binds) := by
  obtain ⟨started, fair⟩ := follows.fair
  have todo := congrArg (map Addrinfo.family) (drop_succ_of_drop left).symm
  have running (change : Socket → Socket) {attempt : Attempt} (mem : attempt ∈ race.pending) :
      ((s.sockets ++ [Socket.mk .opened none]).modify index change)[attempt.key]?.bind
        Socket.task = some .running := by
    have below := fair.below attempt mem
    simp only [getElem?_modify, if_neg (Nat.ne_of_gt below),
      getElem?_append_left (follows.opened ▸ below), id_map']
    exact follows.tasks attempt mem
  cases binds with
  | false =>
    simp only [bound, prepared, racing, if_true]
    refine ⟨⟨?_, todo, length_opens follows.opened⟩, ⟨_, fair.enter made⟩, follows.addresses,
      follows.pending, fun attempt mem => running Socket.close mem⟩
    simp [goto, closeSocket, opens, Race.enter, follows.pending]
  | true =>
    simp only [bound, prepared, racing, if_true]
    refine ⟨⟨?_, todo, length_opens follows.opened⟩, ⟨_, fair.enter made⟩, ?_, ?_, ?_⟩
    · simp [goto, opens, Race.enter]
    · intro attempt mem
      rcases mem_append.mp mem with known | new
      · exact follows.addresses attempt known
      · rw [mem_singleton.mp new]
        exact getElem?_of_drop left
    · simp [goto, opens, Race.enter, follows.pending]
    · intro attempt mem
      rcases mem_append.mp mem with known | new
      · exact running _ known
      · rw [mem_singleton.mp new]
        simp [taskOf, goto, opens, ← follows.opened]

/-- What follows the loop over the addresses -/
def raced (answers : Nat → List Nat) :
    Except OSError (Option Addrinfo × Race × Nat) → Option Addrinfo
  | .error _ => none
  | .ok (some winner, _) => some winner
  | .ok (none, race, waits) => (awaitAttempts answers race.pending.length waits race).1

theorem ends_startAttempts {answers : Nat → List Nat}
    (racing : request.racing = some answers)
    (waits : Nat) (follows : Follows request index race .nextAddress [] s)
    (left : request.order.drop index = rest) :
    Ends request ssl keeps s
      (raced answers (startAttempts request.localAddrinfos answers rest index waits race)) := by
  have races : (request.plan ssl keeps).racing := by rw [ConnectionRequest.plan, racing]; rfl
  induction rest generalizing s race index waits with
  | nil =>
    refine .step (.proceed .ok) ?_ ?_ (ends_awaitAttempts answers waits follows (Nat.le_refl _))
    · simp only [Answers, follows.pc]
    · simp only [connectStep, proceed, follows.pc, follows.todo, left, map_nil, races, if_true]
      split <;> rfl
  | cons addrinfo rest ih =>
    rw [startAttempts]
    cases made : prepareStreamSocket addrinfo request.localAddrinfos with
    | error => exact ends_of_error left follows.toStands made
    | ok answer =>
      obtain ⟨binds, errors⟩ := answer
      refine ends_of_prepared left follows.toStands made ?_
      have later := drop_succ_of_drop left
      have entered := follows.enter races left made
      simp only
      split
      next idle =>
        rw [if_pos idle] at entered
        exact ih waits entered later
      next busy =>
        rw [if_neg busy] at entered
        refine ends_of_look (unique_done _ (answers waits)) (fun _ => Race.mem_done) (.inl rfl)
          entered ?_
        cases consumeConnectionAttempts _ (race.enter index addrinfo (binds, errors)) with
        | mk winner left =>
          cases winner with
          | none => exact fun next follows => ih (waits + 1) { follows with pc := rfl } later
          | some => rfl

/-! ## The call -/

/-- What `createConnection` returns is where a run of the coroutine ends. -/
theorem ends_createConnection (request : ConnectionRequest) (ssl keeps : Bool) :
    Ends request ssl keeps (.new (request.plan ssl keeps)) request.createConnection.toOption := by
  have stands : Stands request 0 .nextAddress (.new (request.plan ssl keeps)) := ⟨rfl, rfl, rfl⟩
  have loops : request.createConnection.toOption =
      request.connected.toOption.bind Prod.fst := by
    unfold ConnectionRequest.createConnection
    cases request.connected with
    | error => rfl
    | ok found =>
      obtain ⟨winner, _⟩ := found
      cases winner <;> rfl
  rw [loops, ConnectionRequest.connected]
  cases racing : request.racing with
  | none => exact ends_connectInTurn racing [] stands rfl
  | some answers =>
    have fair : Race.Fair request.localAddrinfos [] 0 ⟨[], []⟩ :=
      ⟨forall_mem_nil _, forall_mem_nil _, .nil, forall_mem_nil _⟩
    have ends : Ends request ssl keeps _ _ := ends_startAttempts racing 0
      ⟨stands, ⟨[], fair⟩, forall_mem_nil _, rfl, forall_mem_nil _⟩ drop_zero
    simp only [connectWithHappyEyeballs]
    generalize startAttempts request.localAddrinfos answers request.order 0 0 _ = found at ends
    cases found with
    | error => exact ends
    | ok found =>
      obtain ⟨winner, race, waits⟩ := found
      cases winner <;> exact ends

end Rsloop.Connect
