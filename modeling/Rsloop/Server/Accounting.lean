import Rsloop.Server.ConnectionDebt

/-!
# The count of open connections

Each step of a connection tells the server what has become of its debt. The
counter therefore stays equal to the number of connections that have been opened
and have not ended, and descriptors are too few for it to wrap.
-/

namespace Rsloop.Server

open Transition List

/-! ## Counting the members of a list -/

section

variable {α : Type*} {members : List α} {index : Nat} {old : α} (new : α)

theorem countP_set_add_of_getElem? (counted : α → Bool)
    (found : members[index]? = some old) :
    (members.set index new).countP counted + (if counted old then 1 else 0) =
      members.countP counted + (if counted new then 1 else 0) := by
  obtain ⟨inside, rfl⟩ := List.getElem?_eq_some_iff.mp found
  have positive : counted members[index] → 0 < members.countP counted :=
    fun holds => countP_pos_iff.mpr ⟨_, getElem_mem inside, holds⟩
  rw [countP_set inside]
  by_cases holds : counted members[index]
  · have := positive holds
    rw [if_pos holds]
    omega
  · rw [if_neg holds]
    omega

theorem countP_set_le_of_getElem? (counted : α → Bool)
    (found : members[index]? = some old)
    (kept : counted new → counted old) :
    (members.set index new).countP counted ≤ members.countP counted := by
  have balance := countP_set_add_of_getElem? new counted found
  by_cases holds : counted new
  · rw [if_pos holds, if_pos (kept holds)] at balance
    exact Nat.le_of_eq (Nat.add_right_cancel balance)
  · rw [if_neg holds] at balance
    omega

omit new in
theorem forall_mem_set
    {new : α} {property : α → Prop}
    (everywhere : ∀ member ∈ members, property member)
    (replaced : property new) :
    ∀ member ∈ members.set index new, property member := by
  intro member among
  cases mem_or_eq_of_mem_set among with
  | inl old => exact everywhere member old
  | inr same => exact same ▸ replaced

end

/-! ## The condition on a run -/

def Accountable (server : ServerCore) : ServerAction → Prop
  | .connection index step =>
    ∀ c, server.connections[index]? = some c → c.Accountable step
  | _ => True

instance decidableAccountable (server : ServerCore) :
    ∀ action, Decidable (Accountable server action)
  | .connection index step =>
    match found : server.connections[index]? with
    | none => .isTrue fun _ same => nomatch found.symm.trans same
    | some c =>
      decidable_of_iff (c.Accountable step)
        ⟨fun met _ same => Option.some.inj (found.symm.trans same) ▸ met,
          fun met => met c found⟩
  | .startServing | .spawnTask | .task _ _ | .close | .notifyClosed
  | .dropPending _ | .waitClosed | .waiter => .isTrue trivial

/-! ## Steps of the server -/

/-- What a step of the server does to its connections and their count -/
inductive ConnectionsMove (server next : ServerCore) : ServerAction → Prop where
  | same {action : ServerAction} (connections : next.connections = server.connections)
      (activeConnections : next.activeConnections = server.activeConnections) :
      ConnectionsMove server next action
  | admitted {action : ServerAction} {tls : Bool}
      (room : server.connections.countP (fun one => !one.ended) < maxDescriptors)
      (connections : next.connections = server.connections ++ [.accepted tls])
      (activeConnections : next.activeConnections = server.activeConnections) :
      ConnectionsMove server next action
  | moved {index : Nat} {before after : Connection} {step : ConnectionStep}
      {accounting : Accounting}
      (found : server.connections[index]? = some before)
      (moved : stepConnection server.closed before step = some (after, accounting))
      (connections : next.connections = server.connections.set index after)
      (activeConnections : next.activeConnections = (server.account accounting).activeConnections) :
      ConnectionsMove server next (.connection index step)
  | released {index : Nat} {before : Connection}
      (found : server.connections[index]? = some before)
      (connections :
        next.connections = server.connections.set index { before with reserved := false })
      (activeConnections : next.activeConnections = server.activeConnections) :
      ConnectionsMove server next (.dropPending index)

inductive AcceptMove (server : ServerCore) : AcceptTask → AcceptTask → ServerCore → Prop where
  | worked {task next : AcceptTask} (active : task ≠ .ended) (stays : next ≠ .ended) :
      AcceptMove server task next server
  | queued (room : server.connections.countP (fun one => !one.ended) < maxDescriptors) :
      AcceptMove server .scheduling .checking (server.accept false)
  | reserved (room : server.connections.countP (fun one => !one.ended) < maxDescriptors) :
      AcceptMove server .reserving .accepting
        { server.accept true with pendingTlsHandshakes := server.pendingTlsHandshakes + 1 }
  | exited : AcceptMove server .exiting .ended
        { server with activeAcceptTasks := server.activeAcceptTasks - 1, notified := true }

variable {next : AcceptTask}

theorem acceptMove_stepSchedule {server changed : ServerCore}
    (moved : stepSchedule server = some (next, changed)) :
    AcceptMove server .scheduling next changed := by
  unfold stepSchedule at moved
  split at moved
  · split at moved
    · cases moved
      exact .worked nofun nofun
    · cases moved
      exact .worked nofun nofun
  · split_ifs at moved with room
    cases moved
    exact .queued room

theorem acceptMove_stepReserve {server changed : ServerCore}
    (moved : stepReserve server = some (next, changed)) :
    AcceptMove server .reserving next changed := by
  unfold stepReserve at moved
  split at moved
  · split_ifs at moved with room
    cases moved
    exact .reserved room
  · cases moved
    exact .worked nofun nofun

theorem acceptMove_stepAccept {server changed : ServerCore} {task : AcceptTask}
    {reply : TaskReply}
    (moved : stepAccept server task reply = some (next, changed)) :
    AcceptMove server task next changed := by
  unfold stepAccept at moved
  split at moved
  case h_4 | h_8 | h_14 =>
    cases moved
    refine .worked nofun ?_
    split_ifs <;> nofun
  case h_13 => exact acceptMove_stepSchedule moved
  case h_15 => exact acceptMove_stepReserve moved
  case h_16 =>
    cases moved
    exact .exited
  all_goals try split at moved
  all_goals cases moved
  all_goals exact .worked nofun nofun

variable {server next : ServerCore} {index : Nat}

theorem connectionsMove_stepTask {reply : TaskReply}
    (moved : stepTask server index reply = some next) :
    ConnectionsMove server next (.task index reply) := by
  unfold stepTask at moved
  split at moved
  · cases moved
  · obtain ⟨⟨following, changed⟩, accepted, rfl⟩ := Option.map_eq_some_iff.mp moved
    cases acceptMove_stepAccept accepted with
    | worked _ _ | exited => exact .same rfl rfl
    | queued room | reserved room => exact .admitted room rfl rfl

theorem connectionsMove_stepOf {step : ConnectionStep}
    (moved : stepOf server index step = some next) :
    ConnectionsMove server next (.connection index step) := by
  unfold stepOf at moved
  split at moved
  · cases moved
  next c found =>
    obtain ⟨⟨after, accounting⟩, stepped, rfl⟩ := Option.map_eq_some_iff.mp moved
    exact .moved found stepped rfl rfl

theorem connectionsMove_stepDropPending
    (moved : stepDropPending server index = some next) :
    ConnectionsMove server next (.dropPending index) := by
  unfold stepDropPending at moved
  split at moved
  · cases moved
  next c found =>
    split_ifs at moved
    cases moved
    exact .released found rfl rfl

theorem connectionsMove_stepWaiter (moved : stepWaiter server = some next) :
    ConnectionsMove server next .waiter := by
  unfold stepWaiter at moved
  split at moved
  case h_6 =>
    split_ifs at moved
    cases moved
    exact .same rfl rfl
  all_goals cases moved
  all_goals exact .same rfl rfl

theorem connectionsMove_serverStep {action : ServerAction}
    (moved : serverStep server action = some next) :
    ConnectionsMove server next action := by
  cases action with
  | startServing =>
    cases moved
    unfold stepStartServing
    split <;> exact .same rfl rfl
  | spawnTask =>
    change stepSpawnTask server = some next at moved
    unfold stepSpawnTask at moved
    split_ifs at moved
    cases moved
    exact .same rfl rfl
  | task => exact connectionsMove_stepTask moved
  | close =>
    cases moved
    unfold stepClose
    split <;> exact .same rfl rfl
  | notifyClosed | waitClosed =>
    simp only [serverStep] at moved
    split_ifs at moved
    cases moved
    exact .same rfl rfl
  | connection => exact connectionsMove_stepOf moved
  | dropPending => exact connectionsMove_stepDropPending moved
  | waiter => exact connectionsMove_stepWaiter moved

/-! ## The count -/

/-- The count is right, and too small to wrap. -/
structure Accounted (server : ServerCore) : Prop where
  valid : ∀ c ∈ server.connections, c.Valid
  counted : server.activeConnections = server.connections.countP Connection.isOpen
  bounded : server.connections.countP (fun one => !one.ended) ≤ maxDescriptors

theorem accounted_new (tls : Bool) (listeners limit : Nat) :
    Accounted (ServerCore.new tls listeners limit) where
  valid _ member := nomatch member
  counted := rfl
  bounded := Nat.zero_le _

theorem Accounted.open_le (accounted : Accounted server) :
    server.connections.countP Connection.isOpen ≤ maxDescriptors := by
  apply Nat.le_trans _ accounted.bounded
  apply countP_mono_left
  intro c _ isOpen
  exact (Bool.and_eq_true_iff.mp isOpen).2

theorem fetchAdd_of_le {count : Nat} (small : count ≤ maxDescriptors) :
    fetchAdd count = count + 1 := by
  apply Nat.mod_eq_of_lt
  unfold maxDescriptors at small
  unfold wordSize
  omega

theorem fetchSub_succ_of_le {count : Nat} (small : count ≤ maxDescriptors) :
    fetchSub (count + 1) = count := by
  unfold fetchSub
  have wrapped : count + 1 + (wordSize - 1) = count + wordSize := by
    unfold wordSize
    omega
  rw [wrapped, Nat.add_mod_right]
  apply Nat.mod_eq_of_lt
  unfold maxDescriptors at small
  unfold wordSize
  omega

/-- The counter follows a connection that has told the server what happened. -/
theorem Accounted.counted_account (accounted : Accounted server)
    {before after : Connection} {accounting : Accounting}
    (found : server.connections[index]? = some before)
    (agrees : accounting.Agrees before after) :
    (server.account accounting).activeConnections =
      (server.connections.set index after).countP Connection.isOpen := by
  have balance := countP_set_add_of_getElem? after Connection.isOpen found
  have small := accounted.open_le
  have counted := accounted.counted
  cases accounting with
  | none =>
    have same : after.isOpen = before.isOpen := agrees
    rw [same] at balance
    exact counted.trans (Nat.add_right_cancel balance).symm
  | opened =>
    obtain ⟨shut, isOpen⟩ := agrees
    rw [shut, isOpen] at balance
    change fetchAdd server.activeConnections = _
    rw [counted, fetchAdd_of_le small]
    exact balance.symm
  | lost =>
    obtain ⟨isOpen, shut⟩ := agrees
    rw [isOpen, shut] at balance
    change fetchSub server.activeConnections = _
    have step : server.connections.countP Connection.isOpen =
        (server.connections.set index after).countP Connection.isOpen + 1 :=
      balance.symm
    rw [counted, step]
    apply fetchSub_succ_of_le
    omega

theorem accounted_serverStep (server : ServerCore) (action : ServerAction)
    (next : ServerCore)
    (accounted : Accounted server) (accountable : Accountable server action)
    (moved : serverStep server action = some next) : Accounted next := by
  cases connectionsMove_serverStep moved with
  | same connections activeConnections =>
    constructor
    · rw [connections]
      exact accounted.valid
    · rw [connections, activeConnections]
      exact accounted.counted
    · rw [connections]
      exact accounted.bounded
  | @admitted _ tls room connections activeConnections =>
    constructor
    · intro c mem
      rw [connections] at mem
      cases mem_append.mp mem with
      | inl old => exact accounted.valid c old
      | inr new =>
        cases mem_singleton.mp new
        exact Connection.valid_accepted tls
    · have unopened : [Connection.accepted tls].countP Connection.isOpen = 0 := rfl
      rw [connections, activeConnections, countP_append, unopened]
      exact accounted.counted
    · rwa [connections, countP_append]
  | @moved _ before after _ _ found stepped connections activeConnections =>
    have kept := Connection.keeps_stepConnection
      (accounted.valid before (mem_of_getElem? found))
      (accountable before found) stepped
    constructor
    · rw [connections]
      exact forall_mem_set accounted.valid kept.valid
    · rw [connections, activeConnections]
      exact accounted.counted_account found kept.agrees
    · rw [connections]
      refine Nat.le_trans (countP_set_le_of_getElem? after _ found ?_) accounted.bounded
      intro alive
      cases finished : before.ended with
      | false => rfl
      | true =>
        rw [kept.ended finished] at alive
        cases alive
  | @released _ before found connections activeConnections =>
    have valid := accounted.valid before (mem_of_getElem? found)
    constructor
    · rw [connections]
      refine forall_mem_set accounted.valid ?_
      refine valid.of_served rfl rfl rfl ?_ ?_ ?_ ?_ ?_ ?_
      · intro waiting
        exact { waiting with }
      · intro _ starting
        exact { starting with }
      · intro served
        exact served.frame
      · intro _ failed
        exact failed.release
      · intro detached
        exact { detached with }
      · intro leased
        exact { leased with }
    · rw [connections, activeConnections]
      have agrees : Accounting.none.Agrees before { before with reserved := false } := rfl
      exact accounted.counted_account found agrees
    · rw [connections]
      exact Nat.le_trans (countP_set_le_of_getElem? _ _ found id) accounted.bounded

/-- The counter is the number of connections that are open, whatever becomes of
the connections and in whatever order. -/
theorem activeConnections_eq_countP_isOpen
    {tls : Bool} {listeners limit : Nat} {actions : List ServerAction}
    {server : ServerCore}
    (accountable :
      Guarded serverStep Accountable (ServerCore.new tls listeners limit) actions)
    (reached : run serverStep (ServerCore.new tls listeners limit) actions = some server) :
    server.activeConnections = server.connections.countP Connection.isOpen ∧
      ((∀ c ∈ server.connections, c.ended) →
        server.activeConnections = 0) := by
  have accounted :=
    invariant_of_run Accounted accounted_serverStep (accounted_new tls listeners limit)
      accountable reached
  refine ⟨accounted.counted, fun finished => ?_⟩
  rw [accounted.counted, countP_eq_zero]
  intro c member isOpen
  have alive := (Bool.and_eq_true_iff.mp isOpen).2
  rw [finished c member] at alive
  cases alive

/-- A plaintext server that has accepted one connection -/
def acceptedOne : List ServerAction :=
  [.startServing, .spawnTask, .task 0 .proceed, .task 0 .proceed,
    .task 0 .accepted, .task 0 .proceed]

/-- The connection is upgraded by `start_tls` and then lost. -/
def upgradedAndLost : List ServerAction :=
  acceptedOne ++ [.connection 0 (.start true), .connection 0 (.made false),
      .connection 0 (.opened true), .connection 0 (.startReader true),
      .connection 0 .startTls, .connection 0 .takeLease,
      .connection 0 (.start true), .connection 0 (.handshake true),
      .connection 0 (.made false), .connection 0 (.startReader true),
      .connection 0 (.startWriter true), .connection 0 .queueLoss,
      .connection 0 .beginLoss, .connection 0 .endLoss]

theorem activeConnections_eq_countP_isOpen_of_upgradedAndLost :
    ∃ server, run serverStep (ServerCore.new false 1 8) upgradedAndLost = some server ∧
      (server.activeConnections = server.connections.countP Connection.isOpen ∧
        ((∀ c ∈ server.connections, c.ended) →
          server.activeConnections = 0)) ∧
      server.connections.length = 1 := by
  refine exists_run_imp (fun server => server.connections.length = 1) (by decide) ?_
  rintro server reached accepted
  exact ⟨activeConnections_eq_countP_isOpen (by decide) reached, accepted⟩

/-- `connection_made` aborts its transport and raises. The connection has not been
counted, and its loss is. -/
def abortedAndRaised : List ServerAction :=
  acceptedOne ++ [.connection 0 (.start true), .connection 0 .queueLoss,
      .connection 0 (.made true), .connection 0 .beginLoss,
      .connection 0 .endLoss]

theorem activeConnections_wraps_of_abortedAndRaised :
    ∃ server, run serverStep (ServerCore.new false 1 8) abortedAndRaised = some server ∧
      server.connections.countP Connection.isOpen = 0 ∧
      server.activeConnections = 2 ^ 64 - 1 :=
  exists_run_of_any _ _ _ _ (by decide)

end Rsloop.Server
