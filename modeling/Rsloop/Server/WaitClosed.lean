import Rsloop.Server.Accounting

/-!
# What a completed `wait_closed` has seen

`wait_closed` reads the closed flag and three counters, one after the other, and
none of them covers an accepted stream in the ready queue or a handshake between
its last look at the flag and its count. Where no connection is in that gap when
the count of connections is read, each of the four readings stays true behind it.
-/

namespace Rsloop.Server

open Transition List

/-! ## Connections on their way -/

namespace Connection

/-- Neither the flag nor a counter can keep the connection from being opened. -/
def arriving (c : Connection) : Bool :=
  c.phase = .queued || c.phase = .admitted || c.phase = .made ||
    (c.phase = .making && !c.tls)

def awaitsHandshake (c : Connection) : Bool :=
  c.phase = .job || c.phase = .admitted ||
    (c.phase = .handshake && !c.upgraded)

/-- Not open, and not going to be once the server is closed -/
structure Dormant (c : Connection) : Prop where
  shut : c.isOpen = false
  settled : c.arriving = false

variable {before after : Connection} {step : ConnectionStep} {accounting : Accounting}
  {closed : Bool}

structure Progress (closed : Bool) (before after : Connection) (accounting : Accounting) :
    Prop where
  reserved : after.reserved = before.reserved
  arriving : closed → before.arriving = false → after.arriving = false ∧ accounting ≠ .opened
  awaits : after.awaitsHandshake → before.awaitsHandshake ∨
      before.phase = .prepared ∧ before.upgraded = false

theorem progress_of_same (phase : after.phase = before.phase)
    (tls : after.tls = before.tls)
    (upgraded : after.upgraded = before.upgraded)
    (reserved : after.reserved = before.reserved)
    (uncounted : accounting ≠ .opened) :
    Progress closed before after accounting where
  reserved := reserved
  arriving _ settled := by
    refine ⟨?_, uncounted⟩
    unfold Connection.arriving at settled ⊢
    rwa [phase, tls]
  awaits waits := by
    refine .inl ?_
    unfold Connection.awaitsHandshake at waits ⊢
    rwa [phase, upgraded] at waits

theorem progress_of_settled
    (settled : after.arriving = false) (isOver : after.awaitsHandshake = false)
    (reserved : after.reserved = before.reserved)
    (uncounted : accounting ≠ .opened) :
    Progress closed before after accounting where
  reserved := reserved
  arriving _ _ := ⟨settled, uncounted⟩
  awaits waits := nomatch waits.symm.trans isOver

theorem progress_fail (c : Connection) :
    Progress closed c c.fail .none :=
  progress_of_settled rfl rfl rfl nofun

theorem progress_dropLease (c : Connection) :
    Progress closed c c.dropLease.1 c.dropLease.2 := by
  refine progress_of_settled rfl rfl rfl ?_
  unfold dropLease
  cases c.lease with
  | true | false => nofun

theorem progress_workerFailed (c : Connection) :
    Progress closed c { c.lose with phase := .failed } .none :=
  progress_of_settled rfl rfl (loseFrame c).reserved nofun

theorem progress_of_arriving
    (arriving : before.arriving) (isOver : after.awaitsHandshake = false)
    (reserved : after.reserved = before.reserved) :
    Progress closed before after accounting where
  reserved := reserved
  arriving _ settled := nomatch arriving.symm.trans settled
  awaits waits := nomatch waits.symm.trans isOver

variable {c : Connection}

theorem arriving_of_phase
    (phase : c.phase = .queued ∨ c.phase = .admitted ∨
      c.phase = .made) : c.arriving := by
  unfold arriving
  rcases phase with phase | phase | phase <;> rw [phase] <;> rfl

variable {succeeds : Bool}

theorem progress_start
    (moved : stepConnection closed before (.start succeeds) = some (after, accounting)) :
    Progress closed before after accounting := by
  simp only [stepConnection] at moved
  split at moved
  next phase =>
    cases succeeds with
    | true =>
      cases moved
      exact progress_of_arriving (arriving_of_phase (.inl phase)) rfl rfl
    | false =>
      cases moved
      exact progress_fail before
  next phase =>
    split at moved
    · cases moved
      refine ⟨rfl, fun _ _ => ⟨rfl, by rintro ⟨⟩⟩, fun _ => .inl ?_⟩
      unfold awaitsHandshake
      rw [phase]
      rfl
    · cases moved
      exact progress_fail before
  next phase =>
    cases succeeds with
    | true =>
      cases moved
      refine ⟨rfl, fun _ _ => ⟨rfl, by rintro ⟨⟩⟩, fun waits => .inr ⟨phase, ?_⟩⟩
      simpa [awaitsHandshake] using waits
    | false =>
      cases moved
      exact progress_dropLease before
  · cases moved

theorem progress_handshake
    (moved : stepConnection closed before (.handshake succeeds) = some (after, accounting)) :
    Progress closed before after accounting := by
  simp only [stepConnection] at moved
  split at moved
  next phase =>
    by_cases upgraded : before.upgraded
    · rw [if_pos upgraded] at moved
      cases succeeds with
      | true =>
        cases moved
        exact progress_of_settled rfl rfl rfl (by rintro ⟨⟩)
      | false =>
        cases moved
        exact progress_dropLease before
    · rw [if_neg upgraded] at moved
      split at moved
      next admitted =>
        cases moved
        refine ⟨rfl, fun shut => (by cases shut.symm.trans admitted.1), fun _ => .inl ?_⟩
        unfold awaitsHandshake
        rw [phase, Bool.eq_false_iff.mpr upgraded]
        rfl
      · cases moved
        exact progress_fail before
  · cases moved

theorem progress_opened
    (moved : stepConnection closed before (.opened succeeds) = some (after, accounting)) :
    Progress closed before after accounting := by
  simp only [stepConnection] at moved
  split at moved
  next phase =>
    have arriving := arriving_of_phase (.inr (.inl phase))
    cases succeeds with
    | true =>
      cases moved
      exact progress_of_arriving arriving rfl rfl
    | false =>
      cases moved
      exact progress_fail before
  next phase =>
    have arriving := arriving_of_phase (.inr (.inr phase))
    split at moved
    · cases moved
      exact progress_of_arriving arriving rfl rfl
    · cases moved
      exact progress_of_arriving arriving rfl rfl
  · cases moved

theorem progress_made {raises : Bool}
    (moved : stepConnection closed before (.made raises) = some (after, accounting)) :
    Progress closed before after accounting := by
  simp only [stepConnection] at moved
  split at moved
  next phase =>
    cases raises with
    | true =>
      cases moved
      exact progress_fail before
    | false =>
      by_cases secured : before.tls
      · cases (if_pos secured).symm.trans moved
        exact progress_of_settled rfl rfl rfl (by rintro ⟨⟩)
      · cases (if_neg secured).symm.trans moved
        refine progress_of_arriving ?_ rfl rfl
        unfold Connection.arriving
        rw [phase, Bool.eq_false_iff.mpr secured]
        rfl
  · cases moved

theorem progress_stepConnection
    (moved : stepConnection closed before step = some (after, accounting)) :
    Progress closed before after accounting := by
  cases step with
  | start => exact progress_start moved
  | handshake => exact progress_handshake moved
  | opened => exact progress_opened moved
  | made => exact progress_made moved
  | startReader succeeds =>
    simp only [stepConnection] at moved
    split at moved
    · cases succeeds with
      | true =>
        cases moved
        cases before.tls <;> exact progress_of_settled rfl rfl rfl (by rintro ⟨⟩)
      | false =>
        cases moved
        exact progress_workerFailed before
    · cases moved
  | startWriter succeeds =>
    simp only [stepConnection] at moved
    split at moved
    · cases succeeds with
      | true =>
        cases moved
        exact progress_of_settled rfl rfl rfl (by rintro ⟨⟩)
      | false =>
        cases moved
        exact progress_workerFailed before
    · cases moved
  | queueLoss =>
    simp only [stepConnection] at moved
    split_ifs at moved
    · cases moved
      exact progress_of_same rfl rfl rfl rfl (by rintro ⟨⟩)
    · cases moved
      exact progress_of_same rfl rfl rfl rfl (by rintro ⟨⟩)
  | beginLoss =>
    simp only [stepConnection] at moved
    split_ifs at moved
    cases moved
    have frame := loseFrame before
    exact progress_of_same frame.phase frame.tls frame.upgraded frame.reserved (by rintro ⟨⟩)
  | endLoss =>
    simp only [stepConnection] at moved
    split_ifs at moved
    cases moved
    exact progress_of_same rfl rfl rfl rfl (by rintro ⟨⟩)
  | startTls | takeLease =>
    simp only [stepConnection] at moved
    split_ifs at moved
    cases moved
    exact progress_of_settled rfl rfl rfl (by rintro ⟨⟩)

theorem awaitsHandshake_of_progress
    (progress : Progress closed before after accounting) (valid : before.Valid)
    (waits : after.awaitsHandshake) : before.awaitsHandshake := by
  cases progress.awaits waits with
  | inl waited => exact waited
  | inr prepared =>
    unfold Valid at valid
    rw [prepared.1] at valid
    have facts : before.Leased ∧ before.upgraded := valid
    cases prepared.2.symm.trans facts.2

theorem awaitsHandshake_eq_false_of_jobOver (valid : c.Valid)
    (isOver : c.jobOver) : c.awaitsHandshake = false := by
  unfold Valid at valid
  unfold jobOver at isOver
  unfold awaitsHandshake
  cases phase : c.phase with
  | job | admitted =>
    rw [phase] at valid isOver
    have waiting : c.Waiting ∧ c.tls := valid
    rw [waiting.1.upgraded] at isOver
    cases isOver
  | handshake =>
    rw [phase] at isOver
    cases upgraded : c.upgraded with
    | true => rfl
    | false =>
      rw [upgraded] at isOver
      cases isOver
  | queued | making | made | startReader | startWriter | running | failed | detaching
  | prepared => rfl

theorem Dormant.of_progress
    (dormant : before.Dormant)
    (progress : Progress true before after accounting)
    (agrees : accounting.Agrees before after) : after.Dormant := by
  obtain ⟨settled, uncounted⟩ := progress.arriving rfl dormant.settled
  refine ⟨?_, settled⟩
  cases accounting with
  | none =>
    have same : after.isOpen = before.isOpen := agrees
    exact same.trans dormant.shut
  | opened => exact absurd rfl uncounted
  | lost => exact agrees.2

end Connection

/-! ## What the waiter has seen -/

namespace AcceptTask

def active (task : AcceptTask) : Bool :=
  task ≠ .ended

/-- A task that will end without another accept once the server is closed -/
def idle : AcceptTask → Bool
  | .spawned | .checking | .exiting | .ended => true
  | .polling | .rechecking | .accepting | .scheduling | .reserving => false

theorem idle_of_stepAccept
    {server changed : ServerCore} {task next : AcceptTask} {reply : TaskReply}
    (closed : server.closed) (idle : task.idle)
    (moved : stepAccept server task reply = some (next, changed)) :
    next.idle := by
  unfold stepAccept at moved
  split at moved
  case h_4 =>
    rw [if_pos closed] at moved
    cases moved
    rfl
  all_goals first | cases idle | skip
  all_goals try split at moved
  all_goals cases moved
  all_goals rfl

end AcceptTask

namespace Waiter

def sawClosed : Waiter → Bool
  | .loadAcceptTasks _ | .loadConnections _ | .loadHandshakes _ | .completed => true
  | .idle | .checkClosed _ | .listen | .waiting => false

def sawNoTasks : Waiter → Bool
  | .loadConnections _ | .loadHandshakes _ | .completed => true
  | .idle | .checkClosed _ | .loadAcceptTasks _ | .listen | .waiting => false

def sawNoConnections : Waiter → Bool
  | .loadHandshakes _ | .completed => true
  | .idle | .checkClosed _ | .loadAcceptTasks _ | .loadConnections _ | .listen
  | .waiting => false

theorem sawClosed_of_sawNoTasks {waiter : Waiter} (saw : waiter.sawNoTasks) :
    waiter.sawClosed := by
  cases waiter <;> first | rfl | cases saw

theorem sawNoTasks_of_sawNoConnections {waiter : Waiter}
    (saw : waiter.sawNoConnections) :
    waiter.sawNoTasks := by
  cases waiter <;> first | rfl | cases saw

end Waiter

/-- No connection is in the gap when the waiter finds the count of connections at
zero. -/
def Settled (server : ServerCore) : ServerAction → Prop
  | .waiter =>
    server.waiter = .loadConnections false ∨ server.waiter = .loadConnections true →
      server.activeConnections = 0 → ∀ c ∈ server.connections, c.arriving = false
  | _ => True

instance decidableSettled (server : ServerCore) : ∀ action, Decidable (Settled server action)
  | .waiter =>
    inferInstanceAs (Decidable (server.waiter = .loadConnections false ∨
          server.waiter = .loadConnections true →
        server.activeConnections = 0 →
          ∀ c ∈ server.connections, c.arriving = false))
  | .startServing | .spawnTask | .task _ _ | .close | .notifyClosed
  | .connection _ _ | .dropPending _ | .waitClosed => .isTrue trivial

/-- The other two counters are right, and what the waiter has seen is so still. -/
structure Watched (server : ServerCore) : Prop where
  tasks : server.activeAcceptTasks = server.tasks.countP AcceptTask.active
  pending : server.pendingTlsHandshakes = server.connections.countP Connection.reserved
  held : ∀ c ∈ server.connections,
    c.awaitsHandshake → c.reserved
  closed : server.waiter.sawClosed → server.closed
  idle : server.waiter.sawNoTasks → ∀ task ∈ server.tasks, task.idle
  dormant : server.waiter.sawNoConnections →
    ∀ c ∈ server.connections, c.Dormant
  released : server.waiter = .completed →
    ∀ c ∈ server.connections, c.reserved = false

theorem watched_new (tls : Bool) (listeners limit : Nat) :
    Watched (ServerCore.new tls listeners limit) where
  tasks := rfl
  pending := rfl
  held _ member := nomatch member
  closed saw := nomatch saw
  idle saw := nomatch saw
  dormant saw := nomatch saw
  released completed := nomatch completed

/-! ## Steps -/

variable {server next : ServerCore}

theorem Watched.spawnTask (inv : Watched server)
    (moved : stepSpawnTask server = some next) :
    Watched next := by
  unfold stepSpawnTask at moved
  split_ifs at moved
  cases moved
  refine { inv with tasks := ?_, idle := ?_ }
  · rw [countP_append, inv.tasks]
    rfl
  · intro saw task mem
    cases mem_append.mp mem with
    | inl old => exact inv.idle saw task old
    | inr new =>
      cases mem_singleton.mp new
      rfl

/-- A task that the waiter has not seen gone accepts a connection. -/
theorem Watched.accept (inv : Watched server) {tls : Bool}
    (unseen : server.waiter.sawNoTasks = false) :
    Watched
      { server.accept tls with
        pendingTlsHandshakes := server.pendingTlsHandshakes + (if tls then 1 else 0) } where
  tasks := inv.tasks
  pending := by
    change _ = (server.connections ++ [Connection.accepted tls]).countP Connection.reserved
    rw [countP_append, inv.pending]
    cases tls with
    | true | false => rfl
  held := by
    intro c mem waits
    cases mem_append.mp mem with
    | inl old => exact inv.held c old waits
    | inr new =>
      cases mem_singleton.mp new
      cases tls with
      | true => rfl
      | false => cases waits
  closed := inv.closed
  idle saw := nomatch unseen.symm.trans saw
  dormant saw := nomatch unseen.symm.trans (Waiter.sawNoTasks_of_sawNoConnections saw)
  released completed := by
    have saw : server.waiter = .completed := completed
    rw [saw] at unseen
    cases unseen

variable {index : Nat}

section

variable (inv : Watched server)

include inv

theorem Watched.setTask {task following : AcceptTask}
    (found : server.tasks[index]? = some task)
    (active : following.active = task.active)
    (idle : server.waiter.sawNoTasks → following.idle) :
    Watched { server with tasks := server.tasks.set index following } := by
  have balance := countP_set_add_of_getElem? following AcceptTask.active found
  rw [active] at balance
  refine { inv with tasks := ?_, idle := ?_ }
  · exact inv.tasks.trans (Nat.add_right_cancel balance).symm
  · intro saw
    exact forall_mem_set (inv.idle saw) (idle saw)

theorem Watched.exitTask (found : server.tasks[index]? = some .exiting) :
    Watched
      { server with
        activeAcceptTasks := server.activeAcceptTasks - 1
        notified := true
        tasks := server.tasks.set index .ended } := by
  have balance := countP_set_add_of_getElem? .ended AcceptTask.active found
  refine { inv with tasks := ?_, idle := ?_ }
  · rw [inv.tasks]
    exact Nat.sub_eq_of_eq_add balance.symm
  · intro saw
    exact forall_mem_set (inv.idle saw) rfl

theorem Watched.unseen {task : AcceptTask}
    (found : server.tasks[index]? = some task)
    (busy : task.idle = false) : server.waiter.sawNoTasks = false := by
  cases saw : server.waiter.sawNoTasks with
  | false => rfl
  | true => cases busy.symm.trans (inv.idle saw task (mem_of_getElem? found))

theorem Watched.task {reply : TaskReply}
    (moved : stepTask server index reply = some next) :
    Watched next := by
  unfold stepTask at moved
  split at moved
  · cases moved
  next task found =>
    obtain ⟨⟨following, changed⟩, accepted, rfl⟩ := Option.map_eq_some_iff.mp moved
    have idle : server.waiter.sawNoTasks → following.idle := fun saw =>
      AcceptTask.idle_of_stepAccept (inv.closed (Waiter.sawClosed_of_sawNoTasks saw))
        (inv.idle saw task (mem_of_getElem? found)) accepted
    cases acceptMove_stepAccept accepted with
    | worked active stays =>
      refine inv.setTask found ?_ idle
      unfold AcceptTask.active
      rw [decide_eq_true active, decide_eq_true stays]
    | queued =>
      have unseen := inv.unseen found rfl
      have entered : Watched (server.accept false) := inv.accept unseen
      exact entered.setTask found rfl idle
    | reserved =>
      have unseen := inv.unseen found rfl
      have entered : Watched
            { server.accept true with pendingTlsHandshakes := server.pendingTlsHandshakes + 1 } :=
        inv.accept unseen
      exact entered.setTask found rfl idle
    | exited => exact inv.exitTask found

theorem Watched.close : Watched (stepClose server) := by
  unfold stepClose
  split
  · exact inv
  · exact { inv with closed := fun _ => rfl }

end

/-- `account` touches the count of connections only. -/
theorem ServerCore.account_eq (server : ServerCore) (accounting : Accounting) :
    ∃ count told, server.account accounting =
      { server with activeConnections := count, notified := told } := by
  cases accounting with
  | none => exact ⟨server.activeConnections, server.notified, rfl⟩
  | opened => exact ⟨_, server.notified, rfl⟩
  | lost => exact ⟨_, _, rfl⟩

theorem Watched.connection (accounted : Accounted server) (inv : Watched server)
    {step : ConnectionStep}
    (accountable : Accountable server (.connection index step))
    (moved : stepOf server index step = some next) : Watched next := by
  unfold stepOf at moved
  split at moved
  · cases moved
  next before found =>
    obtain ⟨⟨after, accounting⟩, stepped, rfl⟩ := Option.map_eq_some_iff.mp moved
    have member := mem_of_getElem? found
    have valid := accounted.valid before member
    have progress := Connection.progress_stepConnection stepped
    have kept := Connection.keeps_stepConnection valid (accountable before found) stepped
    obtain ⟨count, told, accounts⟩ := ServerCore.account_eq server accounting
    simp only [accounts]
    refine { inv with pending := ?_, held := ?_, dormant := ?_, released := ?_ }
    · have balance := countP_set_add_of_getElem? after Connection.reserved found
      rw [progress.reserved] at balance
      exact inv.pending.trans (Nat.add_right_cancel balance).symm
    · refine forall_mem_set inv.held ?_
      intro waits
      rw [progress.reserved]
      exact inv.held before member (Connection.awaitsHandshake_of_progress progress valid waits)
    · intro saw
      have seen : server.waiter.sawNoConnections := saw
      have closed := inv.closed (Waiter.sawClosed_of_sawNoTasks
        (Waiter.sawNoTasks_of_sawNoConnections seen))
      rw [closed] at progress
      exact forall_mem_set (inv.dormant seen)
        ((inv.dormant seen before member).of_progress progress kept.agrees)
    · intro completed
      have isOver : server.waiter = .completed := completed
      refine forall_mem_set (inv.released isOver) ?_
      rw [progress.reserved]
      exact inv.released isOver before member

theorem Watched.dropPending (accounted : Accounted server)
    (inv : Watched server)
    (moved : stepDropPending server index = some next) : Watched next := by
  unfold stepDropPending at moved
  split at moved
  · cases moved
  next before found =>
    split_ifs at moved with enabled
    obtain ⟨reserved, isOver⟩ := enabled
    cases moved
    have member := mem_of_getElem? found
    refine { inv with pending := ?_, held := ?_, dormant := ?_, released := ?_ }
    · have balance := countP_set_add_of_getElem?
        { before with reserved := false } Connection.reserved found
      rw [reserved] at balance
      rw [inv.pending]
      exact Nat.sub_eq_of_eq_add balance.symm
    · refine forall_mem_set inv.held ?_
      intro waits
      have finished := Connection.awaitsHandshake_eq_false_of_jobOver
        (accounted.valid before member) isOver
      cases waits.symm.trans finished
    · intro saw
      have dormant := inv.dormant saw before member
      exact forall_mem_set (inv.dormant saw) ⟨dormant.shut, dormant.settled⟩
    · intro completed
      exact forall_mem_set (inv.released completed) rfl

theorem Watched.startOver (inv : Watched server) {waiter : Waiter}
    {notified : Bool}
    (unseen : waiter.sawClosed = false) :
    Watched { server with notified := notified, waiter := waiter } :=
  { inv with
    closed := fun saw => nomatch unseen.symm.trans saw
    idle := fun saw => nomatch unseen.symm.trans (Waiter.sawClosed_of_sawNoTasks saw)
    dormant := fun saw =>
      nomatch unseen.symm.trans (Waiter.sawClosed_of_sawNoTasks
        (Waiter.sawNoTasks_of_sawNoConnections saw))
    released := by
      intro completed
      have isOver : waiter = .completed := completed
      rw [isOver] at unseen
      cases unseen }

theorem Waiter.sawClosed_miss (again : Bool) : (Waiter.miss again).sawClosed = false := by
  cases again <;> rfl

variable {again : Bool}

theorem Watched.loadAcceptTasks (inv : Watched server) (closed : server.closed)
    (none : server.activeAcceptTasks = 0) :
    Watched { server with waiter := .loadConnections again } := by
  refine { inv with closed := fun _ => closed, idle := ?_, dormant := nofun, released := nofun }
  intro _ task mem
  have noneActive := inv.tasks.symm.trans none
  have ended : ¬task.active := countP_eq_zero.mp noneActive task mem
  cases task with
  | ended => rfl
  | spawned | checking | polling | rechecking | accepting | scheduling | reserving
  | exiting => exact absurd rfl ended

theorem Watched.loadConnections (accounted : Accounted server)
    (inv : Watched server)
    (current : server.waiter = .loadConnections again)
    (settled : Settled server .waiter) (none : server.activeConnections = 0) :
    Watched { server with waiter := .loadHandshakes again } := by
  have saw : server.waiter.sawNoTasks := by
    rw [current]
    rfl
  have arrived : ∀ c ∈ server.connections, c.arriving = false := by
    refine settled ?_ none
    cases again with
    | false => exact .inl current
    | true => exact .inr current
  refine
    { inv with
      closed := fun _ => inv.closed (Waiter.sawClosed_of_sawNoTasks saw)
      idle := fun _ => inv.idle saw
      dormant := ?_
      released := nofun }
  intro _ c mem
  have noneOpen := accounted.counted.symm.trans none
  have shut : ¬c.isOpen := countP_eq_zero.mp noneOpen c mem
  exact ⟨Bool.eq_false_iff.mpr shut, arrived c mem⟩

theorem Watched.loadHandshakes (inv : Watched server)
    (current : server.waiter = .loadHandshakes again)
    (none : server.pendingTlsHandshakes = 0) :
    Watched { server with waiter := .completed } := by
  have saw : server.waiter.sawNoConnections := by
    rw [current]
    rfl
  have sawTasks := Waiter.sawNoTasks_of_sawNoConnections saw
  refine
    { inv with
      closed := fun _ => inv.closed (Waiter.sawClosed_of_sawNoTasks sawTasks)
      idle := fun _ => inv.idle sawTasks
      dormant := fun _ => inv.dormant saw
      released := ?_ }
  intro _ c mem
  have noneReserved := inv.pending.symm.trans none
  exact Bool.eq_false_iff.mpr (countP_eq_zero.mp noneReserved c mem)

/-- Each reading of the waiter is still true when the next one is made. -/
theorem Watched.waiter (accounted : Accounted server) (inv : Watched server)
    (settled : Settled server .waiter) (moved : stepWaiter server = some next) :
    Watched next := by
  unfold stepWaiter at moved
  cases current : server.waiter with
  | checkClosed again =>
    simp only [current] at moved
    split_ifs at moved with closed
    · cases moved
      exact
        { inv with
          closed := fun _ => closed
          idle := nofun
          dormant := nofun
          released := nofun }
    · cases moved
      exact inv.startOver (Waiter.sawClosed_miss again)
  | loadAcceptTasks again =>
    simp only [current] at moved
    have closed : server.closed := inv.closed (by rw [current]; rfl)
    split_ifs at moved with none
    · cases moved
      exact inv.loadAcceptTasks closed none
    · cases moved
      exact inv.startOver (Waiter.sawClosed_miss again)
  | loadConnections again =>
    simp only [current] at moved
    split_ifs at moved with none
    · cases moved
      exact inv.loadConnections accounted current settled none
    · cases moved
      exact inv.startOver (Waiter.sawClosed_miss again)
  | loadHandshakes again =>
    simp only [current] at moved
    split_ifs at moved with none
    · cases moved
      exact inv.loadHandshakes current none
    · cases moved
      exact inv.startOver (Waiter.sawClosed_miss again)
  | listen =>
    simp only [current] at moved
    cases moved
    exact inv.startOver rfl
  | waiting =>
    simp only [current] at moved
    split_ifs at moved with told
    cases moved
    exact inv.startOver rfl
  | idle | completed =>
    simp only [current] at moved
    cases moved

theorem watched_serverStep (server : ServerCore) (action : ServerAction)
    (next : ServerCore)
    (accounted : Accounted server) (inv : Watched server)
    (accountable : Accountable server action) (settled : Settled server action)
    (moved : serverStep server action = some next) : Watched next := by
  cases action with
  | startServing =>
    cases moved
    unfold stepStartServing
    split
    · exact inv
    · exact { inv with }
  | spawnTask => exact inv.spawnTask moved
  | task => exact inv.task moved
  | close =>
    cases moved
    exact inv.close
  | notifyClosed =>
    simp only [serverStep] at moved
    split_ifs at moved
    cases moved
    exact { inv with }
  | connection => exact inv.connection accounted accountable moved
  | dropPending => exact inv.dropPending accounted moved
  | waitClosed =>
    simp only [serverStep] at moved
    split_ifs at moved
    cases moved
    exact inv.startOver rfl
  | waiter => exact inv.waiter accounted settled moved

/-! ## Completed -/

theorem completed_serverStep {action : ServerAction}
    (completed : server.waiter = .completed)
    (moved : serverStep server action = some next) :
    next.waiter = .completed := by
  cases action with
  | startServing =>
    cases moved
    unfold stepStartServing
    split
    · exact completed
    · exact completed
  | spawnTask =>
    simp only [serverStep, stepSpawnTask] at moved
    split_ifs at moved
    cases moved
    exact completed
  | task =>
    simp only [serverStep, stepTask] at moved
    split at moved
    · cases moved
    · obtain ⟨⟨following, changed⟩, accepted, rfl⟩ := Option.map_eq_some_iff.mp moved
      cases acceptMove_stepAccept accepted with
      | worked _ _ | queued _ | reserved _ | exited => exact completed
  | close =>
    cases moved
    unfold stepClose
    split <;> exact completed
  | notifyClosed =>
    simp only [serverStep] at moved
    split_ifs at moved
    cases moved
    exact completed
  | connection =>
    simp only [serverStep, stepOf] at moved
    split at moved
    · cases moved
    · obtain ⟨⟨after, accounting⟩, stepped, rfl⟩ := Option.map_eq_some_iff.mp moved
      obtain ⟨count, told, accounts⟩ := ServerCore.account_eq server accounting
      simp only [accounts]
      exact completed
  | dropPending =>
    simp only [serverStep, stepDropPending] at moved
    split at moved
    · cases moved
    · split_ifs at moved
      cases moved
      exact completed
  | waitClosed =>
    simp only [serverStep, completed] at moved
    cases moved
  | waiter =>
    simp only [serverStep, stepWaiter, completed] at moved
    cases moved

structure Finished (server : ServerCore) : Prop where
  noneOpen : ∀ c ∈ server.connections, c.isOpen = false
  noneAwaiting : ∀ c ∈ server.connections, c.awaitsHandshake = false
  nonePending : server.pendingTlsHandshakes = 0

theorem Watched.finished (inv : Watched server)
    (completed : server.waiter = .completed) : Finished server := by
  have saw : server.waiter.sawNoConnections := by
    rw [completed]
    rfl
  have released := inv.released completed
  constructor
  · intro c mem
    exact (inv.dormant saw c mem).shut
  · intro c mem
    cases waits : c.awaitsHandshake with
    | false => rfl
    | true => cases (released c mem).symm.trans (inv.held c mem waits)
  · rw [inv.pending, countP_eq_zero]
    intro c mem reserved
    cases (released c mem).symm.trans reserved

theorem settled_of_completed (completed : server.waiter = .completed)
    (action : ServerAction) : Settled server action := by
  cases action with
  | waiter =>
    intro loading
    cases loading with
    | inl first | inr first => cases completed.symm.trans first
  | startServing | spawnTask | task _ _ | close | notifyClosed | connection _ _
  | dropPending _ | waitClosed => trivial

/-- Once `wait_closed` has completed, the server is finished, and it stays so
whatever is done to it. -/
theorem finished_of_waitClosed_completed
    {tls : Bool} {listeners limit : Nat} {actions : List ServerAction}
    {server : ServerCore}
    (accountable :
      Guarded serverStep Accountable (ServerCore.new tls listeners limit) actions)
    (settled :
      Guarded serverStep Settled (ServerCore.new tls listeners limit) actions)
    (reached :
      run serverStep (ServerCore.new tls listeners limit) actions = some server)
    (completed : server.waiter = .completed) :
    Finished server ∧ ∀ (later : List ServerAction) (last : ServerCore),
        Guarded serverStep Accountable server later →
          run serverStep server later = some last → Finished last := by
  have initially : Accounted (ServerCore.new tls listeners limit) ∧
        Watched (ServerCore.new tls listeners limit) :=
    ⟨accounted_new tls listeners limit, watched_new tls listeners limit⟩
  have inv : Accounted server ∧ Watched server :=
    invariant_of_run (fun server => Accounted server ∧ Watched server)
      (fun s action next kept guard moved =>
        ⟨accounted_serverStep s action next kept.1 guard.1 moved,
          watched_serverStep s action next kept.1 kept.2 guard.1 guard.2 moved⟩)
      initially (accountable.and settled) reached
  refine ⟨inv.2.finished completed, fun later last goesOn arrived => ?_⟩
  -- a completed waiter reads nothing any more, so `Settled` holds by itself
  have kept : (Accounted last ∧ Watched last) ∧ last.waiter = .completed :=
    invariant_of_run
      (fun server => (Accounted server ∧ Watched server) ∧ server.waiter = .completed)
      (fun s action next kept guard moved =>
        ⟨⟨accounted_serverStep s action next kept.1.1 guard moved,
            watched_serverStep s action next kept.1.1 kept.1.2 guard
              (settled_of_completed kept.2 action) moved⟩,
          completed_serverStep kept.2 moved⟩)
      ⟨inv, completed⟩ goesOn arrived
  exact kept.1.2.finished kept.2

/-- The accepted connection is opened and lost before the waiter looks. -/
def closedInOrder : List ServerAction :=
  acceptedOne ++ [.connection 0 (.start true), .connection 0 (.made false),
      .connection 0 (.opened true), .connection 0 (.startReader true),
      .close, .notifyClosed, .task 0 .proceed, .task 0 .proceed,
      .connection 0 .queueLoss, .connection 0 .beginLoss, .connection 0 .endLoss,
      .waitClosed, .waiter, .waiter, .waiter, .waiter]

theorem finished_of_closedInOrder :
    ∃ server, run serverStep (ServerCore.new false 1 8) closedInOrder = some server ∧
      Finished server ∧
      ∀ (later : List ServerAction) (last : ServerCore),
        Guarded serverStep Accountable server later →
          run serverStep server later = some last → Finished last := by
  refine exists_run_imp (fun server => server.waiter = .completed) (by decide) ?_
  rintro server reached completed
  exact finished_of_waitClosed_completed (by decide) (by decide) reached completed

/-- The server is closed, and `wait_closed` completes, while the accepted
connection is still in the ready queue. -/
def closedWhileQueued : List ServerAction :=
  acceptedOne ++ [.close, .notifyClosed, .task 0 .proceed, .task 0 .proceed,
      .waitClosed, .waiter, .waiter, .waiter, .waiter]

def queuedIsServed : List ServerAction :=
  [.connection 0 (.start true), .connection 0 (.made false), .connection 0 (.opened true)]

theorem opened_after_waitClosed_completed :
    ∃ server, run serverStep (ServerCore.new false 1 8) closedWhileQueued = some server ∧
      server.waiter = .completed ∧
      ∃ last, run serverStep server queuedIsServed = some last ∧
        ∃ c ∈ last.connections, c.isOpen := by
  refine exists_run_imp (fun server => server.waiter = .completed ∧ ((run serverStep server
      queuedIsServed).any fun last => decide (last.connections.any Connection.isOpen)) =
      true) (by decide) ?_
  rintro server reached ⟨completed, opens⟩
  refine ⟨completed, ?_⟩
  obtain ⟨last, served, isOpen⟩ :=
    exists_run_of_any serverStep server queuedIsServed
      (fun last => last.connections.any Connection.isOpen) opens
  exact ⟨last, served, any_eq_true.mp isOpen⟩

end Rsloop.Server
