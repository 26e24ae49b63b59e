import Rsloop.Server.Connections

/-!
# The debt of a connection

A connection owes the server one `connection_lost` from the moment it is counted
to its end. The debt is carried by the server reference of its transport, by the
lease of an upgrade or by a loss in progress. The states in which exactly one of
them carries it are kept by every step, as long as `connection_made` and
`start_tls` do not take the shortcuts that `Connection.Accountable` rules out.
-/

namespace Rsloop.Server

/-! ## Where the debt is -/

namespace Connection

/-- Not counted yet, and nothing of a transport has happened. -/
structure Fresh (c : Connection) : Prop where
  opened : c.opened = false
  ended : c.ended = false
  lease : c.lease = false
  losing : c.losing = false
  lostCalled : c.lostCalled = false
  detached : c.detached = false

structure Waiting (c : Connection) : Prop extends Fresh c where
  serverRef : c.serverRef = false
  lossQueued : c.lossQueued = false
  upgraded : c.upgraded = false

/-- A plaintext connection around its `connection_made` -/
structure Starting (c : Connection) : Prop extends Fresh c where
  serverRef : c.serverRef
  tls : c.tls = false

/-- The transport's server reference carries the debt. -/
structure Live (c : Connection) : Prop where
  opened : c.opened
  ended : c.ended = false
  serverRef : c.serverRef
  lease : c.lease = false
  losing : c.losing = false
  lostCalled : c.lostCalled = false
  detached : c.detached = false

/-- `connection_lost_with_py` carries the debt. -/
structure Losing (c : Connection) : Prop where
  opened : c.opened
  ended : c.ended = false
  lease : c.lease = false
  losing : c.losing
  lostCalled : c.lostCalled
  detached : c.detached = false

structure Lost (c : Connection) : Prop where
  ended : c.ended
  lease : c.lease = false
  losing : c.losing = false
  lostCalled : c.lostCalled

/-- The connection has come to its end without a loss that could still be
called. -/
structure Unstarted (c : Connection) : Prop where
  ended : c.ended
  lease : c.lease = false
  losing : c.losing = false
  unopened : c.serverRef → c.opened = false
  unqueued : c.serverRef → c.lossQueued = false

/-- `start_tls` has detached the transport, which still has its reference. -/
structure Detached (c : Connection) : Prop where
  opened : c.opened
  ended : c.ended = false
  serverRef : c.serverRef
  lease : c.lease = false
  losing : c.losing = false
  detached : c.detached

structure Leased (c : Connection) : Prop where
  opened : c.opened
  ended : c.ended = false
  serverRef : c.serverRef = false
  lease : c.lease
  losing : c.losing = false
  detached : c.detached

inductive Served (c : Connection) : Prop where
  | live (standing : c.Live)
  | losing (standing : c.Losing)
  | lost (standing : c.Lost)

inductive Failed (c : Connection) : Prop where
  | losing (standing : c.Losing)
  | lost (standing : c.Lost)
  | unstarted (standing : c.Unstarted)

def Valid (c : Connection) : Prop :=
  match c.phase with
  | .queued => c.Waiting ∧ c.tls = false
  | .job | .admitted => c.Waiting ∧ c.tls
  | .handshake =>
    if c.upgraded then c.Leased
    else c.Waiting ∧ c.tls
  | .making => if c.tls then c.Served else c.Starting
  | .made => c.Starting
  | .startReader | .startWriter | .running => c.Served
  | .failed => c.Failed
  | .detaching => c.Detached
  | .prepared => c.Leased ∧ c.upgraded

theorem valid_accepted (tls : Bool) : (accepted tls).Valid := by
  cases tls with
  | false | true => exact ⟨⟨⟨rfl, rfl, rfl, rfl, rfl, rfl⟩, rfl, rfl, rfl⟩, rfl⟩

end Connection

/-- `Valid` with the phases of a kind together -/
inductive Connection.Standing (c : Connection) : Prop where
  | waiting (facts : c.Waiting)
  | starting (phase : c.phase = .making ∨ c.phase = .made)
      (facts : c.Starting)
  | served (facts : c.Served)
  | failed (phase : c.phase = .failed) (facts : c.Failed)
  | detached (facts : c.Detached)
  | leased (facts : c.Leased)

theorem Connection.Valid.standing
    {c : Connection} (valid : c.Valid) : c.Standing := by
  unfold Valid at valid
  revert valid
  cases phase : c.phase with
  | queued | job | admitted => exact fun valid => .waiting valid.1
  | handshake =>
    cases c.upgraded with
    | true => exact .leased
    | false => exact fun valid => .waiting valid.1
  | making =>
    cases c.tls with
    | true => exact .served
    | false => exact .starting (.inl phase)
  | made => exact .starting (.inr phase)
  | startReader | startWriter | running => exact .served
  | failed => exact .failed phase
  | detaching => exact .detached
  | prepared => exact fun valid => .leased valid.1

/-! ## The condition -/

/-- Behind a `connection_made` that has raised, before the connection was
counted -/
def Connection.raised (c : Connection) : Bool :=
  c.phase = .failed && c.serverRef && !c.opened

/-- `connection_made` raises at most on a plaintext connection that has no loss
queued, and then its transport is not closed, lost or upgraded any more.
`start_tls` is called neither in the `connection_made` of a plaintext connection
nor once `connection_lost` has begun. -/
def Connection.Accountable (c : Connection) : ConnectionStep → Prop
  | .made raises => raises → c.tls = false ∧ c.lossQueued = false
  | .queueLoss => c.raised = false
  | .startTls =>
    c.raised = false ∧ c.lostCalled = false ∧
      (c.phase = .making → c.tls)
  | _ => True

instance decidableAccountableStep (c : Connection) :
    ∀ step, Decidable (c.Accountable step)
  | .made raises =>
    inferInstanceAs (Decidable
      (raises → c.tls = false ∧ c.lossQueued = false))
  | .queueLoss => inferInstanceAs (Decidable (c.raised = false))
  | .startTls =>
    inferInstanceAs (Decidable (c.raised = false ∧ c.lostCalled = false ∧
        (c.phase = .making → c.tls)))
  | .start _ | .handshake _ | .opened _ | .startReader _ | .startWriter _
  | .beginLoss | .endLoss | .takeLease => .isTrue trivial

/-! ## Steps of one connection -/

/-- The step has told the server exactly what has happened to the number of open
connections. -/
def Accounting.Agrees : Accounting → Connection → Connection → Prop
  | .none, before, after => after.isOpen = before.isOpen
  | .opened, before, after => before.isOpen = false ∧ after.isOpen
  | .lost, before, after => before.isOpen ∧ after.isOpen = false

structure Keeps (before after : Connection) (accounting : Accounting) : Prop where
  valid : after.Valid
  agrees : accounting.Agrees before after
  ended : before.ended → after.ended

namespace Connection

variable {before after : Connection}

theorem keeps_of_same (valid : after.Valid)
    (opened : after.opened = before.opened)
    (ended : after.ended = before.ended) : Keeps before after .none where
  valid := valid
  agrees := by
    change (after.opened && !after.ended) = (before.opened && !before.ended)
    rw [opened, ended]
  ended earlier := ended.trans earlier

variable {c : Connection}

theorem Fresh.isOpen (fresh : c.Fresh) : c.isOpen = false := by
  unfold Connection.isOpen
  rw [fresh.opened]
  rfl

theorem Fresh.keeps_fail (fresh : c.Fresh)
    (unqueued : c.serverRef → c.lossQueued = false) :
    Keeps c c.fail .none where
  valid := .unstarted
    { ended := rfl
      lease := fresh.lease
      losing := fresh.losing
      unopened := fun _ => fresh.opened
      unqueued := unqueued }
  agrees := by
    change (c.opened && !true) = c.isOpen
    rw [fresh.isOpen, fresh.opened]
    rfl
  ended _ := rfl

theorem Waiting.keeps_fail (waiting : c.Waiting) :
    Keeps c c.fail .none := by
  apply waiting.toFresh.keeps_fail
  intro referenced
  cases waiting.serverRef.symm.trans referenced

theorem Leased.keeps_dropLease (leased : c.Leased) :
    Keeps c c.dropLease.1 c.dropLease.2 := by
  unfold dropLease
  rw [if_pos leased.lease]
  refine ⟨.unstarted ⟨rfl, rfl, leased.losing, ?_, ?_⟩, ⟨?_, ?_⟩, fun _ => rfl⟩
  · intro referenced
    cases referenced.symm.trans leased.serverRef
  · intro referenced
    cases referenced.symm.trans leased.serverRef
  · unfold isOpen
    rw [leased.opened, leased.ended]
    rfl
  · exact Bool.and_false _

theorem Leased.live_takeOver (leased : c.Leased) : c.takeOver.Live where
  opened := leased.opened
  ended := leased.ended
  serverRef := leased.lease
  lease := rfl
  losing := leased.losing
  lostCalled := rfl
  detached := rfl

theorem Served.frame (served : c.Served) {phase : Phase}
    {reserved queued : Bool} :
    Served { c with phase := phase, reserved := reserved, lossQueued := queued } := by
  cases served with
  | live standing => exact .live { standing with }
  | losing standing => exact .losing { standing with }
  | lost standing => exact .lost { standing with }

theorem Failed.release (failed : c.Failed) :
    ({ c with reserved := false } : Connection).Failed := by
  cases failed with
  | losing standing => exact .losing { standing with }
  | lost standing => exact .lost { standing with }
  | unstarted standing => exact .unstarted { standing with }

/-! The two phases in which the kind of the connection decides -/

theorem Waiting.valid_handshake (waiting : c.Waiting)
    (phase : c.phase = .handshake) (secured : c.tls) :
    c.Valid := by
  unfold Valid
  rw [phase, waiting.upgraded]
  exact ⟨waiting, secured⟩

theorem Leased.valid_handshake (leased : c.Leased)
    (phase : c.phase = .handshake) (upgraded : c.upgraded) :
    c.Valid := by
  unfold Valid
  rwa [phase, upgraded]

theorem Starting.valid_making (starting : c.Starting)
    (phase : c.phase = .making) : c.Valid := by
  unfold Valid
  rwa [phase, starting.tls]

theorem Served.valid_making (served : c.Served)
    (phase : c.phase = .making) (secured : c.tls) : c.Valid := by
  unfold Valid
  rwa [phase, secured]

/-- `lose` moves only the debt. -/
structure LoseFrame (c : Connection) : Prop where
  phase : c.lose.phase = c.phase
  tls : c.lose.tls = c.tls
  upgraded : c.lose.upgraded = c.upgraded
  reserved : c.lose.reserved = c.reserved
  opened : c.lose.opened = c.opened
  ended : c.lose.ended = c.ended

theorem loseFrame (c : Connection) : LoseFrame c := by
  constructor <;> unfold lose <;> split <;> (try split) <;> rfl

theorem lose_of_lostCalled (called : c.lostCalled) :
    c.lose = c := by
  unfold lose
  by_cases detached : c.detached
  · rw [if_pos detached]
    cases c
    cases called
    rfl
  · rw [if_neg detached, if_pos called]

theorem Live.losing_lose (live : c.Live) : c.lose.Losing := by
  have attached : ¬c.detached := by
    rw [live.detached]
    decide
  have uncalled : ¬c.lostCalled := by
    rw [live.lostCalled]
    decide
  unfold lose
  rw [if_neg attached, if_neg uncalled]
  exact
    { opened := live.opened
      ended := live.ended
      lease := live.lease
      losing := live.serverRef
      lostCalled := rfl
      detached := live.detached }

theorem Served.failed_lose (served : c.Served) :
    c.lose.Losing ∨ c.lose.Lost := by
  cases served with
  | live standing => exact .inl standing.losing_lose
  | losing standing => exact .inl ((lose_of_lostCalled standing.lostCalled).symm ▸ standing)
  | lost standing => exact .inr ((lose_of_lostCalled standing.lostCalled).symm ▸ standing)

theorem Served.lose (served : c.Served) : c.lose.Served :=
  served.failed_lose.elim .losing .lost

/-- `fail_transport_worker_start` -/
theorem Served.keeps_workerFailed (served : c.Served) :
    Keeps c { c.lose with phase := .failed } .none := by
  have frame := loseFrame c
  refine keeps_of_same ?_ frame.opened frame.ended
  cases served.failed_lose with
  | inl standing => exact .losing { standing with }
  | inr standing => exact .lost { standing with }

theorem Unstarted.lose (unstarted : c.Unstarted)
    (queued : c.lossQueued) : c.lose.Unstarted := by
  have unreferenced : c.serverRef = false := by
    cases referenced : c.serverRef with
    | false => rfl
    | true => cases queued.symm.trans (unstarted.unqueued referenced)
  unfold Connection.lose
  split
  · exact { unstarted with }
  · split
    · exact unstarted
    · exact { unstarted with losing := unreferenced }

variable {closed : Bool} {accounting : Accounting} {succeeds : Bool}

section

variable (valid : before.Valid)

include valid

theorem keeps_start
    (moved : stepConnection closed before (.start succeeds) = some (after, accounting)) :
    Keeps before after accounting := by
  unfold Valid at valid
  simp only [stepConnection] at moved
  split at moved
  next phase =>
    rw [phase] at valid
    obtain ⟨waiting, plain⟩ := valid
    cases succeeds with
    | true =>
      cases moved
      refine keeps_of_same ?_ rfl rfl
      refine Starting.valid_making ?_ rfl
      exact { waiting with serverRef := rfl, tls := plain }
    | false =>
      cases moved
      exact waiting.keeps_fail
  next phase =>
    rw [phase] at valid
    obtain ⟨waiting, secured⟩ := valid
    split at moved
    · cases moved
      refine keeps_of_same ?_ rfl rfl
      refine Waiting.valid_handshake ?_ rfl secured
      exact { waiting with }
    · cases moved
      exact waiting.keeps_fail
  next phase =>
    rw [phase] at valid
    obtain ⟨leased, upgraded⟩ := valid
    cases succeeds with
    | true =>
      cases moved
      refine keeps_of_same ?_ rfl rfl
      refine Leased.valid_handshake ?_ rfl upgraded
      exact { leased with }
    | false =>
      cases moved
      exact leased.keeps_dropLease
  · cases moved

theorem keeps_handshake
    (moved : stepConnection closed before (.handshake succeeds) = some (after, accounting)) :
    Keeps before after accounting := by
  unfold Valid at valid
  simp only [stepConnection] at moved
  split at moved
  next phase =>
    rw [phase] at valid
    by_cases upgraded : before.upgraded
    · rw [if_pos upgraded] at moved
      have leased : before.Leased := by
        rwa [upgraded] at valid
      cases succeeds with
      | true =>
        cases moved
        exact keeps_of_same (.live leased.live_takeOver) rfl rfl
      | false =>
        cases moved
        exact leased.keeps_dropLease
    · rw [if_neg upgraded] at moved
      have waiting : before.Waiting ∧ before.tls := by
        rwa [Bool.eq_false_iff.mpr upgraded] at valid
      split at moved
      · cases moved
        exact keeps_of_same ⟨{ waiting.1 with }, waiting.2⟩ rfl rfl
      · cases moved
        exact waiting.1.keeps_fail
  · cases moved

theorem keeps_opened
    (moved : stepConnection closed before (.opened succeeds) = some (after, accounting)) :
    Keeps before after accounting := by
  unfold Valid at valid
  simp only [stepConnection] at moved
  split at moved
  next phase =>
    rw [phase] at valid
    obtain ⟨waiting, secured⟩ := valid
    cases succeeds with
    | true =>
      cases moved
      refine ⟨?_, ⟨waiting.isOpen, ?_⟩, id⟩
      · refine Served.valid_making ?_ rfl secured
        exact .live { waiting with opened := rfl, serverRef := rfl }
      · rw [waiting.ended]
        rfl
    | false =>
      cases moved
      exact waiting.keeps_fail
  next phase =>
    rw [phase] at valid
    have starting : before.Starting := valid
    cases (if_pos starting.serverRef).symm.trans moved
    refine ⟨.live { starting with opened := rfl }, ⟨starting.isOpen, ?_⟩, id⟩
    rw [starting.ended]
    rfl
  · cases moved

theorem keeps_made {raises : Bool}
    (accountable : before.Accountable (.made raises))
    (moved : stepConnection closed before (.made raises) = some (after, accounting)) :
    Keeps before after accounting := by
  unfold Valid at valid
  simp only [stepConnection] at moved
  split at moved
  next phase =>
    rw [phase] at valid
    cases raises with
    | true =>
      cases moved
      obtain ⟨plain, unqueued⟩ := accountable rfl
      rw [plain] at valid
      have starting : before.Starting := valid
      exact starting.toFresh.keeps_fail fun _ => unqueued
    | false =>
      by_cases secured : before.tls
      · have served : before.Served := by
          rwa [secured] at valid
        cases (if_pos secured).symm.trans moved
        exact keeps_of_same served.frame rfl rfl
      · have starting : before.Starting := by
          rwa [Bool.eq_false_iff.mpr secured] at valid
        cases (if_neg secured).symm.trans moved
        exact keeps_of_same { starting with } rfl rfl
  · cases moved

theorem keeps_startReader
    (moved : stepConnection closed before (.startReader succeeds) = some (after, accounting)) :
    Keeps before after accounting := by
  unfold Valid at valid
  simp only [stepConnection] at moved
  split at moved
  next phase =>
    rw [phase] at valid
    have served : before.Served := valid
    cases succeeds with
    | true =>
      cases moved
      split <;> exact keeps_of_same served.frame rfl rfl
    | false =>
      cases moved
      exact served.keeps_workerFailed
  · cases moved

theorem keeps_startWriter
    (moved : stepConnection closed before (.startWriter succeeds) = some (after, accounting)) :
    Keeps before after accounting := by
  unfold Valid at valid
  simp only [stepConnection] at moved
  split at moved
  next phase =>
    rw [phase] at valid
    have served : before.Served := valid
    cases succeeds with
    | true =>
      cases moved
      exact keeps_of_same served.frame rfl rfl
    | false =>
      cases moved
      exact served.keeps_workerFailed
  · cases moved

/-! A loss that is queued or begins does not move the procedure. -/

/-- In the phases that `Valid` settles by the standing of the transport, the
standing is all there is to show. -/
theorem Valid.of_served (phase : after.phase = before.phase)
    (tls : after.tls = before.tls)
    (upgraded : after.upgraded = before.upgraded)
    (waiting : before.Waiting → after.Waiting)
    (starting :
      before.phase = .making ∨ before.phase = .made → before.Starting → after.Starting)
    (served : before.Served → after.Served)
    (failed : before.phase = .failed → before.Failed → after.Failed)
    (detached : before.Detached → after.Detached)
    (leased : before.Leased → after.Leased) :
    after.Valid := by
  unfold Valid at valid ⊢
  rw [phase, tls, upgraded]
  revert valid
  cases current : before.phase with
  | queued | job | admitted => exact fun valid => ⟨waiting valid.1, valid.2⟩
  | handshake =>
    cases before.upgraded with
    | true => exact leased
    | false => exact fun valid => ⟨waiting valid.1, valid.2⟩
  | making =>
    cases before.tls with
    | true => exact served
    | false => exact starting (.inl current)
  | made => exact starting (.inr current)
  | startReader | startWriter | running => exact served
  | failed => exact failed current
  | detaching => exact detached
  | prepared => exact fun valid => ⟨leased valid.1, valid.2⟩

theorem keeps_queueLoss (accountable : before.Accountable .queueLoss)
    (moved : stepConnection closed before .queueLoss = some (after, accounting)) :
    Keeps before after accounting := by
  simp only [stepConnection] at moved
  split at moved
  · cases moved
    exact keeps_of_same valid rfl rfl
  · split_ifs at moved with referenced
    cases moved
    refine keeps_of_same ?_ rfl rfl
    refine valid.of_served rfl rfl rfl ?_ ?_ ?_ ?_ ?_ ?_
    · intro waiting
      cases referenced.symm.trans waiting.serverRef
    · intro phase starting
      exact { starting with }
    · intro served
      exact served.frame
    · intro phase failed
      cases failed with
      | losing standing => exact .losing { standing with }
      | lost standing => exact .lost { standing with }
      | unstarted standing =>
        have raised : before.raised := by
          unfold raised
          rw [phase, referenced, standing.unopened referenced]
          rfl
        cases raised.symm.trans accountable
    · intro detached
      exact { detached with }
    · intro leased
      exact { leased with }

end

theorem Detached.lose (detached : c.Detached) : c.lose.Detached := by
  unfold Connection.lose
  rw [if_pos detached.detached]
  exact { detached with }

theorem Leased.lose (leased : c.Leased) : c.lose.Leased := by
  unfold Connection.lose
  rw [if_pos leased.detached]
  exact { leased with }

theorem Failed.lose (failed : c.Failed)
    (queued : c.lossQueued) : c.lose.Failed := by
  cases failed with
  | losing standing =>
    rw [lose_of_lostCalled standing.lostCalled]
    exact .losing standing
  | lost standing =>
    rw [lose_of_lostCalled standing.lostCalled]
    exact .lost standing
  | unstarted standing => exact .unstarted (standing.lose queued)

theorem keeps_beginLoss (valid : before.Valid)
    (moved : stepConnection closed before .beginLoss = some (after, accounting)) :
    Keeps before after accounting := by
  simp only [stepConnection] at moved
  split_ifs at moved with enabled
  obtain ⟨queued, outside⟩ := enabled
  cases moved
  have frame := loseFrame before
  refine keeps_of_same ?_ frame.opened frame.ended
  refine valid.of_served frame.phase frame.tls frame.upgraded ?_ ?_ ?_ ?_ ?_ ?_
  · intro waiting
    cases queued.symm.trans waiting.lossQueued
  · intro phase starting
    -- the loop thread is still inside the procedure
    have inside : before.onLoopThread := by
      unfold onLoopThread
      cases phase with
      | inl making | inr making => simp [starting.tls, making]
    cases inside.symm.trans outside
  · intro served
    exact served.lose.frame
  · intro phase failed
    cases failed.lose queued with
    | losing standing => exact .losing { standing with }
    | lost standing => exact .lost { standing with }
    | unstarted standing => exact .unstarted { standing with unqueued := fun _ => rfl }
  · intro detached
    exact { detached.lose with }
  · intro leased
    exact { leased.lose with }

theorem Losing.isOpen (losing : c.Losing) : c.isOpen := by
  unfold Connection.isOpen
  rw [losing.opened, losing.ended]
  rfl

theorem Valid.losing_of_losing (valid : c.Valid)
    (losing : c.losing) : c.Losing := by
  cases valid.standing with
  | waiting facts | starting _ facts | detached facts | leased facts =>
    cases losing.symm.trans facts.losing
  | served facts =>
    cases facts with
    | live standing | lost standing => cases losing.symm.trans standing.losing
    | losing standing => exact standing
  | failed _ facts =>
    cases facts with
    | losing standing => exact standing
    | lost standing | unstarted standing => cases losing.symm.trans standing.losing

theorem keeps_endLoss (valid : before.Valid)
    (moved : stepConnection closed before .endLoss = some (after, accounting)) :
    Keeps before after accounting := by
  simp only [stepConnection] at moved
  split_ifs at moved with losing
  cases moved
  have facts := valid.losing_of_losing losing
  have paid : ({ before with losing := false, ended := true } : Connection).Lost :=
    { ended := rfl, lease := facts.lease, losing := rfl, lostCalled := facts.lostCalled }
  refine ⟨?_, ⟨facts.isOpen, Bool.and_false _⟩, fun _ => rfl⟩
  refine valid.of_served rfl rfl rfl ?_ ?_ ?_ ?_ ?_ ?_
  · intro waiting
    cases losing.symm.trans waiting.losing
  · intro _ starting
    cases losing.symm.trans starting.losing
  · intro _
    exact .lost paid
  · intro _ _
    exact .lost paid
  · intro detached
    cases losing.symm.trans detached.losing
  · intro leased
    cases losing.symm.trans leased.losing

theorem keeps_startTls (valid : before.Valid)
    (accountable : before.Accountable .startTls)
    (moved : stepConnection closed before .startTls = some (after, accounting)) :
    Keeps before after accounting := by
  obtain ⟨unraised, uncalled, inMaking⟩ := accountable
  simp only [stepConnection] at moved
  split_ifs at moved with enabled
  obtain ⟨referenced, attached, _, outside⟩ := enabled
  cases moved
  refine keeps_of_same ?_ rfl rfl
  cases valid.standing with
  | waiting facts => cases referenced.symm.trans facts.serverRef
  | starting phase facts =>
    cases phase with
    | inl making => cases (inMaking making).symm.trans facts.tls
    | inr made =>
      have inside : before.onLoopThread := by
        unfold onLoopThread
        simp [facts.tls, made]
      cases made.symm.trans (outside inside)
  | served facts =>
    cases facts with
    | live standing => exact { standing with detached := rfl }
    | losing standing | lost standing => cases uncalled.symm.trans standing.lostCalled
  | failed phase facts =>
    cases facts with
    | losing standing | lost standing => cases uncalled.symm.trans standing.lostCalled
    | unstarted standing =>
      have raised : before.raised := by
        unfold Connection.raised
        rw [phase, referenced, standing.unopened referenced]
        rfl
      cases raised.symm.trans unraised
  | detached facts | leased facts => cases attached.symm.trans facts.detached

theorem keeps_takeLease (valid : before.Valid)
    (moved : stepConnection closed before .takeLease = some (after, accounting)) :
    Keeps before after accounting := by
  unfold Valid at valid
  simp only [stepConnection] at moved
  split_ifs at moved with phase
  rw [phase] at valid
  have detached : before.Detached := valid
  cases moved
  refine keeps_of_same ⟨?_, rfl⟩ rfl rfl
  exact { detached with serverRef := rfl, lease := detached.serverRef }

theorem keeps_stepConnection
    {step : ConnectionStep} (valid : before.Valid)
    (accountable : before.Accountable step)
    (moved : stepConnection closed before step = some (after, accounting)) :
    Keeps before after accounting := by
  cases step with
  | start => exact keeps_start valid moved
  | handshake => exact keeps_handshake valid moved
  | opened => exact keeps_opened valid moved
  | made => exact keeps_made valid accountable moved
  | startReader => exact keeps_startReader valid moved
  | startWriter => exact keeps_startWriter valid moved
  | queueLoss => exact keeps_queueLoss valid accountable moved
  | beginLoss => exact keeps_beginLoss valid moved
  | endLoss => exact keeps_endLoss valid moved
  | startTls => exact keeps_startTls valid accountable moved
  | takeLease => exact keeps_takeLease valid moved

end Connection

end Rsloop.Server
