import Rsloop.Connect.Interleaving

/-!
# Every address gets its try

The connection uses an address that succeeds, the first one where the addresses
are tried in turn, and the call fails only if no address succeeds. The errors of
`bind` and `connect` send both loops on to the next address; that of the creation
of a socket leaves them, and is the one the theorem has to exclude.
-/

namespace Rsloop.Connect

open List

variable {localAddrinfos : Option (List LocalAddrinfo)}

/-! ## Outcomes of an address -/

namespace Addrinfo

def binds (addrinfo : Addrinfo) : Option (List LocalAddrinfo) → Bool
  | none => true
  | some locals =>
    locals.any fun localAddrinfo =>
      localAddrinfo.family = addrinfo.family && (addrinfo.bind localAddrinfo).isNone

def succeeds (localAddrinfos : Option (List LocalAddrinfo)) (addrinfo : Addrinfo) : Bool :=
  addrinfo.socket.isNone && (addrinfo.binds localAddrinfos && addrinfo.connect.isNone)

variable {addrinfo : Addrinfo}

theorem succeeds_of_prepared (created : addrinfo.socket = none)
    (bound : addrinfo.binds localAddrinfos) :
    addrinfo.succeeds localAddrinfos = addrinfo.connect.isNone := by
  rw [succeeds, created, bound]
  rfl

theorem succeeds_of_unbound (unbound : addrinfo.binds localAddrinfos = false) :
    addrinfo.succeeds localAddrinfos = false := by
  rw [succeeds, unbound, Bool.false_and, Bool.and_false]

theorem connect_of_succeeds
    (succeeded : addrinfo.succeeds localAddrinfos) :
    addrinfo.connect = none := by
  have connected := (Bool.and_eq_true_iff.mp (Bool.and_eq_true_iff.mp succeeded).2).2
  exact Option.isNone_iff_eq_none.mp connected

end Addrinfo

theorem fst_bindLocal (addrinfo : Addrinfo) (locals : List LocalAddrinfo)
    (exceptions : List OSError) :
    (bindLocal addrinfo locals exceptions).1 = addrinfo.binds (some locals) := by
  induction locals generalizing exceptions with
  | nil => rfl
  | cons localAddrinfo _ ih =>
    rw [bindLocal, Addrinfo.binds, any_cons]
    by_cases matching : localAddrinfo.family = addrinfo.family
    · rw [if_pos matching, decide_eq_true matching, Bool.true_and]
      cases bound : addrinfo.bind localAddrinfo with
      | none => rfl
      | some => exact ih _
    · rw [if_neg matching, decide_eq_false matching, Bool.false_and, Bool.false_or]
      exact ih _

variable {addrinfo : Addrinfo}

theorem prepareStreamSocket_ok {prepared : Bool} {attempt : List OSError}
    (same : prepareStreamSocket addrinfo localAddrinfos = .ok (prepared, attempt)) :
    addrinfo.socket = none ∧ prepared = addrinfo.binds localAddrinfos := by
  unfold prepareStreamSocket at same
  cases created : addrinfo.socket with
  | some =>
    rw [created] at same
    cases same
  | none =>
    rw [created] at same
    refine ⟨rfl, ?_⟩
    cases localAddrinfos with
    | none =>
      cases same
      rfl
    | some locals =>
      rw [← fst_bindLocal addrinfo locals []]
      cases bound : bindLocal addrinfo locals [] with
      | mk first second =>
        simp only [bound] at same
        cases first <;> cases second <;> cases same <;> rfl

theorem prepareStreamSocket_error_iff :
    (∃ error, prepareStreamSocket addrinfo localAddrinfos = .error error) ↔
      addrinfo.socket ≠ none := by
  cases created : addrinfo.socket with
  | some error => simp [prepareStreamSocket, created]
  | none =>
    cases localAddrinfos with
    | none => simp [prepareStreamSocket, created]
    | some locals =>
      cases bound : bindLocal addrinfo locals [] with
      | mk first second =>
        cases first <;> cases second <;> simp [prepareStreamSocket, created, bound]

/-! ## The order of the addresses -/

variable {addrinfos : List Addrinfo} {request : ConnectionRequest}

theorem ConnectionRequest.mem_order : addrinfo ∈ request.order ↔ addrinfo ∈ request.addrinfos := by
  rw [order]
  cases (if request.racing.isSome && request.interleave.isNone then some 1
    else request.interleave) with
  | none => exact Iff.rfl
  | some count =>
    by_cases none : count = 0
    · simp only [if_pos none]
    · simp only [if_neg none, (perm_interleaveAddrinfos _ _).mem_iff]

/-! ## One after the other -/

variable {winner : Option Addrinfo} {exceptions : List (List OSError)}

theorem connectInTurn_ok {left : List (List OSError)}
    (same : connectInTurn localAddrinfos addrinfos exceptions = .ok (winner, left)) :
    winner = addrinfos.find? (Addrinfo.succeeds localAddrinfos) := by
  induction addrinfos generalizing exceptions with
  | nil =>
    cases same
    rfl
  | cons addrinfo _ ih =>
    rw [connectInTurn] at same
    cases prepared : prepareStreamSocket addrinfo localAddrinfos with
    | error =>
      rw [prepared] at same
      cases same
    | ok attempt =>
      obtain ⟨bound, attempt⟩ := attempt
      obtain ⟨created, binds⟩ := prepareStreamSocket_ok prepared
      cases bound with
      | false =>
        simp only [prepared] at same
        rw [find?_cons_of_neg]
        · exact ih same
        · rw [Addrinfo.succeeds_of_unbound binds.symm]
          exact Bool.false_ne_true
      | true =>
        have decided := Addrinfo.succeeds_of_prepared created binds.symm
        cases connected : addrinfo.connect with
        | none =>
          simp only [prepared, connected] at same
          cases same
          rw [find?_cons_of_pos]
          rw [decided, connected]
          rfl
        | some =>
          simp only [prepared, connected] at same
          rw [find?_cons_of_neg]
          · exact ih same
          · rw [decided, connected]
            exact Bool.false_ne_true

/-- An error leaves the loop exactly if the creation of a socket before the first
success raises it. -/
theorem connectInTurn_error_iff :
    (∃ error, connectInTurn localAddrinfos addrinfos exceptions = .error error) ↔
      ∃ addrinfo ∈ addrinfos.takeWhile (fun addrinfo => !addrinfo.succeeds localAddrinfos),
        addrinfo.socket ≠ none := by
  induction addrinfos generalizing exceptions with
  | nil => simp [connectInTurn]
  | cons addrinfo rest ih =>
    cases prepared : prepareStreamSocket addrinfo localAddrinfos with
    | error error =>
      have raised := prepareStreamSocket_error_iff.mp ⟨error, prepared⟩
      have failed : addrinfo.succeeds localAddrinfos = false := by
        have notNone := Option.isNone_eq_false_iff.mpr (Option.isSome_iff_ne_none.mpr raised)
        rw [Addrinfo.succeeds, notNone, Bool.false_and]
      simp [connectInTurn, prepared, failed, raised]
    | ok attempt =>
      obtain ⟨bound, attempt⟩ := attempt
      obtain ⟨created, binds⟩ := prepareStreamSocket_ok prepared
      cases bound with
      | false =>
        have failed := Addrinfo.succeeds_of_unbound binds.symm
        simp [connectInTurn, prepared, failed, created, ih]
      | true =>
        have decided := Addrinfo.succeeds_of_prepared created binds.symm
        cases connected : addrinfo.connect with
        | none => simp [connectInTurn, prepared, decided, connected]
        | some => simp [connectInTurn, prepared, decided, connected, created, ih]

/-- What a search over addresses should end with: an address that succeeds, or
none if there is none -/
def Decided (localAddrinfos : Option (List LocalAddrinfo)) (addrinfos : List Addrinfo) :
    Option Addrinfo → Prop
  | some winner => winner ∈ addrinfos ∧ winner.succeeds localAddrinfos
  | none => ∀ addrinfo ∈ addrinfos, addrinfo.succeeds localAddrinfos = false

theorem decided_find? (addrinfos : List Addrinfo) :
    Decided localAddrinfos addrinfos
      (addrinfos.find? (Addrinfo.succeeds localAddrinfos)) := by
  cases found : addrinfos.find? (Addrinfo.succeeds localAddrinfos) with
  | none =>
    intro addrinfo mem
    exact Bool.eq_false_iff.mpr (List.find?_eq_none.mp found addrinfo mem)
  | some => exact ⟨mem_of_find?_eq_some found, find?_some found⟩

/-! ## In a race -/

variable {race : Race} {done : List Attempt} {left : Race}

theorem consumeConnectionAttempts_some {winner : Addrinfo}
    (same : consumeConnectionAttempts done race = (some winner, left)) :
    ∃ attempt ∈ done, attempt.addrinfo = winner ∧ winner.connect = none := by
  induction done generalizing race with
  | nil => cases same
  | cons attempt _ ih =>
    rw [consumeConnectionAttempts] at same
    cases connected : attempt.addrinfo.connect with
    | none =>
      simp only [connected] at same
      cases same
      exact ⟨attempt, mem_cons_self, rfl, connected⟩
    | some =>
      simp only [connected] at same
      obtain ⟨later, mem, won⟩ := ih same
      exact ⟨later, mem_cons_of_mem _ mem, won⟩

theorem consumeConnectionAttempts_none
    (same : consumeConnectionAttempts done race = (none, left)) :
    (∀ attempt ∈ done, attempt.addrinfo.connect ≠ none) ∧
      left.pending = race.pending.filter fun other =>
        done.all fun attempt => other.key ≠ attempt.key := by
  induction done generalizing race with
  | nil =>
    cases same
    exact ⟨forall_mem_nil _, (filter_true _).symm⟩
  | cons attempt _ ih =>
    rw [consumeConnectionAttempts] at same
    cases connected : attempt.addrinfo.connect with
    | none =>
      simp only [connected] at same
      cases same
    | some error =>
      simp only [connected] at same
      obtain ⟨failed, filtered⟩ := ih same
      constructor
      · intro other mem
        cases mem with
        | head =>
          rw [connected]
          exact Option.some_ne_none error
        | tail _ later => exact failed other later
      · rw [filtered, filter_filter]
        simp only [all_cons, Bool.and_comm]

variable {answer : List Nat}

theorem Race.mem_done {attempt : Attempt}
    (mem : attempt ∈ race.done answer) : attempt ∈ race.pending := by
  obtain ⟨key, -, found⟩ := mem_filterMap.mp mem
  exact mem_of_find?_eq_some found

theorem Race.mem_doneAtLast {attempt : Attempt}
    (mem : attempt ∈ race.doneAtLast answer) : attempt ∈ race.pending := by
  rw [doneAtLast] at mem
  by_cases silent : (race.done answer).isEmpty
  · rw [if_pos silent] at mem
    exact mem_of_mem_take mem
  · rw [if_neg silent] at mem
    exact mem_done mem

theorem Race.doneAtLast_ne_nil (running : race.pending ≠ []) :
    race.doneAtLast answer ≠ [] := by
  rw [doneAtLast]
  by_cases silent : (race.done answer).isEmpty
  · rw [if_pos silent]
    intro empty
    rcases take_eq_nil_iff.mp empty with zero | none
    · cases zero
    · exact running none
  · rw [if_neg silent]
    exact fun empty => silent (List.isEmpty_iff.mpr empty)

/-- The race over the addresses that have been started: the ones that can succeed
are still in it, and all attempts in it got a bound socket. -/
structure Race.Fair (localAddrinfos : Option (List LocalAddrinfo))
    (started : List Addrinfo) (index : Nat) (race : Race) : Prop where
  kept : ∀ addrinfo ∈ started, addrinfo.succeeds localAddrinfos →
    ∃ attempt ∈ race.pending, attempt.addrinfo = addrinfo
  prepared : ∀ attempt ∈ race.pending, attempt.addrinfo ∈ started ∧
    attempt.addrinfo.socket = none ∧ attempt.addrinfo.binds localAddrinfos
  distinct : (race.pending.map Attempt.key).Nodup
  below : ∀ attempt ∈ race.pending, attempt.key < index

namespace Race.Fair

variable {started : List Addrinfo} {index : Nat} {race left : Race} {done : List Attempt}

section

variable (fair : race.Fair localAddrinfos started index)

include fair

theorem enter {prepared : Bool × List OSError}
    (same : prepareStreamSocket addrinfo localAddrinfos = .ok prepared) :
    (race.enter index addrinfo prepared).Fair localAddrinfos (started ++ [addrinfo])
      (index + 1) := by
  obtain ⟨bound, attempt⟩ := prepared
  obtain ⟨created, binds⟩ := prepareStreamSocket_ok same
  have earlier : ∀ attempt ∈ race.pending, attempt.addrinfo ∈ started ++ [addrinfo] ∧
      attempt.addrinfo.socket = none ∧ attempt.addrinfo.binds localAddrinfos := by
    intro attempt mem
    obtain ⟨known, rest⟩ := fair.prepared attempt mem
    exact ⟨mem_append_left _ known, rest⟩
  have lower : ∀ attempt ∈ race.pending, attempt.key < index + 1 :=
    fun attempt mem => Nat.lt_succ_of_lt (fair.below attempt mem)
  cases bound with
  | false =>
    refine ⟨?_, earlier, fair.distinct, lower⟩
    intro other mem succeeded
    rcases mem_append.mp mem with known | new
    · exact fair.kept other known succeeded
    · rw [mem_singleton.mp new, Addrinfo.succeeds_of_unbound binds.symm] at succeeded
      cases succeeded
  | true =>
    refine ⟨?_, ?_, ?_, ?_⟩
    · intro other mem succeeded
      rcases mem_append.mp mem with known | new
      · obtain ⟨attempt, inRace, same⟩ := fair.kept other known succeeded
        exact ⟨attempt, mem_append_left _ inRace, same⟩
      · exact ⟨_, mem_append_right _ mem_cons_self, (mem_singleton.mp new).symm⟩
    · intro other mem
      rcases mem_append.mp mem with known | new
      · exact earlier other known
      · rw [mem_singleton.mp new]
        exact ⟨mem_append_right _ mem_cons_self, created, binds.symm⟩
    · change ((race.pending ++ [_]).map Attempt.key).Nodup
      rw [map_append, nodup_append]
      refine ⟨fair.distinct, nodup_singleton _, ?_⟩
      intro key old other new
      obtain ⟨attempt, inRace, rfl⟩ := mem_map.mp old
      rw [mem_singleton.mp new]
      exact Nat.ne_of_lt (fair.below attempt inRace)
    · intro other mem
      rcases mem_append.mp mem with known | new
      · exact lower other known
      · rw [mem_singleton.mp new]
        exact Nat.lt_succ_self index

theorem winner_succeeds (reported : ∀ attempt ∈ done, attempt ∈ race.pending)
    {winner : Addrinfo}
    (same : consumeConnectionAttempts done race = (some winner, left)) :
    winner ∈ started ∧ winner.succeeds localAddrinfos := by
  obtain ⟨attempt, mem, rfl, connected⟩ := consumeConnectionAttempts_some same
  obtain ⟨known, created, binds⟩ := fair.prepared attempt (reported attempt mem)
  refine ⟨known, ?_⟩
  rw [Addrinfo.succeeds_of_prepared created binds, connected]
  rfl

/-- The attempts that a look takes out have failed, and no other attempt leaves
with them because keys are not shared. -/
theorem consume (reported : ∀ attempt ∈ done, attempt ∈ race.pending)
    (same : consumeConnectionAttempts done race = (none, left)) :
    left.Fair localAddrinfos started index := by
  obtain ⟨failed, filtered⟩ := consumeConnectionAttempts_none same
  have remaining : ∀ attempt ∈ left.pending, attempt ∈ race.pending := by
    intro attempt mem
    rw [filtered] at mem
    exact (mem_filter.mp mem).1
  refine ⟨?_, fun attempt mem => fair.prepared attempt (remaining attempt mem), ?_,
    fun attempt mem => fair.below attempt (remaining attempt mem)⟩
  · intro addrinfo known succeeded
    obtain ⟨attempt, inRace, rfl⟩ := fair.kept addrinfo known succeeded
    refine ⟨attempt, ?_, rfl⟩
    rw [filtered]
    refine mem_filter.mpr ⟨inRace, all_eq_true.mpr ?_⟩
    intro other looked
    refine decide_eq_true fun sameKey => ?_
    have same := inj_on_of_nodup_map fair.distinct inRace (reported other looked) sameKey
    rw [same] at succeeded
    exact failed other looked (Addrinfo.connect_of_succeeds succeeded)
  · rw [filtered]
    exact (List.Sublist.map _ filter_sublist).nodup fair.distinct

end

end Race.Fair

theorem length_pending_lt_of_consume
    (reported : ∀ attempt ∈ done, attempt ∈ race.pending) (some : done ≠ [])
    (same : consumeConnectionAttempts done race = (none, left)) :
    left.pending.length < race.pending.length := by
  obtain ⟨attempt, mem⟩ := exists_mem_of_ne_nil done some
  rw [(consumeConnectionAttempts_none same).2]
  refine length_filter_lt_length_iff_exists.mpr ⟨attempt, reported attempt mem, ?_⟩
  intro all
  exact of_decide_eq_true (all_eq_true.mp all attempt mem) rfl

/-- What the loop over the addresses ends with -/
def Started (localAddrinfos : Option (List LocalAddrinfo)) (addrinfos : List Addrinfo)
    (left : Race) : Option Addrinfo → Prop
  | some winner => winner ∈ addrinfos ∧ winner.succeeds localAddrinfos
  | none => ∃ index, left.Fair localAddrinfos addrinfos index

variable {answers : Nat → List Nat}

theorem startAttempts_ok {todo started : List Addrinfo}
    {index waits waited : Nat}
    (fair : race.Fair localAddrinfos started index)
    (same : startAttempts localAddrinfos answers todo index waits race =
      .ok (winner, left, waited)) :
    Started localAddrinfos (started ++ todo) left winner := by
  induction todo generalizing started index waits race with
  | nil =>
    cases same
    rw [append_nil]
    exact ⟨index, fair⟩
  | cons addrinfo rest ih =>
    rw [startAttempts] at same
    rw [append_cons]
    cases prepared : prepareStreamSocket addrinfo localAddrinfos with
    | error =>
      rw [prepared] at same
      cases same
    | ok attempt =>
      simp only [prepared] at same
      have entered := fair.enter prepared
      by_cases straight : ((race.enter index addrinfo attempt).pending.isEmpty ||
          rest.isEmpty)
      · rw [if_pos straight] at same
        exact ih entered same
      · rw [if_neg straight] at same
        cases consumed : consumeConnectionAttempts
            ((race.enter index addrinfo attempt).done (answers waits))
            (race.enter index addrinfo attempt) with
        | mk won =>
          rw [consumed] at same
          cases won with
          | none => exact ih (entered.consume (fun _ => Race.mem_done) consumed) same
          | some =>
            cases same
            obtain ⟨known, succeeded⟩ := entered.winner_succeeds (fun _ => Race.mem_done) consumed
            exact ⟨mem_append_left _ known, succeeded⟩

/-- The addresses whose sockets the loop over the addresses creates: it stops at a
creation that raises, and at a wait that reports a success. -/
def createdInRace (localAddrinfos : Option (List LocalAddrinfo)) (answers : Nat → List Nat) :
    List Addrinfo → Nat → Nat → Race → List Addrinfo
  | [], _, _, _ => []
  | addrinfo :: rest, index, waits, race =>
    addrinfo ::
      match prepareStreamSocket addrinfo localAddrinfos with
      | .error _ => []
      | .ok prepared =>
        let entered := race.enter index addrinfo prepared
        if entered.pending.isEmpty || rest.isEmpty then
          createdInRace localAddrinfos answers rest (index + 1) waits entered
        else
          match consumeConnectionAttempts (entered.done (answers waits)) entered with
          | (some _, _) => []
          | (none, left) =>
            createdInRace localAddrinfos answers rest (index + 1) (waits + 1) left

theorem startAttempts_error_iff {todo : List Addrinfo} {index waits : Nat} :
    (∃ error, startAttempts localAddrinfos answers todo index waits race = .error error) ↔
      ∃ addrinfo ∈ createdInRace localAddrinfos answers todo index waits race,
        addrinfo.socket ≠ none := by
  induction todo generalizing index waits race with
  | nil => simp [startAttempts, createdInRace]
  | cons addrinfo rest ih =>
    rw [startAttempts, createdInRace]
    cases prepared : prepareStreamSocket addrinfo localAddrinfos with
    | error error =>
      have raised := prepareStreamSocket_error_iff.mp ⟨error, prepared⟩
      simp [raised]
    | ok attempt =>
      have created := (prepareStreamSocket_ok prepared).1
      simp only [exists_mem_cons_iff, created, ne_eq, not_true_eq_false, false_or]
      split_ifs
      · exact ih
      · cases consumed : consumeConnectionAttempts
            ((race.enter index addrinfo attempt).done (answers waits))
            (race.enter index addrinfo attempt) with
        | mk won =>
          cases won with
          | none => exact ih
          | some => simp

theorem decided_awaitAttempts (answers : Nat → List Nat) (waits : Nat)
    {started : List Addrinfo} {bound index : Nat}
    (fair : race.Fair localAddrinfos started index)
    (enough : race.pending.length ≤ bound) :
    Decided localAddrinfos started (awaitAttempts answers bound waits race).1 := by
  have finished : ∀ race : Race, race.Fair localAddrinfos started index →
      race.pending = [] → Decided localAddrinfos started none := by
    intro race fair empty addrinfo known
    refine Bool.eq_false_iff.mpr fun succeeded => ?_
    obtain ⟨attempt, mem, -⟩ := fair.kept addrinfo known succeeded
    rw [empty] at mem
    cases mem
  induction bound generalizing waits race with
  | zero => exact finished race fair (eq_nil_of_length_eq_zero (Nat.le_zero.mp enough))
  | succ _ ih =>
    rw [awaitAttempts]
    by_cases empty : race.pending.isEmpty
    · rw [if_pos empty]
      exact finished race fair (List.isEmpty_iff.mp empty)
    · rw [if_neg empty]
      have running : race.pending ≠ [] := fun none => empty (List.isEmpty_iff.mpr none)
      cases consumed : consumeConnectionAttempts (race.doneAtLast (answers waits)) race with
      | mk won =>
        cases won with
        | some address => exact fair.winner_succeeds (fun _ => Race.mem_doneAtLast) consumed
        | none =>
          have fewer := length_pending_lt_of_consume (fun _ => Race.mem_doneAtLast)
            (Race.doneAtLast_ne_nil running) consumed
          refine ih (waits + 1) (fair.consume (fun _ => Race.mem_doneAtLast) consumed) ?_
          omega

theorem decided_connectWithHappyEyeballs
    (same : connectWithHappyEyeballs addrinfos localAddrinfos answers = .ok (winner, left)) :
    Decided localAddrinfos addrinfos winner := by
  have fair : Race.Fair localAddrinfos [] 0 { pending := [], exceptions := [] } :=
    ⟨forall_mem_nil _, forall_mem_nil _, nodup_nil, forall_mem_nil _⟩
  rw [connectWithHappyEyeballs] at same
  cases begun : startAttempts localAddrinfos answers addrinfos 0 0
      { pending := [], exceptions := [] } with
  | error =>
    rw [begun] at same
    cases same
  | ok result =>
    obtain ⟨won, race, waited⟩ := result
    have outcome := startAttempts_ok fair begun
    simp only [begun] at same
    cases won with
    | some =>
      cases same
      exact outcome
    | none =>
      obtain ⟨index, fair⟩ := outcome
      have settled := decided_awaitAttempts answers waited fair (Nat.le_refl _)
      rwa [Except.ok.inj same] at settled

/-! ## The call -/

namespace ConnectionRequest

/-- The addresses whose sockets are created before the call ends with a success or
an error: in turn those before the first success -/
def attempted (request : ConnectionRequest) : List Addrinfo :=
  match request.racing with
  | none => request.order.takeWhile fun addrinfo => !addrinfo.succeeds request.localAddrinfos
  | some answers =>
    createdInRace request.localAddrinfos answers request.order 0 0
      { pending := [], exceptions := [] }

/-- If the call can succeed, then no creation of a socket that it comes to raises. -/
def Creates (request : ConnectionRequest) : Prop :=
  (∃ addrinfo ∈ request.addrinfos, addrinfo.succeeds request.localAddrinfos) →
    ∀ addrinfo ∈ request.attempted, addrinfo.socket = none

/-- The call uses an address that succeeds, the first one when they are tried in
turn, and it raises only if no address succeeds. -/
def UsesSucceeding (request : ConnectionRequest) : Prop :=
  match request.createConnection with
  | .ok addrinfo =>
    (addrinfo ∈ request.addrinfos ∧ addrinfo.succeeds request.localAddrinfos) ∧
    (request.racing = none →
      request.order.find? (Addrinfo.succeeds request.localAddrinfos) = some addrinfo)
  | .error _ =>
    ∀ addrinfo ∈ request.addrinfos, addrinfo.succeeds request.localAddrinfos = false

theorem connected_ok (same : request.connected = .ok (winner, exceptions)) :
    Decided request.localAddrinfos request.order winner ∧ (request.racing = none →
        winner = request.order.find? (Addrinfo.succeeds request.localAddrinfos)) := by
  rw [connected] at same
  cases racing : request.racing with
  | none =>
    rw [racing] at same
    have first := connectInTurn_ok same
    refine ⟨?_, fun _ => first⟩
    rw [first]
    exact decided_find? request.order
  | some answers =>
    simp only [racing] at same
    refine ⟨?_, nofun⟩
    cases raced : connectWithHappyEyeballs request.order request.localAddrinfos answers with
    | error =>
      rw [raced] at same
      cases same
    | ok =>
      rw [raced] at same
      cases same
      exact decided_connectWithHappyEyeballs raced

theorem connected_error_iff : (∃ error, request.connected = .error error) ↔
      ∃ addrinfo ∈ request.attempted, addrinfo.socket ≠ none := by
  rw [connected, attempted]
  cases racing : request.racing with
  | none => exact connectInTurn_error_iff
  | some answers =>
    simp only [← startAttempts_error_iff, connectWithHappyEyeballs]
    cases startAttempts request.localAddrinfos answers request.order 0 0
        { pending := [], exceptions := [] } with
    | error => simp
    | ok result =>
      obtain ⟨won, race, waited⟩ := result
      cases won <;> simp

/-- The call does what it is for exactly if no creation of a socket that it comes
to raises where it could succeed. -/
theorem createConnection_usesSucceeding_iff (request : ConnectionRequest) :
    request.UsesSucceeding ↔ request.Creates := by
  rw [UsesSucceeding, createConnection]
  cases ended : request.connected with
  | error error =>
    obtain ⟨raising, member, raised⟩ := connected_error_iff.mp ⟨error, ended⟩
    constructor
    · rintro failed ⟨addrinfo, known, succeeded⟩
      rw [failed addrinfo known] at succeeded
      cases succeeded
    · intro creates addrinfo known
      refine Bool.eq_false_iff.mpr fun succeeded => ?_
      exact raised (creates ⟨addrinfo, known, succeeded⟩ raising member)
  | ok result =>
    obtain ⟨winner, exceptions⟩ := result
    obtain ⟨decided, first⟩ := connected_ok ended
    have creates : request.Creates := by
      intro _ addrinfo member
      by_contra raised
      obtain ⟨error, left⟩ := connected_error_iff.mpr ⟨addrinfo, member, raised⟩
      rw [ended] at left
      cases left
    refine iff_of_true ?_ creates
    cases winner with
    | none => exact fun addrinfo known => decided addrinfo (mem_order.mpr known)
    | some address => exact ⟨⟨mem_order.mp decided.1, decided.2⟩, fun turn => (first turn).symm⟩

/-- The first address is of a family that the host does not support. -/
def unsupportedFirst (racing : Option (Nat → List Nat)) : ConnectionRequest where
  addrinfos :=
    [{ family := 10, bind := fun _ => none, connect := none,
       socket := some (.numbered (some 97) "Address family not supported by protocol") },
     { family := 2, socket := none, bind := fun _ => none, connect := none }]
  localAddrinfos := none
  interleave := none
  racing := racing
  allErrors := false
  hasExceptionGroup := true

-- the other way round the race is won before that socket is created
example : ({ unsupportedFirst (some fun _ => [0]) with
    addrinfos := (unsupportedFirst none).addrinfos.reverse } :
      ConnectionRequest).createConnection.isOk := rfl

/-- The error of the first socket's creation leaves both loops, and the second
address, which would succeed, is never tried. -/
theorem createConnection_raises_of_unsupportedFirst :
    (∃ addrinfo ∈ (unsupportedFirst none).addrinfos,
        addrinfo.succeeds (unsupportedFirst none).localAddrinfos) ∧
      (unsupportedFirst none).createConnection =
        .error (.os (.numbered (some 97) "Address family not supported by protocol")) ∧
      (unsupportedFirst (some fun _ => [])).createConnection =
        .error (.os (.numbered (some 97) "Address family not supported by protocol")) :=
  ⟨⟨_, List.mem_cons_of_mem _ List.mem_cons_self, rfl⟩, rfl, rfl⟩

end ConnectionRequest

end Rsloop.Connect
