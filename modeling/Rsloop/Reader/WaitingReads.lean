import Rsloop.Reader.Conservation

/-!
# Waiting reads

A read that finds its bytes ends at once; any other leaves a waiter with an
accumulator or a search offset, which the feeds bring on. `ReadRequest.result`
says what a read comes to from all unread bytes alone. Both ways of reading
follow it, so that a waiting read ends with the feed after which the same call
would not have to wait, and with the same result.
-/

namespace Rsloop.Reader

open List StreamReader ReadBuffer

/-! ## Searching again from an offset -/

variable {offset : Nat} {needle haystack : Bytes}

theorem isPrefixOf_eq_false (mismatch : ¬ needle <+: haystack) :
    needle.isPrefixOf haystack = false := by
  rw [Bool.eq_false_iff]
  exact fun starts => mismatch <| isPrefixOf_iff_prefix.mp starts

theorem find_cons_of_mismatch {byte : UInt8} {rest : Bytes}
    (mismatch : ¬ needle <+: byte :: rest) :
    find needle (byte :: rest) = (find needle rest).map (· + 1) := by
  simp only [find, isPrefixOf_eq_false mismatch, Bool.false_eq_true, if_false]

/-- The search may begin behind positions without a match. -/
theorem find_eq_find_drop (inside : offset ≤ haystack.length)
    (clear : ∀ start < offset, ¬ needle <+: haystack.drop start) :
    find needle haystack = (find needle (haystack.drop offset)).map (· + offset) := by
  induction offset generalizing haystack with
  | zero =>
    simp
  | succ offset ih =>
    cases haystack with
    | nil => exact absurd inside (Nat.not_succ_le_zero offset)
    | cons byte rest =>
      have mismatch : ¬ needle <+: byte :: rest := clear 0 (Nat.zero_lt_succ offset)
      have later := ih (Nat.le_of_succ_le_succ inside)
        fun start before => clear (start + 1) (Nat.succ_lt_succ before)
      rw [find_cons_of_mismatch mismatch, later, drop_succ_cons, Option.map_map]
      rfl

theorem find_eq_none_iff : find needle haystack = none ↔
      ∀ start ≤ haystack.length, ¬ needle <+: haystack.drop start := by
  induction haystack with
  | nil =>
    by_cases here : needle <+: []
    · have found := isPrefixOf_iff_prefix.mpr here
      simp only [find, found, if_true, reduceCtorEq, false_iff]
      exact fun clear => clear 0 (Nat.le_refl _) here
    · simp only [find, isPrefixOf_eq_false here, Bool.false_eq_true, if_false, true_iff]
      intro start _
      rwa [drop_nil]
  | cons byte rest ih =>
    by_cases here : needle <+: byte :: rest
    · have found := isPrefixOf_iff_prefix.mpr here
      simp only [find, found, if_true, reduceCtorEq, false_iff]
      exact fun clear => clear 0 (Nat.zero_le _) here
    · rw [find_cons_of_mismatch here, Option.map_eq_none_iff, ih]
      constructor
      · intro clear start inside
        cases start with
        | zero => exact here
        | succ start => exact clear start (Nat.le_of_succ_le_succ inside)
      · intro clear start inside
        exact clear (start + 1) (Nat.succ_le_succ inside)

theorem findFrom_zero : findFrom haystack needle 0 = find needle haystack := by
  unfold findFrom
  simp

theorem findFrom_eq_find (inside : offset ≤ haystack.length)
    (clear : ∀ start < offset, ¬ needle <+: haystack.drop start) :
    findFrom haystack needle offset = find needle haystack := by
  unfold findFrom
  rw [if_neg (Nat.not_lt.mpr inside), ← find_eq_find_drop inside clear]

variable {separators : List Bytes}

namespace UntilReadState

variable {s : UntilReadState} {bytes : Bytes} {limit : Nat}

theorem foldl_consider_congr {first second : Nat} (separators : List Bytes)
    (same : ∀ separator ∈ separators,
      findFrom bytes separator first = findFrom bytes separator second)
    (best : Option (Nat × Nat)) :
    separators.foldl (consider bytes first) best =
      separators.foldl (consider bytes second) best := by
  induction separators generalizing best with
  | nil => rfl
  | cons separator _ ih =>
    have head := same separator mem_cons_self
    have considered : consider bytes first best separator =
        consider bytes second best separator := by
      unfold consider
      rw [head]
    rw [foldl_cons, foldl_cons, considered]
    exact ih (fun other mem => same other (mem_cons_of_mem _ mem)) _

variable {separator : Bytes} {best : Option (Nat × Nat)}

theorem isSome_consider
    (some : best.isSome ∨ (findFrom bytes separator offset).isSome) :
    (consider bytes offset best separator).isSome := by
  unfold consider
  cases found : findFrom bytes separator offset with
  | none =>
    rw [found] at some
    exact some.resolve_right (by simp)
  | some =>
    cases best with
    | none => rfl
    | some =>
      simp only
      split <;> rfl

theorem findFrom_eq_none_of_foldl
    (nothing : separators.foldl (consider bytes offset) best = none) :
    best = none ∧ ∀ separator ∈ separators, findFrom bytes separator offset = none := by
  induction separators generalizing best with
  | nil => exact ⟨nothing, nofun⟩
  | cons separator _ ih =>
    obtain ⟨considered, others⟩ := ih nothing
    have neither : ¬ (best.isSome ∨ (findFrom bytes separator offset).isSome) := by
      intro some
      have isSome := isSome_consider some
      rw [considered] at isSome
      cases isSome
    obtain ⟨noBest, notFound⟩ := not_or.mp neither
    refine ⟨Option.not_isSome_iff_eq_none.mp noBest, ?_⟩
    intro other mem
    rcases mem_cons.mp mem with rfl | later
    · exact Option.not_isSome_iff_eq_none.mp notFound
    · exact others other later

/-- The lengths of the separators lie between the shortest and the longest. -/
structure SizesKnown (s : UntilReadState) : Prop where
  shortest_le : s.minSeplen ≤ s.maxSeplen
  between : ∀ separator ∈ s.separators,
    s.minSeplen ≤ separator.length ∧ separator.length ≤ s.maxSeplen

/-- What the offset of a search stands for after these bytes. -/
structure Searched (s : UntilReadState) (bytes : Bytes) (limit : Nat) : Prop where
  clear : ∀ separator ∈ s.separators, ∀ start ≤ bytes.length, ¬ separator <+: bytes.drop start
  behind : s.offset ≤ bytes.length + 1 - s.maxSeplen
  within : s.offset ≤ limit

variable {all : Bytes}

section

variable (searched : s.Searched bytes limit) (sizes : s.SizesKnown) (more : bytes <+: all)

include searched sizes more

theorem Searched.clear_before (mem : separator ∈ s.separators)
    {start : Nat} (before : start < s.offset) :
    ¬ separator <+: all.drop start := by
  intro starts
  have size := (sizes.between separator mem).2
  have behind := searched.behind
  obtain ⟨added, rfl⟩ := more
  -- the match would have ended within the bytes of the last search
  refine searched.clear separator mem start (by omega) ?_
  rw [drop_append_of_le_length (by omega)] at starts
  refine prefix_of_prefix_length_le starts (prefix_append _ _) ?_
  rw [length_drop]
  omega

theorem Searched.findFrom_eq (mem : separator ∈ s.separators) :
    findFrom all separator s.offset = findFrom all separator 0 := by
  have positive := s.minSeplen_pos
  have size := sizes.between separator mem
  have behind := searched.behind
  have longer := more.length_le
  rw [findFrom_zero]
  exact findFrom_eq_find (by omega) fun start before =>
    searched.clear_before sizes more mem before

theorem Searched.skip (short : all.length - s.offset < s.minSeplen) :
    s.Searched all limit := by
  have longer := more.length_le
  refine ⟨?_, by have behind := searched.behind; omega, searched.within⟩
  intro separator mem start inside starts
  have size := sizes.between separator mem
  have fits := starts.length_le
  rw [length_drop] at fits
  exact searched.clear_before sizes more mem (by omega) starts

end

theorem foldl_consider_eq_none
    (nothing : ∀ separator ∈ separators, findFrom bytes separator offset = none) :
    separators.foldl (consider bytes offset) none = none := by
  induction separators with
  | nil => rfl
  | cons separator _ ih =>
    have head : consider bytes offset none separator = none := by
      unfold consider
      rw [nothing separator mem_cons_self]
    rw [foldl_cons, head]
    exact ih fun other mem =>
      nothing other (mem_cons_of_mem _ mem)

theorem scan_of_short (short : bytes.length - s.offset < s.minSeplen) :
    s.scan bytes limit = (.needMore, s) := by
  unfold scan
  rw [if_pos short]

def nextOffset (s : UntilReadState) (bytes : Bytes) : Nat :=
  bytes.length + 1 - s.maxSeplen

theorem scan_of_none (long : ¬ bytes.length - s.offset < s.minSeplen)
    (nothing : s.separators.foldl (consider bytes s.offset) none = none) :
    s.scan bytes limit = (if limit < s.nextOffset bytes then
          .overLimit (s.nextOffset bytes)
        else .needMore,
        { s with offset := s.nextOffset bytes }) := by
  unfold scan
  rw [if_neg long, nothing]
  simp only
  unfold nextOffset
  split <;> rfl

theorem scan_of_some {found : Nat × Nat}
    (long : ¬ bytes.length - s.offset < s.minSeplen)
    (isFound : s.separators.foldl (consider bytes s.offset) none = some found) :
    s.scan bytes limit = (.found found.1 found.2, s) := by
  unfold scan
  rw [if_neg long, isFound]

section

variable (searched : s.Searched bytes limit) (sizes : s.SizesKnown) (more : bytes <+: all)

include searched sizes more

/-- The search goes on as one that begins at the front. -/
theorem scan_eq_scan_front :
    (s.scan all limit).1 = ({ s with offset := 0 }.scan all limit).1 := by
  have same := foldl_consider_congr s.separators
    (fun _ mem => searched.findFrom_eq sizes more mem) none
  by_cases shortFront : all.length - 0 < s.minSeplen
  · have short : all.length - s.offset < s.minSeplen := by omega
    rw [scan_of_short short, scan_of_short shortFront]
  · by_cases short : all.length - s.offset < s.minSeplen
    · have skipped := searched.skip sizes more short
      have nothing : s.separators.foldl (consider all 0) none = none :=
        foldl_consider_eq_none fun separator mem => by
          rw [findFrom_zero, find_eq_none_iff]
          exact skipped.clear separator mem
      have within := searched.within
      have reached : ¬ limit < nextOffset { s with offset := 0 } all := by
        change ¬ limit < all.length + 1 - s.maxSeplen
        have ordered := sizes.shortest_le
        omega
      rw [scan_of_short short, scan_of_none shortFront nothing, if_neg reached]
    · cases isFound : s.separators.foldl (consider all s.offset) none with
      | some => rw [scan_of_some short isFound, scan_of_some shortFront (same ▸ isFound)]
      | none =>
        rw [scan_of_none short isFound, scan_of_none shortFront (same ▸ isFound)]
        rfl

/-- A search that has to go on has looked at all bytes. -/
theorem searched_scan (pending : (s.scan all limit).1 = .needMore) :
    ∃ offset, (s.scan all limit).2 = { s with offset := offset } ∧
      ({ s with offset := offset } : UntilReadState).Searched all limit := by
  by_cases short : all.length - s.offset < s.minSeplen
  · rw [scan_of_short short]
    exact ⟨s.offset, rfl, searched.skip sizes more short⟩
  · cases isFound : s.separators.foldl (consider all s.offset) none with
    | some =>
      rw [scan_of_some short isFound] at pending
      cases pending
    | none =>
      rw [scan_of_none short isFound] at pending ⊢
      refine ⟨_, rfl, ?_, Nat.le_refl _, ?_⟩
      · intro separator mem
        have missed := (findFrom_eq_none_of_foldl isFound).2 separator mem
        rwa [searched.findFrom_eq sizes more mem, findFrom_zero, find_eq_none_iff] at missed
      · by_contra beyond
        cases (if_pos (Nat.lt_of_not_le beyond)).symm.trans pending

end

end UntilReadState

namespace UntilReadState

theorem pairwise_sortByLength (separators : List Bytes) :
    (sortByLength separators).Pairwise fun first second =>
      first.length ≤ second.length := by
  exact pairwise_insertionSort _ _

theorem length_le_of_getLast? {last separator : Bytes}
    (ordered : separators.Pairwise fun first second =>
      first.length ≤ second.length)
    (isLast : separators.getLast? = some last) (mem : separator ∈ separators) :
    separator.length ≤ last.length := by
  obtain ⟨front, rfl⟩ := List.getLast?_eq_some_iff.mp isLast
  rcases mem_append.mp mem with before | here
  · exact (pairwise_append.mp ordered).2.2 separator before last (mem_singleton_self last)
  · rw [mem_singleton.mp here]

variable {s : UntilReadState}

theorem new_eq_ok {lineMode : Bool} (created : new separators lineMode = .ok s) :
    s.offset = 0 ∧ s.SizesKnown := by
  unfold new at created
  have ordered := pairwise_sortByLength separators
  split at created
  · cases created
  next shortest rest sorted =>
    rw [sorted] at ordered
    split_ifs at created
    cases created
    obtain ⟨last, isLast⟩ : ∃ last, (shortest :: rest).getLast? = some last :=
      Option.isSome_iff_exists.mp (by simp)
    have between : ∀ separator ∈ shortest :: rest, shortest.length ≤ separator.length ∧
          separator.length ≤ last.length := by
      intro separator mem
      refine ⟨?_, length_le_of_getLast? ordered isLast mem⟩
      rcases mem_cons.mp mem with rfl | later
      · exact Nat.le_refl _
      · exact (pairwise_cons.mp ordered).1 separator later
    have first := between shortest mem_cons_self
    refine ⟨rfl, ?_, ?_⟩
    · rw [isLast]
      exact first.2
    · rwa [isLast]

theorem searched_nil {limit : Nat} (front : s.offset = 0) (sizes : s.SizesKnown) :
    s.Searched [] limit := by
  refine ⟨?_, by omega, by omega⟩
  intro separator mem start _ starts
  have size := (sizes.between separator mem).1
  have fits := starts.length_le
  have positive := s.minSeplen_pos
  rw [drop_nil, length_nil] at fits
  omega

end UntilReadState

/-! ## What a read comes to -/

/-- A line or a chunk over the limit: the outcome and what stays unread. -/
def overrun (unread : Bytes) (message : String) (consumed : Nat) (lineMode : Bool) :
    Outcome × Bytes :=
  if lineMode then
    let dropped := overlongLine unread consumed
    (.lineTooLong message (unread.take dropped), unread.drop dropped)
  else
    (.limitOverrun message consumed, unread)

def UntilScan.result (scan : UntilScan) (unread : Bytes) (limit : Nat)
    (lineMode : Bool) : Outcome × Bytes :=
  match scan with
  | .found matchStart matchEnd =>
    if limit < matchStart then
      overrun unread "Separator is found, but chunk is longer than limit" matchStart lineMode
    else
      (.value (unread.take matchEnd), unread.drop matchEnd)
  | .overLimit consumed =>
    overrun unread "Separator is not found, and chunk exceed the limit" consumed lineMode
  | .needMore => (if lineMode then .value unread else .incompleteRead unread none, [])

/-- The outcome of a read on the given unread bytes and what it leaves of them,
or `none` if it has to wait. -/
def ReadRequest.result (request : ReadRequest) (unread : Bytes) (limit : Nat)
    (eof : Bool) : Option (Outcome × Bytes) :=
  match request with
  | .any n =>
    if unread = [] ∧ eof = false then none else some (.value (unread.take n), unread.drop n)
  | .exactly n =>
    if n ≤ unread.length then
      some (.value (unread.take n), unread.drop n)
    else if eof then
      some (.incompleteRead unread (some n), [])
    else
      none
  | .all => if eof then some (.value unread, []) else none
  | .separator s =>
    let scan := (s.scan unread limit).1
    if scan.isPending eof then none else some (scan.result unread limit s.lineMode)

structure Ended (base r : StreamReader) (result : Outcome × Bytes) : Prop where
  outcomes : r.outcomes = base.outcomes ++ [result.1]
  waiter : r.waiter = none
  unread : r.buffer.unread = result.2

/-- What the waiter of a read has collected and searched of the bytes that it has
been given. -/
def WaitsFor (request : ReadRequest) (bytes : Bytes) (kind : ReadWaitKind)
    (unread : Bytes) (limit : Nat) : Prop :=
  match request, kind with
  | .any n, .any m => m = n ∧ unread = bytes
  | .exactly n, .exactly acc =>
    acc.expected = n ∧ acc.filled ++ unread = bytes
  | .all, .all => unread = bytes
  | .separator fresh, .separator s =>
    unread = bytes ∧ fresh.offset = 0 ∧ s.SizesKnown ∧
      ∃ offset searched, s = { fresh with offset := offset } ∧
        searched <+: bytes ∧ s.Searched searched limit
  | _, _ => False

/-- The read waits, and all bytes since its call are accounted for. -/
structure Waits (request : ReadRequest) (bytes : Bytes) (eof : Bool)
    (base r : StreamReader) : Prop where
  unfailed : r.exception = none
  eof : r.eof = eof
  limit : r.limit = base.limit
  outcomes : r.outcomes = base.outcomes
  waiter : ∃ future kind, r.waiter = some { future := future, kind := kind } ∧
      r.futures[future]? = some .pending ∧
      WaitsFor request bytes kind r.buffer.unread r.limit

/-- The read has done with these bytes what it comes to on them. -/
def Follows (request : ReadRequest) (bytes : Bytes) (eof : Bool)
    (base r : StreamReader) : Prop :=
  match request.result bytes base.limit eof with
  | none => Waits request bytes eof base r
  | some result => Ended base r result

variable {base r : StreamReader} {rest : Bytes} {future : Nat} {outcome : Outcome}

theorem ended_settle (outcomes : r.outcomes = base.outcomes)
    (idle : r.waiter = none)
    (pending : r.futures[future]? = some .pending)
    (unread : r.buffer.unread = rest) :
    Ended base (r.settle future outcome) (outcome, rest) := by
  unfold settle
  rw [pending]
  refine ⟨?_, idle, unread⟩
  rw [outcomes]

theorem ended_finish (outcomes : r.outcomes = base.outcomes)
    (idle : r.waiter = none) (unread : r.buffer.unread = rest) :
    Ended base (r.finish outcome) (outcome, rest) := by
  refine ⟨?_, idle, unread⟩
  change r.outcomes ++ [outcome] = base.outcomes ++ [outcome]
  rw [outcomes]

theorem overrun_eq (r : StreamReader) (message : String) (consumed : Nat)
    (lineMode : Bool) :
    ((r.untilLimitOverrun message consumed lineMode).2,
      (r.untilLimitOverrun message consumed lineMode).1.buffer.unread) =
      overrun r.buffer.unread message consumed lineMode := by
  unfold untilLimitOverrun overrun
  cases lineMode with
  | true =>
    obtain ⟨paused, transport, same⟩ := maybeResumeTransport_eq
      { r with
        buffer := r.buffer.consume (overlongLine r.buffer.unread consumed) }
    simp only [if_true]
    rw [same]
    simp only [unread_consume]
  | false => rfl

theorem result_eq (r : StreamReader) (scan : UntilScan) (lineMode : Bool) :
    ((r.resolveUntilScan scan lineMode).2,
      (r.resolveUntilScan scan lineMode).1.buffer.unread) =
      scan.result r.buffer.unread r.limit lineMode := by
  unfold resolveUntilScan UntilScan.result
  cases scan with
  | found matchStart matchEnd =>
    by_cases beyond : r.limit < matchStart
    · simp only [beyond, if_true]
      exact overrun_eq r _ matchStart lineMode
    · obtain ⟨paused, transport, same⟩ := maybeResumeTransport_eq
        { r with buffer := r.buffer.consume matchEnd }
      simp only [beyond, if_false]
      rw [same]
      simp only [unread_consume]
  | overLimit consumed => exact overrun_eq r _ consumed lineMode
  | needMore => simp only [unread_consumeAll]

theorem resolveUntilScan_frame (r : StreamReader) (scan : UntilScan)
    (lineMode : Bool) :
    (r.resolveUntilScan scan lineMode).1.outcomes = r.outcomes ∧
      (r.resolveUntilScan scan lineMode).1.waiter = r.waiter ∧
      (r.resolveUntilScan scan lineMode).1.futures = r.futures := by
  obtain ⟨buf, paused, transport, same⟩ :=
    (resolves_resolveUntilScan r scan lineMode).frame
  rw [same]
  exact ⟨rfl, rfl, rfl⟩

/-! ## The waiter follows it -/

variable {acc : ExactReadAccumulator} {n : Nat}

section Completes

variable {request : ReadRequest} {bytes : Bytes} {eof : Bool}

theorem Follows.of_none (none : request.result bytes base.limit eof = none)
    (waits : Waits request bytes eof base r) :
    Follows request bytes eof base r := by
  unfold Follows
  rwa [none]

theorem Follows.of_some (result : Outcome × Bytes)
    (some : request.result bytes base.limit eof = some result)
    (ended : Ended base r result) :
    Follows request bytes eof base r := by
  unfold Follows
  rwa [some]

theorem Follows.transfer {newBase after : StreamReader}
    (follows : Follows request bytes eof base r)
    (limit : newBase.limit = base.limit)
    (waits :
      Waits request bytes eof base r → Waits request bytes eof newBase after)
    (ended : ∀ result, Ended base r result → Ended newBase after result) :
    Follows request bytes eof newBase after := by
  unfold Follows at follows ⊢
  rw [limit]
  split at follows
  · exact waits follows
  · exact ended _ follows

theorem clearCancelledWaiter_of_pending {waiter : ReadWaiter}
    (waiting : r.waiter = some waiter)
    (pending : r.futures[waiter.future]? = some .pending) :
    r.clearCancelledWaiter = r := by
  unfold clearCancelledWaiter
  rw [waiting]
  simp [pending]

theorem follows_completeAny (waits : Waits (.any n) bytes eof base r)
    (pending : r.futures[future]? = some .pending)
    (unread : r.buffer.unread = bytes) :
    Follows (.any n) bytes eof base (r.completeAny future n) := by
  have isEof := waits.eof
  subst isEof unread
  unfold completeAny
  have empty := r.buffer.isEmpty_iff
  by_cases nothing : r.buffer.unread = [] ∧ r.eof = false
  · rw [if_pos (And.imp_left empty.mpr nothing)]
    refine .of_none ?_ waits
    simp only [ReadRequest.result, if_pos nothing]
  · rw [if_neg fun none => nothing (And.imp_left empty.mp none)]
    obtain ⟨paused, transport, same⟩ := maybeResumeTransport_eq
      { r with waiter := none, buffer := r.buffer.consume n }
    rw [same]
    refine .of_some (.value (r.buffer.unread.take n), r.buffer.unread.drop n) ?_ ?_
    · simp only [ReadRequest.result, if_neg nothing]
    · exact ended_settle waits.outcomes rfl pending (unread_consume r.buffer n)

theorem follows_completeAll (waits : Waits .all bytes eof base r)
    (pending : r.futures[future]? = some .pending)
    (unread : r.buffer.unread = bytes) :
    Follows .all bytes eof base (r.completeAll future) := by
  have isEof := waits.eof
  subst isEof unread
  unfold completeAll
  by_cases atEnd : r.eof
  · rw [if_pos atEnd]
    refine .of_some (.value r.buffer.unread, []) ?_ ?_
    · simp only [ReadRequest.result, if_pos atEnd]
    · exact ended_settle waits.outcomes rfl pending (unread_consumeAll r.buffer)
  · rw [if_neg atEnd]
    refine .of_none ?_ waits
    simp only [ReadRequest.result, if_neg atEnd]

/-- A full accumulator holds the front of the bytes. -/
theorem ExactReadAccumulator.fillFrom_full (acc : ExactReadAccumulator)
    (buf : ReadBuffer)
    (full : (acc.fillFrom buf).1.expected ≤
      (acc.fillFrom buf).1.filled.length) :
    (acc.fillFrom buf).1.filled =
        (acc.filled ++ buf.unread).take acc.expected ∧
      (acc.fillFrom buf).2.unread =
        (acc.filled ++ buf.unread).drop acc.expected := by
  have bytes := acc.filled_fillFrom buf
  have fits : (acc.fillFrom buf).1.filled.length = acc.expected :=
    Nat.le_antisymm (acc.fillFrom buf).1.filled_le full
  rw [← bytes]
  constructor
  · rw [← fits, take_left]
  · rw [← fits, drop_left]

theorem follows_completeExactly (waits : Waits (.exactly n) bytes eof base r)
    (pending : r.futures[future]? = some .pending) (expected : acc.expected = n)
    (collected : acc.filled ++ r.buffer.unread = bytes) :
    Follows (.exactly n) bytes eof base (r.completeExactly future acc) := by
  have all := acc.filled_fillFrom r.buffer
  rw [collected] at all
  unfold completeExactly
  simp only
  by_cases full : (acc.fillFrom r.buffer).1.expected ≤
      (acc.fillFrom r.buffer).1.filled.length
  · obtain ⟨filled, left⟩ := acc.fillFrom_full r.buffer full
    rw [collected, expected] at filled left
    obtain ⟨paused, transport, same⟩ := maybeResumeTransport_eq
      { r with waiter := none, buffer := (acc.fillFrom r.buffer).2 }
    rw [if_pos full, same, filled]
    have enough : n ≤ bytes.length := by
      have counted := congrArg List.length all
      rw [length_append] at counted
      have size : (acc.fillFrom r.buffer).1.expected = n := expected
      omega
    refine .of_some (.value (bytes.take n), bytes.drop n) ?_ ?_
    · simp only [ReadRequest.result, if_pos enough]
    · exact ended_settle waits.outcomes rfl pending left
  · have short := Nat.lt_of_not_le full
    have emptied := acc.unread_fillFrom r.buffer short
    have filled : (acc.fillFrom r.buffer).1.filled = bytes := by
      rwa [emptied, append_nil] at all
    have size : (acc.fillFrom r.buffer).1.expected = n := expected
    have missing : ¬ n ≤ bytes.length := by
      rw [filled, size] at short
      omega
    have isEof := waits.eof
    subst isEof
    rw [if_neg full]
    by_cases atEnd : r.eof
    · rw [if_pos atEnd, filled, size]
      refine .of_some (.incompleteRead bytes (some n), []) ?_ ?_
      · simp only [ReadRequest.result, if_neg missing, if_pos atEnd]
      · exact ended_settle waits.outcomes rfl pending emptied
    · rw [if_neg atEnd]
      refine .of_none ?_ ⟨waits.unfailed, rfl, waits.limit,
        waits.outcomes, future, _, rfl, pending, size, all⟩
      simp only [ReadRequest.result, if_neg missing, if_neg atEnd]

theorem follows_completeSeparator {fresh s : UntilReadState}
    (waits : Waits (.separator fresh) bytes eof base r)
    (pending : r.futures[future]? = some .pending)
    (waitsFor : WaitsFor (.separator fresh) bytes (.separator s)
      r.buffer.unread r.limit) :
    Follows (.separator fresh) bytes eof base (r.completeSeparator future s) := by
  obtain ⟨unread, front, sizes, offset, searched, same, more, known⟩ := waitsFor
  have isEof := waits.eof
  subst isEof unread
  have restarted : { s with offset := 0 } = fresh := by
    rw [same, ← front]
  have mode : s.lineMode = fresh.lineMode := by rw [same]
  have scanned : (s.scan r.buffer.unread r.limit).1 =
      (fresh.scan r.buffer.unread base.limit).1 := by
    rw [UntilReadState.scan_eq_scan_front known sizes more, restarted, waits.limit]
  unfold completeSeparator
  simp only
  by_cases isPending : (s.scan r.buffer.unread r.limit).1.isPending r.eof
  · rw [if_pos isPending]
    have needMore : (s.scan r.buffer.unread r.limit).1 = .needMore := by
      exact of_decide_eq_true (Bool.and_eq_true_iff.mp isPending).1
    obtain ⟨next, moved, after⟩ := UntilReadState.searched_scan known sizes more needMore
    refine .of_none ?_ ⟨waits.unfailed, rfl, waits.limit, waits.outcomes,
      future, _, rfl, pending, rfl, front, ?_, next, r.buffer.unread, ?_,
      prefix_rfl, ?_⟩
    · simp only [ReadRequest.result, ← scanned, if_pos isPending]
    · rw [moved]
      exact { sizes with }
    · rw [moved, same]
    · rwa [moved]
  · rw [if_neg isPending]
    obtain ⟨outcomes, waiter, futures⟩ := resolveUntilScan_frame
      { r with waiter := none }
      (s.scan r.buffer.unread r.limit).1 s.lineMode
    have result := result_eq { r with waiter := none }
      (s.scan r.buffer.unread r.limit).1 s.lineMode
    refine .of_some _ ?_ (ended_settle (outcomes.trans waits.outcomes) waiter
      (by rw [futures]; exact pending) rfl)
    have value : (ReadRequest.separator fresh).result r.buffer.unread base.limit r.eof =
          some ((s.scan r.buffer.unread r.limit).1.result
            r.buffer.unread base.limit fresh.lineMode) := by
      simp only [ReadRequest.result, ← scanned, if_neg isPending]
    rw [value, result, ← mode, ← waits.limit]

end Completes

variable {kind : ReadWaitKind}

section Feeds

variable {request : ReadRequest} {bytes : Bytes} {eof : Bool}

theorem Waits.maybeCompleteWaiter (waits : Waits request bytes eof base r) :
    Follows request bytes eof base r.maybeCompleteWaiter := by
  obtain ⟨future, kind, waiting, pending, waitsFor⟩ := waits.waiter
  unfold StreamReader.maybeCompleteWaiter
  rw [clearCancelledWaiter_of_pending waiting pending]
  simp only
  rw [waiting]
  unfold completeWaiter
  rw [waits.unfailed]
  cases request with
  | any =>
    cases kind with
    | any =>
      obtain ⟨rfl, unread⟩ := waitsFor
      exact follows_completeAny waits pending unread
    | _ => exact waitsFor.elim
  | exactly =>
    cases kind with
    | exactly =>
      obtain ⟨expected, collected⟩ := waitsFor
      exact follows_completeExactly waits pending expected collected
    | _ => exact waitsFor.elim
  | all =>
    cases kind with
    | all => exact follows_completeAll waits pending waitsFor
    | _ => exact waitsFor.elim
  | separator =>
    cases kind with
    | separator => exact follows_completeSeparator waits pending waitsFor
    | _ => exact waitsFor.elim

theorem Follows.maybePauseTransport (follows : Follows request bytes eof base r) :
    Follows request bytes eof base r.maybePauseTransport := by
  obtain ⟨paused, transport, same⟩ := maybePauseTransport_eq r
  rw [same]
  exact follows.transfer rfl (fun waits => { waits with }) fun _ ended => { ended with }

theorem WaitsFor.extend {unread added : Bytes} {limit : Nat}
    (waitsFor : WaitsFor request bytes kind unread limit) :
    WaitsFor request (bytes ++ added) kind (unread ++ added) limit := by
  cases request with
  | any =>
    cases kind with
    | any => exact ⟨waitsFor.1, by rw [waitsFor.2]⟩
    | _ => exact waitsFor.elim
  | exactly =>
    cases kind with
    | exactly => exact ⟨waitsFor.1, by rw [← append_assoc, waitsFor.2]⟩
    | _ => exact waitsFor.elim
  | all =>
    cases kind with
    | all => exact congrArg (· ++ added) waitsFor
    | _ => exact waitsFor.elim
  | separator =>
    cases kind with
    | separator =>
      obtain ⟨same, front, sizes, offset, searched, isState, more, known⟩ := waitsFor
      exact ⟨by rw [same], front, sizes, offset, searched, isState,
        more.trans (prefix_append _ _), known⟩
    | _ => exact waitsFor.elim

theorem WaitsFor.fill {added : Bytes}
    {limit : Nat} (waitsFor : WaitsFor request bytes (.exactly acc) [] limit) :
    WaitsFor request (bytes ++ added) (.exactly (acc.fillFromSlice added))
      (added.drop (acc.fillAmount added.length)) limit := by
  cases request with
  | exactly =>
    refine ⟨waitsFor.1, ?_⟩
    have collected := waitsFor.2
    rw [append_nil] at collected
    change acc.filled ++ added.take (acc.fillAmount added.length) ++ _ = _
    rw [append_assoc, take_append_drop, collected]
  | any n | all | separator fresh => exact waitsFor.elim

/-- Whatever the buffer makes of the rest of the bytes, the read waits for
them. -/
theorem Waits.fillExactFromIncoming (waits : Waits request bytes eof base r)
    {data : Bytes}
    {buf : ReadBuffer}
    (extended : buf.unread = (r.fillExactFromIncoming data).1.buffer.unread ++
        data.drop (r.fillExactFromIncoming data).2) :
    Waits request (bytes ++ data) eof base
      { (r.fillExactFromIncoming data).1 with buffer := buf } := by
  obtain ⟨future, kind, waiting, pending, waitsFor⟩ := waits.waiter
  unfold StreamReader.fillExactFromIncoming at extended ⊢
  rw [clearCancelledWaiter_of_pending waiting pending] at extended ⊢
  simp only [waiting] at extended ⊢
  cases kind with
  | exactly =>
    simp only at extended ⊢
    by_cases direct : r.exception = none ∧ r.buffer.isEmpty
    · rw [if_pos direct] at extended ⊢
      have empty := r.buffer.isEmpty_iff.mp direct.2
      rw [empty] at waitsFor
      simp only [empty, nil_append] at extended
      refine { waits with waiter := ⟨future, _, rfl, pending, ?_⟩ }
      rw [extended]
      exact waitsFor.fill
    · rw [if_neg direct] at extended ⊢
      refine { waits with waiter := ⟨future, _, waiting, pending, ?_⟩ }
      rw [extended]
      exact waitsFor.extend
  | any n | all | separator s =>
    refine { waits with waiter := ⟨future, _, waiting, pending, ?_⟩ }
    rw [extended]
    exact waitsFor.extend

/-- What is fed: a borrowed slice, or a pooled buffer with its allocation. -/
inductive Feed where
  | borrowed (data : Bytes)
  | pooled (data : Bytes) (capacity : Nat)

def Feed.data : Feed → Bytes
  | .borrowed data | .pooled data _ => data

def Feed.perform (r : StreamReader) : Feed → StreamReader
  | .borrowed data => r.feedData data
  | .pooled data capacity => r.feedOwnedData data capacity

theorem Waits.feed (waits : Waits request bytes false base r) (fed : Feed) :
    Follows request (bytes ++ fed.data) false base (fed.perform r) := by
  cases fed with
  | borrowed data =>
    change Follows request (bytes ++ data) false base (r.feedData data)
    unfold feedData
    rw [waits.eof]
    simp only [Bool.false_eq_true, if_false]
    apply Follows.maybePauseTransport
    apply Waits.maybeCompleteWaiter
    apply waits.fillExactFromIncoming
    rw [unread_extend]
  | pooled data capacity =>
    change Follows request (bytes ++ data) false base (r.feedOwnedData data capacity)
    unfold feedOwnedData
    rw [waits.eof]
    simp only [Bool.false_eq_true, if_false]
    apply Follows.maybePauseTransport
    apply Waits.maybeCompleteWaiter
    apply waits.fillExactFromIncoming
    split
    next untouched =>
      rw [unread_extendOwned, untouched, drop_zero]
      rfl
    · rw [unread_extend]

theorem Waits.feedEof (waits : Waits request bytes false base r) :
    Follows request bytes true base r.feedEof := by
  have ended : Waits request bytes true base { r with eof := true } :=
    { waits with eof := rfl }
  exact ended.maybeCompleteWaiter

end Feeds

/-! ## A call follows it at once -/

inductive ReadCall where
  | read (n : Int)
  | readexactly (n : Int)
  | readuntil (separators : List Bytes)
  | readline

def ReadCall.perform (r : StreamReader) : ReadCall → StreamReader
  | .read n => r.read n
  | .readexactly n => r.readexactly n
  | .readuntil separators => r.readuntil separators
  | .readline => r.readline

def untilRequest (separators : List Bytes) (lineMode : Bool) : Option ReadRequest :=
  match UntilReadState.new separators lineMode with
  | .ok s => some (.separator s)
  | .error _ => none

/-- What a call asks for when its arguments are valid and it asks for anything. -/
def ReadCall.request : ReadCall → Option ReadRequest
  | .read n =>
    if -(2 ^ 63) ≤ n ∧ n < 2 ^ 63 ∧ n ≠ 0 then
      if n < 0 then some .all else some (.any n.toNat)
    else
      none
  | .readexactly n => if 0 < n then some (.exactly n.toNat) else none
  | .readuntil separators => untilRequest separators false
  | .readline => untilRequest [[newline]] true

def ReadRequest.Fits : ReadRequest → Prop
  | .exactly n => n ≤ maxSize
  | .any _ | .all | .separator _ => True

variable {call : ReadCall} {request : ReadRequest}

theorem waits_attachWaiter {bytes : Bytes} {eof : Bool}
    (unfailed : r.exception = none)
    (isEof : r.eof = eof) (limit : r.limit = base.limit)
    (outcomes : r.outcomes = base.outcomes)
    (waitsFor : WaitsFor request bytes kind r.buffer.unread r.limit) :
    Waits request bytes eof base (r.attachWaiter kind) := by
  refine ⟨unfailed, isEof, limit, outcomes, r.futures.length, kind, rfl, ?_, waitsFor⟩
  change (r.futures ++ [.pending])[r.futures.length]? = _
  rw [getElem?_concat_length]

section

variable (idle : r.waiter = none)

include idle

/-- The waiter of a new read has been given what is unread. -/
theorem waits_startWaiter (unfailed : r.exception = none) (fits : request.Fits)
    (simple : ∀ s, request ≠ .separator s) (funcName : String) :
    Waits request r.buffer.unread r.eof r (r.startWaiter funcName request) := by
  obtain ⟨paused, transport, same⟩ := resumeForWaiter_eq r
  unfold startWaiter
  rw [idle]
  cases request with
  | any =>
    rw [same]
    exact waits_attachWaiter unfailed rfl rfl rfl ⟨rfl, rfl⟩
  | all =>
    rw [same]
    exact waits_attachWaiter unfailed rfl rfl rfl rfl
  | exactly n =>
    have allocated : ¬ maxSize < n := Nat.not_lt.mpr fits
    simp only [if_neg allocated]
    rw [same]
    exact waits_attachWaiter unfailed rfl rfl rfl
      ⟨rfl, (ExactReadAccumulator.new n).filled_fillFrom r.buffer⟩
  | separator s => exact absurd rfl (simple s)

theorem follows_readNow
    (result : request.result r.buffer.unread r.limit r.eof =
      some (.value (r.buffer.unread.take n), r.buffer.unread.drop n)) :
    Follows request r.buffer.unread r.eof r (r.readNow n) := by
  refine .of_some _ result ?_
  obtain ⟨paused, transport, same⟩ := maybeResumeTransport_eq
    { r with buffer := r.buffer.consume n }
  unfold readNow
  rw [same]
  exact ended_finish rfl idle (unread_consume r.buffer n)

theorem follows_readAtMost {n : Int} (unfailed : r.exception = none)
    (nonzero : n ≠ 0) :
    Follows (if n < 0 then .all else .any n.toNat) r.buffer.unread
      r.eof r (r.readAtMost n) := by
  unfold readAtMost
  rw [if_neg nonzero]
  by_cases negative : n < 0
  · rw [if_pos negative, if_pos negative]
    by_cases atEnd : r.eof
    · rw [if_pos atEnd]
      refine .of_some (.value r.buffer.unread, []) ?_ ?_
      · simp only [ReadRequest.result, if_pos atEnd]
      · exact ended_finish rfl idle (unread_consumeAll r.buffer)
    · have fits : ReadRequest.all.Fits := trivial
      rw [if_neg atEnd]
      refine .of_none ?_ (waits_startWaiter idle unfailed fits
        (fun _ => ReadRequest.noConfusion) "read")
      simp only [ReadRequest.result, if_neg atEnd]
  · rw [if_neg negative, if_neg negative]
    have empty := r.buffer.isEmpty_iff
    by_cases nothing : r.buffer.unread = [] ∧ r.eof = false
    · have none : ¬ (r.buffer.isEmpty = false ∨ r.eof) := by
        rw [empty.mpr nothing.1, nothing.2]
        simp
      have fits : (ReadRequest.any n.toNat).Fits := trivial
      rw [if_neg none]
      refine .of_none ?_ (waits_startWaiter idle unfailed fits
        (fun _ => ReadRequest.noConfusion) "read")
      simp only [ReadRequest.result, if_pos nothing]
    · have some : r.buffer.isEmpty = false ∨ r.eof := by
        by_contra neither
        obtain ⟨filled, atEnd⟩ := not_or.mp neither
        exact nothing ⟨empty.mp (Bool.eq_true_of_not_eq_false filled),
          Bool.eq_false_of_not_eq_true atEnd⟩
      rw [if_pos some]
      refine follows_readNow idle ?_
      simp only [ReadRequest.result, if_neg nothing]

theorem follows_readSize (unfailed : r.exception = none) (positive : 0 < n)
    (fits : (ReadRequest.exactly n).Fits) :
    Follows (.exactly n) r.buffer.unread r.eof r (r.readSize n) := by
  unfold readSize
  rw [if_neg (Nat.ne_of_gt positive), ← length_unread]
  by_cases enough : n ≤ r.buffer.unread.length
  · rw [if_pos enough]
    refine follows_readNow idle ?_
    simp only [ReadRequest.result, if_pos enough]
  · rw [if_neg enough]
    by_cases atEnd : r.eof
    · rw [if_pos atEnd]
      refine .of_some (.incompleteRead r.buffer.unread (some n), []) ?_ ?_
      · simp only [ReadRequest.result, if_neg enough, if_pos atEnd]
      · exact ended_finish rfl idle (unread_consumeAll r.buffer)
    · rw [if_neg atEnd]
      refine .of_none ?_ (waits_startWaiter idle unfailed fits
        (fun _ => ReadRequest.noConfusion) "readexactly")
      simp only [ReadRequest.result, if_neg enough, if_neg atEnd]

theorem follows_readSeparated {s : UntilReadState}
    (unfailed : r.exception = none)
    (front : s.offset = 0) (sizes : s.SizesKnown) (funcName : String) :
    Follows (.separator s) r.buffer.unread r.eof r
      (r.readSeparated funcName s) := by
  unfold readSeparated
  simp only
  by_cases isPending : (s.scan r.buffer.unread r.limit).1.isPending r.eof
  · rw [if_pos isPending]
    have needMore : (s.scan r.buffer.unread r.limit).1 = .needMore := by
      exact of_decide_eq_true (Bool.and_eq_true_iff.mp isPending).1
    obtain ⟨next, moved, after⟩ := UntilReadState.searched_scan
      (UntilReadState.searched_nil front sizes) sizes nil_prefix needMore
    obtain ⟨paused, transport, same⟩ := resumeForWaiter_eq r
    refine .of_none ?_ ?_
    · simp only [ReadRequest.result, if_pos isPending]
    · unfold startWaiter
      rw [idle]
      rw [same, moved]
      exact waits_attachWaiter unfailed rfl rfl rfl ⟨rfl, front, { sizes with }, next,
        r.buffer.unread, rfl, prefix_rfl, after⟩
  · rw [if_neg isPending]
    obtain ⟨outcomes, waiter, _⟩ := resolveUntilScan_frame r
      (s.scan r.buffer.unread r.limit).1 s.lineMode
    refine .of_some _ ?_ (ended_finish outcomes (waiter.trans idle) rfl)
    rw [result_eq]
    simp only [ReadRequest.result, if_neg isPending]

theorem clearCancelledWaiter_of_idle : r.clearCancelledWaiter = r := by
  unfold clearCancelledWaiter
  rw [idle]

theorem follows_search {lineMode : Bool} {s : UntilReadState}
    (unfailed : r.exception = none)
    (created : UntilReadState.new separators lineMode = .ok s)
    (funcName : String) :
    Follows (.separator s) r.buffer.unread r.eof r
      (r.buildUntilFuture funcName s) := by
  obtain ⟨front, sizes⟩ := UntilReadState.new_eq_ok created
  unfold buildUntilFuture
  rw [unfailed, clearCancelledWaiter_of_idle idle]
  exact follows_readSeparated idle unfailed front sizes funcName

end

theorem untilRequest_eq_some {lineMode : Bool}
    (asked : untilRequest separators lineMode = some request) :
    ∃ s, UntilReadState.new separators lineMode = .ok s ∧ request = .separator s := by
  unfold untilRequest at asked
  split at asked <;> cases asked
  rename_i s created
  exact ⟨s, created, rfl⟩

theorem follows_perform (idle : r.waiter = none)
    (unfailed : r.exception = none) (asked : call.request = some request)
    (fits : request.Fits) :
    Follows request r.buffer.unread r.eof r (call.perform r) := by
  cases call with
  | read n =>
    simp only [ReadCall.request] at asked
    by_cases valid : -(2 ^ 63) ≤ n ∧ n < 2 ^ 63 ∧ n ≠ 0
    · rw [if_pos valid] at asked
      have isRequest : request = if n < 0 then .all else .any n.toNat := by
        split at asked
        next negative => rw [if_pos negative, Option.some.inj asked]
        next nonnegative => rw [if_neg nonnegative, Option.some.inj asked]
      change Follows _ _ _ _ (r.read n)
      unfold StreamReader.read buildReadFuture
      rw [if_pos ⟨valid.1, valid.2.1⟩, clearCancelledWaiter_of_idle idle, unfailed, isRequest]
      exact follows_readAtMost idle unfailed valid.2.2
    · cases (if_neg valid).symm.trans asked
  | readexactly n =>
    simp only [ReadCall.request] at asked
    split_ifs at asked with positive
    cases asked
    have allocated : n.toNat ≤ maxSize := fits
    change Follows _ _ _ _ (r.readexactly n)
    unfold StreamReader.readexactly buildReadexactlyFuture
    unfold maxSize at allocated
    rw [if_neg (by omega), if_pos (by omega), clearCancelledWaiter_of_idle idle, unfailed]
    exact follows_readSize idle unfailed (by omega) fits
  | readuntil separators =>
    obtain ⟨s, created, rfl⟩ := untilRequest_eq_some asked
    change Follows _ _ _ _ (r.readuntil separators)
    unfold StreamReader.readuntil
    rw [created]
    exact follows_search idle unfailed created _
  | readline =>
    have search : untilRequest [[newline]] true = some request := asked
    obtain ⟨s, created, rfl⟩ := untilRequest_eq_some search
    change Follows _ _ _ _ r.readline
    unfold StreamReader.readline
    rw [created]
    exact follows_search idle unfailed created _

theorem not_waiting_of_idle (idle : r.waiter = none)
    (waits : r.waiter.isSome) : False := by
  rw [idle] at waits
  cases waits

theorem size_of_waiter (idle : r.waiter = none)
    (waits : (r.readSize n).waiter.isSome) : 0 < n ∧ n ≤ maxSize := by
  unfold readSize at waits
  split at waits
  · exact (not_waiting_of_idle idle waits).elim
  next nonzero =>
    refine ⟨Nat.pos_of_ne_zero nonzero, ?_⟩
    split at waits
    · obtain ⟨paused, transport, same⟩ := maybeResumeTransport_eq
        { r with buffer := r.buffer.consume n }
      unfold readNow at waits
      rw [same] at waits
      exact (not_waiting_of_idle idle waits).elim
    · split at waits
      · exact (not_waiting_of_idle idle waits).elim
      · by_contra large
        obtain ⟨paused, transport, same⟩ := resumeForWaiter_eq r
        unfold startWaiter at waits
        rw [idle] at waits
        simp only [Option.isSome_none, Bool.false_eq_true, if_false] at waits
        rw [if_pos (Nat.lt_of_not_le large), same] at waits
        exact not_waiting_of_idle idle waits

theorem unfailed_of_search {funcName : String} {s : UntilReadState}
    (idle : r.waiter = none)
    (waits : (r.buildUntilFuture funcName s).waiter.isSome) :
    r.exception = none := by
  unfold buildUntilFuture at waits
  split at waits
  · exact (not_waiting_of_idle idle waits).elim
  · assumption

/-- A call that waits has found no exception and asks for something that can be
allocated. -/
theorem request_of_waiter (idle : r.waiter = none)
    (waits : (call.perform r).waiter.isSome) :
    r.exception = none ∧ ∃ request, call.request = some request ∧ request.Fits := by
  have cleared := clearCancelledWaiter_of_idle idle
  cases call with
  | read n =>
    change (r.read n).waiter.isSome at waits
    unfold StreamReader.read at waits
    split at waits
    next inRange =>
      unfold buildReadFuture at waits
      rw [cleared] at waits
      split at waits
      · exact (not_waiting_of_idle idle waits).elim
      next unfailed =>
        refine ⟨unfailed, ?_⟩
        by_cases zero : n = 0
        · unfold readAtMost at waits
          rw [if_pos zero] at waits
          exact (not_waiting_of_idle idle waits).elim
        · refine ⟨if n < 0 then .all else .any n.toNat, ?_, ?_⟩
          · simp only [ReadCall.request]
            rw [if_pos ⟨inRange.1, inRange.2, zero⟩]
            split <;> rfl
          · split <;> trivial
    · exact (not_waiting_of_idle idle waits).elim
  | readexactly n =>
    change (r.readexactly n).waiter.isSome at waits
    unfold StreamReader.readexactly at waits
    split at waits
    · exact (not_waiting_of_idle idle waits).elim
    · split at waits
      · unfold buildReadexactlyFuture at waits
        rw [cleared] at waits
        split at waits
        · exact (not_waiting_of_idle idle waits).elim
        next unfailed =>
          obtain ⟨positive, fits⟩ := size_of_waiter idle waits
          refine ⟨unfailed, .exactly n.toNat, ?_, fits⟩
          simp only [ReadCall.request]
          rw [if_pos (by omega)]
      · exact (not_waiting_of_idle idle waits).elim
  | readuntil separators =>
    change (r.readuntil separators).waiter.isSome at waits
    unfold StreamReader.readuntil at waits
    split at waits
    · exact (not_waiting_of_idle idle waits).elim
    next s created =>
      refine ⟨unfailed_of_search idle waits, .separator s, ?_, trivial⟩
      simp only [ReadCall.request, untilRequest, created]
  | readline =>
    change r.readline.waiter.isSome at waits
    unfold StreamReader.readline at waits
    split at waits
    · exact (not_waiting_of_idle idle waits).elim
    next s created =>
      refine ⟨unfailed_of_search idle waits, .separator s, ?_, trivial⟩
      simp only [ReadCall.request, untilRequest, created]

/-! ## Both agree -/

def fedBytes (feeds : List Feed) : Bytes :=
  feeds.flatMap Feed.data

def feedAll (r : StreamReader) (feeds : List Feed) (eof : Bool) : StreamReader :=
  let fed := feeds.foldl Feed.perform r
  if eof then fed.feedEof else fed

/-- The reader of before a call, with more bytes unread. -/
def accumulated (r : StreamReader) (data : Bytes) (eof : Bool) : StreamReader :=
  { r with buffer := r.buffer.extend data, eof := eof }

theorem append_fedBytes_cons (bytes : Bytes) (fed : Feed) (rest : List Feed) :
    bytes ++ fedBytes (fed :: rest) = bytes ++ fed.data ++ fedBytes rest := by
  unfold fedBytes
  rw [flatMap_cons, append_assoc]

variable {bytes : Bytes} {eof : Bool}

theorem Follows.waits (follows : Follows request bytes eof base r)
    (none : request.result bytes base.limit eof = none) :
    Waits request bytes eof base r := by
  unfold Follows at follows
  rwa [none] at follows

theorem Follows.result_eq_none (follows : Follows request bytes eof base r)
    (waits : r.waiter.isSome) : request.result bytes base.limit eof = none := by
  unfold Follows at follows
  split at follows
  next none => exact none
  · rw [follows.waiter] at waits
    cases waits

theorem result_ne_none_of_eof {limit : Nat} :
    request.result bytes limit true ≠ none := by
  cases request with
  | any n | all => simp [ReadRequest.result]
  | exactly n =>
    by_cases enough : n ≤ bytes.length
    · simp [ReadRequest.result, enough]
    · simp [ReadRequest.result, enough]
  | separator => simp [ReadRequest.result, UntilScan.isPending]

theorem follows_feedAll {feeds : List Feed}
    (waits : Waits request bytes false base r)
    (now : request.result bytes base.limit false = none)
    (earlier : ∀ first, first <+: feeds → (first = feeds → eof) →
      request.result (bytes ++ fedBytes first) base.limit false = none) :
    Follows request (bytes ++ fedBytes feeds) eof base (feedAll r feeds eof) := by
  induction feeds generalizing r bytes with
  | nil =>
    change Follows request (bytes ++ []) eof base (feedAll r [] eof)
    rw [append_nil]
    cases eof with
    | false => exact .of_none now waits
    | true => exact waits.feedEof
  | cons fed rest ih =>
    have step := waits.feed fed
    rw [append_fedBytes_cons]
    by_cases done : rest = [] ∧ eof = false
    · obtain ⟨rfl, rfl⟩ := done
      change Follows request (bytes ++ fed.data ++ []) false base (fed.perform r)
      rwa [append_nil]
    · have next : request.result (bytes ++ fed.data) base.limit false =
          none := by
        have first := earlier [fed] ⟨rest, rfl⟩ (by
          intro same
          by_contra unended
          refine done ⟨?_, Bool.eq_false_of_not_eq_true unended⟩
          injection same with _ rest
          exact rest.symm)
        have one : fedBytes [fed] = fed.data := flatMap_singleton ..
        rwa [one] at first
      refine ih (step.waits next) next ?_
      intro first isPrefix last
      have later := earlier (fed :: first) (cons_prefix_cons.mpr ⟨rfl, isPrefix⟩)
        fun same => last (List.cons.inj same).2
      rwa [append_fedBytes_cons] at later

theorem follows_accumulated (idle : r.waiter = none)
    (unfailed : r.exception = none) (asked : call.request = some request)
    (fits : request.Fits) (data : Bytes) (eof : Bool) :
    Follows request (r.buffer.unread ++ data) eof r
      (call.perform (accumulated r data eof)) := by
  have fresh : Follows request (accumulated r data eof).buffer.unread eof
      (accumulated r data eof) (call.perform (accumulated r data eof)) :=
    follows_perform idle unfailed asked fits
  have unread : (accumulated r data eof).buffer.unread =
      r.buffer.unread ++ data := unread_extend _ _
  rw [unread] at fresh
  exact fresh.transfer rfl (fun waits => { waits with }) fun _ ended => { ended with }

/-- A read that waits ends with the first chunk, or with the end of the stream,
after which the same call would not wait on all unread bytes. It then has the
outcome of that call and leaves the same bytes. -/
theorem waitingRead_agrees (r : StreamReader) (call : ReadCall)
    (feeds : List Feed) (eof : Bool) (idle : r.waiter = none)
    (waits : (call.perform r).waiter.isSome)
    (earlier : ∀ first, first <+: feeds → (first = feeds → eof) → (call.perform
        (accumulated r (fedBytes first) false)).waiter.isSome) :
    (feedAll (call.perform r) feeds eof).waiter.isSome = (call.perform
          (accumulated r (fedBytes feeds) eof)).waiter.isSome ∧
      (feedAll (call.perform r) feeds eof).outcomes =
        (call.perform (accumulated r (fedBytes feeds) eof)).outcomes ∧
      ((feedAll (call.perform r) feeds eof).waiter = none →
        (feedAll (call.perform r) feeds eof).buffer.unread = (call.perform
            (accumulated r (fedBytes feeds) eof)).buffer.unread) := by
  obtain ⟨unfailed, request, asked, fits⟩ := request_of_waiter idle waits
  have called := follows_perform idle unfailed asked fits
  have now := called.result_eq_none waits
  have unended : r.eof = false := by
    by_contra ended
    rw [Bool.eq_true_of_not_eq_false ended] at now
    exact result_ne_none_of_eof now
  rw [unended] at called now
  have fed : Follows request (r.buffer.unread ++ fedBytes feeds) eof r
      (feedAll (call.perform r) feeds eof) := by
    refine follows_feedAll (called.waits now) now fun first isPrefix last => ?_
    exact (follows_accumulated idle unfailed asked fits _ false).result_eq_none
      (earlier first isPrefix last)
  have fresh := follows_accumulated idle unfailed asked fits (fedBytes feeds) eof
  unfold Follows at fed fresh
  split at fed
  next none =>
    rw [none] at fresh
    obtain ⟨_, _, waiting, _⟩ := fed.waiter
    obtain ⟨_, _, waitingFresh, _⟩ := fresh.waiter
    refine ⟨?_, fed.outcomes.trans fresh.outcomes.symm, ?_⟩
    · rw [waiting, waitingFresh]
      rfl
    · intro ended
      cases waiting.symm.trans ended
  next result some =>
    rw [some] at fresh
    refine ⟨?_, fed.outcomes.trans fresh.outcomes.symm, fun _ =>
      fed.unread.trans fresh.unread.symm⟩
    rw [fed.waiter, fresh.waiter]

/-- The line is cut inside its separator, and the second chunk is pooled. -/
def cutSeparator : List Feed :=
  [.borrowed [97, 13], .pooled [10, 98] 64]

theorem waitingRead_agrees_of_cutSeparator :
    (feedAll ((ReadCall.readuntil [[13, 10]]).perform (.new 16)) cutSeparator
        false).outcomes = [.value [97, 13, 10]] ∧
      (feedAll ((ReadCall.readuntil [[13, 10]]).perform (.new 16)) cutSeparator
        false).buffer.unread = [98] := by
  obtain ⟨waiting, outcomes, unread⟩ := waitingRead_agrees (.new 16)
    (.readuntil [[13, 10]]) cutSeparator false rfl (by decide) (by
      intro first isPrefix last
      rcases prefix_cons_iff.mp isPrefix with rfl | ⟨rest, rfl, isRest⟩
      · decide
      · rcases prefix_cons_iff.mp isRest with rfl | ⟨final, rfl, isEnd⟩
        · decide
        · rw [prefix_nil.mp isEnd] at last
          cases last rfl)
  have ended : (feedAll ((ReadCall.readuntil [[13, 10]]).perform (.new 16))
      cutSeparator false).waiter = none := by
    decide
  exact ⟨outcomes.trans (by decide), (unread ended).trans (by decide)⟩

end Rsloop.Reader
