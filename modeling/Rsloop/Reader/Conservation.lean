import Rsloop.Reader.StreamReader

/-!
# No byte is lost or reordered in the reader

What the reads have delivered, what a pending exact read has collected and what
is still unread are together, in this order, what has been fed. While an exact
read is pending the buffer is empty, so its accumulator may go back in front.
-/

namespace Rsloop.Reader

open List

def Outcome.delivered : Outcome → Bytes
  | .value data => data
  | .incompleteRead received _ => received
  | .lineTooLong _ discarded => discarded
  | .limitOverrun _ _ | .exception _ | .raised _ => []

variable {waiter : ReadWaiter}

namespace StreamReader

def delivered (r : StreamReader) : Bytes :=
  r.outcomes.flatMap Outcome.delivered

def collected (r : StreamReader) : Bytes :=
  match r.waiter with
  | none => []
  | some waiter => waiter.kind.collected

/-- Delivered, collected and buffered bytes are the fed ones. -/
structure Balanced (fed : Bytes) (r : StreamReader) : Prop where
  unfailed : ∀ waiter, r.waiter = some waiter → r.exception = none
  live : ∀ waiter, r.waiter = some waiter → r.futures[waiter.future]? = some .pending ∨
      r.futures[waiter.future]? = some .cancelled
  balance : r.delivered ++ (r.collected ++ r.buffer.unread) = fed

/-- Between two calls, a pending exact read has left nothing in the buffer. -/
structure Conserved (fed : Bytes) (r : StreamReader) : Prop extends
    Balanced fed r where
  short : ∀ waiter acc, r.waiter = some waiter → waiter.kind = .exactly acc →
      r.buffer.unread = [] ∧ r.eof = false

variable {fed : Bytes} {r : StreamReader}

theorem Balanced.balance_of_waiting (balanced : Balanced fed r)
    (waiting : r.waiter = some waiter) :
    r.delivered ++ (waiter.kind.collected ++ r.buffer.unread) = fed := by
  have balance := balanced.balance
  unfold collected at balance
  rwa [waiting] at balance

theorem conserved_new (limit : Nat) : Conserved [] (new limit) where
  unfailed := nofun
  live := nofun
  balance := rfl
  short := nofun

theorem conserved_of_idle (idle : r.waiter = none)
    (balance : r.delivered ++ r.buffer.unread = fed) : Conserved fed r where
  unfailed waiter waiting := nomatch idle.symm.trans waiting
  live waiter waiting := nomatch idle.symm.trans waiting
  balance := by
    unfold collected
    rwa [idle]
  short waiter _ waiting := nomatch idle.symm.trans waiting

/-! ## The transport and the futures -/

theorem maybeResumeTransport_eq (r : StreamReader) :
    ∃ paused transport, r.maybeResumeTransport =
      { r with paused := paused, transport := transport } := by
  unfold maybeResumeTransport
  split
  · exact ⟨false, _, rfl⟩
  · exact ⟨r.paused, r.transport, rfl⟩

theorem resumeForWaiter_eq (r : StreamReader) :
    ∃ paused transport, r.resumeForWaiter =
      { r with paused := paused, transport := transport } := by
  unfold resumeForWaiter
  split
  · exact ⟨false, _, rfl⟩
  · exact ⟨r.paused, r.transport, rfl⟩

theorem maybePauseTransport_eq (r : StreamReader) :
    ∃ paused transport, r.maybePauseTransport =
      { r with paused := paused, transport := transport } := by
  unfold maybePauseTransport
  split
  · exact ⟨r.paused, r.transport, rfl⟩
  · split
    · split
      · exact ⟨true, _, rfl⟩
      · exact ⟨r.paused, none, rfl⟩
    · exact ⟨r.paused, r.transport, rfl⟩

theorem Conserved.maybePauseTransport (conserved : Conserved fed r) :
    Conserved fed r.maybePauseTransport := by
  obtain ⟨paused, transport, same⟩ := maybePauseTransport_eq r
  rw [same]
  exact { conserved with }

theorem delivered_finish (r : StreamReader) (outcome : Outcome) :
    (r.finish outcome).delivered = r.delivered ++ outcome.delivered := by
  change (r.outcomes ++ [outcome]).flatMap Outcome.delivered = _
  rw [flatMap_append, flatMap_singleton]
  rfl

variable {outcome : Outcome}

theorem Conserved.finish (conserved : Conserved fed r)
    (nothing : outcome.delivered = []) : Conserved fed (r.finish outcome) := by
  refine { conserved with balance := ?_ }
  rw [delivered_finish, nothing, append_nil]
  exact conserved.balance

theorem conserved_settle {future : Nat} (idle : r.waiter = none)
    (pending : r.futures[future]? = some .pending)
    (balance : r.delivered ++ (outcome.delivered ++ r.buffer.unread) = fed) :
    Conserved fed (r.settle future outcome) := by
  unfold settle
  rw [pending]
  refine conserved_of_idle idle ?_
  change (r.finish outcome).delivered ++ r.buffer.unread = fed
  rwa [delivered_finish, append_assoc]

/-- A cancelled waiter is gone afterwards, and any other is left alone. -/
theorem Balanced.cleared (balanced : Balanced fed r) :
    (Conserved fed r.clearCancelledWaiter ∧ r.clearCancelledWaiter.waiter = none) ∨
      (r.clearCancelledWaiter = r ∧ ∃ waiter, r.waiter = some waiter ∧
          r.futures[waiter.future]? = some .pending) := by
  unfold StreamReader.clearCancelledWaiter
  cases waiting : r.waiter with
  | none =>
    have balance := balanced.balance
    unfold collected at balance
    rw [waiting] at balance
    exact .inl ⟨conserved_of_idle waiting balance, waiting⟩
  | some waiter =>
    have balance := balanced.balance_of_waiting waiting
    by_cases cancelled : r.futures[waiter.future]? = some .cancelled
    · left
      simp only [cancelled, if_true]
      have idle : Conserved fed
            { r with
              waiter := none
              buffer := r.buffer.prepend waiter.kind.collected } := by
        refine conserved_of_idle rfl ?_
        rwa [ReadBuffer.unread_prepend]
      refine ⟨idle.maybePauseTransport, ?_⟩
      obtain ⟨paused, transport, same⟩ := maybePauseTransport_eq
        { r with waiter := none, buffer := r.buffer.prepend waiter.kind.collected }
      rw [same]
    · right
      simp only [cancelled, if_false, true_and]
      have pending := (balanced.live waiter waiting).resolve_right cancelled
      exact ⟨waiter, rfl, pending⟩

theorem exception_clearCancelledWaiter (r : StreamReader) :
    r.clearCancelledWaiter.exception = r.exception := by
  unfold StreamReader.clearCancelledWaiter
  split
  · rfl
  · split
    · obtain ⟨paused, transport, same⟩ := maybePauseTransport_eq
        { r with waiter := none, buffer := r.buffer.prepend _ }
      rw [same]
    · rfl

theorem Conserved.clearCancelledWaiter (conserved : Conserved fed r) :
    Conserved fed r.clearCancelledWaiter := by
  cases conserved.toBalanced.cleared with
  | inl cleared => exact cleared.1
  | inr same =>
    rwa [same.1]

/-! ## Reads that end with a separator -/

/-- A resolved search hands out the front of the buffer. -/
structure Resolves (r : StreamReader) (resolution : StreamReader × Outcome) : Prop where
  frame : ∃ buf paused transport,
    resolution.1 = { r with buffer := buf, paused := paused, transport := transport }
  bytes : resolution.2.delivered ++ resolution.1.buffer.unread = r.buffer.unread

theorem resolves_consume (r : StreamReader) (n : Nat)
    (front : outcome.delivered = r.buffer.unread.take n) :
    Resolves r
      (maybeResumeTransport { r with buffer := r.buffer.consume n }, outcome) := by
  obtain ⟨paused, transport, same⟩ :=
    maybeResumeTransport_eq { r with buffer := r.buffer.consume n }
  rw [same]
  refine ⟨⟨_, paused, transport, rfl⟩, ?_⟩
  rw [front, ReadBuffer.unread_consume, take_append_drop]

theorem resolves_untilLimitOverrun
    (r : StreamReader) (message : String) (consumed : Nat) (lineMode : Bool) :
    Resolves r (r.untilLimitOverrun message consumed lineMode) := by
  cases lineMode with
  | true => exact resolves_consume r _ rfl
  | false => exact ⟨⟨r.buffer, r.paused, r.transport, rfl⟩, rfl⟩

theorem resolves_resolveUntilScan (r : StreamReader) (scan : UntilScan)
    (lineMode : Bool) :
    Resolves r (r.resolveUntilScan scan lineMode) := by
  unfold resolveUntilScan
  cases scan with
  | found matchStart matchEnd =>
    by_cases beyond : r.limit < matchStart
    · simp only [beyond, if_true]
      exact resolves_untilLimitOverrun r _ matchStart lineMode
    · simp only [beyond, if_false]
      exact resolves_consume r matchEnd rfl
  | overLimit consumed => exact resolves_untilLimitOverrun r _ consumed lineMode
  | needMore =>
    refine ⟨⟨r.buffer.consumeAll, r.paused, r.transport, rfl⟩, ?_⟩
    rw [ReadBuffer.unread_consumeAll, append_nil]
    cases lineMode with
    | true | false => rfl

theorem scan_nil (s : UntilReadState) (limit : Nat) : (s.scan [] limit).1 = .needMore := by
  have short : ([] : Bytes).length - s.offset < s.minSeplen := by
    rw [length_nil, Nat.zero_sub]
    exact s.minSeplen_pos
  unfold UntilReadState.scan
  rw [if_pos short]

/-! ## The waiter -/

variable {acc : ExactReadAccumulator} {r : StreamReader} {future : Nat}

section

variable (balanced : Balanced fed r)

include balanced

theorem conserved_completeAny {n : Nat}
    (waiting : r.waiter = some { future := future, kind := .any n })
    (pending : r.futures[future]? = some .pending) :
    Conserved fed (r.completeAny future n) := by
  have balance := balanced.balance_of_waiting waiting
  unfold completeAny
  by_cases nothing : r.buffer.isEmpty ∧ r.eof = false
  · rw [if_pos nothing]
    refine { balanced with short := ?_ }
    intro waiter acc held kind
    cases waiting.symm.trans held
    cases kind
  · rw [if_neg nothing]
    obtain ⟨paused, transport, same⟩ := maybeResumeTransport_eq
      { r with waiter := none, buffer := r.buffer.consume n }
    rw [same]
    refine conserved_settle rfl pending ?_
    change r.delivered ++ (r.buffer.unread.take n ++
      (r.buffer.consume n).unread) = fed
    rwa [ReadBuffer.unread_consume, take_append_drop]

theorem conserved_completeExactly
    (waiting : r.waiter = some { future := future, kind := .exactly acc })
    (pending : r.futures[future]? = some .pending) :
    Conserved fed (r.completeExactly future acc) := by
  have balance := balanced.balance_of_waiting waiting
  have moved := acc.filled_fillFrom r.buffer
  have emptied := acc.unread_fillFrom r.buffer
  unfold completeExactly
  cases filling : acc.fillFrom r.buffer with
  | mk filled buf =>
    rw [filling] at moved emptied
    have filledBalance : r.delivered ++ (filled.filled ++ buf.unread) = fed :=
      (congrArg (r.delivered ++ ·) moved).trans balance
    change Conserved fed (if filled.expected ≤ filled.filled.length then _ else _)
    by_cases full : filled.expected ≤ filled.filled.length
    · rw [if_pos full]
      obtain ⟨paused, transport, same⟩ := maybeResumeTransport_eq
        { r with waiter := none, buffer := buf }
      rw [same]
      exact conserved_settle rfl pending filledBalance
    · rw [if_neg full]
      by_cases ended : r.eof
      · rw [if_pos ended]
        exact conserved_settle rfl pending filledBalance
      · rw [if_neg ended]
        constructor
        · constructor
          · exact fun _ _ => balanced.unfailed _ waiting
          · intro waiter held
            cases held
            exact .inl pending
          · exact filledBalance
        · intro waiter held _ _
          exact ⟨emptied (Nat.lt_of_not_le full), Bool.eq_false_iff.mpr ended⟩

theorem conserved_completeAll
    (waiting : r.waiter = some { future := future, kind := .all })
    (pending : r.futures[future]? = some .pending) :
    Conserved fed (r.completeAll future) := by
  have balance := balanced.balance_of_waiting waiting
  unfold completeAll
  by_cases ended : r.eof
  · rw [if_pos ended]
    refine conserved_settle rfl pending ?_
    rwa [ReadBuffer.unread_consumeAll, append_nil]
  · rw [if_neg ended]
    refine { balanced with short := ?_ }
    intro waiter acc held kind
    cases waiting.symm.trans held
    cases kind

theorem conserved_completeSeparator {s : UntilReadState}
    (waiting : r.waiter = some { future := future, kind := .separator s })
    (pending : r.futures[future]? = some .pending) :
    Conserved fed (r.completeSeparator future s) := by
  have balance := balanced.balance_of_waiting waiting
  unfold completeSeparator
  cases scanned : s.scan r.buffer.unread r.limit with
  | mk scan =>
    change Conserved fed (if scan.isPending r.eof then _ else _)
    by_cases goesOn : scan.isPending r.eof
    · rw [if_pos goesOn]
      constructor
      · constructor
        · exact fun _ _ => balanced.unfailed _ waiting
        · intro waiter held
          cases held
          exact .inl pending
        · exact balance
      · intro waiter acc held kind
        cases held
        cases kind
    · rw [if_neg goesOn]
      have resolves := resolves_resolveUntilScan { r with waiter := none } scan s.lineMode
      obtain ⟨buf, paused, transport, same⟩ := resolves.frame
      have bytes := resolves.bytes
      rw [same] at bytes
      change Conserved fed ((resolveUntilScan { r with waiter := none } scan
        s.lineMode).1.settle future _)
      rw [same]
      exact conserved_settle rfl pending
        ((congrArg (r.delivered ++ ·) bytes).trans balance)

theorem Balanced.maybeCompleteWaiter : Conserved fed r.maybeCompleteWaiter := by
  unfold StreamReader.maybeCompleteWaiter
  cases balanced.cleared with
  | inl cleared =>
    simp only [cleared.2]
    exact cleared.1
  | inr same =>
    obtain ⟨unchanged, waiter, waiting, pending⟩ := same
    simp only [unchanged, waiting]
    unfold completeWaiter
    simp only [balanced.unfailed _ waiting]
    cases waiter with
    | mk _ kind =>
      cases kind with
      | any => exact conserved_completeAny balanced waiting pending
      | exactly => exact conserved_completeExactly balanced waiting pending
      | all => exact conserved_completeAll balanced waiting pending
      | separator => exact conserved_completeSeparator balanced waiting pending

end

/-! ## Feeding -/

variable {buf : ReadBuffer}

variable {data : Bytes}

theorem Balanced.feed (balanced : Balanced fed r)
    (extended : buf.unread = r.buffer.unread ++ data) :
    Balanced (fed ++ data) { r with buffer := buf } := by
  refine { balanced with balance := ?_ }
  change r.delivered ++ (r.collected ++ buf.unread) = fed ++ data
  rw [extended, ← balanced.balance]
  simp only [append_assoc]

theorem Balanced.feedExactly (balanced : Balanced fed r)
    (waiting : r.waiter = some { future := future, kind := .exactly acc })
    (empty : r.buffer.unread = [])
    (extended : buf.unread = data.drop (acc.fillAmount data.length)) :
    Balanced (fed ++ data)
      { r with
        waiter := some { future := future, kind := .exactly (acc.fillFromSlice data) }
        buffer := buf } where
  unfailed _ _ := balanced.unfailed _ waiting
  live := by
    intro waiter held
    cases held
    exact balanced.live { future := future, kind := .exactly acc } waiting
  balance := by
    have balance := balanced.balance_of_waiting waiting
    rw [empty, append_nil] at balance
    change r.delivered ++
      ((acc.filled ++ data.take (acc.fillAmount data.length)) ++
        buf.unread) = fed ++ data
    rw [extended, append_assoc, take_append_drop, ← balance, append_assoc]
    rfl

section

variable (conserved : Conserved fed r)

include conserved

theorem Conserved.fillExactFromIncoming {filled : StreamReader} {consumed : Nat}
    (filling : r.fillExactFromIncoming data = (filled, consumed))
    (extended : buf.unread = filled.buffer.unread ++ data.drop consumed) :
    Balanced (fed ++ data) { filled with buffer := buf } := by
  have cleared := conserved.clearCancelledWaiter.toBalanced
  simp only [StreamReader.fillExactFromIncoming] at filling
  split at filling
  next future acc waiting =>
    split at filling
    next enabled =>
      cases filling
      have empty := (ReadBuffer.isEmpty_iff _).mp enabled.2
      refine cleared.feedExactly waiting empty (extended.trans ?_)
      rw [empty, nil_append]
    · cases filling
      exact cleared.feed extended
  · cases filling
    exact cleared.feed extended

theorem Conserved.feedData (data : Bytes) :
    Conserved (fed ++ if r.eof then [] else data) (r.feedData data) := by
  unfold StreamReader.feedData
  split
  · rw [append_nil]
    exact conserved.finish rfl
  · cases filling : r.fillExactFromIncoming data with
    | mk =>
      apply Conserved.maybePauseTransport
      apply Balanced.maybeCompleteWaiter
      exact conserved.fillExactFromIncoming filling (ReadBuffer.unread_extend _ _)

theorem Conserved.feedOwnedData (data : Bytes) (capacity : Nat) :
    Conserved (fed ++ if r.eof then [] else data) (r.feedOwnedData data capacity) := by
  unfold StreamReader.feedOwnedData
  split
  · rw [append_nil]
    exact conserved.finish rfl
  · cases filling : r.fillExactFromIncoming data with
    | mk _ consumed =>
      apply Conserved.maybePauseTransport
      apply Balanced.maybeCompleteWaiter
      apply conserved.fillExactFromIncoming filling
      by_cases untouched : consumed = 0
      · rw [if_pos untouched, ReadBuffer.unread_extendOwned, untouched]
        rfl
      · rw [if_neg untouched, ReadBuffer.unread_extend]

theorem Conserved.feedEof : Conserved fed r.feedEof := by
  apply Balanced.maybeCompleteWaiter
  exact { conserved with }

end

/-! ## Reading -/

section

variable (conserved : Conserved fed r)

include conserved

theorem Conserved.not_exactly (ready : r.buffer.unread ≠ [] ∨ r.eof)
    (waiting : r.waiter = some waiter) : waiter.kind ≠ .exactly acc := by
  intro kind
  obtain ⟨empty, unended⟩ := conserved.short waiter acc waiting kind
  cases ready with
  | inl something => exact something empty
  | inr ended => cases unended.symm.trans ended

theorem Conserved.collected_eq_nil (ready : r.buffer.unread ≠ [] ∨ r.eof) :
    r.collected = [] := by
  unfold collected
  cases waiting : r.waiter with
  | none => rfl
  | some waiter =>
    change waiter.kind.collected = []
    cases kind : waiter.kind with
    | any n | all | separator s => rfl
    | exactly => exact absurd kind (conserved.not_exactly ready waiting)

variable {transport : Option ReaderTransport}

theorem Conserved.finishFront (ready : r.buffer.unread ≠ [] ∨ r.eof)
    {paused : Bool} (front : outcome.delivered ++ buf.unread = r.buffer.unread) :
    Conserved fed (StreamReader.finish
      { r with buffer := buf, paused := paused, transport := transport } outcome) where
  unfailed := conserved.unfailed
  live := conserved.live
  balance := by
    rw [delivered_finish]
    change (r.delivered ++ outcome.delivered) ++ (r.collected ++ buf.unread) =
      fed
    rw [conserved.collected_eq_nil ready, nil_append, append_assoc, front]
    have balance := conserved.balance
    rwa [conserved.collected_eq_nil ready, nil_append] at balance
  short := by
    intro waiter acc waiting kind
    exact absurd kind (conserved.not_exactly ready waiting)

theorem Conserved.readNow (ready : r.buffer.unread ≠ [] ∨ r.eof) (n : Nat) :
    Conserved fed (r.readNow n) := by
  unfold StreamReader.readNow
  obtain ⟨paused, transport, same⟩ :=
    maybeResumeTransport_eq { r with buffer := r.buffer.consume n }
  rw [same]
  apply conserved.finishFront ready
  rw [ReadBuffer.unread_consume]
  exact take_append_drop n r.buffer.unread

theorem Conserved.finishAll (ended : r.eof)
    (all : outcome.delivered = r.buffer.unread) :
    Conserved fed
      (StreamReader.finish { r with buffer := r.buffer.consumeAll } outcome) := by
  refine conserved.finishFront (.inr ended) ?_
  rwa [ReadBuffer.unread_consumeAll, append_nil]

variable (unfailed : r.exception = none)

include unfailed

/-- A new waiter that has taken nothing, or all there was -/
theorem Conserved.attachWaiter (idle : r.waiter = none) {kind : ReadWaitKind}
    {paused : Bool}
    (front : kind.collected ++ buf.unread = r.buffer.unread)
    (short : ∀ acc, kind = .exactly acc → buf.unread = [] ∧ r.eof = false) :
    Conserved fed (StreamReader.attachWaiter
      { r with buffer := buf, paused := paused, transport := transport } kind) where
  unfailed _ _ := unfailed
  live := by
    intro waiter held
    cases held
    left
    exact getElem?_concat_length
  balance := by
    have balance := conserved.balance
    unfold collected at balance
    rw [idle] at balance
    exact (congrArg (r.delivered ++ ·) front).trans balance
  short := by
    intro waiter acc held kind
    cases held
    exact short acc kind

theorem Conserved.startWaiter (funcName : String) {request : ReadRequest}
    (short : ∀ n, request = .exactly n → r.buffer.len < n ∧ r.eof = false) :
    Conserved fed (r.startWaiter funcName request) := by
  unfold StreamReader.startWaiter
  cases waiting : r.waiter with
  | some => exact conserved.finish rfl
  | none =>
    obtain ⟨paused, transport, same⟩ := resumeForWaiter_eq r
    simp only [Option.isSome_none, Bool.false_eq_true, if_false, same]
    cases request with
    | any n | all | separator s => exact conserved.attachWaiter unfailed waiting rfl nofun
    | exactly n =>
      by_cases tooLarge : maxSize < n
      · simp only [tooLarge, if_true]
        apply Conserved.finish _ rfl
        refine conserved_of_idle waiting ?_
        have balance := conserved.balance
        unfold collected at balance
        rwa [waiting] at balance
      · simp only [tooLarge, if_false]
        obtain ⟨few, unended⟩ := short n rfl
        have front := (ExactReadAccumulator.new n).filled_fillFrom r.buffer
        have emptied : ((ExactReadAccumulator.new n).fillFrom r.buffer).2.unread = [] := by
          apply ExactReadAccumulator.unread_fillFrom
          have length := congrArg List.length front
          rw [length_append, length_append, ReadBuffer.length_unread r.buffer]
            at length
          change _ < n
          change _ = 0 + r.buffer.len at length
          omega
        refine conserved.attachWaiter unfailed waiting front ?_
        intro acc _
        exact ⟨emptied, unended⟩

theorem Conserved.readAtMost (n : Int) : Conserved fed (r.readAtMost n) := by
  unfold StreamReader.readAtMost
  by_cases zero : n = 0
  · rw [if_pos zero]
    exact conserved.finish rfl
  · rw [if_neg zero]
    by_cases negative : n < 0
    · rw [if_pos negative]
      by_cases ended : r.eof
      · rw [if_pos ended]
        exact conserved.finishAll ended rfl
      · rw [if_neg ended]
        exact conserved.startWaiter unfailed "read" nofun
    · rw [if_neg negative]
      by_cases ready : r.buffer.isEmpty = false ∨ r.eof
      · rw [if_pos ready]
        refine conserved.readNow (ready.imp_left ?_) n.toNat
        intro something nothing
        cases (r.buffer.isEmpty_iff.mpr nothing).symm.trans something
      · rw [if_neg ready]
        exact conserved.startWaiter unfailed "read" nofun

theorem Conserved.readSize (n : Nat) : Conserved fed (r.readSize n) := by
  unfold StreamReader.readSize
  by_cases zero : n = 0
  · rw [if_pos zero]
    exact conserved.finish rfl
  · rw [if_neg zero]
    by_cases enough : n ≤ r.buffer.len
    · rw [if_pos enough]
      refine conserved.readNow (.inl ?_) n
      intro nothing
      rw [← ReadBuffer.length_unread, nothing] at enough
      exact zero (Nat.le_zero.mp enough)
    · rw [if_neg enough]
      by_cases ended : r.eof
      · rw [if_pos ended]
        exact conserved.finishAll ended rfl
      · rw [if_neg ended]
        apply conserved.startWaiter unfailed "readexactly"
        intro asked same
        cases same
        exact ⟨Nat.lt_of_not_le enough, Bool.eq_false_iff.mpr ended⟩

theorem Conserved.readSeparated (funcName : String) (s : UntilReadState) :
    Conserved fed (r.readSeparated funcName s) := by
  unfold StreamReader.readSeparated
  cases scanned : s.scan r.buffer.unread r.limit with
  | mk scan =>
    change Conserved fed (if scan.isPending r.eof then _ else _)
    by_cases goesOn : scan.isPending r.eof
    · rw [if_pos goesOn]
      exact conserved.startWaiter unfailed funcName nofun
    · rw [if_neg goesOn]
      have ready : r.buffer.unread ≠ [] ∨ r.eof := by
        by_cases ended : r.eof
        · exact .inr ended
        · left
          intro nothing
          have unfinished := scan_nil s r.limit
          rw [← nothing, scanned] at unfinished
          rw [show scan = .needMore from unfinished, Bool.eq_false_iff.mpr ended] at goesOn
          exact goesOn rfl
      have resolves := resolves_resolveUntilScan r scan s.lineMode
      obtain ⟨buf, paused, transport, same⟩ := resolves.frame
      have front := resolves.bytes
      change Conserved fed ((r.resolveUntilScan scan s.lineMode).1.finish _)
      rw [same] at front ⊢
      exact conserved.finishFront ready front

omit unfailed

theorem Conserved.buildReadFuture (n : Int) :
    Conserved fed (r.buildReadFuture n) := by
  have cleared := conserved.clearCancelledWaiter
  unfold StreamReader.buildReadFuture
  split
  · exact cleared.finish rfl
  next unfailed => exact cleared.readAtMost unfailed n

theorem Conserved.buildReadexactlyFuture (n : Nat) :
    Conserved fed (r.buildReadexactlyFuture n) := by
  have cleared := conserved.clearCancelledWaiter
  unfold StreamReader.buildReadexactlyFuture
  split
  · exact cleared.finish rfl
  next unfailed => exact cleared.readSize unfailed n

theorem Conserved.buildUntilFuture (funcName : String) (s : UntilReadState) :
    Conserved fed (r.buildUntilFuture funcName s) := by
  unfold StreamReader.buildUntilFuture
  split
  · exact conserved.finish rfl
  next unfailed =>
    refine conserved.clearCancelledWaiter.readSeparated ?_ funcName s
    exact (exception_clearCancelledWaiter r).trans unfailed

/-! ## Every call -/

theorem Conserved.cancel (future : Nat) : Conserved fed (r.cancel future) := by
  unfold StreamReader.cancel
  split
  next pending =>
    refine { conserved with live := ?_ }
    intro waiter waiting
    by_cases same : future = waiter.future
    · right
      obtain ⟨inside, _⟩ := List.getElem?_eq_some_iff.mp pending
      rw [← same, getElem?_set_self inside]
    · rw [getElem?_set_ne same]
      exact conserved.live waiter waiting
  · exact conserved

theorem Conserved.waiterDone (future : Nat) :
    Conserved fed (r.waiterDone future) := by
  unfold StreamReader.waiterDone
  split
  · exact conserved
  · split
    · exact conserved.clearCancelledWaiter
    · exact conserved

theorem Conserved.setTransportObj (transport : Option ReaderTransport) :
    Conserved fed (r.setTransportObj transport) := by
  unfold StreamReader.setTransportObj
  obtain ⟨paused, transport, same⟩ := maybeResumeTransport_eq { r with transport := transport }
  rw [same]
  exact { conserved with }

end

end StreamReader

/-- The calls of an undisturbed stream: no `set_exception`, and the buffer is not
replaced. -/
def ReaderCall.Conserves : ReaderCall → Prop
  | .setException _ | .setBuffer _ => False
  | .feedData _ | .feedOwnedData _ _ | .feedEof | .read _ | .readexactly _
  | .readuntil _ | .readline | .cancel _ | .waiterDone _ | .setTransportObj _ => True

def ReaderCall.data : ReaderCall → Bytes
  | .feedData data | .feedOwnedData data _ => data
  | _ => []

/-- What the calls feed: the data of the feeds before the end of the stream. -/
def fedBy (r : StreamReader) : List ReaderCall → Bytes
  | [] => []
  | call :: later => (if r.eof then [] else call.data) ++ fedBy (perform r call) later

variable {fed : Bytes} {r : StreamReader}

theorem conserved_perform {call : ReaderCall} (conserved : r.Conserved fed)
    (conserves : call.Conserves) :
    (perform r call).Conserved (fed ++ if r.eof then [] else call.data) := by
  have quiet {next : StreamReader} (silent : call.data = []) (kept : next.Conserved fed) :
      next.Conserved (fed ++ if r.eof then [] else call.data) := by
    rwa [silent, ite_self, append_nil]
  cases call with
  | feedData data => exact conserved.feedData data
  | feedOwnedData data capacity => exact conserved.feedOwnedData data capacity
  | feedEof => exact quiet rfl conserved.feedEof
  | read n =>
    apply quiet rfl
    change (StreamReader.read r n).Conserved fed
    unfold StreamReader.read
    split
    · exact conserved.buildReadFuture n
    · exact conserved.finish rfl
  | readexactly n =>
    apply quiet rfl
    change (StreamReader.readexactly r n).Conserved fed
    unfold StreamReader.readexactly
    split
    · exact conserved.finish rfl
    · split
      · exact conserved.buildReadexactlyFuture n.toNat
      · exact conserved.finish rfl
  | readuntil separators =>
    apply quiet rfl
    change (StreamReader.readuntil r separators).Conserved fed
    unfold StreamReader.readuntil
    split
    · exact conserved.finish rfl
    · exact conserved.buildUntilFuture "readuntil" _
  | readline =>
    apply quiet rfl
    change (StreamReader.readline r).Conserved fed
    unfold StreamReader.readline
    split
    · exact conserved.finish rfl
    · exact conserved.buildUntilFuture "readline" _
  | cancel future => exact quiet rfl (conserved.cancel future)
  | waiterDone future => exact quiet rfl (conserved.waiterDone future)
  | setTransportObj transport => exact quiet rfl (conserved.setTransportObj transport)
  | setException error | setBuffer data => exact conserves.elim

theorem conserved_performAll {calls : List ReaderCall}
    (conserved : r.Conserved fed)
    (conserves : ∀ call ∈ calls, call.Conserves) :
    (performAll r calls).Conserved (fed ++ fedBy r calls) := by
  induction calls generalizing r fed with
  | nil =>
    rw [fedBy, append_nil]
    exact conserved
  | cons call later ih =>
    obtain ⟨first, rest⟩ := forall_mem_cons.mp conserves
    have kept := ih (conserved_perform conserved first) rest
    rwa [append_assoc] at kept

/-- What has been delivered, what the pending exact read has collected and what is
unread are, in this order, the data of the feeds. -/
theorem delivered_append_collected_append_unread (limit : Nat)
    {calls : List ReaderCall}
    (conserves : ∀ call ∈ calls, call.Conserves) :
    let r := performAll (StreamReader.new limit) calls
    r.delivered ++ r.collected ++ r.buffer.unread = fedBy (.new limit) calls := by
  intro r
  have conserved := conserved_performAll (StreamReader.conserved_new limit) conserves
  rw [append_assoc]
  exact conserved.balance

/-- An exact read is cancelled half way, and what it had goes to a line. -/
def cancelledExactRead : List ReaderCall :=
  [.readexactly 5, .feedData [97, 98], .cancel 0, .feedOwnedData [99, 10, 100] 16,
    .readline, .feedEof, .readuntil [[120], [121, 122]]]

theorem delivered_of_cancelledExactRead :
    let r := performAll (StreamReader.new 64) cancelledExactRead
    (r.delivered ++ r.collected ++ r.buffer.unread =
        fedBy (.new 64) cancelledExactRead) ∧
      r.outcomes = [.value [97, 98, 99, 10], .incompleteRead [100] none] := by
  refine ⟨delivered_append_collected_append_unread 64 ?_, by decide⟩
  intro call member
  simp only [cancelledExactRead, mem_cons, not_mem_nil, or_false] at member
  rcases member with rfl | rfl | rfl | rfl | rfl | rfl | rfl <;> trivial

/-! ## Exceptions -/

namespace StreamReader

def atEof (r : StreamReader) : Bool :=
  r.eof && r.buffer.isEmpty

/-- No read that still waits has taken bytes out of the buffer. -/
def NothingAbsorbed (r : StreamReader) : Prop :=
  ∀ waiter, r.waiter = some waiter →
    r.futures[waiter.future]? = some .cancelled ∨ waiter.kind.collected = []

theorem settle_frame (r : StreamReader) (future : Nat) (error : PyError) :
    let settled := r.settle future (.exception error)
    settled.buffer = r.buffer ∧ settled.waiter = r.waiter ∧ settled.eof = r.eof ∧
      settled.delivered = r.delivered := by
  unfold settle
  split <;> simp [delivered, finish, Outcome.delivered]

variable (error : PyError)

theorem setException_of_uncancelled (waiting : r.waiter = some waiter)
    (uncancelled : r.futures[waiter.future]? ≠ some .cancelled) :
    r.setException error =
      settle { r with exception := some error, waiter := none } waiter.future
        (.exception error) := by
  have same : clearCancelledWaiter { r with exception := some error } =
      { r with exception := some error } := by
    unfold clearCancelledWaiter
    simp only [waiting, uncancelled, if_false]
  unfold setException maybeCompleteWaiter
  rw [same]
  simp only [waiting]
  rfl

/-- What a cancelled read has taken goes back first. -/
theorem setException_of_cancelled
    (nobody : ∀ waiter, r.waiter = some waiter →
      r.futures[waiter.future]? = some .cancelled) :
    ∃ buf paused transport, r.setException error =
        { r with
          exception := some error
          waiter := none
          buffer := buf
          paused := paused
          transport := transport } ∧
      buf.unread = r.collected ++ r.buffer.unread := by
  unfold setException maybeCompleteWaiter clearCancelledWaiter collected
  cases waiting : r.waiter with
  | none =>
    exact ⟨r.buffer, r.paused, r.transport, rfl, rfl⟩
  | some waiter =>
    obtain ⟨paused, transport, same⟩ := maybePauseTransport_eq
      { r with
        exception := some error
        waiter := none
        buffer := r.buffer.prepend waiter.kind.collected }
    simp only [nobody waiter waiting, if_true, same]
    exact ⟨_, paused, transport, rfl, ReadBuffer.unread_prepend _ _⟩

/-- The unread bytes are kept if and only if no read that waits has taken some. -/
theorem unread_setException (r : StreamReader) :
    let after := r.setException error
    after.waiter = none ∧ after.eof = r.eof ∧ after.delivered = r.delivered ∧
      (after.buffer.unread = r.collected ++ r.buffer.unread ↔
        r.NothingAbsorbed) := by
  by_cases nobody : ∀ waiter, r.waiter = some waiter →
      r.futures[waiter.future]? = some .cancelled
  · obtain ⟨buf, paused, transport, same, unread⟩ := setException_of_cancelled error nobody
    rw [same]
    exact ⟨rfl, rfl, rfl, fun _ waiter waiting => .inl (nobody waiter waiting), fun _ => unread⟩
  · simp only [not_forall] at nobody
    obtain ⟨waiter, waiting, uncancelled⟩ := nobody
    rw [setException_of_uncancelled error waiting uncancelled]
    obtain ⟨buf, idle, eof, delivered⟩ := settle_frame
      { r with exception := some error, waiter := none } waiter.future error
    refine ⟨idle, eof, delivered, ?_⟩
    rw [buf, collected, waiting]
    refine ⟨fun kept other waits => .inr ?_, fun nothing => ?_⟩
    · cases waiting.symm.trans waits
      exact append_left_eq_self.mp kept.symm
    · have empty := (nothing waiter waiting).resolve_left uncancelled
      exact (congrArg (· ++ r.buffer.unread) empty).symm

end StreamReader

/-- `set_exception` finds nothing absorbed, and the buffer is not replaced. -/
def ReaderCall.Keeps (r : StreamReader) : ReaderCall → Prop
  | .setException _ => r.NothingAbsorbed
  | .setBuffer _ => False
  | _ => True

def KeepsAll (r : StreamReader) : List ReaderCall → Prop
  | [] => True
  | call :: later => call.Keeps r ∧ KeepsAll (perform r call) later

theorem conserved_of_keepsAll {calls : List ReaderCall}
    (conserved : r.Conserved fed)
    (keeps : KeepsAll r calls) :
    (performAll r calls).Conserved (fed ++ fedBy r calls) := by
  induction calls generalizing r fed with
  | nil =>
    rw [fedBy, append_nil]
    exact conserved
  | cons call later ih =>
    obtain ⟨first, rest⟩ := keeps
    rw [fedBy, ← append_assoc]
    refine ih ?_ rest
    by_cases conserves : call.Conserves
    · exact conserved_perform conserved conserves
    · cases call with
      | setException error =>
        obtain ⟨idle, _, delivered, unread⟩ := StreamReader.unread_setException error r
        simp only [ReaderCall.data, ite_self, append_nil]
        refine StreamReader.conserved_of_idle idle ?_
        rw [perform, delivered, unread.mpr first]
        exact conserved.balance
      | setBuffer data => exact first.elim
      | _ => exact absurd trivial conserves

/-- `set_exception` fails the read that waits. It keeps every byte that was fed
and not delivered if and only if that read has taken none. -/
theorem setException_keepsUnread (r : StreamReader) (error : PyError) :
    let after := r.setException error
    (after.buffer.unread = r.collected ++ r.buffer.unread ∧
        after.atEof = (r.eof && (r.collected ++ r.buffer.unread).isEmpty) ↔
      r.NothingAbsorbed) ∧
      after.waiter = none ∧
      (∀ waiter, r.waiter = some waiter → r.futures[waiter.future]? = some .pending →
        after.outcomes = r.outcomes ++ [.exception error] ∧
          after.futures[waiter.future]? = some .finished) ∧
      ∀ limit calls, KeepsAll (.new limit) calls →
        r = performAll (.new limit) calls →
          (r.delivered ++ after.buffer.unread = fedBy (.new limit) calls ↔
            r.NothingAbsorbed) := by
  intro after
  obtain ⟨idle, eof, _, unread⟩ := StreamReader.unread_setException error r
  refine ⟨⟨fun kept => unread.mp kept.1, fun nothing => ⟨unread.mpr nothing, ?_⟩⟩, idle, ?_, ?_⟩
  · rw [← unread.mpr nothing, StreamReader.atEof, eof]
    congr 1
    rw [Bool.eq_iff_iff, ReadBuffer.isEmpty_iff, List.isEmpty_iff]
  · intro waiter waiting pending
    have uncancelled : r.futures[waiter.future]? ≠ some .cancelled := by simp [pending]
    obtain ⟨inside, -⟩ := List.getElem?_eq_some_iff.mp pending
    simp only [after, StreamReader.setException_of_uncancelled error waiting uncancelled,
      StreamReader.settle, pending]
    exact ⟨trivial, getElem?_set_self inside⟩
  · intro limit calls keeps reached
    have balance : r.delivered ++ (r.collected ++ r.buffer.unread) =
        fedBy (.new limit) calls := by
      rw [reached]
      exact (conserved_of_keepsAll (StreamReader.conserved_new limit) keeps).balance
    rw [← balance, append_right_inj]
    exact unread

/-- The exact read that has taken two bytes is cancelled before the exception. -/
theorem setException_keepsUnread_cancelled :
    let r := performAll (.new 64) [.readexactly 5, .feedData [97, 98], .cancel 0]
    (r.setException (.other "reset")).buffer.unread = [97, 98] :=
  ((setException_keepsUnread
    (performAll (.new 64) [.readexactly 5, .feedData [97, 98], .cancel 0]) (.other "reset")).1.mpr
    (by rintro _ ⟨⟩; exact .inl rfl)).1

theorem setException_drops_collected :
    let r := performAll (.new 64) [.feedData [97, 98], .readexactly 4]
    r.collected = [97, 98] ∧ r.futures = [.pending] ∧
      (r.setException (.other "reset")).buffer.unread = [] ∧
      (r.setException (.other "reset")).delivered = [] := by
  decide

end Rsloop.Reader
