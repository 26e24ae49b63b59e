import Rsloop.Stream.FlowControl

/-!
# The hysteresis of the write buffer

The byte count of a transport and its two thresholds, under any sequence of the
operations on them. A connection loss clears the count and tells the protocol
nothing, so the signals alternate only up to it.
-/

namespace Rsloop.Stream

open Transition

inductive WriteBufferOperation where
  | enqueue (len : Nat)
  | drain (len : Nat)
  | clear (resumeProtocol : Bool)
  | setLimits (high low : Option Nat)

namespace StreamWriteBufferState

/-- The state behind an operation and the signal it returns, or `none` for its
error. -/
def perform (cap : Nat) (s : StreamWriteBufferState) :
    WriteBufferOperation → StreamWriteBufferState × Option WriteBufferSignal
  | .enqueue len =>
    match s.enqueueWriteBuffer len cap with
    | none => (s, none)
    | some (next, signal) => (next, some signal)
  | .drain len => (s.drainWriteBuffer len).map id some
  | .clear resumeProtocol => (s.clearWriteBufferState resumeProtocol).map id some
  | .setLimits high low =>
    match normalizeWriteBufferLimits high low with
    | none => (s, none)
    | some (low, high) => (s.reconcileWriteBufferLimits low high).map id some

/-- The thresholds are ordered, and the decision fits the count. -/
structure Settled (cap : Nat) (s : StreamWriteBufferState) : Prop where
  size_le : s.size ≤ cap
  ordered : s.lowWater ≤ s.highWater
  paused : s.protocolPaused → s.lowWater < s.size
  unpaused : s.protocolPaused = false → s.size ≤ s.highWater

theorem settled_new (cap : Nat) : Settled cap new where
  size_le := Nat.zero_le _
  ordered := by decide
  paused paused := nomatch paused
  unpaused _ := Nat.zero_le _

variable {cap : Nat} {s next : StreamWriteBufferState} {signal : WriteBufferSignal}

section

variable (settled : Settled cap s)

include settled

theorem Settled.enqueue {len : Nat}
    (accepted : s.enqueueWriteBuffer len cap = some (next, signal)) :
    Settled cap next := by
  unfold enqueueWriteBuffer at accepted
  split at accepted
  · cases accepted
    exact settled
  · split at accepted
    · cases accepted
    · have room : s.size + len ≤ cap := by
        omega
      split at accepted
      next crossed =>
        cases accepted
        exact ⟨room, settled.ordered, fun _ => Nat.lt_of_le_of_lt settled.ordered crossed.1, nofun⟩
      next uncrossed =>
        cases accepted
        refine ⟨room, settled.ordered, ?_, ?_⟩
        · intro paused
          exact Nat.lt_add_right len (settled.paused paused)
        · intro unpaused
          by_contra beyond
          exact uncrossed ⟨Nat.lt_of_not_le beyond, unpaused⟩

theorem Settled.drain (len : Nat) : Settled cap (s.drainWriteBuffer len).1 := by
  have less : s.size - len ≤ cap := Nat.le_trans (Nat.sub_le _ _) settled.size_le
  unfold drainWriteBuffer
  split
  next crossed =>
    exact ⟨less, settled.ordered, nofun, fun _ => Nat.le_trans crossed.2 settled.ordered⟩
  next uncrossed =>
    refine ⟨less, settled.ordered, ?_, ?_⟩
    · intro paused
      by_contra drained
      exact uncrossed ⟨paused, Nat.le_of_not_lt drained⟩
    · intro unpaused
      exact Nat.le_trans (Nat.sub_le _ _) (settled.unpaused unpaused)

theorem Settled.clear (resumeProtocol : Bool) :
    Settled cap (s.clearWriteBufferState resumeProtocol).1 :=
  ⟨Nat.zero_le _, settled.ordered, nofun, fun _ => Nat.zero_le _⟩

theorem Settled.reconcile {low high : Nat} (ordered : low ≤ high) :
    Settled cap (s.reconcileWriteBufferLimits low high).1 := by
  unfold reconcileWriteBufferLimits
  split
  next crossed =>
    exact ⟨settled.size_le, ordered, fun _ => Nat.lt_of_le_of_lt ordered crossed.1, nofun⟩
  next within =>
    split
    next crossed =>
      exact ⟨settled.size_le, ordered, nofun, fun _ => Nat.le_trans crossed.2 ordered⟩
    next uncrossed =>
      refine ⟨settled.size_le, ordered, ?_, ?_⟩
      · intro paused
        by_contra drained
        exact uncrossed ⟨paused, Nat.le_of_not_lt drained⟩
      · intro unpaused
        by_contra beyond
        exact within ⟨Nat.lt_of_not_le beyond, unpaused⟩

omit settled in
theorem ordered_of_normalize {high low : Option Nat} {lowWater highWater : Nat}
    (accepted : normalizeWriteBufferLimits high low = some (lowWater, highWater)) :
    lowWater ≤ highWater := by
  obtain ⟨resolved, -, ordered⟩ := Option.bind_eq_some_iff.mp accepted
  dsimp only at ordered
  split_ifs at ordered
  next holds =>
  cases ordered
  exact holds

theorem Settled.perform (op : WriteBufferOperation) :
    Settled cap (s.perform cap op).1 := by
  cases op with
  | enqueue =>
    simp only [StreamWriteBufferState.perform]
    split
    · exact settled
    next next signal accepted => exact settled.enqueue accepted
  | drain len => exact settled.drain len
  | clear resumeProtocol => exact settled.clear resumeProtocol
  | setLimits =>
    simp only [StreamWriteBufferState.perform]
    split
    · exact settled
    next lowWater highWater accepted => exact settled.reconcile (ordered_of_normalize accepted)

end

theorem perform_of_error {op : WriteBufferOperation}
    (failed : (s.perform cap op).2 = none) :
    (s.perform cap op).1 = s := by
  cases op with
  | enqueue =>
    simp only [StreamWriteBufferState.perform] at failed ⊢
    split at failed
    · rfl
    · cases failed
  | drain len | clear resumeProtocol => cases failed
  | setLimits =>
    simp only [StreamWriteBufferState.perform] at failed ⊢
    split at failed
    · rfl
    · cases failed

end StreamWriteBufferState

/-! ## The signals of a run -/

structure SignalledBuffer where
  buffer : StreamWriteBufferState
  signals : List FlowSignal

def SignalledBuffer.new : SignalledBuffer where
  buffer := .new
  signals := []

def bufferStep (cap : Nat) (s : SignalledBuffer) (op : WriteBufferOperation) :
    Option SignalledBuffer :=
  let (buf, signal) := s.buffer.perform cap op
  some
    { buffer := buf
      signals := s.signals ++ (signal.getD .none).announced }

/-- A buffer whose protocol is paused is cleared only with a resume. -/
def AsksForResume (s : SignalledBuffer) : WriteBufferOperation → Prop
  | .clear resumeProtocol => s.buffer.protocolPaused → resumeProtocol
  | _ => True

instance decidableAsksForResume (s : SignalledBuffer) :
    ∀ op, Decidable (AsksForResume s op)
  | .clear resumeProtocol =>
    inferInstanceAs (Decidable (s.buffer.protocolPaused → resumeProtocol))
  | .enqueue _ | .drain _ | .setLimits _ _ => .isTrue trivial

theorem heard_announced {calls : List FlowSignal} {paused next : Bool}
    {signal : WriteBufferSignal} (before : heard false calls = some paused)
    (announces : StreamWriteBufferState.Announces paused next signal) :
    heard false (calls ++ signal.announced) = some next := by
  cases signal with
  | none =>
    have same : next = paused := announces
    rwa [WriteBufferSignal.announced, List.append_nil, same]
  | pause =>
    obtain ⟨rfl, rfl⟩ := announces
    exact heard_concat before (by rintro ⟨⟩)
  | resume =>
    obtain ⟨rfl, rfl⟩ := announces
    exact heard_concat before (by rintro ⟨⟩)

/-- The signal of an operation tells how it has changed the decision. -/
theorem announces_perform {cap : Nat} {s : SignalledBuffer}
    {op : WriteBufferOperation}
    (asks : AsksForResume s op) :
    StreamWriteBufferState.Announces s.buffer.protocolPaused
      (s.buffer.perform cap op).1.protocolPaused
      ((s.buffer.perform cap op).2.getD .none) := by
  cases op with
  | enqueue =>
    simp only [StreamWriteBufferState.perform]
    split
    · rfl
    next accepted =>
      exact (StreamWriteBufferState.enqueueWriteBuffer_announces accepted).1
  | drain len => exact (s.buffer.drainWriteBuffer_announces len).1
  | clear resumeProtocol =>
    cases paused : s.buffer.protocolPaused with
    | false =>
      simp only [StreamWriteBufferState.perform,
        StreamWriteBufferState.clearWriteBufferState, paused, Bool.and_false]
      rfl
    | true =>
      have resumes : resumeProtocol := asks paused
      simp only [StreamWriteBufferState.perform,
        StreamWriteBufferState.clearWriteBufferState, paused, resumes]
      exact ⟨rfl, rfl⟩
  | setLimits =>
    simp only [StreamWriteBufferState.perform]
    split
    · rfl
    · exact s.buffer.reconcileWriteBufferLimits_announces _ _

/-- The count and its thresholds fit each other in every run, and an operation
that fails leaves them alone. The signals alternate as long as no loss of the
connection has cleared the buffer of a paused protocol. -/
theorem writeBuffer_hysteresis (cap : Nat)
    (operations : List WriteBufferOperation)
    {s : SignalledBuffer}
    (reached : run (bufferStep cap) .new operations = some s) :
    (s.buffer.size ≤ cap ∧ s.buffer.lowWater ≤ s.buffer.highWater ∧
        (s.buffer.protocolPaused → s.buffer.lowWater < s.buffer.size) ∧
        (s.buffer.protocolPaused = false → s.buffer.size ≤ s.buffer.highWater)) ∧
      (∀ op, (s.buffer.perform cap op).2 = none →
        (s.buffer.perform cap op).1 = s.buffer) ∧
      (Guarded (bufferStep cap) AsksForResume .new operations →
        s.signals.IsChain (· ≠ ·) ∧ s.signals.head? ≠ some .resume) := by
  have free : Guarded (bufferStep cap) (fun _ _ => True) .new operations :=
    guarded_of_forall fun _ _ _ => trivial
  have settled : s.buffer.Settled cap :=
    invariant_of_run (fun s => s.buffer.Settled cap)
      (fun s op next settled _ moved => by
        cases moved
        exact settled.perform op)
      (StreamWriteBufferState.settled_new cap) free reached
  refine ⟨⟨settled.size_le, settled.ordered, settled.paused, settled.unpaused⟩,
    fun _ => StreamWriteBufferState.perform_of_error, fun asks => ?_⟩
  have follows : heard false s.signals = some s.buffer.protocolPaused :=
    invariant_of_run (fun s => heard false s.signals = some s.buffer.protocolPaused)
      (fun s op next follows asks moved => by
        cases moved
        exact heard_announced follows (announces_perform asks))
      rfl asks reached
  obtain ⟨chain, first, -⟩ := alternates_of_heard follows
  refine ⟨chain, fun isFirst => ?_⟩
  exact first .resume isFirst rfl

/-- Both thresholds are crossed twice, once by a clear. The limits asked for in
between do not fit a word. -/
def crossedTwice : List WriteBufferOperation :=
  [.enqueue 70000, .setLimits none (some (2 ^ 63)), .drain 60000, .enqueue 70000, .clear true]

theorem writeBuffer_hysteresis_crossedTwice :
    ∃ s, run (bufferStep defaultMaxWriteBufferSize) .new crossedTwice = some s ∧
      s.signals = [.pause, .resume, .pause, .resume] ∧ s.signals.IsChain (· ≠ ·) := by
  refine exists_run_imp
    (fun s => s.signals = [.pause, .resume, .pause, .resume]) (by decide) ?_
  rintro s reached signals
  exact ⟨signals, ((writeBuffer_hysteresis defaultMaxWriteBufferSize crossedTwice reached).2.2 (by
    decide)).1⟩

/-- Clearing the buffer of a paused protocol without a resume -/
theorem pause_repeated_after_clear :
    ∃ s, run (bufferStep defaultMaxWriteBufferSize) .new
        [.enqueue 70000, .clear false, .enqueue 70000] = some s ∧
      ¬ s.signals.IsChain (· ≠ ·) :=
  exists_run_of_any _ _ _ _ (by decide)

end Rsloop.Stream
