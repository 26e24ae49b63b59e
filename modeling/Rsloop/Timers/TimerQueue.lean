import Mathlib.Data.List.Perm.Basic
import Mathlib.Data.Prod.Lex

/-!
# The timer queue of a run

Timers that are due at once go to a queue that stays sorted, all others to a
heap. `TimerEntry::cmp` is reversed, since the heap of the standard library
yields its greatest entry; the heap itself is modelled as the list of what it
holds. Instants are any linear order.
-/

namespace Rsloop.Timers

open List

variable {Time Callback : Type} [LinearOrder Time]

/-! ## Entries -/

def compareTimerParts (leftWhen : Time) (leftSeq : Nat) (rightWhen : Time) (rightSeq : Nat) :
    Ordering :=
  (compare rightWhen leftWhen).then (compare rightSeq leftSeq)

structure TimerEntry (Time Callback : Type) where
  when : Time
  seq : Nat
  callback : Callback
  deriving DecidableEq

namespace TimerEntry

def cmp (entry other : TimerEntry Time Callback) : Ordering :=
  compareTimerParts entry.when entry.seq other.when other.seq

/-- The deadline, then the order of scheduling. -/
def key (entry : TimerEntry Time Callback) : Time ×ₗ Nat :=
  toLex (entry.when, entry.seq)

theorem cmp_eq_gt {entry other : TimerEntry Time Callback} :
    entry.cmp other = .gt ↔ entry.key < other.key := by
  unfold cmp compareTimerParts key
  rw [Ordering.then_eq_gt, compare_gt_iff_gt, compare_gt_iff_gt,
    compare_eq_iff_eq, Prod.Lex.toLex_lt_toLex]
  exact or_congr_right (and_congr_left' eq_comm)

theorem when_le_of_key_le {entry other : TimerEntry Time Callback}
    (before : entry.key ≤ other.key) : entry.when ≤ other.when :=
  (Prod.Lex.toLex_le_toLex'.mp before).1

end TimerEntry

/-! ## The heap -/

/-- Take the greatest entry out of a heap. -/
def heapPop : List (TimerEntry Time Callback) →
    Option (TimerEntry Time Callback × List (TimerEntry Time Callback))
  | [] => none
  | entry :: rest =>
    match heapPop rest with
    | none => some (entry, rest)
    | some (greatest, others) =>
      if greatest.cmp entry = .gt then some (greatest, entry :: others)
      else some (entry, rest)

theorem heapPop_eq_none {heap : List (TimerEntry Time Callback)} :
    heapPop heap = none ↔ heap = [] := by
  cases heap with
  | nil => simp [heapPop]
  | cons =>
    simp only [heapPop, reduceCtorEq, iff_false]
    split
    · simp
    · split <;> simp

/-- What is popped is due first, and nothing else is gone. -/
theorem heapPop_spec {heap rest : List (TimerEntry Time Callback)}
    {entry : TimerEntry Time Callback}
    (popped : heapPop heap = some (entry, rest)) :
    heap.Perm (entry :: rest) ∧ ∀ other ∈ heap, entry.key ≤ other.key := by
  induction heap generalizing entry rest with
  | nil => cases popped
  | cons head _ ih =>
    simp only [heapPop] at popped
    split at popped
    next none =>
      cases popped
      rw [heapPop_eq_none.mp none]
      refine ⟨List.Perm.refl _, ?_⟩
      intro other mem
      rw [mem_singleton.mp mem]
    next greatest others found =>
      obtain ⟨same, least⟩ := ih found
      split at popped
      next later =>
        cases popped
        refine ⟨(same.cons head).trans (List.Perm.swap _ _ _), ?_⟩
        intro other mem
        rcases mem_cons.mp mem with rfl | inTail
        · exact (TimerEntry.cmp_eq_gt.mp later).le
        · exact least other inTail
      next notLater =>
        cases popped
        have first : head.key ≤ greatest.key :=
          not_lt.mp fun before => notLater (TimerEntry.cmp_eq_gt.mpr before)
        refine ⟨List.Perm.refl _, ?_⟩
        intro other mem
        rcases mem_cons.mp mem with rfl | inTail
        · exact le_refl _
        · exact first.trans (least other inTail)

/-! ## The queue -/

structure TimerQueue (Time Callback : Type) [LinearOrder Time] where
  ordered : List (TimerEntry Time Callback)
  unordered : List (TimerEntry Time Callback)
  sorted : ordered.Pairwise fun earlier later => earlier.key ≤ later.key

namespace TimerQueue

def new : TimerQueue Time Callback where
  ordered := []
  unordered := []
  sorted := List.Pairwise.nil

/-- All that the queue holds. -/
def entries (queue : TimerQueue Time Callback) : List (TimerEntry Time Callback) :=
  queue.ordered ++ queue.unordered

def isEmpty (queue : TimerQueue Time Callback) : Bool :=
  queue.ordered.isEmpty && queue.unordered.isEmpty

def len (queue : TimerQueue Time Callback) : Nat :=
  queue.ordered.length + queue.unordered.length

theorem isEmpty_iff {queue : TimerQueue Time Callback} :
    queue.isEmpty ↔ queue.entries = [] := by
  simp [isEmpty, entries]

/-- An entry that is not due before the last one keeps the order. -/
theorem sorted_concat {queue : TimerQueue Time Callback}
    {entry : TimerEntry Time Callback}
    (fits : ∀ last ∈ queue.ordered.getLast?, entry.cmp last ≠ .gt) :
    (queue.ordered ++ [entry]).Pairwise fun earlier later => earlier.key ≤ later.key := by
  refine pairwise_append.mpr ⟨queue.sorted, pairwise_singleton _ _, ?_⟩
  intro earlier mem later isEntry
  rw [mem_singleton.mp isEntry]
  rcases eq_nil_or_concat queue.ordered with none | ⟨others, last, all⟩
  · rw [none] at mem
    cases mem
  · rw [concat_eq_append] at all
    have notBefore : last.key ≤ entry.key := by
      refine not_lt.mp fun before => fits last ?_ (TimerEntry.cmp_eq_gt.mpr before)
      rw [all]
      exact getLast?_concat
    have sorted := queue.sorted
    rw [all] at sorted mem
    rcases mem_append.mp mem with inOthers | isLast
    · exact ((pairwise_append.mp sorted).2.2 earlier inOthers last
        mem_cons_self).trans notBefore
    · rwa [mem_singleton.mp isLast]

def push (queue : TimerQueue Time Callback)
    (entry : TimerEntry Time Callback) (immediate : Bool) : TimerQueue Time Callback :=
  if fits : immediate ∧ ∀ last ∈ queue.ordered.getLast?, entry.cmp last ≠ .gt then
    { queue with ordered := queue.ordered ++ [entry], sorted := sorted_concat fits.2 }
  else
    { queue with unordered := entry :: queue.unordered }

def peek (queue : TimerQueue Time Callback) : Option (TimerEntry Time Callback) :=
  match queue.ordered.head?, (heapPop queue.unordered).map Prod.fst with
  | some front, some top => if top.cmp front = .gt then some top else some front
  | some front, none => some front
  | none, top => top

def pop : TimerQueue Time Callback → Option (TimerEntry Time Callback × TimerQueue Time Callback)
  | ⟨front :: later, unordered, sorted⟩ =>
    match heapPop unordered with
    | some (top, others) =>
      if top.cmp front = .gt then
        some (top, ⟨front :: later, others, sorted⟩)
      else
        some (front, ⟨later, unordered, sorted.of_cons⟩)
    | none => some (front, ⟨later, unordered, sorted.of_cons⟩)
  | ⟨[], unordered, sorted⟩ =>
    (heapPop unordered).map fun popped => (popped.1, ⟨[], popped.2, sorted⟩)

/-- The other heap is left empty. -/
def appendHeap (queue : TimerQueue Time Callback)
    (other : List (TimerEntry Time Callback)) : TimerQueue Time Callback :=
  { queue with unordered := queue.unordered ++ other }

/-- The queue is left empty; the result is the other heap. -/
def drainInto (queue : TimerQueue Time Callback) (other : List (TimerEntry Time Callback)) :
    List (TimerEntry Time Callback) :=
  other ++ queue.unordered ++ queue.ordered

/-- The queue without the entries that are found cancelled. -/
def compactCancelled (queue : TimerQueue Time Callback)
    (cancelled : TimerEntry Time Callback → Bool) : TimerQueue Time Callback where
  ordered := queue.ordered.filter fun entry => !cancelled entry
  unordered := queue.unordered.filter fun entry => !cancelled entry
  sorted := queue.sorted.filter _

/-- The entries that `compact_cancelled` hands to the ready queue. -/
def compacted (queue : TimerQueue Time Callback) (cancelled : TimerEntry Time Callback → Bool) :
    List (TimerEntry Time Callback) :=
  queue.ordered.filter cancelled ++ queue.unordered.filter cancelled

/-! ## What the operations do -/

variable {queue rest : TimerQueue Time Callback} {entry : TimerEntry Time Callback}

theorem entries_push (immediate : Bool) :
    (queue.push entry immediate).entries.Perm (entry :: queue.entries) := by
  unfold push
  split
  · change (queue.ordered ++ [entry] ++ queue.unordered).Perm _
    rw [append_assoc]
    exact perm_middle
  · exact perm_middle

theorem entries_appendHeap (other : List (TimerEntry Time Callback)) :
    (queue.appendHeap other).entries = queue.entries ++ other :=
  (append_assoc _ _ _).symm

theorem perm_drainInto (other : List (TimerEntry Time Callback)) :
    (queue.drainInto other).Perm (other ++ queue.entries) := by
  unfold drainInto
  rw [append_assoc]
  exact perm_append_comm.append_left other

section

variable (cancelled : TimerEntry Time Callback → Bool)

include cancelled

theorem entries_compactCancelled :
    (queue.compactCancelled cancelled).entries =
      queue.entries.filter fun entry => !cancelled entry :=
  (filter_append _ _).symm

theorem compacted_eq : queue.compacted cancelled = queue.entries.filter cancelled :=
  (filter_append _ _).symm

theorem perm_compactCancelled :
    queue.entries.Perm
      (queue.compacted cancelled ++ (queue.compactCancelled cancelled).entries) := by
  rw [compacted_eq, entries_compactCancelled]
  exact (filter_append_perm cancelled queue.entries).symm

end

theorem peek_eq_pop : queue.peek = queue.pop.map Prod.fst := by
  obtain ⟨ordered, unordered, sorted⟩ := queue
  cases ordered with
  | nil =>
    cases found : heapPop unordered with
    | none | some popped => simp [peek, pop, found]
  | cons =>
    cases found : heapPop unordered with
    | none => simp [peek, pop, found]
    | some =>
      simp only [peek, pop, found, head?_cons, Option.map_some]
      split <;> rfl

theorem pop_eq_none : queue.pop = none ↔ queue.entries = [] := by
  obtain ⟨ordered, unordered, sorted⟩ := queue
  cases ordered with
  | nil => simp [pop, entries, heapPop_eq_none]
  | cons =>
    simp only [pop, entries, cons_append, reduceCtorEq, iff_false]
    split
    · split <;> simp
    · simp

/-- The entry that is popped is due first among all that the queue holds, and
it is the only one that is gone. -/
theorem pop_spec (popped : queue.pop = some (entry, rest)) :
    queue.entries.Perm (entry :: rest.entries) ∧
      ∀ other ∈ queue.entries, entry.key ≤ other.key := by
  obtain ⟨ordered, unordered, sorted⟩ := queue
  cases ordered with
  | nil =>
    obtain ⟨⟨top, others⟩, found, isPopped⟩ := Option.map_eq_some_iff.mp popped
    cases isPopped
    exact heapPop_spec found
  | cons front later =>
    have frontFirst : ∀ other ∈ front :: later, front.key ≤ other.key := by
      intro other mem
      rcases mem_cons.mp mem with rfl | behind
      · exact le_refl _
      · exact (pairwise_cons.mp sorted).1 other behind
    simp only [pop] at popped
    split at popped
    next top others found =>
      obtain ⟨same, topFirst⟩ := heapPop_spec found
      split at popped
      next before =>
        cases popped
        have first := TimerEntry.cmp_eq_gt.mp before
        refine ⟨(same.append_left _).trans perm_middle, ?_⟩
        intro other mem
        rcases mem_append.mp mem with inOrder | inHeap
        · exact first.le.trans (frontFirst other inOrder)
        · exact topFirst other inHeap
      next notBefore =>
        cases popped
        have first : entry.key ≤ top.key :=
          not_lt.mp fun before =>
            notBefore (TimerEntry.cmp_eq_gt.mpr before)
        refine ⟨List.Perm.refl _, ?_⟩
        intro other mem
        rcases mem_append.mp mem with inOrder | inHeap
        · exact frontFirst other inOrder
        · exact first.trans (topFirst other inHeap)
    next none =>
      cases popped
      refine ⟨List.Perm.refl _, ?_⟩
      rwa [entries, heapPop_eq_none.mp none, append_nil]

end TimerQueue

/-! ## Sequences of operations -/

inductive QueueOperation (Time Callback : Type) where
  | push (entry : TimerEntry Time Callback) (immediate : Bool)
  | pop
  | peek
  | appendHeap (other : List (TimerEntry Time Callback))
  | drainInto
  | compactCancelled (cancelled : TimerEntry Time Callback → Bool)

/-- A queue with all entries that went in and all that came out. -/
structure QueueHistory (Time Callback : Type) [LinearOrder Time] where
  queue : TimerQueue Time Callback
  inserted : List (TimerEntry Time Callback)
  removed : List (TimerEntry Time Callback)

namespace QueueHistory

def new : QueueHistory Time Callback where
  queue := .new
  inserted := []
  removed := []

def perform (history : QueueHistory Time Callback) :
    QueueOperation Time Callback → QueueHistory Time Callback
  | .push entry immediate =>
    { history with
      queue := history.queue.push entry immediate
      inserted := history.inserted ++ [entry] }
  | .pop =>
    match history.queue.pop with
    | some (entry, rest) => { history with queue := rest, removed := history.removed ++ [entry] }
    | none => history
  | .peek => history
  | .appendHeap other =>
    { history with
      queue := history.queue.appendHeap other
      inserted := history.inserted ++ other }
  | .drainInto =>
    { history with queue := .new, removed := history.queue.drainInto history.removed }
  | .compactCancelled cancelled =>
    { history with
      queue := history.queue.compactCancelled cancelled
      removed := history.removed ++ history.queue.compacted cancelled }

def performAll (history : QueueHistory Time Callback)
    (operations : List (QueueOperation Time Callback)) : QueueHistory Time Callback :=
  operations.foldl perform history

/-- What went in is out again or still there. -/
def Conserved (history : QueueHistory Time Callback) : Prop :=
  history.inserted.Perm (history.removed ++ history.queue.entries)

variable {history : QueueHistory Time Callback}

theorem Conserved.perform (conserved : history.Conserved)
    (op : QueueOperation Time Callback) : (history.perform op).Conserved := by
  unfold Conserved at conserved ⊢
  cases op with
  | push entry immediate =>
    calc
      (history.inserted ++ [entry]).Perm (history.removed ++ history.queue.entries ++ [entry]) :=
        conserved.append_right _
      List.Perm _ (history.removed ++ (entry :: history.queue.entries)) := by
        rw [append_assoc]
        exact (perm_append_singleton _ _).append_left _
      List.Perm _ _ := (TimerQueue.entries_push immediate).symm.append_left _
  | pop =>
    simp only [QueueHistory.perform]
    split
    next entry rest popped =>
      have moved := (TimerQueue.pop_spec popped).1.append_left history.removed
      refine (conserved.trans moved).trans ?_
      rw [append_assoc]
      exact List.Perm.refl _
    · exact conserved
  | peek => exact conserved
  | appendHeap other =>
    simp only [QueueHistory.perform]
    rw [TimerQueue.entries_appendHeap, ← append_assoc]
    exact conserved.append_right other
  | drainInto =>
    change history.inserted.Perm (history.queue.drainInto history.removed ++ [])
    rw [append_nil]
    exact conserved.trans (TimerQueue.perm_drainInto _).symm
  | compactCancelled cancelled =>
    simp only [QueueHistory.perform]
    rw [append_assoc]
    exact conserved.trans ((TimerQueue.perm_compactCancelled cancelled).append_left _)

theorem Conserved.performAll (conserved : history.Conserved)
    (operations : List (QueueOperation Time Callback)) :
    (history.performAll operations).Conserved := by
  induction operations generalizing history with
  | nil => exact conserved
  | cons op _ ih =>
    exact ih (conserved.perform op)

end QueueHistory

/-- After any operations: what went in is out or still there; the next entry is
the one of what is there that is due first; draining moves exactly what is
there; and compaction keeps the entries that are not cancelled, in their places,
and hands out the others. -/
theorem timerQueue_refines_priorityQueue
    (operations : List (QueueOperation Time Callback)) :
    let history := QueueHistory.new.performAll operations
    let left := history.queue.entries
    history.inserted.Perm (history.removed ++ left) ∧
      history.queue.peek = history.queue.pop.map Prod.fst ∧
      (history.queue.pop = none ↔ left = []) ∧
      (∀ entry rest, history.queue.pop = some (entry, rest) → left.Perm (entry :: rest.entries) ∧
          ∀ other ∈ left, entry.key ≤ other.key) ∧
      (∀ heap, (history.queue.drainInto heap).Perm (heap ++ left)) ∧
      ∀ cancelled, (history.queue.compactCancelled cancelled).entries =
            (left.filter fun entry => !cancelled entry) ∧
          history.queue.compacted cancelled = left.filter cancelled := by
  have initial : (QueueHistory.new : QueueHistory Time Callback).Conserved := List.Perm.refl _
  have conserved := initial.performAll operations
  refine ⟨conserved, TimerQueue.peek_eq_pop, TimerQueue.pop_eq_none, ?_, ?_, ?_⟩
  · intro entry rest popped
    exact TimerQueue.pop_spec popped
  · exact fun heap => TimerQueue.perm_drainInto heap
  · intro cancelled
    exact ⟨TimerQueue.entries_compactCancelled cancelled, TimerQueue.compacted_eq cancelled⟩

end Rsloop.Timers
