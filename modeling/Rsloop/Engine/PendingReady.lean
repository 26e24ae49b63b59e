import Mathlib.Data.List.Perm.Basic

/-!
# Off-thread work and the start of a generation

Work that other threads queue for a run waits in a `PendingReady`. Its marks cut
it into segments: a segment with mark `m` was queued behind the first `m`
enqueues of the loop thread itself. `merge_ready_generation` interleaves the
segments with the loop thread's own queue.
-/

namespace Rsloop.Engine

open List

variable {Item : Type}

/-- `marks` holds, for every segment, the position of its first item and the
number of loop-thread enqueues it follows. -/
structure PendingReady (Item : Type) where
  items : List Item
  marks : List (Nat × Nat)
  deriving DecidableEq

namespace PendingReady

def empty : PendingReady Item where
  items := []
  marks := []

def mark (pending : PendingReady Item) (localMark : Nat) : PendingReady Item :=
  match pending.marks.getLast? with
  | some (_, last) =>
    if last = localMark then
      pending
    else
      { pending with marks := pending.marks ++ [(pending.items.length, localMark)] }
  | none => { pending with marks := pending.marks ++ [(pending.items.length, localMark)] }

def push (pending : PendingReady Item) (item : Item) (localMark : Nat) : PendingReady Item :=
  { pending.mark localMark with items := pending.items ++ [item] }

def extend (pending : PendingReady Item) (items : List Item) (localMark : Nat) :
    PendingReady Item :=
  let extended := { pending.mark localMark with items := pending.items ++ items }
  if extended.items.length = pending.items.length then
    { extended with marks := extended.marks.take pending.marks.length }
  else
    extended

@[simp]
theorem items_push (pending : PendingReady Item) (item : Item) (localMark : Nat) :
    (pending.push item localMark).items = pending.items ++ [item] := rfl

@[simp]
theorem items_extend (pending : PendingReady Item) (items : List Item)
    (localMark : Nat) :
    (pending.extend items localMark).items = pending.items ++ items := by
  unfold extend
  dsimp only
  split <;> rfl

end PendingReady

/-! ## Merging -/

structure Merge (Item : Type) where
  batch : List Item
  localTaken : Nat
  localReady : List Item
  items : List Item
  deriving DecidableEq

/-- How long the segment at the front of the remaining items is: the last one is
whatever remains. -/
def segmentLength (start : Nat) (later : List (Nat × Nat)) (items : List Item) : Nat :=
  match later with
  | [] => items.length
  | (next, _) :: _ => next - start

/-- The loop over the marks: the local items that come before the segment, then
the segment. -/
def mergeSegments (localTaken : Nat) (localReady items : List Item) :
    List (Nat × Nat) → Merge Item
  | [] => { batch := [], localTaken := localTaken, localReady := localReady, items := items }
  | (start, mark) :: later =>
    let len := segmentLength start later items
    let due := min (mark - localTaken) localReady.length
    let rest := mergeSegments (localTaken + due) (localReady.drop due) (items.drop len) later
    { rest with batch := localReady.take due ++ (items.take len ++ rest.batch) }

/-- The next generation, from an empty batch. What the loop leaves in
`localReady` goes to the end. -/
def mergeReadyGeneration
    (localTaken : Nat) (localReady : List Item) (pending : PendingReady Item) : Merge Item :=
  if pending.items.isEmpty then
    { batch := localReady
      localTaken := localTaken + localReady.length
      localReady := []
      items := [] }
  else if localReady.isEmpty then
    { batch := pending.items, localTaken := localTaken, localReady := [], items := [] }
  else
    let merged := mergeSegments localTaken localReady pending.items pending.marks
    { batch := merged.batch ++ merged.localReady
      localTaken := merged.localTaken + merged.localReady.length
      localReady := []
      items := merged.items }

/-! ## Marks that cut the queue into segments -/

/-- The marks cut `items`, of which the first has position `offset`, into
segments. -/
def Covers (offset : Nat) (items : List Item) : List (Nat × Nat) → Prop
  | [] => items = []
  | (start, _) :: later =>
    start = offset ∧
      match later with
      | [] => True
      | (next, _) :: _ =>
        start ≤ next ∧ next - start ≤ items.length ∧ Covers next (items.drop (next - start)) later

def PendingReady.Valid (pending : PendingReady Item) : Prop :=
  Covers 0 pending.items pending.marks

theorem PendingReady.valid_empty : (PendingReady.empty : PendingReady Item).Valid := rfl

/-! ## Segments -/

/-- A mark and the items that share it. -/
abbrev Segment (Item : Type) : Type := Nat × List Item

def Segment.stamps (segment : Segment Item) : List (Nat × Item) :=
  segment.2.map (Prod.mk segment.1)

/-- The marks of segments of which the first starts at `offset`. -/
def marksOf (offset : Nat) : List (Segment Item) → List (Nat × Nat)
  | [] => []
  | segment :: later => (offset, segment.1) :: marksOf (offset + segment.2.length) later

theorem marksOf_append (offset : Nat) (earlier later : List (Segment Item)) :
    marksOf offset (earlier ++ later) = marksOf offset earlier ++
        marksOf (offset + (earlier.flatMap Prod.snd).length) later := by
  induction earlier generalizing offset with
  | nil => rfl
  | cons _ _ ih =>
    simp only [cons_append, marksOf, ih, flatMap_cons, length_append, Nat.add_assoc]

structure PendingReady.Cut (pending : PendingReady Item)
    (segs : List (Segment Item)) : Prop where
  items : pending.items = segs.flatMap Prod.snd
  marks : pending.marks = marksOf 0 segs

theorem covers_marksOf (offset : Nat) (segs : List (Segment Item)) :
    Covers offset (segs.flatMap Prod.snd) (marksOf offset segs) := by
  induction segs generalizing offset with
  | nil => rfl
  | cons segment later ih =>
    cases later with
    | nil => exact ⟨rfl, trivial⟩
    | cons =>
      have covered := ih (offset + segment.2.length)
      refine ⟨rfl, Nat.le_add_right _ _, ?_, ?_⟩
      · rw [Nat.add_sub_cancel_left, flatMap_cons, length_append]
        exact Nat.le_add_right _ _
      · rwa [Nat.add_sub_cancel_left, flatMap_cons, drop_left]

variable {items : List Item}

theorem Covers.exists_segments {offset : Nat} {marks : List (Nat × Nat)}
    (covers : Covers offset items marks) :
    ∃ segs : List (Segment Item),
      items = segs.flatMap Prod.snd ∧ marks = marksOf offset segs := by
  induction marks generalizing offset items with
  | nil => exact ⟨[], covers, rfl⟩
  | cons first later ih =>
    obtain ⟨start, mark⟩ := first
    obtain ⟨rfl, others⟩ := covers
    cases later with
    | nil => exact ⟨[(mark, items)], by simp, rfl⟩
    | cons second =>
      obtain ⟨ordered, within, covered⟩ := others
      obtain ⟨segs, isRest, isLater⟩ := ih covered
      refine ⟨(mark, items.take (second.1 - start)) :: segs, ?_, ?_⟩
      · rw [flatMap_cons, ← isRest, take_append_drop]
      · have next : start + (second.1 - start) = second.1 := by omega
        rw [marksOf, length_take_of_le within, next, isLater]

variable {pending : PendingReady Item}

theorem PendingReady.Valid.exists_cut (valid : pending.Valid) :
    ∃ segs, pending.Cut segs := by
  obtain ⟨segs, items, marks⟩ := Covers.exists_segments valid
  exact ⟨segs, items, marks⟩

variable {segs : List (Segment Item)}

theorem PendingReady.Cut.valid (cut : pending.Cut segs) : pending.Valid := by
  unfold PendingReady.Valid
  rw [cut.items, cut.marks]
  exact covers_marksOf 0 segs

theorem PendingReady.Cut.opens (cut : pending.Cut segs) (localMark : Nat)
    (more : List Item) :
    PendingReady.Cut
      { items := pending.items ++ more
        marks := pending.marks ++ [(pending.items.length, localMark)] }
      (segs ++ [(localMark, more)]) where
  items := by
    rw [flatMap_append, cut.items]
    simp
  marks := by
    rw [marksOf_append, Nat.zero_add, cut.marks, cut.items]
    rfl

theorem PendingReady.Cut.lengthens {earlier : List (Segment Item)}
    {localMark : Nat} {last : List Item}
    (cut : pending.Cut (earlier ++ [(localMark, last)])) (more : List Item) :
    PendingReady.Cut { pending with items := pending.items ++ more }
      (earlier ++ [(localMark, last ++ more)]) where
  items := by
    rw [cut.items]
    simp
  marks := by
    rw [cut.marks, marksOf_append, marksOf_append]
    rfl

/-- More items with a mark go into the last segment or into a new one. -/
theorem PendingReady.Cut.mark (cut : pending.Cut segs) (localMark : Nat)
    (more : List Item) :
    ∃ next, PendingReady.Cut
        { pending.mark localMark with items := pending.items ++ more } next ∧
      (next = segs ++ [(localMark, more)] ∨
        ∃ earlier last, segs = earlier ++ [(localMark, last)] ∧
          next = earlier ++ [(localMark, last ++ more)]) := by
  have opened := cut.opens localMark more
  rcases eq_nil_or_concat segs with rfl | ⟨earlier, last, rfl⟩
  · have unmarked : pending.marks.getLast? = none := by
      rw [cut.marks]
      rfl
    refine ⟨_, ?_, .inl rfl⟩
    simp only [PendingReady.mark, unmarked]
    exact opened
  · obtain ⟨mark, items⟩ := last
    rw [concat_eq_append] at cut opened ⊢
    have lastMark : pending.marks.getLast? =
        some (0 + (earlier.flatMap Prod.snd).length, mark) := by
      rw [cut.marks, marksOf_append]
      exact getLast?_concat
    by_cases same : mark = localMark
    · subst same
      refine ⟨_, ?_, .inr ⟨earlier, items, rfl, rfl⟩⟩
      simp only [PendingReady.mark, lastMark, if_true]
      exact cut.lengthens more
    · refine ⟨_, ?_, .inl rfl⟩
      simp only [PendingReady.mark, lastMark, if_neg same]
      exact opened

theorem PendingReady.Valid.mark (valid : pending.Valid) (localMark : Nat)
    (more : List Item) :
    PendingReady.Valid { pending.mark localMark with items := pending.items ++ more } := by
  obtain ⟨segs, cut⟩ := valid.exists_cut
  obtain ⟨next, marked, -⟩ := cut.mark localMark more
  exact marked.valid

theorem PendingReady.Valid.push (valid : pending.Valid)
    (item : Item) (localMark : Nat) : (pending.push item localMark).Valid :=
  valid.mark localMark [item]

theorem PendingReady.extend_nil (pending : PendingReady Item) (localMark : Nat) :
    pending.extend [] localMark = pending := by
  have unmarked : (pending.mark localMark).marks.take pending.marks.length = pending.marks := by
    unfold PendingReady.mark
    split
    · split
      · exact take_length
      · exact take_left
    · exact take_left
  unfold PendingReady.extend
  rw [append_nil, if_pos rfl, unmarked]

theorem PendingReady.extend_of_ne_nil (pending : PendingReady Item)
    (some : items ≠ [])
    (localMark : Nat) :
    pending.extend items localMark =
      { pending.mark localMark with items := pending.items ++ items } := by
  unfold PendingReady.extend
  rw [if_neg]
  rw [length_append]
  have positive := length_pos_iff.mpr some
  omega

theorem PendingReady.Valid.extend (valid : pending.Valid) (items : List Item)
    (localMark : Nat) :
    (pending.extend items localMark).Valid := by
  by_cases none : items = []
  · rwa [none, pending.extend_nil]
  · rw [pending.extend_of_ne_nil none]
    exact valid.mark localMark items

/-! ## What a merge does -/

/-- The local items that are due, then the segment; at the end what is left of
the local queue. -/
def interleave (localTaken : Nat) (localReady : List Item) : List (Segment Item) → List Item
  | [] => localReady
  | (mark, items) :: later =>
    let due := min (mark - localTaken) localReady.length
    localReady.take due ++ (items ++ interleave (localTaken + due) (localReady.drop due) later)

theorem interleave_nil (localTaken : Nat) (segs : List (Segment Item)) :
    interleave localTaken [] segs = segs.flatMap Prod.snd := by
  induction segs generalizing localTaken with
  | nil => rfl
  | cons _ _ ih =>
    simp only [interleave, length_nil, Nat.min_zero, take_zero,
      drop_zero, nil_append, ih,
      flatMap_cons]

theorem interleave_of_no_items (localTaken : Nat) (localReady : List Item)
    (none : segs.flatMap Prod.snd = []) :
    interleave localTaken localReady segs = localReady := by
  induction segs generalizing localTaken localReady with
  | nil => rfl
  | cons _ _ ih =>
    rw [flatMap_cons, append_eq_nil_iff] at none
    simp only [interleave, none.1, nil_append, ih _ _ none.2, take_append_drop]

theorem segmentLength_marksOf (offset : Nat) (segment : Segment Item)
    (later : List (Segment Item)) :
    segmentLength offset (marksOf (offset + segment.2.length) later)
        (segment.2 ++ later.flatMap Prod.snd) = segment.2.length := by
  cases later with
  | nil | cons next others => simp [marksOf, segmentLength]

theorem mergeSegments_marksOf (offset localTaken : Nat)
    (localReady : List Item) (segs : List (Segment Item)) :
    (mergeSegments localTaken localReady (segs.flatMap Prod.snd)
          (marksOf offset segs)).batch ++
        (mergeSegments localTaken localReady (segs.flatMap Prod.snd)
          (marksOf offset segs)).localReady =
      interleave localTaken localReady segs ∧
    (mergeSegments localTaken localReady (segs.flatMap Prod.snd)
      (marksOf offset segs)).items = [] := by
  induction segs generalizing offset localTaken localReady with
  | nil => exact ⟨rfl, rfl⟩
  | cons _ _ ih =>
    simp only [marksOf, flatMap_cons, mergeSegments,
      segmentLength_marksOf, take_left, drop_left,
      append_assoc, ih]
    exact ⟨rfl, trivial⟩

section Merge

variable (localTaken : Nat) (localReady : List Item)

theorem interleave_perm (segs : List (Segment Item)) :
    (interleave localTaken localReady segs).Perm (localReady ++ segs.flatMap Prod.snd) := by
  induction segs generalizing localTaken localReady with
  | nil =>
    rw [flatMap_nil, append_nil]
    exact List.Perm.refl _
  | cons segment later ih =>
    set due := min (segment.1 - localTaken) localReady.length with isDue
    calc
      interleave localTaken localReady (segment :: later) = localReady.take due ++ (segment.2 ++
            interleave (localTaken + due) (localReady.drop due) later) := rfl
      List.Perm _ (localReady.take due ++ (segment.2 ++
            (localReady.drop due ++ later.flatMap Prod.snd))) :=
          ((ih _ _).append_left _).append_left _
      List.Perm _ (localReady.take due ++ (localReady.drop due ++
            (segment.2 ++ later.flatMap Prod.snd))) :=
          (perm_append_comm_assoc _ _ _).append_left _
      _ = localReady ++ (segment :: later).flatMap Prod.snd := by
          rw [← append_assoc, take_append_drop, flatMap_cons]

theorem localReady_sublist_interleave (segs : List (Segment Item)) :
    localReady.Sublist (interleave localTaken localReady segs) := by
  induction segs generalizing localTaken localReady with
  | nil => exact List.Sublist.refl _
  | cons segment _ ih =>
    set due := min (segment.1 - localTaken) localReady.length with isDue
    have rest := ih (localTaken + due) (localReady.drop due)
    have split : localReady = localReady.take due ++ localReady.drop due :=
      (take_append_drop due localReady).symm
    nth_rewrite 1 [split]
    exact (List.Sublist.refl _).append (rest.trans (sublist_append_right _ _))

theorem items_sublist_interleave (segs : List (Segment Item)) :
    (segs.flatMap Prod.snd).Sublist (interleave localTaken localReady segs) := by
  induction segs generalizing localTaken localReady with
  | nil => exact nil_sublist _
  | cons _ _ ih =>
    refine List.Sublist.trans ?_ (sublist_append_right _ _)
    exact (List.Sublist.refl _).append (ih _ _)

theorem localTaken_mergeSegments (items : List Item) (marks : List (Nat × Nat)) :
    (mergeSegments localTaken localReady items marks).localTaken +
        (mergeSegments localTaken localReady items marks).localReady.length =
      localTaken + localReady.length := by
  induction marks generalizing localTaken localReady items with
  | nil => rfl
  | cons _ _ ih =>
    refine (ih _ _ _).trans ?_
    rw [length_drop]
    omega

end Merge

variable {localTaken : Nat} {localReady : List Item} {pending : PendingReady Item}

theorem batch_mergeReadyGeneration (cut : pending.Cut segs) :
    (mergeReadyGeneration localTaken localReady pending).batch =
      interleave localTaken localReady segs := by
  unfold mergeReadyGeneration
  split
  next none =>
    have noItems := List.isEmpty_iff.mp none
    rw [cut.items] at noItems
    exact (interleave_of_no_items localTaken localReady noItems).symm
  · split
    next none =>
      rw [List.isEmpty_iff.mp none, interleave_nil, cut.items]
    · rw [cut.items, cut.marks]
      exact (mergeSegments_marksOf 0 localTaken localReady segs).1

theorem items_mergeReadyGeneration (valid : pending.Valid) :
    (mergeReadyGeneration localTaken localReady pending).items = [] := by
  obtain ⟨segs, cut⟩ := valid.exists_cut
  unfold mergeReadyGeneration
  split
  · rfl
  · split
    · rfl
    · rw [cut.items, cut.marks]
      exact (mergeSegments_marksOf 0 localTaken localReady segs).2

theorem localReady_mergeReadyGeneration :
    (mergeReadyGeneration localTaken localReady pending).localReady = [] := by
  unfold mergeReadyGeneration
  split
  · rfl
  · split <;> rfl

theorem localTaken_mergeReadyGeneration :
    (mergeReadyGeneration localTaken localReady pending).localTaken =
      localTaken + localReady.length := by
  unfold mergeReadyGeneration
  split
  · rfl
  · split
    next none =>
      rw [List.isEmpty_iff.mp none]
      rfl
    · exact localTaken_mergeSegments localTaken localReady pending.items pending.marks

theorem mergeReadyGeneration_perm (valid : pending.Valid) :
    (mergeReadyGeneration localTaken localReady pending).batch.Perm
      (localReady ++ pending.items) := by
  obtain ⟨segs, cut⟩ := valid.exists_cut
  rw [batch_mergeReadyGeneration cut, cut.items]
  exact interleave_perm localTaken localReady segs

theorem items_sublist_mergeReadyGeneration (valid : pending.Valid) :
    pending.items.Sublist
      (mergeReadyGeneration localTaken localReady pending).batch := by
  obtain ⟨segs, cut⟩ := valid.exists_cut
  rw [batch_mergeReadyGeneration cut, cut.items]
  exact items_sublist_interleave localTaken localReady segs

theorem localReady_sublist_mergeReadyGeneration (valid : pending.Valid) :
    localReady.Sublist
      (mergeReadyGeneration localTaken localReady pending).batch := by
  obtain ⟨segs, cut⟩ := valid.exists_cut
  rw [batch_mergeReadyGeneration cut]
  exact localReady_sublist_interleave localTaken localReady segs

/-- What is only in one of two queues keeps its order in any list that holds
both of them. -/
theorem filter_eq_of_perm_of_sublist {first second both : List Item}
    {p : Item → Bool}
    (holdsBoth : both.Perm (first ++ second)) (ordered : first.Sublist both)
    (none : second.filter p = []) : both.filter p = first.filter p := by
  have same : (both.filter p).length = (first.filter p).length := by
    have counted := (holdsBoth.filter p).length_eq
    rwa [filter_append, none, append_nil] at counted
  exact ((ordered.filter p).eq_of_length same.symm).symm

theorem filter_mergeReadyGeneration_of_localReady {p : Item → Bool}
    (valid : pending.Valid)
    (none : localReady.filter p = []) :
    (mergeReadyGeneration localTaken localReady pending).batch.filter p = pending.items.filter p :=
  filter_eq_of_perm_of_sublist ((mergeReadyGeneration_perm valid).trans perm_append_comm)
    (items_sublist_mergeReadyGeneration valid) none

theorem filter_mergeReadyGeneration_of_items {p : Item → Bool}
    (valid : pending.Valid)
    (none : pending.items.filter p = []) :
    (mergeReadyGeneration localTaken localReady pending).batch.filter p = localReady.filter p :=
  filter_eq_of_perm_of_sublist (mergeReadyGeneration_perm valid)
    (localReady_sublist_mergeReadyGeneration valid) none

/-! ## Items that come first -/

/-- All selected items are in the first segment, which no local item from
`localTaken` on precedes. -/
def PendingReady.LeadsWith (p : Item → Bool) (localTaken : Nat)
    (pending : PendingReady Item) : Prop :=
  pending.items.filter p = [] ∨
    ∃ mark later, pending.marks = (0, mark) :: later ∧ mark ≤ localTaken ∧
      (pending.items.drop (segmentLength 0 later pending.items)).filter p = []

variable {p : Item → Bool}

theorem PendingReady.leadsWith_empty :
    (PendingReady.empty : PendingReady Item).LeadsWith p localTaken :=
  .inl rfl

theorem PendingReady.LeadsWith.mono {later : Nat}
    (leads : pending.LeadsWith p localTaken) (grows : localTaken ≤ later) :
    pending.LeadsWith p later := by
  rcases leads with none | ⟨mark, others, marks, before, rest⟩
  · exact .inl none
  · exact .inr ⟨mark, others, marks, Nat.le_trans before grows, rest⟩

theorem filter_drop_append {more : List Item} {len later : Nat}
    (rest : (items.drop len).filter p = []) (others : more.filter p = [])
    (beyond : len ≤ later ∨ items.length ≤ later) : ((items ++ more).drop later).filter p = [] := by
  have fewer : (items.drop later).filter p = [] := by
    rcases beyond with further | whole
    · have dropped : items.drop later = (items.drop len).drop (later - len) := by
        rw [drop_drop]
        congr 1
        omega
      have sublist := (drop_sublist (later - len) (items.drop len)).filter p
      rw [rest, ← dropped] at sublist
      exact sublist_nil.mp sublist
    · rw [drop_eq_nil_of_le whole]
      rfl
  have added : (more.drop (later - items.length)).filter p = [] := by
    have sublist := (drop_sublist (later - items.length) more).filter p
    rw [others] at sublist
    exact sublist_nil.mp sublist
  rw [drop_append, filter_append, fewer, added]
  rfl

section

variable (leads : pending.LeadsWith p localTaken)

include leads

/-- Other items may follow in the same segment or in a new one. -/
theorem PendingReady.LeadsWith.mark {more : List Item}
    (others : more.filter p = [])
    (localMark : Nat) :
    PendingReady.LeadsWith p localTaken
      { pending.mark localMark with items := pending.items ++ more } := by
  rcases leads with none | ⟨mark, later, marks, before, rest⟩
  · refine .inl ?_
    rw [filter_append, none, others]
    rfl
  · have kept : ∀ added : List (Nat × Nat),
        added = [] ∨ added = [(pending.items.length, localMark)] → ((pending.items ++ more).drop
            (segmentLength 0 (later ++ added) (pending.items ++ more))).filter p = [] := by
      intro added isAdded
      refine filter_drop_append rest others ?_
      cases later with
      | cons => exact .inl (Nat.le_refl _)
      | nil =>
        refine .inr ?_
        rcases isAdded with none | one
        · rw [none, append_nil]
          simp [segmentLength]
        · rw [one]
          simp [segmentLength]
    have opened : PendingReady.LeadsWith p localTaken
        { items := pending.items ++ more
          marks := pending.marks ++ [(pending.items.length, localMark)] } := by
      refine .inr ⟨mark, later ++ [(pending.items.length, localMark)], ?_, before,
        kept _ (.inr rfl)⟩
      rw [marks, cons_append]
    have same : PendingReady.LeadsWith p localTaken
        { items := pending.items ++ more, marks := pending.marks } := by
      refine .inr ⟨mark, later, marks, before, ?_⟩
      have unmarked := kept [] (.inl rfl)
      rwa [append_nil] at unmarked
    unfold PendingReady.mark
    split
    · split
      · exact same
      · exact opened
    · exact opened

theorem PendingReady.LeadsWith.push {item : Item} (other : p item = false)
    (localMark : Nat) :
    (pending.push item localMark).LeadsWith p localTaken := by
  refine leads.mark ?_ localMark
  rw [filter_cons_of_neg (by rw [other]; exact Bool.false_ne_true)]
  rfl

theorem PendingReady.LeadsWith.extend (others : items.filter p = [])
    (localMark : Nat) : (pending.extend items localMark).LeadsWith p localTaken := by
  by_cases none : items = []
  · rwa [none, pending.extend_nil]
  · rw [pending.extend_of_ne_nil none]
    exact leads.mark others localMark

end

theorem PendingReady.leadsWith_extend_empty (items : List Item)
    {localMark : Nat}
    (before : localMark ≤ localTaken) :
    ((PendingReady.empty : PendingReady Item).extend items localMark).LeadsWith p localTaken := by
  by_cases none : items = []
  · rw [none, PendingReady.extend_nil]
    exact PendingReady.leadsWith_empty
  · rw [PendingReady.extend_of_ne_nil _ none]
    refine .inr ⟨localMark, [], rfl, before, ?_⟩
    change (items.drop items.length).filter p = []
    rw [drop_length]
    rfl

/-- Items in the first segment come before all local ones. -/
theorem filter_mergeReadyGeneration_of_leadsWith
    (valid : pending.Valid) (leads : pending.LeadsWith p localTaken) :
    (mergeReadyGeneration localTaken localReady pending).batch.filter p =
      pending.items.filter p ++ localReady.filter p := by
  rcases leads with none | ⟨mark, later, marks, before, rest⟩
  · rw [filter_mergeReadyGeneration_of_items valid none, none]
    rfl
  · obtain ⟨segs, cut⟩ := valid.exists_cut
    rw [batch_mergeReadyGeneration cut, cut.items]
    rw [cut.marks] at marks
    cases segs with
    | nil => cases marks
    | cons segment others =>
      cases marks
      have notDue : min (segment.1 - localTaken) localReady.length = 0 := by
        omega
      have behind : (others.flatMap Prod.snd).filter p = [] := by
        have length := segmentLength_marksOf 0 segment others
        rwa [cut.items, flatMap_cons, length, drop_left] at rest
      have locals : (interleave localTaken localReady others).filter p = localReady.filter p :=
        filter_eq_of_perm_of_sublist (interleave_perm localTaken localReady others)
          (localReady_sublist_interleave localTaken localReady others) behind
      simp only [interleave, notDue, take_zero, nil_append,
        Nat.add_zero, drop_zero, filter_append, flatMap_cons,
        locals, behind, append_nil]

end Rsloop.Engine
