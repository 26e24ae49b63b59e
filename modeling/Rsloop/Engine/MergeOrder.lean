import Rsloop.Engine.PendingReady

/-!
# A generation in scheduling order

A queue that is built by pushes and extensions is cut into segments that are not
empty. The items of a generation are labelled with where they come from, so that
equal items stay apart.
-/

namespace Rsloop.Engine

open List

variable {Item : Type}

/-! ## Queues built by pushes and extensions -/

inductive PendingCall (Item : Type) where
  | push (item : Item) (localMark : Nat)
  | extend (items : List Item) (localMark : Nat)
  deriving DecidableEq

def PendingReady.call (pending : PendingReady Item) : PendingCall Item → PendingReady Item
  | .push item localMark => pending.push item localMark
  | .extend items localMark => pending.extend items localMark

def PendingReady.built (calls : List (PendingCall Item)) : PendingReady Item :=
  calls.foldl PendingReady.call PendingReady.empty

/-- The items that a call queues, each with the mark of the call. -/
def PendingCall.stamps : PendingCall Item → List (Nat × Item)
  | .push item localMark => [(localMark, item)]
  | .extend items localMark => items.map (Prod.mk localMark)

/-- The segments that the calls fill: none of them is empty. -/
structure PendingReady.Filled (pending : PendingReady Item)
    (segs : List (Segment Item)) (stamps : List (Nat × Item)) : Prop where
  cut : pending.Cut segs
  nonempty : ∀ segment ∈ segs, segment.2 ≠ []
  stamped : segs.flatMap Segment.stamps = stamps

theorem PendingReady.filled_empty : (PendingReady.empty : PendingReady Item).Filled [] [] where
  cut := ⟨rfl, rfl⟩
  nonempty := fun _ impossible => absurd impossible not_mem_nil
  stamped := rfl

variable {segs : List (Segment Item)}
  {stamps : List (Nat × Item)}
  {pending : PendingReady Item}

section

variable (filled : pending.Filled segs stamps)

include filled

theorem PendingReady.Filled.mark (localMark : Nat) {more : List Item}
    (some : more ≠ []) :
    ∃ next, PendingReady.Filled
      { pending.mark localMark with items := pending.items ++ more } next
      (stamps ++ more.map (Prod.mk localMark)) := by
  obtain ⟨next, cut, opened | ⟨earlier, last, rfl, lengthened⟩⟩ := filled.cut.mark localMark more
  · refine ⟨next, cut, ?_, ?_⟩
    · intro segment mem
      rw [opened] at mem
      rcases mem_append.mp mem with old | new
      · exact filled.nonempty segment old
      · rwa [mem_singleton.mp new]
    · rw [opened, ← filled.stamped]
      simp [Segment.stamps]
  · refine ⟨next, cut, ?_, ?_⟩
    · intro segment mem
      rw [lengthened] at mem
      rcases mem_append.mp mem with old | new
      · exact filled.nonempty segment (mem_append_left _ old)
      · rw [mem_singleton.mp new]
        exact fun none => some (append_eq_nil_iff.mp none).2
    · rw [lengthened, ← filled.stamped]
      simp [Segment.stamps]

theorem PendingReady.Filled.call (call : PendingCall Item) :
    ∃ next, (pending.call call).Filled next (stamps ++ call.stamps) := by
  cases call with
  | push item localMark => exact filled.mark localMark (cons_ne_nil item [])
  | extend items localMark =>
    by_cases none : items = []
    · subst none
      refine ⟨segs, ?_⟩
      change (pending.extend [] localMark).Filled segs (stamps ++ [])
      rwa [pending.extend_nil, append_nil]
    · change ∃ next, (pending.extend items localMark).Filled next _
      rw [pending.extend_of_ne_nil none]
      exact filled.mark localMark none

theorem PendingReady.Filled.calls (calls : List (PendingCall Item)) :
    ∃ next, (calls.foldl PendingReady.call pending).Filled next
      (stamps ++ calls.flatMap PendingCall.stamps) := by
  induction calls generalizing pending segs stamps with
  | nil =>
    rw [flatMap_nil, append_nil]
    exact ⟨segs, filled⟩
  | cons call calls ih =>
    obtain ⟨middle, called⟩ := filled.call call
    rw [flatMap_cons, ← append_assoc]
    exact ih called

end

/-! ## Where the items come from -/

theorem interleave_map {Label : Type} (f : Label → Item) (localTaken : Nat)
    (localReady : List Label) (segs : List (Segment Label)) :
    interleave localTaken (localReady.map f) (segs.map (Prod.map id (List.map f))) =
      (interleave localTaken localReady segs).map f := by
  induction segs generalizing localTaken localReady with
  | nil => rfl
  | cons segment later ih =>
    simp only [map_cons, Prod.map, id_eq, interleave, length_map,
      map_append, map_take, ← map_drop, ih]

/-- The number of a local item or the mark of an off-thread one. -/
inductive Origin where
  | onLoop (number : Nat)
  | offThread (mark : Nat)
  deriving DecidableEq

def numbered (localTaken : Nat) (localReady : List Item) : List (Origin × Item) :=
  (localReady.zipIdx localTaken).map fun entry => (.onLoop entry.2, entry.1)

def marked (stamps : List (Nat × Item)) : List (Origin × Item) :=
  stamps.map fun stamp => (.offThread stamp.1, stamp.2)

def Segment.labelled (segment : Segment Item) : Segment (Origin × Item) :=
  (segment.1, marked segment.stamps)

theorem numbered_append (localTaken : Nat) (earlier later : List Item) :
    numbered localTaken (earlier ++ later) = numbered localTaken earlier ++
        numbered (localTaken + earlier.length) later := by
  simp only [numbered, zipIdx_append, map_append]

theorem length_numbered (localTaken : Nat) (localReady : List Item) :
    (numbered localTaken localReady).length = localReady.length := by
  simp [numbered]

variable {entry : Origin × Item}

theorem of_mem_numbered {localTaken : Nat} {localReady : List Item}
    (mem : entry ∈ numbered localTaken localReady) :
    ∃ number, entry.1 = .onLoop number ∧ localTaken ≤ number ∧
      number < localTaken + localReady.length := by
  obtain ⟨⟨item, number⟩, indexed, rfl⟩ := mem_map.mp mem
  have bounds := mem_zipIdx indexed
  exact ⟨number, rfl, bounds.1, bounds.2.1⟩

theorem of_mem_marked (mem : entry ∈ marked stamps) :
    ∃ stamp ∈ stamps, entry.1 = .offThread stamp.1 := by
  obtain ⟨stamp, stamped, rfl⟩ := mem_map.mp mem
  exact ⟨stamp, stamped, rfl⟩

theorem flatMap_labelled (segs : List (Segment Item)) :
    (segs.map Segment.labelled).flatMap Prod.snd =
      marked (segs.flatMap Segment.stamps) := by
  simp only [flatMap_map, marked, map_flatMap]
  rfl

/-- An entry of the rest of a merge is a local item from `localTaken` on, or it
comes from a later segment. -/
theorem of_mem_interleave {localTaken : Nat} {localReady : List Item}
    (mem : entry ∈ interleave localTaken (numbered localTaken localReady)
      (segs.map Segment.labelled)) :
    (∃ number, entry.1 = .onLoop number ∧ localTaken ≤ number ∧
        number < localTaken + localReady.length) ∨
      ∃ stamp ∈ segs.flatMap Segment.stamps, entry.1 = .offThread stamp.1 := by
  have either := (interleave_perm _ _ _).mem_iff.mp mem
  rw [flatMap_labelled] at either
  exact (mem_append.mp either).imp of_mem_numbered of_mem_marked

/-- One segment of a labelled merge. -/
theorem interleave_labelled (localTaken : Nat) (localReady : List Item)
    (segment : Segment Item) (later : List (Segment Item)) :
    ∃ due, due = min (segment.1 - localTaken) localReady.length ∧
      interleave localTaken (numbered localTaken localReady)
          ((segment :: later).map Segment.labelled) =
        numbered localTaken (localReady.take due) ++ (marked segment.stamps ++
            interleave (localTaken + due) (numbered (localTaken + due) (localReady.drop due))
              (later.map Segment.labelled)) := by
  refine ⟨_, rfl, ?_⟩
  set due := min (segment.1 - localTaken) localReady.length with isDue
  have within : (localReady.take due).length = due := by
    rw [length_take]
    omega
  have split : numbered localTaken localReady = numbered localTaken (localReady.take due) ++
        numbered (localTaken + due) (localReady.drop due) := by
    have appended := numbered_append localTaken (localReady.take due) (localReady.drop due)
    rwa [take_append_drop, within] at appended
  have measured : (numbered localTaken (localReady.take due)).length = due :=
    (length_numbered _ _).trans within
  simp only [map_cons, interleave, Segment.labelled, length_numbered, ← isDue]
  rw [split, take_left' measured, drop_left' measured]

/-! ## The order of a generation -/

/-- Behind an off-thread item no local item has a number below its mark, and
ahead of it, where the marks are sorted, every one has. -/
def InOrder (sorted : Prop) : Origin → Origin → Prop
  | .offThread mark, .onLoop number => mark ≤ number
  | .onLoop number, .offThread mark => sorted → number < mark
  | .onLoop _, .onLoop _ | .offThread _, .offThread _ => True

theorem inOrder_numbered (sorted : Prop) (localTaken : Nat)
    (localReady : List Item) :
    (numbered localTaken localReady).Pairwise
      fun earlier later => InOrder sorted earlier.1 later.1 := by
  refine pairwise_of_forall_mem_list ?_
  intro earlier first later second
  obtain ⟨number, isNumber, -⟩ := of_mem_numbered first
  obtain ⟨number', isNumber', -⟩ := of_mem_numbered second
  rw [isNumber, isNumber']
  trivial

theorem inOrder_marked (sorted : Prop) (stamps : List (Nat × Item)) : (marked stamps).Pairwise
      fun earlier later => InOrder sorted earlier.1 later.1 := by
  refine pairwise_of_forall_mem_list ?_
  intro earlier first later second
  obtain ⟨stamp, -, isMark⟩ := of_mem_marked first
  obtain ⟨stamp', -, isMark'⟩ := of_mem_marked second
  rw [isMark, isMark']
  trivial

theorem inOrder_interleave {sorted : Prop} (localTaken : Nat)
    (localReady : List Item)
    (filled : ∀ segment ∈ segs, segment.2 ≠ [])
    (nondecreasing : sorted → (segs.flatMap Segment.stamps).Pairwise
      fun earlier later => earlier.1 ≤ later.1) :
    (interleave localTaken (numbered localTaken localReady)
      (segs.map Segment.labelled)).Pairwise
        fun earlier later => InOrder sorted earlier.1 later.1 := by
  induction segs generalizing localTaken localReady with
  | nil => exact inOrder_numbered sorted localTaken localReady
  | cons segment later ih =>
    obtain ⟨due, isDue, merged⟩ := interleave_labelled localTaken localReady segment later
    rw [merged]
    refine pairwise_append.mpr ⟨inOrder_numbered _ _ _,
      pairwise_append.mpr ⟨inOrder_marked _ _, ?_, ?_⟩, ?_⟩
    · refine ih _ _ (fun other mem => filled other (mem_cons_of_mem _ mem)) ?_
      intro isSorted
      exact (pairwise_append.mp (nondecreasing isSorted)).2.1
    · intro earlier first later' second
      obtain ⟨stamp, stamped, isMark⟩ := of_mem_marked first
      obtain ⟨item, -, rfl⟩ := mem_map.mp stamped
      rw [isMark]
      rcases of_mem_interleave second with
        ⟨number, isNumber, beyond, below⟩ | ⟨stamp', -, isMark'⟩
      · -- a local item is left only if the mark has been reached
        rw [isNumber]
        rw [length_drop] at below
        change segment.1 ≤ number
        omega
      · rw [isMark']
        trivial
    · intro earlier first later' second
      obtain ⟨number, isNumber, beyond, below⟩ := of_mem_numbered first
      rw [isNumber]
      have belowMark : number < segment.1 := by
        rw [length_take] at below
        omega
      rcases mem_append.mp second with inside | behind
      · obtain ⟨stamp, stamped, isMark⟩ := of_mem_marked inside
        obtain ⟨item, -, rfl⟩ := mem_map.mp stamped
        rw [isMark]
        exact fun _ => belowMark
      · rcases of_mem_interleave behind with
          ⟨number', isNumber', -⟩ | ⟨stamp, stamped, isMark⟩
        · rw [isNumber']
          trivial
        · rw [isMark]
          intro isSorted
          -- the segment holds an item, whose mark the later ones do not undercut
          obtain ⟨item, items, holds⟩ :=
            exists_cons_of_ne_nil (filled segment mem_cons_self)
          have inSegment : (segment.1, item) ∈ segment.stamps := by
            refine mem_map.mpr ⟨item, ?_, rfl⟩
            rw [holds]
            exact mem_cons_self
          have least := (pairwise_append.mp (nondecreasing isSorted)).2.2
            (segment.1, item) inSegment stamp stamped
          exact Nat.lt_of_lt_of_le belowMark least

/-! ## Starting a generation -/

/-- What `merge_ready_generation` borrows: the batch it fills, the loop thread's
queue and its count, and the off-thread queue. -/
structure Generation (Item : Type) where
  batch : List Item
  localReady : List Item
  localTaken : Nat
  pending : PendingReady Item
  deriving DecidableEq

/-- The merge in place: the marks are cleared on every path. -/
def startGeneration (localTaken : Nat) (localReady : List Item)
    (pending : PendingReady Item) : Generation Item :=
  let merged := mergeReadyGeneration localTaken localReady pending
  { batch := merged.batch
    localReady := merged.localReady
    localTaken := merged.localTaken
    pending := { items := merged.items, marks := [] } }

/-- A generation, with the origin of each of its items: both queues are in it,
each in its own order; an off-thread item follows the local ones below its
mark, and where the marks do not decrease it precedes all others. -/
theorem startGeneration_schedulingOrder (localTaken : Nat)
    (localReady : List Item) (calls : List (PendingCall Item)) :
    let next := startGeneration localTaken localReady (PendingReady.built calls)
    let stamps := calls.flatMap PendingCall.stamps
    next.localReady = [] ∧ next.pending = PendingReady.empty ∧
      next.localTaken = localTaken + localReady.length ∧
      ∃ batch : List (Origin × Item), batch.map Prod.snd = next.batch ∧
        batch.Perm (numbered localTaken localReady ++ marked stamps) ∧
        (numbered localTaken localReady).Sublist batch ∧
        (marked stamps).Sublist batch ∧
        batch.Pairwise fun earlier later =>
          InOrder (stamps.Pairwise fun earlier later => earlier.1 ≤ later.1) earlier.1 later.1 := by
  have initial : (PendingReady.empty : PendingReady Item).Filled [] [] := PendingReady.filled_empty
  obtain ⟨segs, cut, nonempty, stamped⟩ := initial.calls calls
  refine ⟨localReady_mergeReadyGeneration, ?_, localTaken_mergeReadyGeneration,
    interleave localTaken (numbered localTaken localReady)
      (segs.map Segment.labelled), ?_, ?_, ?_, ?_, ?_⟩
  · exact congrArg (PendingReady.mk · []) (items_mergeReadyGeneration cut.valid)
  · have localItems : (numbered localTaken localReady).map Prod.snd = localReady := by
      simp [numbered, Function.comp_def]
    have segmentItems : (segs.map Segment.labelled).map (Prod.map id (List.map Prod.snd)) =
          segs := by
      simp [Segment.labelled, Segment.stamps, marked, Prod.map, Function.comp_def]
    rw [← interleave_map, localItems, segmentItems]
    exact (batch_mergeReadyGeneration cut).symm
  · have both := interleave_perm localTaken (numbered localTaken localReady)
      (segs.map Segment.labelled)
    rwa [flatMap_labelled, stamped] at both
  · exact localReady_sublist_interleave _ _ _
  · have kept := items_sublist_interleave localTaken
      (numbered localTaken localReady) (segs.map Segment.labelled)
    rwa [flatMap_labelled, stamped] at kept
  · refine inOrder_interleave localTaken localReady nonempty ?_
    rw [stamped]
    exact id

end Rsloop.Engine
