import Mathlib.Data.List.Induction
import Mathlib.Data.List.Nodup
import Rsloop.Connect.CreateConnection

/-!
# The order of interleaved addresses

`__interleave_addrinfos` groups the addresses by family, takes some of the first
family ahead and transposes the groups. What comes out behind those is a
round-robin over the families.
-/

namespace Rsloop.Connect

open List

/-! ## Queues that are served in turn -/

/-- The first queue gives an item and goes to the back; an exhausted one leaves. -/
inductive RoundRobin {Item : Type} : List (List Item) → List Item → Prop where
  | done : RoundRobin [] []
  | skip {q : List (List Item)} {items : List Item} (later : RoundRobin q items) :
      RoundRobin ([] :: q) items
  | take {item : Item} {queue items : List Item} {q : List (List Item)}
      (later : RoundRobin (q ++ [queue]) items) :
      RoundRobin ((item :: queue) :: q) (item :: items)

namespace RoundRobin

variable {Item : Type} {q : List (List Item)} {items : List Item}

theorem perm (served : RoundRobin q items) : items.Perm q.flatten := by
  induction served with
  | done => exact .refl _
  | skip _ ih => exact ih
  | take _ ih =>
    rw [flatten_append, flatten_singleton] at ih
    exact (ih.trans perm_append_comm).cons _

theorem sublist (served : RoundRobin q items) {queue : List Item}
    (mem : queue ∈ q) :
    queue.Sublist items := by
  induction served generalizing queue with
  | done => cases mem
  | skip _ ih =>
    rcases mem_cons.mp mem with rfl | other
    · exact nil_sublist _
    · exact ih other
  | take _ ih =>
    rcases mem_cons.mp mem with rfl | other
    · exact (ih (mem_append_right _ mem_cons_self)).cons_cons _
    · exact (ih (mem_append_left _ other)).cons _

/-- Every queue has had its turn. -/
theorem round (q served : List (List Item))
    (later : RoundRobin (served ++ q.filterMap List.tail?) items) :
    RoundRobin (q ++ served) (q.filterMap List.head? ++ items) := by
  induction q generalizing served with
  | nil =>
    rwa [filterMap_nil, append_nil] at later
  | cons queue _ ih =>
    cases queue with
    | nil => exact .skip (ih served later)
    | cons item queue =>
      have behind := ih (served ++ [queue]) (by rw [append_assoc]; exact later)
      rw [← append_assoc] at behind
      exact .take behind

theorem transposed (length : Nat) (q : List (List Item))
    (bound : ∀ queue ∈ q, queue.length ≤ length) :
    RoundRobin q
      ((List.range length).flatMap fun index => q.filterMap fun queue => queue[index]?) := by
  induction length generalizing q with
  | zero =>
    induction q with
    | nil => exact .done
    | cons queue _ ih =>
      obtain ⟨empty, others⟩ := forall_mem_cons.mp bound
      rw [eq_nil_of_length_eq_zero (Nat.le_zero.mp empty)]
      exact .skip (ih others)
  | succ length ih =>
    have tails : ∀ queue ∈ q.filterMap List.tail?, queue.length ≤ length := by
      intro queue mem
      obtain ⟨whole, listed, tail⟩ := mem_filterMap.mp mem
      cases whole with
      | nil => cases tail
      | cons =>
        cases tail
        exact Nat.le_of_succ_le_succ (bound _ listed)
    have shifted (queue : List Item) (index : Nat) :
        queue[index + 1]? = queue.tail?.bind fun tail => tail[index]? := by
      cases queue <;> rfl
    have served := round q [] (ih _ tails)
    rw [append_nil] at served
    rw [range_succ_eq_map, flatMap_cons, flatMap_map]
    simp only [shifted, ← filterMap_filterMap, ← head?_eq_getElem?]
    exact served

end RoundRobin

theorem length_le_foldl_max {lists : List (List Addrinfo)}
    {list : List Addrinfo}
    (mem : list ∈ lists) (least : Nat) :
    list.length ≤ lists.foldl (fun most list => max most list.length) least := by
  have grows : ∀ (rest : List (List Addrinfo)) (start : Nat),
      start ≤ rest.foldl (fun most list => max most list.length) start := by
    intro rest
    induction rest with
    | nil => exact fun start => Nat.le_refl start
    | cons first rest ih => exact fun start => Nat.le_trans (Nat.le_max_left _ _) (ih _)
  induction lists generalizing least with
  | nil => cases mem
  | cons _ rest ih =>
    cases mem with
    | head => exact Nat.le_trans (Nat.le_max_right _ _) (grows rest _)
    | tail _ later => exact ih later _

/-! ## The groups -/

/-- The families in the order in which they first appear. -/
def families (addrinfos : List Addrinfo) : List Nat :=
  (addrinfos.map Addrinfo.family).eraseDups

def ofFamily (addrinfos : List Addrinfo) (family : Nat) : List Addrinfo :=
  addrinfos.filter fun addrinfo => addrinfo.family = family

variable {addrinfo : Addrinfo} {addrinfos : List Addrinfo}

theorem mem_families {family : Nat} :
    family ∈ families addrinfos ↔ ∃ addrinfo ∈ addrinfos, addrinfo.family = family := by
  rw [families, mem_eraseDups, mem_map]

theorem ofFamily_eq_nil {family : Nat} (absent : family ∉ families addrinfos) :
    ofFamily addrinfos family = [] := by
  rw [ofFamily, filter_eq_nil_iff]
  intro other mem same
  exact absent (mem_families.mpr ⟨other, mem, of_decide_eq_true same⟩)

theorem families_concat (addrinfos : List Addrinfo) (addrinfo : Addrinfo) :
    families (addrinfos ++ [addrinfo]) =
      if addrinfo.family ∈ families addrinfos then families addrinfos
      else families addrinfos ++ [addrinfo.family] := by
  rw [families, map_append, eraseDups_append]
  split
  next old => simp_all [families, List.removeAll]
  next new => simp_all [families, List.removeAll, eraseDups_cons]

theorem nodup_families (addrinfos : List Addrinfo) : (families addrinfos).Nodup := by
  induction addrinfos using List.reverseRecOn with
  | nil => exact nodup_nil
  | append_singleton addrinfos addrinfo ih =>
    rw [families_concat]
    split
    · exact ih
    next new => exact nodup_append.mpr ⟨ih, nodup_singleton _, by grind⟩

theorem ofFamily_concat (addrinfos : List Addrinfo) (addrinfo : Addrinfo)
    (family : Nat) :
    ofFamily (addrinfos ++ [addrinfo]) family =
      ofFamily addrinfos family ++ if addrinfo.family = family then [addrinfo] else [] := by
  rw [ofFamily, filter_append, filter_singleton, Bool.cond_decide]
  rfl

theorem insertGroup_map {families : List Nat} {group : Nat → List Addrinfo}
    (nodup : families.Nodup)
    (new : addrinfo.family ∉ families → group addrinfo.family = []) :
    insertGroup addrinfo (families.map fun family => (family, group family)) =
      (if addrinfo.family ∈ families then families else families ++ [addrinfo.family]).map
        fun family =>
          (family, group family ++ if addrinfo.family = family then [addrinfo] else []) := by
  induction families with
  | nil => simp [insertGroup, new]
  | cons family rest ih =>
    obtain ⟨apart, nodup⟩ := nodup_cons.mp nodup
    rw [map_cons, insertGroup]
    by_cases same : family = addrinfo.family
    · subst same
      rw [if_pos rfl, if_pos mem_cons_self, map_cons, if_pos rfl]
      refine congrArg _ (map_congr_left fun other mem => ?_)
      have other : addrinfo.family ≠ other := fun equal => apart (equal ▸ mem)
      rw [if_neg other, append_nil]
    · rw [if_neg same, ih nodup (fun absent => new (by simp [absent, Ne.symm same]))]
      by_cases old : addrinfo.family ∈ rest <;> simp [old, Ne.symm same]

theorem groupByFamily_eq (addrinfos : List Addrinfo) :
    groupByFamily addrinfos = (families addrinfos).map (ofFamily addrinfos) := by
  have grouped : addrinfos.foldl (fun groups addrinfo => insertGroup addrinfo groups) [] =
      (families addrinfos).map fun family => (family, ofFamily addrinfos family) := by
    induction addrinfos using List.reverseRecOn with
    | nil => rfl
    | append_singleton addrinfos addrinfo ih =>
      rw [foldl_concat, ih, insertGroup_map (nodup_families _), families_concat]
      · simp only [ofFamily_concat]
      · exact ofFamily_eq_nil
  rw [groupByFamily, grouped, map_map]
  rfl

theorem insertGroup_perm (addrinfo : Addrinfo)
    (groups : List (Nat × List Addrinfo)) :
    ((insertGroup addrinfo groups).map Prod.snd).flatten.Perm
      (addrinfo :: (groups.map Prod.snd).flatten) := by
  induction groups with
  | nil => exact .refl _
  | cons group _ ih =>
    rw [insertGroup]
    split
    · rw [map_cons, flatten_cons, append_assoc]
      exact perm_middle
    · exact (ih.append_left _).trans perm_middle

theorem groupByFamily_perm (addrinfos : List Addrinfo) :
    (groupByFamily addrinfos).flatten.Perm addrinfos := by
  induction addrinfos using List.reverseRecOn with
  | nil => exact .refl _
  | append_singleton addrinfos addrinfo ih =>
    rw [groupByFamily, foldl_concat]
    exact (insertGroup_perm _ _).trans ((ih.cons _).trans (perm_append_singleton _ _).symm)

/-! ## The interleaving -/

theorem interleaveAddrinfos_served (addrinfos : List Addrinfo) (count : Int) :
    ∃ served, interleaveAddrinfos addrinfos count =
        ((groupByFamily addrinfos).headD []).take (count - 1).toNat ++ served ∧
      RoundRobin ((groupByFamily addrinfos).modifyHead (List.drop (count - 1).toNat)) served := by
  rw [interleaveAddrinfos]
  cases groupByFamily addrinfos with
  | nil => exact ⟨[], by simp, .done⟩
  | cons first others =>
    refine ⟨zipLongest (first.drop (count - 1).toNat :: others), ?_,
      .transposed _ _ fun list mem => length_le_foldl_max mem 0⟩
    by_cases ahead : 1 < count
    · simp only [if_pos ahead, headD_cons]
    · have none : (count - 1).toNat = 0 := by omega
      simp only [if_neg ahead, none, take_zero, drop_zero, nil_append]

theorem perm_interleaveAddrinfos (addrinfos : List Addrinfo) (count : Int) :
    (interleaveAddrinfos addrinfos count).Perm addrinfos := by
  obtain ⟨served, equal, turns⟩ := interleaveAddrinfos_served addrinfos count
  rw [equal]
  refine (turns.perm.append_left _).trans (.trans (.of_eq ?_) (groupByFamily_perm addrinfos))
  cases groupByFamily addrinfos with
  | nil => simp
  | cons =>
    rw [modifyHead_cons, flatten_cons, headD_cons, ← append_assoc,
      take_append_drop, flatten_cons]

theorem sublist_interleaveAddrinfos {group : List Addrinfo} (count : Int)
    (mem : group ∈ groupByFamily addrinfos) :
    group.Sublist (interleaveAddrinfos addrinfos count) := by
  obtain ⟨served, equal, turns⟩ := interleaveAddrinfos_served addrinfos count
  rw [equal]
  cases groups : groupByFamily addrinfos with
  | nil => simp [groups] at mem
  | cons first =>
    rw [groups] at mem turns
    rcases mem_cons.mp mem with rfl | other
    · have whole := (List.Sublist.refl (group.take (count - 1).toNat)).append
        (turns.sublist mem_cons_self)
      rwa [take_append_drop] at whole
    · exact (turns.sublist (mem_cons_of_mem _ other)).trans (sublist_append_right _ _)

theorem ofFamily_interleaveAddrinfos (addrinfos : List Addrinfo) (count : Int)
    (family : Nat) :
    ofFamily (interleaveAddrinfos addrinfos count) family = ofFamily addrinfos family := by
  have inOrder : (ofFamily addrinfos family).Sublist (interleaveAddrinfos addrinfos count) := by
    by_cases appears : family ∈ families addrinfos
    · apply sublist_interleaveAddrinfos
      rw [groupByFamily_eq]
      exact mem_map_of_mem appears
    · rw [ofFamily_eq_nil appears]
      exact nil_sublist _
  have kept := inOrder.filter fun addrinfo => addrinfo.family = family
  rw [ofFamily, filter_filter] at kept
  simp only [Bool.and_self] at kept
  have all := (perm_interleaveAddrinfos addrinfos count).filter fun addrinfo =>
    addrinfo.family = family
  exact (kept.eq_of_length all.length_eq.symm).symm

/-- The interleaved addresses are those of the list, in their order within each
family. Those of the first family that go ahead come first, and behind them the
families, in the order in which they first appear, take turns until they are
exhausted. -/
theorem interleaveAddrinfos_roundRobin (addrinfos : List Addrinfo) (count : Int) :
    let result := interleaveAddrinfos addrinfos count
    let groups := (families addrinfos).map (ofFamily addrinfos)
    result.Perm addrinfos ∧
      (∀ family, ofFamily result family = ofFamily addrinfos family) ∧
      (families addrinfos).head? = addrinfos.head?.map Addrinfo.family ∧
      ∃ ahead served, result = ahead ++ served ∧ ahead <+: groups.headD [] ∧
        ahead.length = min (count - 1).toNat (groups.headD []).length ∧
        RoundRobin (groups.modifyHead (List.drop (count - 1).toNat)) served := by
  obtain ⟨served, equal, turns⟩ := interleaveAddrinfos_served addrinfos count
  rw [groupByFamily_eq] at equal turns
  refine ⟨perm_interleaveAddrinfos addrinfos count, ofFamily_interleaveAddrinfos addrinfos count,
    ?_, _, served, equal, take_prefix _ _, length_take, turns⟩
  cases addrinfos with
  | nil => rfl
  | cons =>
    rw [families, map_cons, eraseDups_cons]
    rfl

end Rsloop.Connect
