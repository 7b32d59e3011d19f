/-
This file groups a list by a key into an ordered map, the way programs collect
records before they treat each group on its own: every record is pushed to the back
of the list stored under its key.

The groups partition the list. Reading them back in key order is therefore a
permutation of the list, and gives the list itself when it was sorted by key.
-/

import MidenClient.Library.OrderedMap

namespace Grouping

open Std (ExtTreeMap)
open scoped OrderedMap

variable {α : Type*} {κ : Type*} [LinearOrder κ]

/-- Pushes every item to the back of the group of its key. -/
def groupBy (key : α → κ) (items : List α) : ExtTreeMap κ (List α) :=
  items.foldl (fun groups item =>
    groups.alter (key item) fun group => some (group.getD [] ++ [item])) ∅

theorem getElem?_groupBy (key : α → κ) (items : List α) (k : κ) :
    (groupBy key items)[k]? =
      if items.filter (fun item => key item = k) = [] then none
      else some (items.filter fun item => key item = k) := by
  induction items using List.reverseRecOn with
  | nil => simp [groupBy]
  | append_singleton items item inductionHypothesis =>
    unfold groupBy at inductionHypothesis ⊢
    rw [List.foldl_append, List.foldl_cons, List.foldl_nil, ExtTreeMap.getElem?_alter,
      List.filter_append, List.filter_singleton]
    by_cases same : key item = k
    · subst same
      rw [inductionHypothesis]
      by_cases empty : items.filter (fun other => key other = key item) = []
      · simp [empty]
      · simp [empty]
    · rw [if_neg (by rwa [Std.compare_eq_iff_eq]), inductionHypothesis]
      simp [same]

/-- The keys of the groups, in order. -/
def groupKeys (key : α → κ) (items : List α) : List κ :=
  (groupBy key items).toList.map Prod.fst

theorem pairwise_lt_groupKeys (key : α → κ) (items : List α) :
    (groupKeys key items).Pairwise (· < ·) :=
  List.pairwise_map.mpr (OrderedMap.pairwise_lt_toList _)

theorem mem_groupKeys_iff (key : α → κ) (items : List α) (k : κ) :
    k ∈ groupKeys key items ↔ ∃ item ∈ items, key item = k := by
  simp only [groupKeys, List.mem_map, Prod.exists, exists_and_right, exists_eq_right,
    ExtTreeMap.mem_toList_iff_getElem?_eq_some, getElem?_groupBy]
  constructor
  · rintro ⟨group, found⟩
    by_contra none
    push Not at none
    rw [if_pos (List.filter_eq_nil_iff.mpr (by simpa using none))] at found
    cases found
  · rintro ⟨item, member, same⟩
    refine ⟨items.filter fun item => key item = k, if_neg ?_⟩
    intro empty
    have dropped := List.filter_eq_nil_iff.mp empty item member
    exact dropped (decide_eq_true same)

/-- Each group holds the items of its key, in the order of the list. -/
theorem toList_groupBy (key : α → κ) (items : List α) :
    (groupBy key items).toList =
      (groupKeys key items).map fun k => (k, items.filter fun item => key item = k) := by
  rw [groupKeys, List.map_map]
  refine (List.map_id _).symm.trans (List.map_congr_left ?_)
  rintro ⟨k, group⟩ listed
  have found := ExtTreeMap.mem_toList_iff_getElem?_eq_some.mp listed
  rw [getElem?_groupBy] at found
  split at found
  · cases found
  · rw [Function.comp_apply, Option.some.inj found]
    rfl

/-- A list with one key is one group. -/
theorem toList_groupBy_of_key (key : α → κ) (items : List α) (k : κ) (nonempty : items ≠ [])
    (same : ∀ item ∈ items, key item = k) : (groupBy key items).toList = [(k, items)] := by
  have only : ∀ other ∈ groupKeys key items, other = k := by
    intro other member
    obtain ⟨item, listed, rfl⟩ := (mem_groupKeys_iff key items other).mp member
    exact same item listed
  have keys : groupKeys key items = [k] := by
    obtain ⟨item, listed⟩ := List.exists_mem_of_ne_nil items nonempty
    have present := (mem_groupKeys_iff key items k).mpr ⟨item, listed, same item listed⟩
    have rising := pairwise_lt_groupKeys key items
    match groupKeys key items, only, present, rising with
    | [first], only, _, _ => rw [only first List.mem_cons_self]
    | first :: second :: rest, only, _, rising =>
      have below := (List.pairwise_cons.mp rising).1 second List.mem_cons_self
      rw [only first List.mem_cons_self,
        only second (List.mem_cons_of_mem first List.mem_cons_self)] at below
      exact absurd below (lt_irrefl k)
  rw [toList_groupBy, keys, List.map_singleton]
  congr 2
  exact List.filter_eq_self.mpr fun item member => decide_eq_true (same item member)

theorem flatMap_filter_ne (key : α → κ) (k : κ) (keys : List κ) (items : List α)
    (fresh : k ∉ keys) :
    (keys.flatMap fun other => items.filter fun item => key item = other) =
      keys.flatMap fun other =>
        (items.filter fun item => key item ≠ k).filter fun item => key item = other := by
  refine List.flatMap_congr ?_
  intro other member
  rw [List.filter_filter]
  refine List.filter_congr ?_
  intro item _
  have different : other ≠ k := fun same => fresh (same ▸ member)
  by_cases same : key item = other
  · simp [same, different]
  · simp [same]

/-- Reading the groups of distinct keys one after the other loses and repeats nothing. -/
theorem flatMap_filter_perm (key : α → κ) (keys : List κ) (items : List α)
    (distinct : keys.Nodup) (covered : ∀ item ∈ items, key item ∈ keys) :
    (keys.flatMap fun k => items.filter fun item => key item = k).Perm items := by
  induction keys generalizing items with
  | nil =>
    have empty : items = [] := List.eq_nil_iff_forall_not_mem.mpr fun item member =>
      (List.not_mem_nil (covered item member)).elim
    rw [empty]
    rfl
  | cons k rest inductionHypothesis =>
    obtain ⟨fresh, others⟩ := List.nodup_cons.mp distinct
    rw [List.flatMap_cons, flatMap_filter_ne key k rest items fresh]
    refine (List.Perm.append_left _ (inductionHypothesis _ others ?_)).trans ?_
    · intro item member
      obtain ⟨listed, different⟩ := List.mem_filter.mp member
      exact (List.mem_cons.mp (covered item listed)).resolve_left (of_decide_eq_true different)
    · simpa using List.filter_append_perm (fun item => decide (key item = k)) items

/-- Of a list sorted by key, the items of the least key come first. -/
theorem filter_append_filter_of_sorted (key : α → κ) (k : κ) (items : List α)
    (sorted : items.Pairwise fun first second => key first ≤ key second)
    (least : ∀ item ∈ items, k ≤ key item) :
    (items.filter (fun item => key item = k) ++ items.filter fun item => key item ≠ k) =
      items := by
  induction items with
  | nil => rfl
  | cons item rest inductionHypothesis =>
    obtain ⟨below, restSorted⟩ := List.pairwise_cons.mp sorted
    have restLeast : ∀ other ∈ rest, k ≤ key other := fun other member =>
      least other (List.mem_cons_of_mem item member)
    by_cases same : key item = k
    · rw [List.filter_cons_of_pos (by simpa using same),
        List.filter_cons_of_neg (by simpa using same), List.cons_append,
        inductionHypothesis restSorted restLeast]
    · have none : ∀ other ∈ item :: rest, key other ≠ k := by
        intro other member
        have above : k < key item := lt_of_le_of_ne (least item List.mem_cons_self) (Ne.symm same)
        rcases List.mem_cons.mp member with rfl | later
        · exact above.ne'
        · exact (above.trans_le (below other later)).ne'
      rw [List.filter_eq_nil_iff.mpr (by simpa using none), List.nil_append,
        List.filter_eq_self.mpr (by simpa using none)]

/-- The groups of a sorted list, read in key order, are the list. -/
theorem flatMap_filter_of_sorted (key : α → κ) (keys : List κ) (items : List α)
    (strict : keys.Pairwise (· < ·)) (covered : ∀ item ∈ items, key item ∈ keys)
    (sorted : items.Pairwise fun first second => key first ≤ key second) :
    (keys.flatMap fun k => items.filter fun item => key item = k) = items := by
  induction keys generalizing items with
  | nil =>
    exact (List.eq_nil_iff_forall_not_mem.mpr fun item member =>
      (List.not_mem_nil (covered item member)).elim).symm
  | cons k rest inductionHypothesis =>
    obtain ⟨below, others⟩ := List.pairwise_cons.mp strict
    rw [List.flatMap_cons, flatMap_filter_ne key k rest items fun member => (below k member).false,
      inductionHypothesis _ others ?_ (sorted.filter _)]
    · refine filter_append_filter_of_sorted key k items sorted ?_
      intro item member
      rcases List.mem_cons.mp (covered item member) with same | later
      · exact same.ge
      · exact (below _ later).le
    · intro item member
      obtain ⟨listed, different⟩ := List.mem_filter.mp member
      exact (List.mem_cons.mp (covered item listed)).resolve_left (of_decide_eq_true different)

/-- Of blocks of items laid out under distinct keys, filtering by one key gives back its block. -/
theorem filter_flatMap_of_key (key : α → κ) (block : κ → List α) (keys : List κ)
    (distinct : keys.Nodup) (keyed : ∀ k, ∀ item ∈ block k, key item = k) (k : κ)
    (absent : k ∉ keys → block k = []) :
    (keys.flatMap block).filter (fun item => key item = k) = block k := by
  induction keys with
  | nil => exact (absent List.not_mem_nil).symm
  | cons first rest inductionHypothesis =>
    obtain ⟨fresh, others⟩ := List.nodup_cons.mp distinct
    rw [List.flatMap_cons, List.filter_append]
    by_cases same : first = k
    · subst same
      have none : ∀ item ∈ rest.flatMap block, ¬decide (key item = first) = true := by
        intro item member
        obtain ⟨other, listed, inBlock⟩ := List.mem_flatMap.mp member
        rw [decide_eq_true_iff, keyed other item inBlock]
        exact fun equal => fresh (equal ▸ listed)
      rw [List.filter_eq_nil_iff.mpr none, List.append_nil, List.filter_eq_self]
      exact fun item member => decide_eq_true (keyed first item member)
    · have none : ∀ item ∈ block first, ¬decide (key item = k) = true := by
        intro item member
        rw [decide_eq_true_iff, keyed first item member]
        exact same
      rw [List.filter_eq_nil_iff.mpr none, List.nil_append]
      refine inductionHypothesis others fun missing => absent ?_
      exact fun member => (List.mem_cons.mp member).elim (fun equal => same equal.symm) missing

/-- The first item of the highest key is the first one whose key is that bound. -/
theorem argmax_eq_find? (key : α → κ) (items : List α) (bound : κ)
    (reached : ∃ item ∈ items, key item = bound) (highest : ∀ item ∈ items, key item ≤ bound) :
    items.argmax key = items.find? fun item => key item = bound := by
  induction items with
  | nil =>
    obtain ⟨item, member, _⟩ := reached
    cases member
  | cons item rest inductionHypothesis =>
    have restHighest : ∀ other ∈ rest, key other ≤ bound := fun other member =>
      highest other (List.mem_cons_of_mem item member)
    rw [List.argmax_cons]
    by_cases same : key item = bound
    · rw [List.find?_cons_of_pos (by simpa using same)]
      cases found : rest.argmax key with
      | none => rfl
      | some other =>
        have below := restHighest other (List.argmax_mem found)
        exact if_neg (by rw [same]; exact below.not_gt)
    · have later : ∃ other ∈ rest, key other = bound := by
        obtain ⟨other, member, equal⟩ := reached
        rcases List.mem_cons.mp member with rfl | member
        · exact absurd equal same
        · exact ⟨other, member, equal⟩
      rw [List.find?_cons_of_neg (by simpa using same), inductionHypothesis later restHighest]
      cases found : rest.find? fun other => key other = bound with
      | none =>
        obtain ⟨other, member, equal⟩ := later
        exact absurd (decide_eq_true equal) (List.find?_eq_none.mp found other member)
      | some other =>
        have equal : key other = bound := by simpa using List.find?_some found
        refine if_pos ?_
        rw [equal]
        exact lt_of_le_of_ne (highest item List.mem_cons_self) same

/-! ### Comparing groups by what they hold -/

section Perm

variable {β : Type*} {ι : Type*}

/-- Groups that each hold part of what they should together hold everything exactly when each
of them does. -/
theorem flatMap_perm_flatMap_iff (part whole : ι → List β) (keys : List ι)
    (included : ∀ key ∈ keys, (part key).Subperm (whole key)) :
    (keys.flatMap part).Perm (keys.flatMap whole) ↔
      ∀ key ∈ keys, (part key).Perm (whole key) := by
  induction keys with
  | nil => simp
  | cons first rest inductionHypothesis =>
    have below := included first List.mem_cons_self
    have later : ∀ key ∈ rest, (part key).Subperm (whole key) := fun key member =>
      included key (List.mem_cons_of_mem first member)
    have length : ∀ keys : List ι, (∀ key ∈ keys, (part key).Subperm (whole key)) →
        (keys.flatMap part).length ≤ (keys.flatMap whole).length := by
      intro keys
      induction keys with
      | nil => simp
      | cons key others othersHypothesis =>
        intro included
        have head := (included key List.mem_cons_self).length_le
        have tail := othersHypothesis fun key member =>
          included key (List.mem_cons_of_mem _ member)
        simp only [List.flatMap_cons, List.length_append]
        omega
    rw [List.forall_mem_cons, ← inductionHypothesis later, List.flatMap_cons, List.flatMap_cons]
    constructor
    · intro together
      have sizes := together.length_eq
      have shorter := below.length_le
      have restShorter := length rest later
      simp only [List.length_append] at sizes
      have head := below.perm_of_length_le (by omega)
      exact ⟨head, (List.perm_append_left_iff _).mp (together.trans (head.symm.append_right _))⟩
    · rintro ⟨head, tail⟩
      exact head.append tail

/-- A part of a list yields everything the list yields exactly when it contains all items
that yield something. -/
theorem flatMap_perm_iff_filter_subperm (yield : α → List β) {part items : List α}
    (included : part.Subperm items) :
    (part.flatMap yield).Perm (items.flatMap yield) ↔
      (items.filter fun item => yield item ≠ []).Subperm part := by
  obtain ⟨rest, split⟩ : ∃ rest, items.Perm (part ++ rest) := by
    obtain ⟨kept, same, sublist⟩ := included
    obtain ⟨rest, split⟩ := sublist.exists_perm_append
    exact ⟨rest, split.trans (same.append_right rest)⟩
  have yields : (items.flatMap yield).Perm (part.flatMap yield ++ rest.flatMap yield) := by
    rw [← List.flatMap_append]
    exact split.flatMap_right yield
  constructor
  · intro together
    have sizes := (together.trans yields).length_eq
    rw [List.length_append] at sizes
    have empty : rest.flatMap yield = [] := List.length_eq_zero_iff.mp (by omega)
    have silent : rest.filter (fun item => yield item ≠ []) = [] := by
      refine List.filter_eq_nil_iff.mpr fun item member => ?_
      simpa using List.flatMap_eq_nil_iff.mp empty item member
    have kept := split.filter fun item => yield item ≠ []
    rw [List.filter_append, silent, List.append_nil] at kept
    exact kept.subperm.trans List.filter_sublist.subperm
  · intro covered
    have counted := covered.countP_le fun item => yield item ≠ []
    rw [List.countP_filter, split.countP_eq, List.countP_append] at counted
    have silent : rest.countP (fun item => yield item ≠ []) = 0 := by
      simp only [Bool.and_self] at counted
      omega
    have empty : rest.flatMap yield = [] := by
      refine List.flatMap_eq_nil_iff.mpr fun item member => ?_
      simpa using List.countP_eq_zero.mp silent item member
    rw [empty, List.append_nil] at yields
    exact yields.symm

end Perm

end Grouping
