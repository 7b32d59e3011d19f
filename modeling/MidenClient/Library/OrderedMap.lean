/-
This file collects facts about ordered maps over a linear order that the standard
library states in another form: a lookup in a map built from a list, and the order
of the entries.

They are stated for any linearly ordered keys, so that the same lemmas serve the
in-memory maps of the client and the keyed tables of its stores.
-/

import Mathlib

namespace OrderedMap

open Std (ExtTreeMap)

/-- Lexicographic keys compare equal only when they are equal. -/
instance lexLawfulEqOrd {α κ : Type*} [Ord α] [Ord κ] [Std.LawfulEqOrd α] [Std.LawfulEqOrd κ] :
    Std.LawfulEqOrd (α ×ₗ κ) where
  compare_self := by simp [Prod.Lex.compare_def, compareLex, compareOn]
  eq_of_compare {first second} same := by
    simp only [Prod.Lex.compare_def, compareLex, compareOn, Ordering.then_eq_eq,
      Std.compare_eq_iff_eq] at same
    exact Prod.ext same.1 same.2

variable {κ : Type*} {ν : Type*} [LinearOrder κ]

/-- The last entry of a list with a given key is the one a map built from it keeps. -/
theorem getElem?_ofList (entries : List (κ × ν)) (key : κ) :
    (ExtTreeMap.ofList entries)[key]? =
      (entries.filter fun entry => entry.1 = key).getLast?.map Prod.snd := by
  induction entries using List.reverseRecOn with
  | nil => simp
  | append_singleton entries entry inductionHypothesis =>
    rw [ExtTreeMap.ofList_eq_foldl] at inductionHypothesis ⊢
    rw [List.foldl_append, List.foldl_cons, List.foldl_nil, ExtTreeMap.getElem?_insert,
      inductionHypothesis, List.filter_append]
    by_cases same : entry.1 = key
    · simp [same]
    · simp [same]

/-- With distinct keys the map holds exactly the entries of the list. -/
theorem getElem?_ofList_eq_some_iff (entries : List (κ × ν))
    (distinct : (entries.map Prod.fst).Nodup) (key : κ) (value : ν) :
    (ExtTreeMap.ofList entries)[key]? = some value ↔ (key, value) ∈ entries := by
  have keys : entries.Pairwise fun first second => ¬compare first.1 second.1 = .eq := by
    refine (List.pairwise_map.mp distinct).imp ?_
    intro first second different
    rwa [Std.compare_eq_iff_eq]
  constructor
  · intro found
    rw [getElem?_ofList] at found
    obtain ⟨entry, last, rfl⟩ := Option.map_eq_some_iff.mp found
    obtain ⟨member, same⟩ := List.mem_filter.mp (List.mem_of_getLast? last)
    rw [← of_decide_eq_true same]
    exact member
  · intro member
    exact ExtTreeMap.getElem?_ofList_of_mem Std.ReflCmp.compare_self keys member

/-- Filtering by the key keeps or drops an entry as a whole. -/
theorem getElem?_filter_key (map : ExtTreeMap κ ν) (kept : κ → Bool) (key : κ) :
    (map.filter fun other _ => kept other)[key]? = if kept key then map[key]? else none := by
  rw [ExtTreeMap.getElem?_filter']
  cases map[key]? with
  | none => simp
  | some value => rw [Option.filter_some]

theorem getElem?_erase_eq_some_iff (map : ExtTreeMap κ ν) (erased key : κ) (value : ν) :
    (map.erase erased)[key]? = some value ↔ erased ≠ key ∧ map[key]? = some value := by
  rw [ExtTreeMap.getElem?_erase]
  by_cases same : erased = key
  · simp [same]
  · simp [same]

/-- Erasing an entry makes the map smaller by one. -/
theorem size_erase_of_getElem? {map : ExtTreeMap κ ν} {key : κ} {value : ν}
    (found : map[key]? = some value) : (map.erase key).size + 1 = map.size := by
  have present : key ∈ map := by
    rw [← ExtTreeMap.isSome_getElem?_iff_mem, found]
    rfl
  have positive : map.size ≠ 0 := by
    intro empty
    rw [ExtTreeMap.eq_empty_iff_size_eq_zero.mpr empty] at found
    simp at found
  rw [ExtTreeMap.size_erase, if_pos (ExtTreeMap.contains_iff_mem.mpr present)]
  omega

/-- The values of a map by rising key. -/
def values (map : ExtTreeMap κ ν) : List ν :=
  map.toList.map Prod.snd

theorem mem_values_iff {map : ExtTreeMap κ ν} {value : ν} :
    value ∈ values map ↔ ∃ key : κ, map[key]? = some value := by
  unfold values
  rw [List.mem_map]
  constructor
  · rintro ⟨entry, member, rfl⟩
    exact ⟨entry.1, ExtTreeMap.mem_toList_iff_getElem?_eq_some.mp member⟩
  · rintro ⟨key, found⟩
    exact ⟨(key, value), ExtTreeMap.mem_toList_iff_getElem?_eq_some.mpr found, rfl⟩

/-- Changing one value is changing the values by their keys. -/
theorem modify_eq_map (map : ExtTreeMap κ ν) (key : κ) (change : ν → ν) :
    map.modify key change = map.map fun other value =>
      if key = other then change value else value := by
  refine ExtTreeMap.ext_getElem? fun other => ?_
  rw [ExtTreeMap.getElem?_modify, ExtTreeMap.getElem?_map]
  by_cases same : key = other
  · simp only [Std.compare_eq_iff_eq, same, if_true]
  · simp only [Std.compare_eq_iff_eq, same, if_false, Option.map_id']

/-- A change that a test and a view do not see does not matter when the first value that passes the
test is viewed. -/
theorem find?_values_map {δ : Type*} {change : κ → ν → ν} {test : ν → Bool} {view : ν → δ}
    (tested : ∀ key value, test (change key value) = test value)
    (viewed : ∀ key value, view (change key value) = view value) (map : ExtTreeMap κ ν) :
    ((values (map.map change)).find? test).map view = ((values map).find? test).map view := by
  unfold values
  rw [ExtTreeMap.toList_map, List.map_map]
  induction map.toList with
  | nil => rfl
  | cons entry rest inductionHypothesis =>
    rw [List.map_cons, List.map_cons, List.find?_cons, List.find?_cons, Function.comp_apply,
      tested entry.1 entry.2]
    cases test entry.2 with
    | true => exact congrArg some (viewed entry.1 entry.2)
    | false => exact inductionHypothesis

/-- The entries of a map are listed by strictly rising key. -/
theorem pairwise_lt_toList (map : ExtTreeMap κ ν) :
    map.toList.Pairwise fun first second => first.1 < second.1 :=
  map.ordered_keys_toList.imp fun before => compare_lt_iff_lt.mp before

theorem nodup_toList (map : ExtTreeMap κ ν) : map.toList.Nodup := by
  refine (pairwise_lt_toList map).imp ?_
  rintro first second below rfl
  exact lt_irrefl _ below

/-- A map with the entries of a rising list has them in this order. -/
theorem toList_eq_of_getElem?_iff {map : ExtTreeMap κ ν} {entries : List (κ × ν)}
    (rising : entries.Pairwise fun first second => first.1 < second.1)
    (same : ∀ (key : κ) (value : ν), map[key]? = some value ↔ (key, value) ∈ entries) :
    map.toList = entries := by
  have distinct : entries.Nodup := by
    refine rising.imp ?_
    rintro first second below rfl
    exact lt_irrefl _ below
  have listed : map.toList.Perm entries := by
    refine (List.perm_ext_iff_of_nodup (nodup_toList map) distinct).mpr fun entry => ?_
    exact ExtTreeMap.mem_toList_iff_getElem?_eq_some.trans (same entry.1 entry.2)
  refine listed.eq_of_pairwise (fun first second _ _ below above => ?_) (pairwise_lt_toList map)
    rising
  exact absurd below (lt_asymm above)

/-- A map with an entry lists it and the entries of the map without its key. -/
theorem toList_perm_of_getElem? {map : ExtTreeMap κ ν} {key : κ} {value : ν}
    (found : map[key]? = some value) :
    map.toList.Perm ((key, value) :: (map.erase key).toList) := by
  refine (List.perm_ext_iff_of_nodup (nodup_toList map) ?_).mpr fun entry => ?_
  · refine List.nodup_cons.mpr ⟨fun listed => ?_, nodup_toList _⟩
    have kept := ExtTreeMap.mem_toList_iff_getElem?_eq_some.mp listed
    exact ((getElem?_erase_eq_some_iff map key key value).mp kept).1 rfl
  · rw [List.mem_cons, ExtTreeMap.mem_toList_iff_getElem?_eq_some,
      ExtTreeMap.mem_toList_iff_getElem?_eq_some, getElem?_erase_eq_some_iff]
    constructor
    · intro stored
      by_cases same : key = entry.1
      · rw [← same, found] at stored
        exact Or.inl (Prod.ext same.symm (Option.some.inj stored).symm)
      · exact Or.inr ⟨same, stored⟩
    · rintro (rfl | ⟨-, stored⟩)
      · exact found
      · exact stored

/-- Inserting lists the new entry and the entries of the map without its key. -/
theorem toList_insert_perm (map : ExtTreeMap κ ν) (key : κ) (value : ν) :
    (map.insert key value).toList.Perm ((key, value) :: (map.erase key).toList) := by
  have same : (map.insert key value).erase key = map.erase key := by
    refine ExtTreeMap.ext_getElem? fun other => ?_
    rw [ExtTreeMap.getElem?_erase, ExtTreeMap.getElem?_erase, ExtTreeMap.getElem?_insert]
    split <;> rfl
  rw [← same]
  exact toList_perm_of_getElem? ExtTreeMap.getElem?_insert_self

theorem erase_of_getElem?_eq_none {map : ExtTreeMap κ ν} {key : κ} (absent : map[key]? = none) :
    map.erase key = map := by
  refine ExtTreeMap.ext_getElem? fun other => ?_
  rw [ExtTreeMap.getElem?_erase]
  by_cases same : key = other
  · rw [← same, absent, if_pos Std.ReflCmp.compare_self]
  · rw [if_neg (by rwa [Std.compare_eq_iff_eq])]

/-- Writing the value that is there already changes nothing. -/
theorem insert_of_getElem? {map : ExtTreeMap κ ν} {key : κ} {value : ν}
    (found : map[key]? = some value) : map.insert key value = map := by
  refine ExtTreeMap.ext_getElem? fun other => ?_
  rw [ExtTreeMap.getElem?_insert]
  by_cases same : key = other
  · rw [← same, found, if_pos Std.ReflCmp.compare_self]
  · rw [if_neg (by rwa [Std.compare_eq_iff_eq])]

/-! ### Sums over the values -/

/-- The sum of the weights of all values. -/
def total (weight : ν → ℕ) (map : ExtTreeMap κ ν) : ℕ :=
  (map.toList.map fun entry => weight entry.2).sum

/-- The sum is the weight of one key, if it is there, and the sum without it. -/
theorem total_eq_add_erase (weight : ν → ℕ) (map : ExtTreeMap κ ν) (key : κ) :
    total weight map = (map[key]?).elim 0 weight + total weight (map.erase key) := by
  rcases found : map[key]? with _ | value
  · rw [erase_of_getElem?_eq_none found]
    exact (zero_add _).symm
  · have listed := (toList_perm_of_getElem? found).map fun entry : κ × ν => weight entry.2
    exact listed.sum_eq

/-- Maps that agree away from a key are the same without it. -/
theorem erase_congr {first second : ExtTreeMap κ ν} {key : κ}
    (agree : ∀ other, key ≠ other → first[other]? = second[other]?) :
    first.erase key = second.erase key := by
  refine ExtTreeMap.ext_getElem? fun other => ?_
  rw [ExtTreeMap.getElem?_erase, ExtTreeMap.getElem?_erase]
  by_cases same : key = other
  · rw [if_pos (Std.compare_eq_iff_eq.mpr same), if_pos (Std.compare_eq_iff_eq.mpr same)]
  · rw [agree other same]

theorem total_erase_le (weight : ν → ℕ) (map : ExtTreeMap κ ν) (key : κ) :
    total weight (map.erase key) ≤ total weight map := by
  rw [total_eq_add_erase weight map key]
  exact Nat.le_add_left _ _

theorem total_insert_le (weight : ν → ℕ) (map : ExtTreeMap κ ν) (key : κ) (value : ν) :
    total weight (map.insert key value) ≤ weight value + total weight map := by
  have same : (map.insert key value).erase key = map.erase key := by
    refine erase_congr fun other different => ?_
    rw [ExtTreeMap.getElem?_insert, if_neg (by rwa [Std.compare_eq_iff_eq])]
  rw [total_eq_add_erase weight _ key, ExtTreeMap.getElem?_insert_self, same]
  exact Nat.add_le_add_left (total_erase_le weight map key) _

theorem total_filter_le (weight : ν → ℕ) (map : ExtTreeMap κ ν) (kept : κ → ν → Bool) :
    total weight (map.filter kept) ≤ total weight map := by
  unfold total
  rw [ExtTreeMap.toList_filter]
  exact (List.filter_sublist.map fun entry : κ × ν => weight entry.2).sum_le_sum
    fun _ _ => Nat.zero_le _

/-- A value that is filtered out is missing in the sum. -/
theorem total_filter_add_le (weight : ν → ℕ) (kept : κ → ν → Bool) {map : ExtTreeMap κ ν}
    {key : κ} {value : ν} (found : map[key]? = some value) (gone : kept key value = false) :
    total weight (map.filter kept) + weight value ≤ total weight map := by
  have absent : (map.filter kept)[key]? = none := by
    rw [ExtTreeMap.getElem?_filter', found, Option.filter_some, gone]
    rfl
  have same : map.filter kept = (map.erase key).filter kept := by
    refine ExtTreeMap.ext_getElem? fun other => ?_
    rw [ExtTreeMap.getElem?_filter', ExtTreeMap.getElem?_filter', ExtTreeMap.getElem?_erase]
    by_cases equal : key = other
    · subst equal
      rw [if_pos Std.ReflCmp.compare_self, found, Option.filter_some, gone]
      rfl
    · rw [if_neg (by rwa [Std.compare_eq_iff_eq])]
  rw [total_eq_add_erase weight map key, found, same, Nat.add_comm]
  exact Nat.add_le_add_left (total_filter_le weight _ kept) _

/-! ### Writing a list of entries -/

/-- Writes the entries one after the other; the last one of a key counts. -/
def insertAll (map : ExtTreeMap κ ν) (entries : List (κ × ν)) : ExtTreeMap κ ν :=
  entries.foldl (fun written entry => written.insert entry.1 entry.2) map

/-- Writes the entries of keys that are not there yet; the first one of a key counts. -/
def insertMissing (map : ExtTreeMap κ ν) (entries : List (κ × ν)) : ExtTreeMap κ ν :=
  entries.foldl (fun written entry => written.insertIfNew entry.1 entry.2) map

theorem insertAll_eq_some {map : ExtTreeMap κ ν} {entries : List (κ × ν)} {key : κ} {value : ν}
    (found : (insertAll map entries)[key]? = some value) :
    map[key]? = some value ∨ (key, value) ∈ entries := by
  unfold insertAll at found
  induction entries generalizing map with
  | nil => exact Or.inl found
  | cons entry rest inductionHypothesis =>
    rcases inductionHypothesis found with before | later
    · rw [ExtTreeMap.getElem?_insert] at before
      split at before
      · rename_i same
        cases before
        rw [← Std.compare_eq_iff_eq.mp same]
        exact Or.inr List.mem_cons_self
      · exact Or.inl before
    · exact Or.inr (List.mem_cons_of_mem entry later)

/-- Where the entries of one key agree, each of them can be read back. -/
theorem insertAll_of_mem {map : ExtTreeMap κ ν} {entries : List (κ × ν)}
    (agree : ∀ first ∈ entries, ∀ second ∈ entries, first.1 = second.1 → first = second)
    {entry : κ × ν} (member : entry ∈ entries) :
    (insertAll map entries)[entry.1]? = some entry.2 := by
  induction entries using List.reverseRecOn with
  | nil => exact absurd member List.not_mem_nil
  | append_singleton rest last inductionHypothesis =>
    unfold insertAll
    rw [List.foldl_append, List.foldl_cons, List.foldl_nil, ExtTreeMap.getElem?_insert]
    by_cases same : last.1 = entry.1
    · rw [if_pos (Std.compare_eq_iff_eq.mpr same), agree last (by simp) entry member same]
    · rw [if_neg (by rwa [Std.compare_eq_iff_eq])]
      refine inductionHypothesis (fun first left second right =>
        agree first (List.mem_append_left _ left) second (List.mem_append_left _ right)) ?_
      rcases List.mem_append.mp member with early | late
      · exact early
      · rw [List.mem_singleton.mp late] at same
        exact absurd rfl same

/-- A map that is made of entries has just these, when no two of them differ under one key. -/
theorem insertAll_empty_eq_some_iff {entries : List (κ × ν)}
    (agree : ∀ first ∈ entries, ∀ second ∈ entries, first.1 = second.1 → first = second)
    {key : κ} {value : ν} :
    (insertAll ∅ entries)[key]? = some value ↔ (key, value) ∈ entries := by
  refine ⟨fun found => ?_, fun member => insertAll_of_mem agree member⟩
  refine (insertAll_eq_some found).resolve_left fun absent => ?_
  rw [ExtTreeMap.getElem?_empty] at absent
  cases absent

/-- The keys that are there after some entries are written. -/
theorem isSome_insertAll {map : ExtTreeMap κ ν} {entries : List (κ × ν)} {key : κ} :
    ((insertAll map entries)[key]?).isSome = true ↔
      (map[key]?).isSome = true ∨ key ∈ entries.map Prod.fst := by
  unfold insertAll
  induction entries generalizing map with
  | nil => simp
  | cons entry rest inductionHypothesis =>
    rw [List.foldl_cons, inductionHypothesis, ExtTreeMap.getElem?_insert, List.map_cons,
      List.mem_cons]
    by_cases same : entry.1 = key
    · simp [same]
    · rw [if_neg (by rwa [Std.compare_eq_iff_eq])]
      constructor
      · rintro (before | later)
        · exact Or.inl before
        · exact Or.inr (Or.inr later)
      · rintro (before | here | later)
        · exact Or.inl before
        · exact absurd here.symm same
        · exact Or.inr later

/-- The last entry of a key counts. -/
theorem getElem?_insertAll (map : ExtTreeMap κ ν) (entries : List (κ × ν)) (key : κ) :
    (insertAll map entries)[key]? =
      ((entries.reverse.find? fun entry => entry.1 = key).map Prod.snd).or map[key]? := by
  induction entries using List.reverseRecOn with
  | nil => rfl
  | append_singleton rest last inductionHypothesis =>
    unfold insertAll
    rw [List.foldl_append, List.foldl_cons, List.foldl_nil, ExtTreeMap.getElem?_insert,
      List.reverse_concat, List.find?_cons]
    by_cases same : last.1 = key
    · rw [if_pos (Std.compare_eq_iff_eq.mpr same), decide_eq_true same]
      rfl
    · rw [if_neg (by rwa [Std.compare_eq_iff_eq]), decide_eq_false same]
      exact inductionHypothesis

/-- The entries of another map come first. -/
theorem getElem?_insertAll_toList (map other : ExtTreeMap κ ν) (key : κ) :
    (insertAll map other.toList)[key]? = other[key]?.or map[key]? := by
  rw [getElem?_insertAll]
  congr 1
  cases found : other.toList.reverse.find? fun entry => entry.1 = key with
  | some entry =>
    have selected := List.find?_some found
    have same : entry.1 = key := of_decide_eq_true selected
    have listed : entry ∈ other.toList := List.mem_reverse.mp (List.mem_of_find?_eq_some found)
    rw [← same]
    exact (ExtTreeMap.mem_toList_iff_getElem?_eq_some.mp listed).symm
  | none =>
    cases held : other[key]? with
    | none => rfl
    | some value =>
      have listed := ExtTreeMap.mem_toList_iff_getElem?_eq_some.mpr held
      exact absurd (decide_eq_true rfl)
        (List.find?_eq_none.mp found (key, value) (List.mem_reverse.mpr listed))

/-- Writing the entries of a map over it changes nothing. -/
theorem insertAll_toList (map : ExtTreeMap κ ν) : insertAll map map.toList = map := by
  have stored : ∀ {key : κ} {value : ν}, (key, value) ∈ map.toList → map[key]? = some value :=
    fun listed => ExtTreeMap.mem_toList_iff_getElem?_eq_some.mp listed
  refine ExtTreeMap.ext_getElem? fun key => Option.ext fun value =>
    ⟨fun found => ?_, fun held => ?_⟩
  · rcases insertAll_eq_some found with before | listed
    · exact before
    · exact stored listed
  · have listed := ExtTreeMap.mem_toList_iff_getElem?_eq_some.mpr held
    refine insertAll_of_mem (fun first inFirst second inSecond same => ?_) listed
    have firstHeld := stored inFirst
    rw [same, stored inSecond] at firstHeld
    exact Prod.ext same (Option.some.inj firstHeld).symm

theorem insertMissing_eq_some {map : ExtTreeMap κ ν} {entries : List (κ × ν)} {key : κ}
    {value : ν} (found : (insertMissing map entries)[key]? = some value) :
    map[key]? = some value ∨ (key, value) ∈ entries := by
  unfold insertMissing at found
  induction entries generalizing map with
  | nil => exact Or.inl found
  | cons entry rest inductionHypothesis =>
    rcases inductionHypothesis found with before | later
    · rw [ExtTreeMap.getElem?_insertIfNew] at before
      split at before
      · rename_i same
        cases before
        rw [← Std.compare_eq_iff_eq.mp same.1]
        exact Or.inr List.mem_cons_self
      · exact Or.inl before
    · exact Or.inr (List.mem_cons_of_mem entry later)

theorem insertMissing_of_getElem? {map : ExtTreeMap κ ν} (entries : List (κ × ν)) {key : κ}
    {value : ν} (found : map[key]? = some value) :
    (insertMissing map entries)[key]? = some value := by
  unfold insertMissing
  induction entries generalizing map with
  | nil => exact found
  | cons entry rest inductionHypothesis =>
    refine inductionHypothesis ?_
    rw [ExtTreeMap.getElem?_insertIfNew, if_neg, found]
    rintro ⟨same, absent⟩
    rw [Std.compare_eq_iff_eq.mp same, ← ExtTreeMap.isSome_getElem?_iff_mem, found] at absent
    exact absent rfl

theorem insertMissing_isSome {map : ExtTreeMap κ ν} {entries : List (κ × ν)} {entry : κ × ν}
    (member : entry ∈ entries) : ((insertMissing map entries)[entry.1]?).isSome = true := by
  unfold insertMissing
  induction entries generalizing map with
  | nil => exact absurd member List.not_mem_nil
  | cons first rest inductionHypothesis =>
    rcases List.mem_cons.mp member with rfl | later
    · have written : ((map.insertIfNew entry.1 entry.2)[entry.1]?).isSome = true := by
        rw [ExtTreeMap.isSome_getElem?_iff_mem]
        exact ExtTreeMap.mem_insertIfNew_self
      obtain ⟨value, found⟩ := Option.isSome_iff_exists.mp written
      have kept := insertMissing_of_getElem? rest found
      unfold insertMissing at kept
      rw [List.foldl_cons, kept]
      rfl
    · exact inductionHypothesis later

/-- A map is put together again from its entries. -/
theorem insertMissing_toList (map : ExtTreeMap κ ν) : insertMissing ∅ map.toList = map := by
  refine ExtTreeMap.ext_getElem? fun key => Option.ext fun value => ?_
  have stored : ∀ {found : ν}, (insertMissing ∅ map.toList)[key]? = some found →
      map[key]? = some found := by
    intro found read
    rcases insertMissing_eq_some read with absent | listed
    · simp at absent
    · exact ExtTreeMap.mem_toList_iff_getElem?_eq_some.mp listed
  refine ⟨stored, fun held => ?_⟩
  have listed : (key, value) ∈ map.toList := ExtTreeMap.mem_toList_iff_getElem?_eq_some.mpr held
  have present : ((insertMissing (∅ : ExtTreeMap κ ν) map.toList)[key]?).isSome = true :=
    insertMissing_isSome listed
  obtain ⟨found, read⟩ := Option.isSome_iff_exists.mp present
  rw [read, ← held, stored read]

/-! ### Folds that touch one key at a time -/

/-- Operations that each touch one key, a different one each, leave at a key what the operation of
that key makes of it. -/
theorem getElem?_foldl_touch {ε : Type*} {step : ExtTreeMap κ ν → ε → ExtTreeMap κ ν}
    {keyOf : ε → κ}
    (change : ε → Option ν → Option ν)
    (touches : ∀ map operation key, (step map operation)[key]? =
      if keyOf operation = key then change operation map[key]? else map[key]?)
    {operations : List ε} (distinct : operations.Pairwise (keyOf · ≠ keyOf ·))
    (map : ExtTreeMap κ ν) (key : κ) :
    (operations.foldl step map)[key]? =
      (operations.find? fun operation => keyOf operation = key).elim map[key]?
        fun operation => change operation map[key]? := by
  induction operations generalizing map with
  | nil => rfl
  | cons operation rest inductionHypothesis =>
    obtain ⟨others, distinct⟩ := List.pairwise_cons.mp distinct
    rw [List.foldl_cons, inductionHypothesis distinct, List.find?_cons, touches]
    by_cases same : keyOf operation = key
    · have absent : rest.find? (fun other => keyOf other = key) = none :=
        List.find?_eq_none.mpr fun other member equal =>
          others other member (same.trans (of_decide_eq_true equal).symm)
      rw [absent, decide_eq_true same, if_pos same]
      rfl
    · rw [decide_eq_false same, if_neg same]

/-- Values that carry their key are found by it. -/
theorem find?_values_filter {map : ExtTreeMap κ ν} {keyOf : ν → κ}
    (keyed : ∀ (key : κ) value, map[key]? = some value → keyOf value = key) (test : ν → Bool)
    (key : κ) :
    ((values map).filter test).find? (fun value => keyOf value = key) = map[key]?.filter test := by
  cases found : ((values map).filter test).find? (fun value => keyOf value = key) with
  | some value =>
    have selected := List.find?_some found
    have same : keyOf value = key := of_decide_eq_true selected
    obtain ⟨member, passes⟩ := List.mem_filter.mp (List.mem_of_find?_eq_some found)
    obtain ⟨other, stored⟩ := mem_values_iff.mp member
    rw [← same, keyed other value stored, stored, Option.filter_some, if_pos passes]
  | none =>
    symm
    rw [Option.filter_eq_none_iff]
    intro value stored passes
    have member : value ∈ (values map).filter test :=
      List.mem_filter.mpr ⟨mem_values_iff.mpr ⟨key, stored⟩, passes⟩
    exact List.find?_eq_none.mp found value member (decide_eq_true (keyed key value stored))

/-- Values that carry their key are distinct by it. -/
theorem pairwise_values {map : ExtTreeMap κ ν} {keyOf : ν → κ}
    (keyed : ∀ (key : κ) value, map[key]? = some value → keyOf value = key) :
    (values map).Pairwise (keyOf · ≠ keyOf ·) := by
  unfold values
  rw [List.pairwise_map]
  refine (pairwise_lt_toList map).imp_of_mem ?_
  intro first second firstMember secondMember below same
  have firstKey := keyed first.1 first.2 (ExtTreeMap.mem_toList_iff_getElem?_eq_some.mp firstMember)
  have secondKey := keyed second.1 second.2
    (ExtTreeMap.mem_toList_iff_getElem?_eq_some.mp secondMember)
  rw [firstKey, secondKey] at same
  exact below.ne same

/-- There is at most one value of a key among values that carry their key. -/
theorem filter_values_key {map : ExtTreeMap κ ν} {keyOf : ν → κ}
    (keyed : ∀ (key : κ) value, map[key]? = some value → keyOf value = key) (key : κ) :
    (values map).filter (fun value => keyOf value = key) = map[key]?.toList := by
  have single : ∀ rows : List ν, rows.Pairwise (keyOf · ≠ keyOf ·) →
      rows.filter (fun value => keyOf value = key) =
        (rows.find? fun value => keyOf value = key).toList := by
    intro rows distinct
    induction rows with
    | nil => rfl
    | cons row rest inductionHypothesis =>
      obtain ⟨others, distinct⟩ := List.pairwise_cons.mp distinct
      rw [List.filter_cons, List.find?_cons]
      by_cases same : keyOf row = key
      · have gone : rest.filter (fun value => keyOf value = key) = [] := by
          refine List.filter_eq_nil_iff.mpr fun other member equal => others other member ?_
          rw [same, of_decide_eq_true equal]
        rw [if_pos (decide_eq_true same), decide_eq_true same, gone]
        rfl
      · rw [if_neg (by rwa [decide_eq_true_iff]), decide_eq_false same]
        exact inductionHypothesis distinct
  have found := find?_values_filter keyed (fun _ => true) key
  rw [List.filter_true] at found
  rw [single _ (pairwise_values keyed), found]
  cases map[key]? with
  | none => rfl
  | some value => rfl

/-- The values are enough when each of them tells its key. -/
theorem toList_eq_map_values {map : ExtTreeMap κ ν} {keyOf : ν → κ}
    (keyed : ∀ key value, map[key]? = some value → keyOf value = key) :
    (values map).map (fun value => (keyOf value, value)) = map.toList := by
  unfold values
  rw [List.map_map]
  refine (List.map_congr_left fun entry listed => ?_).trans (List.map_id _)
  have held := ExtTreeMap.mem_toList_iff_getElem?_eq_some.mp listed
  exact Prod.ext (keyed entry.1 entry.2 held) rfl

/-- The order as the tree maps ask for it. -/
scoped instance transCmp : Std.TransCmp (compare : κ → κ → Ordering) :=
  inferInstance

end OrderedMap
