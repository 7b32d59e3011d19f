/-
This file says which entries a list has after one more is added at its end, and after the entry at
one place is changed.
-/

import Mathlib

namespace ListEntries

universe u v

variable {Entry : Type u} {View : Type v} {entries : List Entry} {last entry : Entry}
  {index place : ℕ} {change : Entry → Entry}

/-- An entry of a list that grew was there before, or is the one that was added. -/
theorem getElem?_concat_cases (found : (entries ++ [last])[place]? = some entry) :
    entries[place]? = some entry ∨ place = entries.length ∧ entry = last := by
  rw [List.getElem?_append] at found
  split at found
  · exact Or.inl found
  · rename_i bound
    obtain ⟨small, rfl⟩ := List.getElem?_eq_some_iff.mp found
    rw [List.length_singleton] at small
    exact Or.inr ⟨by omega, by simp⟩

theorem getElem?_concat_of_some (found : entries[place]? = some entry) :
    (entries ++ [last])[place]? = some entry := by
  rw [List.getElem?_append_left (List.getElem?_eq_some_iff.mp found).1, found]

theorem getElem?_modify_of_some (found : entries[place]? = some entry)
    (change : Entry → Entry) : (entries.modify place change)[place]? = some (change entry) := by
  rw [List.getElem?_modify_eq, found]
  rfl

/-- An entry after a change is the changed one, or one that is as it was. -/
theorem getElem?_modify_cases (found : (entries.modify index change)[place]? = some entry) :
    ∃ before, entries[place]? = some before ∧
      (index = place ∧ entry = change before ∨ index ≠ place ∧ entry = before) := by
  rw [List.getElem?_modify] at found
  obtain ⟨before, at_before, rfl⟩ := Option.map_eq_some_iff.mp found
  refine ⟨before, at_before, ?_⟩
  by_cases here : index = place
  · exact Or.inl ⟨here, by rw [if_pos here]⟩
  · exact Or.inr ⟨here, by rw [if_neg here]⟩

/-- A change does not show in what it keeps of each entry. -/
theorem map_modify (view : Entry → View) (keeps : ∀ entry, view (change entry) = view entry)
    (entries : List Entry) (index : ℕ) :
    (entries.modify index change).map view = entries.map view := by
  refine List.ext_getElem? fun place => ?_
  rw [List.getElem?_map, List.getElem?_modify, List.getElem?_map, Option.map_eq_map,
    Option.map_map]
  refine congrArg (fun change => Option.map change entries[place]?) (funext fun entry => ?_)
  rw [Function.comp_apply]
  split
  · exact keeps entry
  · rfl

end ListEntries
