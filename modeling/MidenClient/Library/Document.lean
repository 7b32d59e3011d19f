/-
This file gives the rules for documents: trees of arrays and records, the way programs pass
structured data around, over any type of leaves.

Writing a document replaces its leaves by other documents, and storing it may lose leaves:
an item that is lost leaves a hole in its array, and a field that is lost is gone. Both go
through a document in one recursion, and are known by what they do at each node.
-/

import Mathlib.Data.List.Basic
import Mathlib.Data.List.Forall2

/-- An array of documents, a record of named documents, or a leaf. -/
inductive Document (Leaf : Type) where
  | leaf (value : Leaf)
  | array (items : List (Document Leaf))
  | record (fields : List (String × Document Leaf))

namespace Document

variable {Leaf Other : Type}

/-- Induction over documents, where a node may use what holds of all its parts. -/
theorem induction {motive : Document Leaf → Prop} (leaf : ∀ value, motive (.leaf value))
    (array : ∀ items, (∀ item ∈ items, motive item) → motive (.array items))
    (record : ∀ fields, (∀ field ∈ fields, motive (Prod.snd field)) → motive (.record fields))
    (document : Document Leaf) : motive document :=
  @Document.rec Leaf motive (fun items => ∀ item ∈ items, motive item)
    (fun fields => ∀ field ∈ fields, motive (Prod.snd field)) (fun field => motive field.2)
    leaf array record
    (fun _ absent => absurd absent List.not_mem_nil)
    (fun _ _ first others => List.forall_mem_cons.mpr ⟨first, others⟩)
    (fun _ absent => absurd absent List.not_mem_nil)
    (fun _ _ first others => List.forall_mem_cons.mpr ⟨first, others⟩)
    (fun _ _ value => value) document

/-! ### Replacing the leaves -/

mutual

/-- Every leaf is replaced by a document. -/
def bind (replace : Leaf → Document Other) : Document Leaf → Document Other
  | .leaf value => replace value
  | .array items => .array (bindItems replace items)
  | .record fields => .record (bindFields replace fields)

def bindItems (replace : Leaf → Document Other) : List (Document Leaf) → List (Document Other)
  | [] => []
  | item :: rest => bind replace item :: bindItems replace rest

def bindFields (replace : Leaf → Document Other) :
    List (String × Document Leaf) → List (String × Document Other)
  | [] => []
  | (name, value) :: rest => (name, bind replace value) :: bindFields replace rest

end

@[simp]
theorem bind_leaf (replace : Leaf → Document Other) (value : Leaf) :
    bind replace (.leaf value) = replace value := by
  rw [bind]

@[simp]
theorem bind_array (replace : Leaf → Document Other) (items : List (Document Leaf)) :
    bind replace (.array items) = .array (items.map (bind replace)) := by
  rw [bind]
  congr 1
  induction items with
  | nil => rw [bindItems, List.map_nil]
  | cons item rest inductionHypothesis => rw [bindItems, inductionHypothesis, List.map_cons]

@[simp]
theorem bind_record (replace : Leaf → Document Other) (fields : List (String × Document Leaf)) :
    bind replace (.record fields) =
      .record (fields.map fun field => (field.1, bind replace field.2)) := by
  rw [bind]
  congr 1
  induction fields with
  | nil => rw [bindFields, List.map_nil]
  | cons field rest inductionHypothesis =>
    obtain ⟨name, value⟩ := field
    rw [bindFields, inductionHypothesis, List.map_cons]

/-! ### Losing leaves -/

mutual

/-- What is left of a document when some leaves are lost. -/
def prune (kept : Leaf → Option Leaf) (hole : Leaf) : Document Leaf → Option (Document Leaf)
  | .leaf value => (kept value).map .leaf
  | .array items => some (.array (pruneItems kept hole items))
  | .record fields => some (.record (pruneFields kept hole fields))

def pruneItems (kept : Leaf → Option Leaf) (hole : Leaf) :
    List (Document Leaf) → List (Document Leaf)
  | [] => []
  | item :: rest => (prune kept hole item).getD (.leaf hole) :: pruneItems kept hole rest

def pruneFields (kept : Leaf → Option Leaf) (hole : Leaf) :
    List (String × Document Leaf) → List (String × Document Leaf)
  | [] => []
  | (name, value) :: rest =>
    ((prune kept hole value).map fun left => (name, left)).toList ++ pruneFields kept hole rest

end

section Pruned

variable (kept : Leaf → Option Leaf) (hole : Leaf)

@[simp]
theorem prune_leaf (value : Leaf) : prune kept hole (.leaf value) = (kept value).map .leaf := by
  rw [prune]

@[simp]
theorem prune_array (items : List (Document Leaf)) :
    prune kept hole (.array items) =
      some (.array (items.map fun item => (prune kept hole item).getD (.leaf hole))) := by
  rw [prune]
  congr 2
  induction items with
  | nil => rw [pruneItems, List.map_nil]
  | cons item rest inductionHypothesis => rw [pruneItems, inductionHypothesis, List.map_cons]

@[simp]
theorem prune_record (fields : List (String × Document Leaf)) :
    prune kept hole (.record fields) = some (.record (fields.filterMap fun field =>
      (prune kept hole field.2).map fun left => (field.1, left))) := by
  rw [prune]
  congr 2
  induction fields with
  | nil => rw [pruneFields, List.filterMap_nil]
  | cons field rest inductionHypothesis =>
    obtain ⟨name, value⟩ := field
    rw [pruneFields, inductionHypothesis, List.filterMap_cons]
    cases prune kept hole value with
    | none => rfl
    | some left => rfl

end Pruned

/-- Leaves can be lost before or after the leaves are replaced, when the documents that replace
them lose as much. -/
theorem prune_bind {replace : Leaf → Document Other} {kept : Leaf → Option Leaf} {hole : Leaf}
    {otherKept : Other → Option Other} {otherHole : Other}
    (leaves : ∀ value, prune otherKept otherHole (replace value) = (kept value).map replace)
    (holes : replace hole = .leaf otherHole) (document : Document Leaf) :
    prune otherKept otherHole (bind replace document) =
      (prune kept hole document).map (bind replace) := by
  induction document using induction with
  | leaf value =>
    rw [bind_leaf, leaves, prune_leaf, Option.map_map]
    exact congrArg (fun view => (kept value).map view) (funext fun left => (bind_leaf _ _).symm)
  | array items inductionHypothesis =>
    rw [bind_array, prune_array, prune_array, Option.map_some, bind_array, List.map_map,
      List.map_map]
    refine congrArg (fun parts => some (array parts)) (List.map_congr_left fun item listed => ?_)
    show (prune otherKept otherHole (bind replace item)).getD _ =
      bind replace ((prune kept hole item).getD (.leaf hole))
    rw [inductionHypothesis item listed]
    cases prune kept hole item with
    | none => rw [Option.map_none, Option.getD_none, Option.getD_none, bind_leaf, holes]
    | some left => rfl
  | record fields inductionHypothesis =>
    rw [bind_record, prune_record, prune_record, Option.map_some, bind_record,
      List.filterMap_map, List.map_filterMap]
    refine congrArg (fun parts => some (record parts)) (List.filterMap_congr fun field listed => ?_)
    show (prune otherKept otherHole (bind replace field.2)).map _ = _
    rw [inductionHypothesis field listed, Option.map_map, Option.map_map]
    rfl

/-- Replacing leaves changes nothing when those that are kept stay as they are. -/
theorem bind_prune {replace : Leaf → Document Leaf} {kept : Leaf → Option Leaf} {hole : Leaf}
    (fixed : ∀ value left, kept value = some left → replace left = .leaf left)
    (holes : replace hole = .leaf hole) (document : Document Leaf) :
    bind replace ((prune kept hole document).getD (.leaf hole)) =
      (prune kept hole document).getD (.leaf hole) := by
  induction document using induction with
  | leaf value =>
    rw [prune_leaf]
    cases left : kept value with
    | none => rw [Option.map_none, Option.getD_none, bind_leaf, holes]
    | some left_value =>
      rw [Option.map_some, Option.getD_some, bind_leaf, fixed value left_value left]
  | array items inductionHypothesis =>
    rw [prune_array, Option.getD_some, bind_array, List.map_map]
    exact congrArg array (List.map_congr_left inductionHypothesis)
  | record fields inductionHypothesis =>
    rw [prune_record, Option.getD_some, bind_record, List.map_filterMap]
    refine congrArg record (List.filterMap_congr fun field listed => ?_)
    have same := inductionHypothesis field listed
    cases left : prune kept hole field.2 with
    | none => rfl
    | some left_value =>
      rw [left, Option.getD_some] at same
      rw [Option.map_some, Option.map_some, same]

/-! ### What holds of every record -/

mutual

/-- Every record in a document passes a test of its fields. -/
def everyRecord (test : List (String × Document Leaf) → Bool) : Document Leaf → Bool
  | .leaf _ => true
  | .array items => everyItem test items
  | .record fields => test fields && everyField test fields

def everyItem (test : List (String × Document Leaf) → Bool) : List (Document Leaf) → Bool
  | [] => true
  | item :: rest => everyRecord test item && everyItem test rest

def everyField (test : List (String × Document Leaf) → Bool) :
    List (String × Document Leaf) → Bool
  | [] => true
  | (_, value) :: rest => everyRecord test value && everyField test rest

end

section Records

variable {test : List (String × Document Leaf) → Bool}

@[simp]
theorem everyRecord_leaf (value : Leaf) : everyRecord test (.leaf value) = true := by
  rw [everyRecord]

theorem everyRecord_array {items : List (Document Leaf)} :
    everyRecord test (.array items) = true ↔ ∀ item ∈ items, everyRecord test item = true := by
  rw [everyRecord]
  induction items with
  | nil =>
    rw [everyItem]
    exact iff_of_true rfl fun _ absent => absurd absent List.not_mem_nil
  | cons item rest inductionHypothesis =>
    rw [everyItem, Bool.and_eq_true, inductionHypothesis, List.forall_mem_cons]

theorem everyRecord_record {fields : List (String × Document Leaf)} :
    everyRecord test (.record fields) = true ↔
      test fields = true ∧ ∀ field ∈ fields, everyRecord test (Prod.snd field) = true := by
  rw [everyRecord, Bool.and_eq_true, and_congr_right_iff]
  rintro -
  induction fields with
  | nil =>
    rw [everyField]
    exact iff_of_true rfl fun _ absent => absurd absent List.not_mem_nil
  | cons field rest inductionHypothesis =>
    obtain ⟨name, value⟩ := field
    rw [everyField, Bool.and_eq_true, inductionHypothesis, List.forall_mem_cons]

end Records

section PrunedRecords

variable {kept : Leaf → Option Leaf} {hole : Leaf} {test : List (String × Document Leaf) → Bool}

/-- A test that does not see lost fields holds of every record that is left just when it holds of
every record. -/
theorem everyRecord_prune (same : ∀ fields : List (String × Document Leaf),
      test (fields.filterMap fun field =>
        (prune kept hole field.2).map fun left => (field.1, left)) = test fields)
    (document : Document Leaf) :
    everyRecord test ((prune kept hole document).getD (.leaf hole)) =
      everyRecord test document := by
  induction document using induction with
  | leaf value =>
    rw [prune_leaf]
    cases kept value with
    | none => rw [Option.map_none, Option.getD_none, everyRecord_leaf, everyRecord_leaf]
    | some left => rw [Option.map_some, Option.getD_some, everyRecord_leaf, everyRecord_leaf]
  | array items inductionHypothesis =>
    rw [prune_array, Option.getD_some, Bool.eq_iff_iff, everyRecord_array, everyRecord_array,
      List.forall_mem_map]
    exact forall₂_congr fun item listed => by rw [inductionHypothesis item listed]
  | record fields inductionHypothesis =>
    rw [prune_record, Option.getD_some, Bool.eq_iff_iff, everyRecord_record, everyRecord_record,
      same, and_congr_right_iff]
    intro _
    constructor
    · intro left field listed
      rw [← inductionHypothesis field listed]
      cases pruned : prune kept hole field.2 with
      | none => exact everyRecord_leaf hole
      | some value =>
        refine left (field.1, value) (List.mem_filterMap.mpr ⟨field, listed, ?_⟩)
        rw [pruned, Option.map_some]
    · intro every left listed
      obtain ⟨field, there, same⟩ := List.mem_filterMap.mp listed
      obtain ⟨value, pruned, rfl⟩ := Option.map_eq_some_iff.mp same
      have holds := every field there
      rw [← inductionHypothesis field there, pruned] at holds
      exact holds

end PrunedRecords

/-- The value under a name, of which a record has at most one. -/
def property? (fields : List (String × Document Leaf)) (name : String) : Option (Document Leaf) :=
  (fields.find? fun field => field.1 = name).map Prod.snd

@[simp]
theorem property?_cons (name : String) (field : String × Document Leaf)
    (rest : List (String × Document Leaf)) :
    property? (field :: rest) name =
      if field.1 = name then some field.2 else property? rest name := by
  unfold property?
  rw [List.find?_cons]
  by_cases same : field.1 = name
  · rw [if_pos same, decide_eq_true same]
    rfl
  · rw [if_neg same, decide_eq_false same]

/-- A property that is kept is still found. -/
theorem property?_prune {kept : Leaf → Option Leaf} {hole : Leaf}
    {fields : List (String × Document Leaf)} {name : String} {value left : Document Leaf}
    (found : property? fields name = some value) (pruned : prune kept hole value = some left) :
    property? (fields.filterMap fun field =>
      (prune kept hole field.2).map fun left => (field.1, left)) name = some left := by
  induction fields with
  | nil => cases found
  | cons field rest inductionHypothesis =>
    rw [property?_cons] at found
    rw [List.filterMap_cons]
    by_cases same : field.1 = name
    · rw [if_pos same] at found
      rw [Option.some.inj found, pruned, Option.map_some]
      exact (property?_cons _ _ _).trans (if_pos same)
    · rw [if_neg same] at found
      cases prune kept hole field.2 with
      | none => exact inductionHypothesis found
      | some other =>
        exact (property?_cons _ _ _).trans ((if_neg same).trans (inductionHypothesis found))

end Document
