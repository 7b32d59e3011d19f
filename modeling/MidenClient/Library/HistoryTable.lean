/-
This file develops tables that keep a history of replaced values.

A table holds the latest value of every key of every owner. Before a value is
replaced, the old value is archived under the version at which it was replaced; an
archived row without a value says that the key was absent. Undoing a version writes
the archived rows of that version back. A step that archives every value it changes,
under a version without rows, is undone exactly, and so is a run of such steps when
the versions are undone from the last to the first.
-/

import MidenClient.Library.OrderedMap

open Std (ExtTreeMap)

/-- A table with the latest value of every key and the archived rows of replaced values. The
rows are keyed by owner, version and key. -/
structure HistoryTable (α κ ν ρ : Type*) [LinearOrder α] [LinearOrder κ] where
  latest : ExtTreeMap (α ×ₗ κ) ν
  historical : ExtTreeMap (α ×ₗ ℕ ×ₗ κ) ρ

namespace HistoryTable

variable {α κ ν ρ : Type*} [LinearOrder α] [LinearOrder κ]

/-- The latest value of a key. -/
def current (table : HistoryTable α κ ν ρ) (owner : α) (key : κ) : Option ν :=
  table.latest[toLex (owner, key)]?

/-- The row archived for a key at a version. -/
def archived (table : HistoryTable α κ ν ρ) (owner : α) (version : ℕ) (key : κ) : Option ρ :=
  table.historical[toLex (owner, toLex (version, key))]?

theorem ext_lookup {first second : HistoryTable α κ ν ρ}
    (latest : ∀ owner key, first.current owner key = second.current owner key)
    (historical : ∀ owner version key,
      first.archived owner version key = second.archived owner version key) : first = second := by
  have sameLatest : first.latest = second.latest := by
    refine ExtTreeMap.ext_getElem? fun key => ?_
    exact latest (ofLex key).1 (ofLex key).2
  have sameHistorical : first.historical = second.historical := by
    refine ExtTreeMap.ext_getElem? fun key => ?_
    exact historical (ofLex key).1 (ofLex (ofLex key).2).1 (ofLex (ofLex key).2).2
  cases first
  cases second
  simp only [mk.injEq]
  exact ⟨sameLatest, sameHistorical⟩

/-! ### Writing -/

/-- Sets the latest value of a key. -/
def put (table : HistoryTable α κ ν ρ) (owner : α) (key : κ) (value : ν) :
    HistoryTable α κ ν ρ :=
  { table with latest := table.latest.insert (toLex (owner, key)) value }

/-- Removes the latest value of a key. -/
def drop (table : HistoryTable α κ ν ρ) (owner : α) (key : κ) : HistoryTable α κ ν ρ :=
  { table with latest := table.latest.erase (toLex (owner, key)) }

/-- Archives a row, replacing one with the same owner, version and key. -/
def archive (table : HistoryTable α κ ν ρ) (owner : α) (version : ℕ) (key : κ) (row : ρ) :
    HistoryTable α κ ν ρ :=
  { table with historical := table.historical.insert (toLex (owner, toLex (version, key))) row }

@[simp]
theorem current_put (table : HistoryTable α κ ν ρ) (owner other : α) (key asked : κ) (value : ν) :
    (table.put owner key value).current other asked =
      if owner = other ∧ key = asked then some value else table.current other asked := by
  simp only [current, put, ExtTreeMap.getElem?_insert, Std.compare_eq_iff_eq, toLex_inj,
    Prod.mk.injEq]

@[simp]
theorem archived_put (table : HistoryTable α κ ν ρ) (owner other : α) (key asked : κ) (value : ν)
    (version : ℕ) :
    (table.put owner key value).archived other version asked =
      table.archived other version asked :=
  rfl

@[simp]
theorem current_drop (table : HistoryTable α κ ν ρ) (owner other : α) (key asked : κ) :
    (table.drop owner key).current other asked =
      if owner = other ∧ key = asked then none else table.current other asked := by
  simp only [current, drop, ExtTreeMap.getElem?_erase, Std.compare_eq_iff_eq, toLex_inj,
    Prod.mk.injEq]

@[simp]
theorem current_archive (table : HistoryTable α κ ν ρ) (owner other : α) (version : ℕ)
    (key asked : κ) (row : ρ) :
    (table.archive owner version key row).current other asked = table.current other asked :=
  rfl

@[simp]
theorem archived_archive (table : HistoryTable α κ ν ρ) (owner other : α) (version at_ : ℕ)
    (key asked : κ) (row : ρ) :
    (table.archive owner version key row).archived other at_ asked =
      if owner = other ∧ version = at_ ∧ key = asked then some row
      else table.archived other at_ asked := by
  simp only [archived, archive, ExtTreeMap.getElem?_insert, Std.compare_eq_iff_eq, toLex_inj,
    Prod.mk.injEq]

/-! ### Undoing -/

/-- Writes the archived rows of one version back: rows with a value overwrite the latest value,
rows without one delete it. -/
def restore (old : ρ → Option ν) (table : HistoryTable α κ ν ρ) (owner : α) (version : ℕ) :
    HistoryTable α κ ν ρ :=
  let rows := table.historical.toList.filter fun entry =>
    (ofLex entry.1).1 = owner ∧ (ofLex (ofLex entry.1).2).1 = version
  let key (entry : (α ×ₗ ℕ ×ₗ κ) × ρ) : α ×ₗ κ := toLex (owner, (ofLex (ofLex entry.1).2).2)
  let restored := table.latest.insertMany
    (rows.filterMap fun entry => (old entry.2).map fun value => (key entry, value))
  { table with
    latest := restored.filter fun latestKey _ =>
      !rows.any fun entry => (old entry.2).isNone && key entry == latestKey }

/-- Deletes the archived rows of some versions. -/
def forget (table : HistoryTable α κ ν ρ) (owner : α) (versions : List ℕ) :
    HistoryTable α κ ν ρ :=
  { table with
    historical := table.historical.filter fun key _ =>
      ¬((ofLex key).1 = owner ∧ (ofLex (ofLex key).2).1 ∈ versions) }

/-- Deletes the archived rows of the versions that pass a test. -/
def prune (table : HistoryTable α κ ν ρ) (owner : α) (old : ℕ → Bool) : HistoryTable α κ ν ρ :=
  { table with
    historical := table.historical.filter fun key _ =>
      ¬((ofLex key).1 = owner ∧ old (ofLex (ofLex key).2).1 = true) }

/-- Deletes the latest values of an owner. -/
def clear (table : HistoryTable α κ ν ρ) (owner : α) : HistoryTable α κ ν ρ :=
  { table with latest := table.latest.filter fun key _ => (ofLex key).1 ≠ owner }

/-- Archives the latest values of an owner under one version. -/
def archiveLatest (table : HistoryTable α κ ν ρ) (owner : α) (version : ℕ) (row : ν → ρ) :
    HistoryTable α κ ν ρ :=
  (table.latest.toList.filter fun entry => (ofLex entry.1).1 = owner).foldl (fun table entry =>
    table.archive owner version (ofLex entry.1).2 (row entry.2)) table

/-- Archives a row for every latest value of an owner that has none under the version yet. -/
def archiveMissing (table : HistoryTable α κ ν ρ) (owner : α) (version : ℕ) (row : ν → ρ) :
    HistoryTable α κ ν ρ :=
  (table.latest.toList.filter fun entry => (ofLex entry.1).1 = owner).foldl (fun table entry =>
    if (table.archived owner version (ofLex entry.1).2).isSome then table
    else table.archive owner version (ofLex entry.1).2 (row entry.2)) table

@[simp]
theorem archived_restore (old : ρ → Option ν) (table : HistoryTable α κ ν ρ) (owner other : α)
    (version at_ : ℕ) (key : κ) :
    (table.restore old owner version).archived other at_ key = table.archived other at_ key :=
  rfl

@[simp]
theorem current_forget (table : HistoryTable α κ ν ρ) (owner other : α) (versions : List ℕ)
    (key : κ) : (table.forget owner versions).current other key = table.current other key :=
  rfl

@[simp]
theorem archived_forget (table : HistoryTable α κ ν ρ) (owner other : α) (versions : List ℕ)
    (version : ℕ) (key : κ) :
    (table.forget owner versions).archived other version key =
      if other = owner ∧ version ∈ versions then none else table.archived other version key := by
  rw [archived, forget, OrderedMap.getElem?_filter_key]
  by_cases gone : other = owner ∧ version ∈ versions
  · rw [if_pos gone]
    exact if_neg fun kept => absurd gone (of_decide_eq_true kept)
  · rw [if_neg gone]
    exact if_pos (decide_eq_true gone)

@[simp]
theorem archived_prune (table : HistoryTable α κ ν ρ) (owner other : α) (old : ℕ → Bool)
    (version : ℕ) (key : κ) :
    (table.prune owner old).archived other version key =
      if other = owner ∧ old version = true then none
      else table.archived other version key := by
  rw [archived, prune, OrderedMap.getElem?_filter_key]
  by_cases gone : other = owner ∧ old version = true
  · rw [if_pos gone]
    exact if_neg fun kept => absurd gone (of_decide_eq_true kept)
  · rw [if_neg gone]
    exact if_pos (decide_eq_true gone)

@[simp]
theorem current_clear (table : HistoryTable α κ ν ρ) (owner other : α) (key : κ) :
    (table.clear owner).current other key =
      if other = owner then none else table.current other key := by
  rw [current, clear, OrderedMap.getElem?_filter_key]
  by_cases same : other = owner
  · rw [if_pos same]
    exact if_neg fun kept => absurd same (of_decide_eq_true kept)
  · rw [if_neg same]
    exact if_pos (decide_eq_true same)

/-- The latest entries of an owner. -/
def ownedBy (table : HistoryTable α κ ν ρ) (owner : α) : List ((α ×ₗ κ) × ν) :=
  table.latest.toList.filter fun entry => (ofLex entry.1).1 = owner

theorem mem_ownedBy_iff (table : HistoryTable α κ ν ρ) (owner : α) (entry : (α ×ₗ κ) × ν) :
    entry ∈ table.ownedBy owner ↔
      (ofLex entry.1).1 = owner ∧ table.current owner (ofLex entry.1).2 = some entry.2 := by
  unfold ownedBy current
  rw [List.mem_filter, ExtTreeMap.mem_toList_iff_getElem?_eq_some, decide_eq_true_eq]
  constructor
  · rintro ⟨found, rfl⟩
    exact ⟨rfl, found⟩
  · rintro ⟨rfl, found⟩
    exact ⟨found, rfl⟩

theorem ownedBy_keys_nodup (table : HistoryTable α κ ν ρ) (owner : α) :
    ((table.ownedBy owner).map fun entry => (ofLex entry.1).2).Nodup := by
  have ordered := (OrderedMap.pairwise_lt_toList table.latest).filter
    fun entry => (ofLex entry.1).1 = owner
  rw [List.Nodup, List.pairwise_map]
  refine ordered.imp_of_mem fun {first second} memberFirst memberSecond below same => ?_
  have sameKey : first.1 = second.1 := by
    refine ofLex_inj.mp (Prod.ext ?_ same)
    rw [of_decide_eq_true (List.mem_filter.mp memberFirst).2,
      of_decide_eq_true (List.mem_filter.mp memberSecond).2]
  rw [sameKey] at below
  exact lt_irrefl _ below

/-- Replaces the latest values of an owner without archiving. -/
def upsert (table : HistoryTable α κ ν ρ) (owner : α) (entries : List (κ × ν)) :
    HistoryTable α κ ν ρ :=
  entries.foldl (fun table entry => table.put owner entry.1 entry.2) (table.clear owner)

/-- A step of a loop writes the value of one key, or deletes it, and no other latest value of the
owner. -/
def Writes {ι : Type*} (owner : α) (keyOf : ι → κ) (valueOf : ι → Option ν)
    (step : HistoryTable α κ ν ρ → ι → HistoryTable α κ ν ρ) : Prop :=
  ∀ table item asked, (step table item).current owner asked =
    if keyOf item = asked then valueOf item else table.current owner asked

section Writes

variable {ι : Type*} {owner : α} {keyOf : ι → κ} {valueOf : ι → Option ν}
  {step : HistoryTable α κ ν ρ → ι → HistoryTable α κ ν ρ} {items : List ι}

theorem Writes.current_foldl_of_notMem (writes : Writes owner keyOf valueOf step) {key : κ}
    (absent : key ∉ items.map keyOf) (table : HistoryTable α κ ν ρ) :
    (items.foldl step table).current owner key = table.current owner key := by
  induction items generalizing table with
  | nil => rfl
  | cons item rest inductionHypothesis =>
    rw [List.map_cons, List.mem_cons, not_or] at absent
    rw [List.foldl_cons, inductionHypothesis absent.2, writes, if_neg (Ne.symm absent.1)]

theorem Writes.current_foldl_of_mem (writes : Writes owner keyOf valueOf step)
    (distinct : (items.map keyOf).Nodup) {item : ι} (member : item ∈ items)
    (table : HistoryTable α κ ν ρ) :
    (items.foldl step table).current owner (keyOf item) = valueOf item := by
  induction items generalizing table with
  | nil => cases member
  | cons first rest inductionHypothesis =>
    rw [List.map_cons, List.nodup_cons] at distinct
    rw [List.foldl_cons]
    rcases List.mem_cons.mp member with rfl | later
    · rw [writes.current_foldl_of_notMem distinct.1, writes, if_pos rfl]
    · exact inductionHypothesis distinct.2 later _

end Writes

theorem writes_put (owner : α) :
    Writes owner Prod.fst (fun entry => some entry.2)
      fun (table : HistoryTable α κ ν ρ) (entry : κ × ν) => table.put owner entry.1 entry.2 := by
  intro table entry asked
  rw [current_put]
  simp only [true_and]

/-- What is put for an owner without values is all that the owner has. -/
theorem current_foldl_put (owner : α) {entries : List (κ × ν)}
    (distinct : (entries.map Prod.fst).Nodup) {table : HistoryTable α κ ν ρ}
    (fresh : ∀ key, table.current owner key = none) (key : κ) (value : ν) :
    (entries.foldl (fun table entry => table.put owner entry.1 entry.2) table).current owner key =
      some value ↔ (key, value) ∈ entries := by
  constructor
  · intro found
    by_cases listed : key ∈ entries.map Prod.fst
    · obtain ⟨entry, member, rfl⟩ := List.mem_map.mp listed
      rw [(writes_put owner).current_foldl_of_mem distinct member] at found
      cases found
      exact member
    · rw [(writes_put owner).current_foldl_of_notMem listed, fresh] at found
      cases found
  · exact fun member => (writes_put owner).current_foldl_of_mem distinct member _

/-- The new values of an owner are the entries. -/
theorem current_upsert (table : HistoryTable α κ ν ρ) (owner : α) {entries : List (κ × ν)}
    (distinct : (entries.map Prod.fst).Nodup) (key : κ) (value : ν) :
    (table.upsert owner entries).current owner key = some value ↔ (key, value) ∈ entries := by
  refine current_foldl_put owner distinct (fun asked => ?_) key value
  rw [current_clear, if_pos rfl]

@[simp]
theorem current_archiveMissing (table : HistoryTable α κ ν ρ) (owner other : α) (version : ℕ)
    (row : ν → ρ) (key : κ) :
    (table.archiveMissing owner version row).current other key = table.current other key := by
  unfold archiveMissing
  refine List.foldlRecOn (motive := fun result : HistoryTable α κ ν ρ =>
    result.current other key = table.current other key) _ _ rfl ?_
  intro result same entry _
  split
  · exact same
  · exact same

/-- The rows of one owner and one version. -/
def rowsAt (table : HistoryTable α κ ν ρ) (owner : α) (version : ℕ) :
    List ((α ×ₗ ℕ ×ₗ κ) × ρ) :=
  table.historical.toList.filter fun entry =>
    (ofLex entry.1).1 = owner ∧ (ofLex (ofLex entry.1).2).1 = version

theorem mem_rowsAt_iff (table : HistoryTable α κ ν ρ) (owner : α) (version : ℕ)
    (entry : (α ×ₗ ℕ ×ₗ κ) × ρ) :
    entry ∈ table.rowsAt owner version ↔
      ∃ key row, entry = (toLex (owner, toLex (version, key)), row) ∧
        table.archived owner version key = some row := by
  rw [rowsAt, List.mem_filter, ExtTreeMap.mem_toList_iff_getElem?_eq_some, decide_eq_true_iff]
  constructor
  · rintro ⟨found, rfl, rfl⟩
    exact ⟨_, entry.2, rfl, found⟩
  · rintro ⟨key, row, rfl, found⟩
    exact ⟨found, rfl, rfl⟩

theorem restore_latest (old : ρ → Option ν) (table : HistoryTable α κ ν ρ) (owner : α)
    (version : ℕ) :
    (table.restore old owner version).latest =
      (table.latest.insertMany ((table.rowsAt owner version).filterMap fun entry =>
        (old entry.2).map fun value =>
          (toLex (owner, (ofLex (ofLex entry.1).2).2), value))).filter fun latestKey _ =>
        !(table.rowsAt owner version).any fun entry =>
          (old entry.2).isNone && toLex (owner, (ofLex (ofLex entry.1).2).2) == latestKey :=
  rfl

/-- The keys written back by one version are distinct. -/
theorem restored_pairwise (old : ρ → Option ν) (table : HistoryTable α κ ν ρ) (owner : α)
    (version : ℕ) :
    ((table.rowsAt owner version).filterMap fun entry => (old entry.2).map fun value =>
        (toLex (owner, (ofLex (ofLex entry.1).2).2), value)).Pairwise
      fun first second => ¬compare first.1 second.1 = .eq := by
  have ordered : (table.rowsAt owner version).Pairwise fun first second => first.1 < second.1 :=
    (OrderedMap.pairwise_lt_toList table.historical).filter _
  rw [List.pairwise_filterMap]
  refine ordered.imp_of_mem ?_
  intro first second memberFirst memberSecond below one writtenOne two writtenTwo
  obtain ⟨keyFirst, rowFirst, rfl, -⟩ := (table.mem_rowsAt_iff owner version first).mp memberFirst
  obtain ⟨keySecond, rowSecond, rfl, -⟩ :=
    (table.mem_rowsAt_iff owner version second).mp memberSecond
  obtain ⟨_, _, rfl⟩ := Option.map_eq_some_iff.mp writtenOne
  obtain ⟨_, _, rfl⟩ := Option.map_eq_some_iff.mp writtenTwo
  rw [Std.compare_eq_iff_eq]
  intro same
  have sameKey : keyFirst = keySecond := congrArg (fun pair => (ofLex pair).2) same
  rw [sameKey] at below
  exact lt_irrefl _ below

/-- What a key is after one version is undone. -/
theorem current_restore (old : ρ → Option ν) (table : HistoryTable α κ ν ρ) (owner other : α)
    (version : ℕ) (key : κ) :
    (table.restore old owner version).current other key =
      if other = owner then
        match table.archived owner version key with
        | some row => old row
        | none => table.current other key
      else table.current other key := by
  have untouched : (∀ row, table.archived owner version key = some row → other ≠ owner) →
      (table.restore old owner version).current other key = table.current other key := by
    intro elsewhere
    have unwritten : ∀ entry ∈ table.rowsAt owner version,
        toLex (owner, (ofLex (ofLex entry.1).2).2) ≠ toLex (other, key) := by
      intro entry member same
      obtain ⟨written, row, rfl, found⟩ := (table.mem_rowsAt_iff owner version entry).mp member
      obtain ⟨sameOwner, rfl⟩ := Prod.mk.inj (toLex_inj.mp same)
      exact elsewhere row found sameOwner.symm
    rw [current, restore_latest, OrderedMap.getElem?_filter_key, if_pos,
      ExtTreeMap.getElem?_insertMany_list_of_contains_eq_false]
    · rfl
    · rw [Bool.eq_false_iff, ne_eq, List.contains_iff_mem, List.mem_map]
      rintro ⟨pair, written, same⟩
      obtain ⟨entry, member, value⟩ := List.mem_filterMap.mp written
      obtain ⟨_, _, rfl⟩ := Option.map_eq_some_iff.mp value
      exact unwritten entry member same
    · rw [Bool.not_eq_true', List.any_eq_false]
      intro entry member
      simp [unwritten entry member]
  by_cases same : other = owner
  · subst same
    rw [if_pos rfl]
    cases found : table.archived other version key with
    | none =>
      refine untouched fun row archived => ?_
      rw [found] at archived
      cases archived
    | some row =>
      have member : (toLex (other, toLex (version, key)), row) ∈ table.rowsAt other version :=
        (table.mem_rowsAt_iff other version _).mpr ⟨key, row, rfl, found⟩
      show _ = old row
      rw [current, restore_latest, OrderedMap.getElem?_filter_key]
      cases value : old row with
      | none =>
        refine if_neg ?_
        rw [Bool.not_eq_true', Bool.not_eq_false, List.any_eq_true]
        exact ⟨_, member, by simp [value]⟩
      | some restored =>
        rw [if_pos, ExtTreeMap.getElem?_insertMany_list_of_mem Std.ReflCmp.compare_self
          (table.restored_pairwise old other version)
          (List.mem_filterMap.mpr ⟨_, member, by simp [value]; rfl⟩)]
        rw [Bool.not_eq_true', List.any_eq_false]
        intro entry listed
        obtain ⟨written, otherRow, rfl, archived⟩ :=
          (table.mem_rowsAt_iff other version entry).mp listed
        simp only [Bool.and_eq_true, beq_iff_eq, not_and]
        intro empty sameKey
        obtain ⟨-, rfl⟩ := Prod.mk.inj (toLex_inj.mp sameKey)
        rw [show (ofLex (ofLex (toLex (other, toLex (version, written)))).2).2 = written from rfl,
          archived] at found
        rw [Option.some.inj found, value] at empty
        cases empty
  · rw [if_neg same]
    exact untouched fun _ _ => same

/-! ### Steps that archive what they change -/

/-- The step changes values of one owner only, under a version that had no rows, and archives
under it what every changed key was before. -/
structure Recorded (old : ρ → Option ν) (owner : α) (version : ℕ)
    (before after : HistoryTable α κ ν ρ) : Prop where
  fresh : ∀ key, before.archived owner version key = none
  elsewhere : ∀ other key, other ≠ owner → after.current other key = before.current other key
  kept : ∀ other at_ key, ¬(other = owner ∧ at_ = version) →
    after.archived other at_ key = before.archived other at_ key
  unchanged : ∀ key, after.archived owner version key = none →
    after.current owner key = before.current owner key
  changed : ∀ key row, after.archived owner version key = some row →
    old row = before.current owner key

namespace Recorded

variable {old : ρ → Option ν} {owner : α} {version : ℕ} {before after : HistoryTable α κ ν ρ}

theorem refl (old : ρ → Option ν) (fresh : ∀ key, before.archived owner version key = none) :
    Recorded old owner version before before where
  fresh := fresh
  elsewhere _ _ _ := rfl
  kept _ _ _ _ := rfl
  unchanged _ _ := rfl
  changed key row found := by
    rw [fresh key] at found
    cases found

/-- Archiving the value of a key that was not touched yet. -/
theorem archive (recorded : Recorded old owner version before after) {key : κ} {row : ρ}
    (untouched : after.archived owner version key = none)
    (value : old row = after.current owner key) :
    Recorded old owner version before (after.archive owner version key row) where
  fresh := recorded.fresh
  elsewhere := recorded.elsewhere
  kept other at_ asked apart := by
    rw [archived_archive, if_neg fun same => apart ⟨same.1.symm, same.2.1.symm⟩]
    exact recorded.kept other at_ asked apart
  unchanged asked found := by
    rw [archived_archive] at found
    split at found
    · cases found
    · exact recorded.unchanged asked found
  changed asked found archived := by
    rw [archived_archive] at archived
    split at archived
    · rename_i same
      rw [← Option.some.inj archived, value, ← same.2.2]
      exact recorded.unchanged key untouched
    · exact recorded.changed asked found archived

/-- Any change of the latest value of an archived key. -/
theorem update (recorded : Recorded old owner version before after)
    {next : HistoryTable α κ ν ρ} (sameRows : next.historical = after.historical)
    (elsewhere : ∀ other key, other ≠ owner → next.current other key = after.current other key)
    (archived : ∀ key, after.archived owner version key = none →
      next.current owner key = after.current owner key) :
    Recorded old owner version before next := by
  have rows : ∀ other at_ key, next.archived other at_ key = after.archived other at_ key := by
    intro other at_ key
    rw [HistoryTable.archived, sameRows, HistoryTable.archived]
  refine ⟨recorded.fresh, ?_, ?_, ?_, ?_⟩
  · intro other key apart
    rw [elsewhere other key apart, recorded.elsewhere other key apart]
  · intro other at_ key apart
    rw [rows, recorded.kept other at_ key apart]
  · intro key found
    rw [rows] at found
    rw [archived key found, recorded.unchanged key found]
  · intro key row found
    rw [rows] at found
    exact recorded.changed key row found

theorem put (recorded : Recorded old owner version before after) {key : κ} (value : ν)
    (archived : after.archived owner version key ≠ none) :
    Recorded old owner version before (after.put owner key value) := by
  refine recorded.update rfl ?_ ?_
  · intro other asked apart
    rw [current_put, if_neg fun same => apart same.1.symm]
  · intro asked untouched
    rw [current_put, if_neg (by rintro ⟨-, rfl⟩; exact archived untouched)]

theorem drop (recorded : Recorded old owner version before after) {key : κ}
    (archived : after.archived owner version key ≠ none) :
    Recorded old owner version before (after.drop owner key) := by
  refine recorded.update rfl ?_ ?_
  · intro other asked apart
    rw [current_drop, if_neg fun same => apart same.1.symm]
  · intro asked untouched
    rw [current_drop, if_neg (by rintro ⟨-, rfl⟩; exact archived untouched)]

/-- The loop rule: a loop over distinct keys is recorded when each of its steps is, for a key
that was not touched yet, and archives that key only. -/
theorem foldl (recorded : Recorded old owner version before after) {ι : Type*} (key : ι → κ)
    (step : HistoryTable α κ ν ρ → ι → HistoryTable α κ ν ρ) (items : List ι)
    (distinct : (items.map key).Nodup)
    (untouched : ∀ item ∈ items, after.archived owner version (key item) = none)
    (steps : ∀ item ∈ items, ∀ table, Recorded old owner version before table →
      table.archived owner version (key item) = none →
      Recorded old owner version before (step table item))
    (archives : ∀ table item asked, (step table item).archived owner version asked = none ↔
      asked ≠ key item ∧ table.archived owner version asked = none) :
    Recorded old owner version before (items.foldl step after) ∧
      ∀ asked, (items.foldl step after).archived owner version asked = none ↔
        asked ∉ items.map key ∧ after.archived owner version asked = none := by
  induction items generalizing after with
  | nil => exact ⟨recorded, fun asked => by simp⟩
  | cons item rest inductionHypothesis =>
    obtain ⟨first, restDistinct⟩ := List.nodup_cons.mp distinct
    have stepped := steps item List.mem_cons_self after recorded (untouched item List.mem_cons_self)
    have later : ∀ other ∈ rest, (step after item).archived owner version (key other) = none := by
      intro other member
      have different : key other ≠ key item :=
        fun same => first (same ▸ List.mem_map_of_mem member)
      exact (archives after item _).mpr
        ⟨different, untouched other (List.mem_cons_of_mem item member)⟩
    obtain ⟨whole, listed⟩ := inductionHypothesis stepped restDistinct later
      (fun other member => steps other (List.mem_cons_of_mem item member))
    refine ⟨whole, fun asked => ?_⟩
    rw [List.foldl_cons, listed asked, archives, List.map_cons, List.mem_cons, not_or]
    tauto

theorem archived_archive_eq_none_iff (table : HistoryTable α κ ν ρ) (key asked : κ) (row : ρ) :
    (table.archive owner version key row).archived owner version asked = none ↔
      asked ≠ key ∧ table.archived owner version asked = none := by
  rw [archived_archive]
  by_cases same : key = asked
  · simp [same]
  · simp [same, Ne.symm same]

/-- Undoing the version of a recorded step gives back every latest value. -/
theorem current_restore (recorded : Recorded old owner version before after) (other : α)
    (key : κ) :
    (after.restore old owner version).current other key = before.current other key := by
  rw [HistoryTable.current_restore]
  by_cases same : other = owner
  · subst same
    rw [if_pos rfl]
    cases found : after.archived other version key with
    | none => exact recorded.unchanged key found
    | some row => exact recorded.changed key row found
  · rw [if_neg same]
    exact recorded.elsewhere other key same

end Recorded

/-- The rows of an owner were archived at a version or before. -/
def Below (table : HistoryTable α κ ν ρ) (owner : α) (version : ℕ) : Prop :=
  ∀ at_ key, table.archived owner at_ key ≠ none → at_ ≤ version

theorem Below.fresh {table : HistoryTable α κ ν ρ} {owner : α} {version later : ℕ}
    (below : table.Below owner version) (above : version < later) (key : κ) :
    table.archived owner later key = none := by
  by_contra archived
  exact absurd (below later key archived) (not_le.mpr above)

/-- A recorded step archives under its own version only. -/
theorem Recorded.below {old : ρ → Option ν} {owner : α} {version later : ℕ}
    {before after : HistoryTable α κ ν ρ} (recorded : Recorded old owner later before after)
    (below : before.Below owner version) (above : version < later) : after.Below owner later := by
  intro at_ key archived
  by_cases same : at_ = later
  · exact same.le
  · rw [recorded.kept owner at_ key fun both => same both.2] at archived
    exact (below at_ key archived).trans above.le

/-- Undoes versions in the given order and deletes their rows. -/
def undo (old : ρ → Option ν) (table : HistoryTable α κ ν ρ) (owner : α) (versions : List ℕ) :
    HistoryTable α κ ν ρ :=
  (versions.foldl (fun table version => table.restore old owner version) table).forget owner
    versions

theorem archived_foldl_restore (old : ρ → Option ν) (owner other : α) (versions : List ℕ)
    (table : HistoryTable α κ ν ρ) (version : ℕ) (key : κ) :
    (versions.foldl (fun table version => table.restore old owner version) table).archived other
        version key = table.archived other version key := by
  induction versions generalizing table with
  | nil => rfl
  | cons first rest inductionHypothesis =>
    rw [List.foldl_cons, inductionHypothesis, archived_restore]

/-- Undoing reads the latest values and the rows of the undone versions only. -/
theorem current_foldl_restore_congr (old : ρ → Option ν) (owner : α) (versions : List ℕ)
    (first second : HistoryTable α κ ν ρ)
    (latest : ∀ other key, first.current other key = second.current other key)
    (rows : ∀ version ∈ versions, ∀ key,
      first.archived owner version key = second.archived owner version key) (other : α) (key : κ) :
    (versions.foldl (fun table version => table.restore old owner version) first).current other
        key =
      (versions.foldl (fun table version => table.restore old owner version) second).current other
        key := by
  induction versions generalizing first second with
  | nil => exact latest other key
  | cons version rest inductionHypothesis =>
    refine inductionHypothesis _ _ ?_ ?_
    · intro other key
      rw [current_restore, current_restore, rows version List.mem_cons_self, latest]
    · intro later member key
      rw [archived_restore, archived_restore, rows later (List.mem_cons_of_mem version member)]

theorem current_foldl_restore_other (old : ρ → Option ν) {owner other : α}
    (different : other ≠ owner) (versions : List ℕ) (table : HistoryTable α κ ν ρ) (key : κ) :
    (versions.foldl (fun table version => table.restore old owner version) table).current other
      key = table.current other key := by
  induction versions generalizing table with
  | nil => rfl
  | cons version rest inductionHypothesis =>
    rw [List.foldl_cons, inductionHypothesis, current_restore, if_neg different]

/-- A recorded step is taken off the end of a run by undoing its version first. -/
theorem undo_cons {old : ρ → Option ν} {owner : α} {version : ℕ}
    {before after : HistoryTable α κ ν ρ} (recorded : Recorded old owner version before after)
    (versions : List ℕ) (earlier : version ∉ versions) :
    after.undo old owner (version :: versions) = before.undo old owner versions := by
  refine ext_lookup ?_ ?_
  · intro other key
    rw [undo, undo, current_forget, current_forget, List.foldl_cons]
    refine current_foldl_restore_congr old owner versions _ _ recorded.current_restore ?_ other key
    intro at_ member key
    rw [archived_restore, recorded.kept]
    rintro ⟨-, rfl⟩
    exact earlier member
  · intro other at_ key
    rw [undo, undo, archived_forget, archived_forget, archived_foldl_restore,
      archived_foldl_restore]
    by_cases same : other = owner ∧ at_ = version
    · obtain ⟨rfl, rfl⟩ := same
      rw [if_pos ⟨rfl, List.mem_cons_self⟩, if_neg fun gone => earlier gone.2, recorded.fresh]
    · rw [recorded.kept other at_ key same]
      refine if_congr ?_ rfl rfl
      rw [List.mem_cons]
      constructor
      · rintro ⟨rfl, rfl | member⟩
        · exact absurd ⟨rfl, rfl⟩ same
        · exact ⟨rfl, member⟩
      · exact fun gone => ⟨gone.1, Or.inr gone.2⟩

/-- Undoing no version changes nothing. -/
theorem undo_nil (old : ρ → Option ν) (table : HistoryTable α κ ν ρ) (owner : α) :
    table.undo old owner [] = table := by
  refine ext_lookup (fun _ _ => rfl) ?_
  intro other version key
  rw [undo, archived_forget, if_neg fun gone => List.not_mem_nil gone.2]
  rfl

/-! ### Tables without old versions -/

/-- The table lost exactly the archived rows of an owner up to a version. -/
structure LosesUpTo (before after : HistoryTable α κ ν ρ) (owner : α) (bound : ℕ) : Prop where
  latest : ∀ other key, after.current other key = before.current other key
  rows : ∀ other version key, after.archived other version key =
    if other = owner ∧ version ≤ bound then none else before.archived other version key

namespace LosesUpTo

variable {before after : HistoryTable α κ ν ρ} {owner other : α} {bound : ℕ}

theorem clear (loses : LosesUpTo before after owner bound) (other : α) :
    LosesUpTo (before.clear other) (after.clear other) owner bound where
  latest asked key := by
    rw [current_clear, current_clear, loses.latest]
  rows := loses.rows

/-- Undoing later versions, or versions of another owner, does not need the lost rows. -/
theorem foldl_restore (loses : LosesUpTo before after owner bound) (old : ρ → Option ν)
    {versions : List ℕ} (apart : other = owner → ∀ version ∈ versions, bound < version) :
    LosesUpTo (versions.foldl (fun table version => table.restore old other version) before)
      (versions.foldl (fun table version => table.restore old other version) after) owner
      bound where
  latest asked key := by
    refine current_foldl_restore_congr old other versions _ _ loses.latest ?_ asked key
    intro version listed key
    rw [loses.rows, if_neg fun lost => absurd (apart lost.1 version listed) (not_lt.mpr lost.2)]
  rows asked version key := by
    rw [archived_foldl_restore, archived_foldl_restore, loses.rows]

theorem forget (loses : LosesUpTo before after owner bound) (other : α) (versions : List ℕ) :
    LosesUpTo (before.forget other versions) (after.forget other versions) owner bound where
  latest := loses.latest
  rows asked version key := by
    rw [archived_forget, archived_forget, loses.rows]
    split
    · rw [ite_self]
    · rfl

end LosesUpTo

/-! ### One owner -/

/-- The rows of one owner are the same. -/
def SameOwner (first second : HistoryTable α κ ν ρ) (owner : α) : Prop :=
  (∀ key, first.current owner key = second.current owner key) ∧
    ∀ version key, first.archived owner version key = second.archived owner version key

/-- Undoing a version changes nothing of its owner exactly when the version has no rows. -/
theorem sameOwner_undo_iff (old : ρ → Option ν) (table : HistoryTable α κ ν ρ) (owner : α)
    (version : ℕ) :
    table.SameOwner (table.undo old owner [version]) owner ↔
      ∀ key, table.archived owner version key = none := by
  constructor
  · intro same key
    rw [same.2 version key, undo, archived_forget, if_pos ⟨rfl, List.mem_singleton_self version⟩]
  · intro fresh
    rw [undo_cons (Recorded.refl old fresh) [] List.not_mem_nil, undo_nil]
    exact ⟨fun _ => rfl, fun _ _ => rfl⟩

end HistoryTable
