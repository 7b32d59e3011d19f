/-
This file follows the root list of an account through its transactions.

The list that is staged for a transaction is the registered one with the final vault root
in front and the changed map roots replaced. A map root is found by its old value, so a
search can hit any entry with that value. Among stored maps this makes no difference: the
list is right up to its order. It makes a difference for the entry in front, which the
next transaction takes for the vault root. And a map that is new has no entry: the search
for the empty root can hit the one of an empty vault or of another empty map, which is then
missing from the list.
-/

import MidenClient.Sqlite.Accounts

namespace MidenClient

open Std (ExtTreeMap)

/-! ### Replacing roots in a list -/

/-- Replacing a root that is in the list exchanges one copy of it for the new root. -/
theorem replaceMapRoot_perm {roots : List Word} {oldRoot : Word} (newRoot : Word)
    (member : oldRoot ∈ roots) :
    (replaceMapRoot roots oldRoot newRoot).Perm (newRoot :: roots.erase oldRoot) := by
  induction roots with
  | nil => cases member
  | cons root rest inductionHypothesis =>
    unfold replaceMapRoot at inductionHypothesis ⊢
    rw [List.findIdx?_cons]
    by_cases same : root = oldRoot
    · rw [if_pos (beq_iff_eq.mpr same), same, List.erase_cons_head]
      exact List.Perm.refl _
    · rw [if_neg (by rwa [beq_iff_eq]), List.erase_cons_tail (by rwa [beq_iff_eq])]
      have later := inductionHypothesis ((List.mem_cons.mp member).resolve_left (Ne.symm same))
      rcases found : rest.findIdx? (· == oldRoot) with _ | index
      · rw [List.findIdx?_eq_none_iff] at found
        have absent := found oldRoot ((List.mem_cons.mp member).resolve_left (Ne.symm same))
        rw [beq_self_eq_true] at absent
        cases absent
      · rw [found] at later
        exact (later.cons root).trans (List.Perm.swap _ _ _)

/-- A root that is not in the list is appended. -/
theorem replaceMapRoot_of_not_mem {roots : List Word} {oldRoot : Word} (newRoot : Word)
    (absent : oldRoot ∉ roots) : replaceMapRoot roots oldRoot newRoot = roots ++ [newRoot] := by
  unfold replaceMapRoot
  have none_ : roots.findIdx? (· == oldRoot) = none := by
    refine List.findIdx?_eq_none_iff.mpr fun root member => ?_
    rw [beq_eq_false_iff_ne]
    exact fun same => absent (same ▸ member)
  rw [none_]

/-- The copies of a root in the list after a replacement. -/
theorem count_replaceMapRoot (roots : List Word) (oldRoot newRoot root : Word) :
    (replaceMapRoot roots oldRoot newRoot).count root =
      (if oldRoot = root then roots.count root - 1 else roots.count root) +
        if newRoot = root then 1 else 0 := by
  by_cases member : oldRoot ∈ roots
  · rw [(replaceMapRoot_perm newRoot member).count_eq, List.count_cons, List.count_erase]
    by_cases same : oldRoot = root
    · rw [if_pos same, if_pos (beq_iff_eq.mpr same)]
      simp only [beq_iff_eq]
    · rw [if_neg same, if_neg (by rwa [beq_iff_eq]), Nat.sub_zero]
      simp only [beq_iff_eq]
  · rw [replaceMapRoot_of_not_mem newRoot member, List.count_append, List.count_singleton]
    by_cases same : oldRoot = root
    · rw [if_pos same, List.count_eq_zero.mpr (same ▸ member)]
      simp only [beq_iff_eq]
    · rw [if_neg same]
      simp only [beq_iff_eq]

/-- The entry in front is replaced when it has the old value. -/
theorem head?_replaceMapRoot (front : Word) (rest : List Word) (oldRoot newRoot : Word) :
    (replaceMapRoot (front :: rest) oldRoot newRoot).head? =
      some (if front = oldRoot then newRoot else front) := by
  unfold replaceMapRoot
  rw [List.findIdx?_cons]
  by_cases same : front = oldRoot
  · rw [if_pos (beq_iff_eq.mpr same), if_pos same]
    rfl
  · rw [if_neg (by rwa [beq_iff_eq]), if_neg same]
    rcases rest.findIdx? (· == oldRoot) with _ | index <;> rfl

section Library

variable [ProtocolLibrary]

/-- Replaces the roots of the maps among the updated slots. -/
def replaceMapRoots (roots : List Word) (oldMapRoots : ExtTreeMap StorageSlotName Word)
    (slots : List (StorageSlotName × Word × StorageSlotType)) : List Word :=
  slots.foldl (fun roots slot =>
    match slot.2.2 with
    | .map => replaceMapRoot roots (oldMapRoots[slot.1]?.getD ProtocolLibrary.emptySmtRoot)
        slot.2.1
    | .value => roots) roots

theorem finalRoots_eq (registered : List Word) (vaultRoot : Word)
    (oldMapRoots : ExtTreeMap StorageSlotName Word)
    (slots : ExtTreeMap StorageSlotName (Word × StorageSlotType)) :
    finalRoots registered vaultRoot oldMapRoots slots =
      replaceMapRoots (registered.set 0 vaultRoot) oldMapRoots slots.toList :=
  rfl

/-- What becomes of a root in front of the list: a map with this old root replaces it. -/
def frontAfter (front : Word) (oldMapRoots : ExtTreeMap StorageSlotName Word)
    (slots : List (StorageSlotName × Word × StorageSlotType)) : Word :=
  slots.foldl (fun front slot =>
    match slot.2.2 with
    | .map => if front = oldMapRoots[slot.1]?.getD ProtocolLibrary.emptySmtRoot then slot.2.1
        else front
    | .value => front) front

/-- The copies of the root of an empty tree: those in the list, and those that the list lacks. -/
structure EmptyRoots where
  inList : ℕ
  lost : ℕ

/-- A map is looked for by its old root, which is the empty one for a new map. A new map that finds
an entry takes one that is not its own; a stored map that finds none is one whose entry was
taken. -/
def EmptyRoots.afterSlot (counts : EmptyRoots) (oldRoot : Option Word) (newRoot : Word) :
    EmptyRoots where
  inList := (if oldRoot.getD ProtocolLibrary.emptySmtRoot = ProtocolLibrary.emptySmtRoot then
      counts.inList - 1 else counts.inList) +
    if newRoot = ProtocolLibrary.emptySmtRoot then 1 else 0
  lost := match oldRoot with
    | none => if counts.inList = 0 then counts.lost else counts.lost + 1
    | some root => if root = ProtocolLibrary.emptySmtRoot ∧ counts.inList = 0 then counts.lost - 1
        else counts.lost

/-- What becomes of the empty roots while the maps among the updated slots are replaced. -/
def EmptyRoots.after (counts : EmptyRoots) (oldMapRoots : ExtTreeMap StorageSlotName Word)
    (slots : List (StorageSlotName × Word × StorageSlotType)) : EmptyRoots :=
  slots.foldl (fun counts slot =>
    match slot.2.2 with
    | .map => counts.afterSlot oldMapRoots[slot.1]? slot.2.1
    | .value => counts) counts

theorem head?_replaceMapRoots (front : Word) (rest : List Word)
    (oldMapRoots : ExtTreeMap StorageSlotName Word)
    (slots : List (StorageSlotName × Word × StorageSlotType)) :
    (replaceMapRoots (front :: rest) oldMapRoots slots).head? =
      some (frontAfter front oldMapRoots slots) := by
  unfold replaceMapRoots frontAfter
  induction slots generalizing front rest with
  | nil => rfl
  | cons slot later inductionHypothesis =>
    rw [List.foldl_cons, List.foldl_cons]
    rcases slot with ⟨slotName, newRoot, _ | _⟩
    · exact inductionHypothesis front rest
    · have replaced := head?_replaceMapRoot front rest
        (oldMapRoots[slotName]?.getD ProtocolLibrary.emptySmtRoot) newRoot
      obtain ⟨others, same⟩ := List.head?_eq_some_iff.mp replaced
      dsimp only
      rw [same]
      exact inductionHypothesis _ others

end Library

/-! ### The map roots of an account -/

/-- The root of a slot of the account, when the slot is a map. -/
def mapRootOf (accountId : AccountId)
    (entry : (AccountId ×ₗ StorageSlotName) × Word × StorageSlotType) : Option Word :=
  if (ofLex entry.1).1 = accountId ∧ entry.2.2 = .map then some entry.2.1 else none

/-- The roots of all map slots of an account. -/
def mapRoots (slots : ExtTreeMap (AccountId ×ₗ StorageSlotName) (Word × StorageSlotType))
    (accountId : AccountId) : Multiset Word :=
  ↑(slots.toList.filterMap (mapRootOf accountId))

section MapRoots

variable (slots : ExtTreeMap (AccountId ×ₗ StorageSlotName) (Word × StorageSlotType))

theorem mapRoots_insert (accountId : AccountId) (key : AccountId ×ₗ StorageSlotName)
    (value : Word × StorageSlotType) :
    mapRoots (slots.insert key value) accountId =
      ↑(mapRootOf accountId (key, value)).toList + mapRoots (slots.erase key) accountId := by
  unfold mapRoots
  rw [Multiset.coe_add, Multiset.coe_eq_coe]
  refine ((OrderedMap.toList_insert_perm slots key value).filterMap _).trans ?_
  rcases rooted : mapRootOf accountId (key, value) with _ | root
  · rw [List.filterMap_cons_none rooted]
    exact List.Perm.refl _
  · rw [List.filterMap_cons_some rooted]
    exact List.Perm.refl _

/-- The map roots are the one of a stored slot, if it is a map, and those of the others. -/
theorem mapRoots_erase (accountId : AccountId) (key : AccountId ×ₗ StorageSlotName) :
    mapRoots slots accountId = ↑((slots[key]?).bind fun value =>
      mapRootOf accountId (key, value)).toList + mapRoots (slots.erase key) accountId := by
  rcases found : slots[key]? with _ | value
  · rw [OrderedMap.erase_of_getElem?_eq_none found]
    exact (zero_add _).symm
  · have same : slots.insert key value = slots := by
      refine ExtTreeMap.ext_getElem? fun other => ?_
      rw [ExtTreeMap.getElem?_insert]
      split
      · rename_i equal
        rw [← Std.compare_eq_iff_eq.mp equal, found]
      · rfl
    nth_rewrite 1 [← same]
    exact mapRoots_insert slots accountId key value

end MapRoots

/-! ### Writing slots and replacing roots -/

section Library

variable [ProtocolLibrary]

/-- A slot is written as a map only over a stored map, whose root is the one that is looked for, or
where nothing is stored, and as a value only where no map is stored. -/
def WritesStoredMap (oldMapRoots : ExtTreeMap StorageSlotName Word)
    (stored : Option (Word × StorageSlotType)) (slot : StorageSlotName × Word × StorageSlotType) :
    Prop :=
  match slot.2.2 with
  | .map => (∃ root, stored = some (root, .map) ∧ oldMapRoots[slot.1]? = some root) ∨
      stored = none ∧ oldMapRoots[slot.1]? = none
  | .value => ∀ root, stored ≠ some (root, .map)

/-- The list has the vault root and the map roots, up to the empty roots that it lacks. -/
structure EmptyRoots.InStep (counts : EmptyRoots) (vaultRoot : Word) (roots : List Word)
    (mapRoots : Multiset Word) : Prop where
  inList : roots.count ProtocolLibrary.emptySmtRoot = counts.inList
  lost : (roots : Multiset Word) + Multiset.replicate counts.lost ProtocolLibrary.emptySmtRoot =
    vaultRoot ::ₘ mapRoots

namespace EmptyRoots.InStep

variable {counts : EmptyRoots} {vaultRoot root : Word} {roots : List Word} {others : Multiset Word}

/-- Replacing the root of a stored map. -/
theorem replaceStored (inStep : counts.InStep vaultRoot roots (root ::ₘ others)) (newRoot : Word) :
    (counts.afterSlot (some root) newRoot).InStep vaultRoot (replaceMapRoot roots root newRoot)
      (newRoot ::ₘ others) := by
  refine ⟨?_, ?_⟩
  · rw [count_replaceMapRoot, inStep.inList]
    rfl
  have whole : (roots : Multiset Word) +
      Multiset.replicate counts.lost ProtocolLibrary.emptySmtRoot =
        root ::ₘ vaultRoot ::ₘ others := inStep.lost.trans (Multiset.cons_swap _ _ _)
  by_cases member : root ∈ roots
  · have kept : (counts.afterSlot (some root) newRoot).lost = counts.lost := by
      refine if_neg fun both => ?_
      rw [← inStep.inList, ← both.1, List.count_eq_zero] at both
      exact both.2 member
    have erased : ((roots.erase root : List Word) : Multiset Word) +
        Multiset.replicate counts.lost ProtocolLibrary.emptySmtRoot = vaultRoot ::ₘ others := by
      rw [← Multiset.coe_erase, ← Multiset.erase_add_left_pos _ (Multiset.mem_coe.mpr member),
        whole, Multiset.erase_cons_head]
    rw [kept, Multiset.coe_eq_coe.mpr (replaceMapRoot_perm newRoot member), ← Multiset.cons_coe,
      Multiset.cons_add, erased]
    exact Multiset.cons_swap _ _ _
  · -- The entry of the map was taken, so it is one of the empty roots that the list lacks.
    have taken : root ∈ Multiset.replicate counts.lost ProtocolLibrary.emptySmtRoot := by
      have listed : root ∈ (roots : Multiset Word) +
          Multiset.replicate counts.lost ProtocolLibrary.emptySmtRoot := by
        rw [whole]
        exact Multiset.mem_cons_self _ _
      exact (Multiset.mem_add.mp listed).resolve_left fun present => member present
    obtain ⟨positive, empty⟩ := Multiset.mem_replicate.mp taken
    subst empty
    have fewer : (counts.afterSlot (some ProtocolLibrary.emptySmtRoot) newRoot).lost =
        counts.lost - 1 := by
      refine if_pos ⟨rfl, ?_⟩
      rw [← inStep.inList, List.count_eq_zero]
      exact member
    obtain ⟨lost, same⟩ := Nat.exists_eq_succ_of_ne_zero positive
    rw [fewer, same, Nat.succ_sub_one, replaceMapRoot_of_not_mem newRoot member]
    rw [same, Multiset.replicate_succ, Multiset.add_cons] at whole
    have cancelled := (Multiset.cons_inj_right _).mp whole
    rw [← Multiset.coe_add, add_right_comm, cancelled, Multiset.coe_singleton,
      Multiset.add_comm, Multiset.singleton_add]
    exact Multiset.cons_swap _ _ _

/-- Adding the root of a new map. -/
theorem replaceNew (inStep : counts.InStep vaultRoot roots others) (newRoot : Word) :
    (counts.afterSlot none newRoot).InStep vaultRoot
      (replaceMapRoot roots ProtocolLibrary.emptySmtRoot newRoot) (newRoot ::ₘ others) := by
  refine ⟨?_, ?_⟩
  · rw [count_replaceMapRoot, inStep.inList]
    rfl
  by_cases member : ProtocolLibrary.emptySmtRoot ∈ roots
  · have more : (counts.afterSlot none newRoot).lost = counts.lost + 1 := by
      refine if_neg fun nothing => ?_
      rw [← inStep.inList, List.count_eq_zero] at nothing
      exact nothing member
    have restored : ((roots.erase ProtocolLibrary.emptySmtRoot : List Word) : Multiset Word) +
        Multiset.replicate (counts.lost + 1) ProtocolLibrary.emptySmtRoot =
          vaultRoot ::ₘ others := by
      rw [Multiset.replicate_succ, Multiset.add_cons, ← Multiset.cons_add, ← Multiset.coe_erase,
        Multiset.cons_erase (Multiset.mem_coe.mpr member), inStep.lost]
    rw [more, Multiset.coe_eq_coe.mpr (replaceMapRoot_perm newRoot member), ← Multiset.cons_coe,
      Multiset.cons_add, restored]
    exact Multiset.cons_swap _ _ _
  · have same : (counts.afterSlot none newRoot).lost = counts.lost := by
      refine if_pos ?_
      rw [← inStep.inList, List.count_eq_zero]
      exact member
    rw [same, replaceMapRoot_of_not_mem newRoot member, ← Multiset.coe_add, add_right_comm,
      inStep.lost, Multiset.coe_singleton, Multiset.add_comm, Multiset.singleton_add]
    exact Multiset.cons_swap _ _ _

/-- The list is right up to its order exactly when it lacks nothing. -/
theorem eq_iff (inStep : counts.InStep vaultRoot roots others) :
    (roots : Multiset Word) = vaultRoot ::ₘ others ↔ counts.lost = 0 := by
  rw [← inStep.lost]
  constructor
  · intro same
    have none_ := add_eq_left.mp same.symm
    rw [← Multiset.card_replicate counts.lost ProtocolLibrary.emptySmtRoot, none_]
    rfl
  · intro nothing
    rw [nothing]
    exact (add_zero _).symm

end EmptyRoots.InStep

/-- Writing a slot and replacing its root in the list keep the two in step. -/
theorem replaceMapRoots_step {oldMapRoots : ExtTreeMap StorageSlotName Word}
    {accountId : AccountId} {nonce : ℕ} {vaultRoot : Word} {roots : List Word}
    {counts : EmptyRoots} {table : HistoryTable AccountId StorageSlotName (Word × StorageSlotType)
      (Option Word × StorageSlotType)}
    {slot : StorageSlotName × Word × StorageSlotType}
    (writes : WritesStoredMap oldMapRoots (table.current accountId slot.1) slot)
    (inStep : counts.InStep vaultRoot roots (mapRoots table.latest accountId)) :
    (counts.after oldMapRoots [slot]).InStep vaultRoot (replaceMapRoots roots oldMapRoots [slot])
      (mapRoots (Database.writeSlot accountId nonce table slot).latest accountId) := by
  have before := mapRoots_erase table.latest accountId (toLex (accountId, slot.1))
  have after := mapRoots_insert table.latest accountId (toLex (accountId, slot.1)) slot.2
  have written : mapRoots (Database.writeSlot accountId nonce table slot).latest accountId =
      mapRoots (table.latest.insert (toLex (accountId, slot.1)) slot.2) accountId := rfl
  rw [written, after]
  obtain ⟨slotName, newRoot, slotType⟩ := slot
  let others := mapRoots (table.latest.erase (toLex (accountId, slotName))) accountId
  cases slotType with
  | value =>
    have notMap : (table.latest[toLex (accountId, slotName)]?.bind fun value =>
        mapRootOf accountId (toLex (accountId, slotName), value)) = none := by
      refine Option.bind_eq_none_iff.mpr fun value found => if_neg fun isMap => writes value.1 ?_
      rw [← isMap.2]
      exact found
    have value : mapRootOf accountId (toLex (accountId, slotName), newRoot, .value) = none :=
      if_neg fun isMap => nomatch isMap.2
    rw [notMap] at before
    rw [value, ← before]
    exact inStep
  | map =>
    have isMap : mapRootOf accountId (toLex (accountId, slotName), newRoot, .map) =
        some newRoot := if_pos ⟨rfl, rfl⟩
    rw [isMap, Option.toList_some, Multiset.coe_singleton, Multiset.singleton_add]
    show (counts.afterSlot oldMapRoots[slotName]? newRoot).InStep vaultRoot
      (replaceMapRoot roots (oldMapRoots[slotName]?.getD _) newRoot) _
    rcases writes with ⟨root, stored, listed⟩ | ⟨absent, unlisted⟩
    · have wasMap : (table.latest[toLex (accountId, slotName)]?.bind fun value =>
          mapRootOf accountId (toLex (accountId, slotName), value)) = some root := by
        rw [show table.latest[toLex (accountId, slotName)]? = _ from stored]
        exact if_pos ⟨rfl, rfl⟩
      rw [wasMap, Option.toList_some, Multiset.coe_singleton, Multiset.singleton_add] at before
      rw [before] at inStep
      rw [show oldMapRoots[slotName]? = some root from listed]
      exact inStep.replaceStored newRoot
    · have noMap : (table.latest[toLex (accountId, slotName)]?.bind fun value =>
          mapRootOf accountId (toLex (accountId, slotName), value)) = none := by
        rw [show table.latest[toLex (accountId, slotName)]? = none from absent]
        rfl
      rw [noMap] at before
      rw [before] at inStep
      rw [show oldMapRoots[slotName]? = none from unlisted]
      exact (show counts.InStep vaultRoot roots others by
        simpa using inStep).replaceNew newRoot

/-- Writing all slots and replacing all roots keep the list and the table in step. -/
theorem replaceMapRoots_inStep {oldMapRoots : ExtTreeMap StorageSlotName Word}
    {accountId : AccountId} {nonce : ℕ} {vaultRoot : Word}
    (slots : List (StorageSlotName × Word × StorageSlotType))
    (distinct : (slots.map Prod.fst).Nodup) (roots : List Word) (counts : EmptyRoots)
    (table : HistoryTable AccountId StorageSlotName (Word × StorageSlotType)
      (Option Word × StorageSlotType))
    (writes : ∀ slot ∈ slots, WritesStoredMap oldMapRoots (table.current accountId slot.1) slot)
    (inStep : counts.InStep vaultRoot roots (mapRoots table.latest accountId)) :
    (counts.after oldMapRoots slots).InStep vaultRoot (replaceMapRoots roots oldMapRoots slots)
      (mapRoots (slots.foldl (Database.writeSlot accountId nonce) table).latest accountId) := by
  induction slots generalizing roots counts table with
  | nil => exact inStep
  | cons slot rest inductionHypothesis =>
    rw [List.map_cons, List.nodup_cons] at distinct
    refine inductionHypothesis distinct.2 _ _ _ (fun other member => ?_)
      (replaceMapRoots_step (writes slot List.mem_cons_self) inStep)
    -- The other slots have other names, so they are still as they were.
    have different : slot.1 ≠ other.1 := by
      intro same
      exact distinct.1 (List.mem_map.mpr ⟨other, member, same.symm⟩)
    have kept : (Database.writeSlot accountId nonce table slot).current accountId other.1 =
        table.current accountId other.1 := by
      unfold Database.writeSlot
      rw [HistoryTable.current_put, if_neg (fun same => different same.2),
        HistoryTable.current_archive]
    rw [kept]
    exact writes other (List.mem_cons_of_mem _ member)

/-! ### Transactions -/

/-- An executed transaction, as far as its account is concerned. -/
structure ExecutedTransaction where
  initialAccount : AccountHeader
  finalAccount : AccountHeader
  accountDelta : AccountDelta
  sameAccount : finalAccount.id = initialAccount.id

namespace Database

/-- The account part of `apply_transaction`. -/
def applyTransaction (db : Database) (transaction : ExecutedTransaction) : ForestM Database :=
  let accountId := transaction.finalAccount.id
  db.applyAccountDelta transaction.initialAccount transaction.finalAccount
    (db.getAccountFungibleAssetsForDelta accountId transaction.accountDelta)
    (db.getStorageMapRootsForDelta accountId transaction.accountDelta) transaction.accountDelta

/-- The registered list of an account is its vault root, in front, and the roots of its maps. -/
def CorrectRoots (db : Database) (forest : AccountSmtForest) (accountId : AccountId) : Prop :=
  ∃ row rest, db.latestAccountHeaders[accountId]? = some row ∧
    forest.getRoots accountId = some (row.header.vaultRoot :: rest) ∧
    (rest : Multiset Word) = mapRoots db.accountStorage.latest accountId

end Database

namespace ExecutedTransaction

/-- The transaction was executed on the stored account: on its latest header, and with the types its
slots have. -/
structure ExecutedOn (transaction : ExecutedTransaction) (db : Database) : Prop where
  stored : db.latestAccountHeaders[transaction.finalAccount.id]?.map HeaderRow.header =
    some transaction.initialAccount
  typed : db.RespectsSlotTypes transaction.finalAccount.id transaction.accountDelta

/-- Following the final vault root through the changed maps, from one to the next whose old root
it is, leads back to it. -/
def KeepsVaultEntry (transaction : ExecutedTransaction) (db : Database) : Prop :=
  let oldMapRoots :=
    db.getStorageMapRootsForDelta transaction.finalAccount.id transaction.accountDelta
  frontAfter transaction.finalAccount.vaultRoot oldMapRoots
    (Database.updatedSlots (newMapRoots oldMapRoots transaction.accountDelta)
      transaction.accountDelta).toList = transaction.finalAccount.vaultRoot

/-- In the end as many entries of empty maps were taken by new maps as were missed. -/
def KeepsEmptyRoots (transaction : ExecutedTransaction) (db : Database) : Prop :=
  let oldMapRoots :=
    db.getStorageMapRootsForDelta transaction.finalAccount.id transaction.accountDelta
  let stored := transaction.finalAccount.vaultRoot ::ₘ
    mapRoots db.accountStorage.latest transaction.finalAccount.id
  ((EmptyRoots.mk (stored.count ProtocolLibrary.emptySmtRoot) 0).after oldMapRoots
    (Database.updatedSlots (newMapRoots oldMapRoots transaction.accountDelta)
      transaction.accountDelta).toList).lost = 0

end ExecutedTransaction

namespace Database

variable {db next : Database} {forest nextForest : AccountSmtForest}
  {transaction : ExecutedTransaction}

omit [ProtocolLibrary] in
theorem getStorageMapRootsForDelta_getElem? (db : Database) (accountId : AccountId)
    {delta : AccountDelta} {slotName : StorageSlotName} {root : Word} {slotType : StorageSlotType}
    (isMap : slotName ∈ delta.maps.map Prod.fst)
    (stored : db.accountStorage.current accountId slotName = some (root, slotType)) :
    (db.getStorageMapRootsForDelta accountId delta)[slotName]? = some root := by
  unfold getStorageMapRootsForDelta
  rw [OrderedMap.getElem?_ofList_eq_some_iff]
  · obtain ⟨slot, member, rfl⟩ := List.mem_map.mp isMap
    refine List.mem_filterMap.mpr ⟨slot, member, ?_⟩
    rw [stored]
    rfl
  · have names := delta.maps_nodup
    rw [List.Nodup, List.pairwise_map] at names ⊢
    rw [List.pairwise_filterMap]
    refine names.imp ?_
    intro first second different one foundOne two foundTwo same
    obtain ⟨_, _, rfl⟩ := Option.map_eq_some_iff.mp foundOne
    obtain ⟨_, _, rfl⟩ := Option.map_eq_some_iff.mp foundTwo
    exact different same

omit [ProtocolLibrary] in
/-- No root is read for a slot that is not stored. -/
theorem getStorageMapRootsForDelta_eq_none (db : Database) {accountId : AccountId}
    (delta : AccountDelta) {slotName : StorageSlotName}
    (absent : db.accountStorage.current accountId slotName = none) :
    (db.getStorageMapRootsForDelta accountId delta)[slotName]? = none := by
  unfold getStorageMapRootsForDelta
  rw [OrderedMap.getElem?_ofList, Option.map_eq_none_iff, List.getLast?_eq_none_iff,
    List.filter_eq_nil_iff]
  rintro ⟨name, root⟩ member same
  obtain ⟨slot, -, read⟩ := List.mem_filterMap.mp member
  obtain ⟨stored, found, listed⟩ := Option.map_eq_some_iff.mp read
  cases listed
  rw [of_decide_eq_true same, absent] at found
  cases found

omit [ProtocolLibrary] in
/-- Every slot of a delta that was executed on the stored account is written over a slot of its
type, and the root that is looked for is the stored one. -/
theorem writesStoredMap_of_executedOn (executed : transaction.ExecutedOn db)
    {slot : StorageSlotName × Word × StorageSlotType} {newRoots : StorageSlotName → Word}
    (member : slot ∈ (updatedSlots newRoots transaction.accountDelta).toList) :
    WritesStoredMap
      (db.getStorageMapRootsForDelta transaction.finalAccount.id transaction.accountDelta)
      (db.accountStorage.current transaction.finalAccount.id slot.1) slot := by
  have written := ExtTreeMap.mem_toList_iff_getElem?_eq_some.mp member
  rw [updatedSlots, ExtTreeMap.getElem?_map] at written
  obtain ⟨change, changed, same⟩ := Option.map_eq_some_iff.mp written
  unfold WritesStoredMap
  cases change with
  | value word =>
    rw [← same]
    intro root stored
    cases executed.typed slot.1 _ _ stored changed
  | map entries =>
    rw [← same]
    rcases stored : db.accountStorage.current transaction.finalAccount.id slot.1 with
      _ | ⟨root, slotType⟩
    · exact Or.inr ⟨rfl, db.getStorageMapRootsForDelta_eq_none _ stored⟩
    · have sameType : StorageSlotType.map = slotType := executed.typed slot.1 _ _ stored changed
      have isMap : slot.1 ∈ transaction.accountDelta.maps.map Prod.fst :=
        (AccountDelta.mem_maps_iff _ _).mpr ⟨entries, changed⟩
      refine Or.inl ⟨root, ?_, db.getStorageMapRootsForDelta_getElem? _ isMap stored⟩
      rw [sameType]

/-- What a successful transaction does to the latest headers, the slots and the forest. -/
theorem applyTransaction_eq_ok
    (applied : db.applyTransaction transaction forest = .ok next nextForest) :
    let oldMapRoots :=
      db.getStorageMapRootsForDelta transaction.finalAccount.id transaction.accountDelta
    let slots := updatedSlots (newMapRoots oldMapRoots transaction.accountDelta)
      transaction.accountDelta
    next.latestAccountHeaders =
      (db.replaceLatestHeader ⟨transaction.finalAccount, none, false⟩).latestAccountHeaders ∧
    next.accountStorage = slots.toList.foldl
      (writeSlot transaction.finalAccount.id transaction.finalAccount.nonce) db.accountStorage ∧
    ∃ registered, forest.getRoots transaction.finalAccount.id = some registered ∧
      ∀ accountId, nextForest.getRoots accountId =
        if transaction.finalAccount.id = accountId then
          some (finalRoots registered transaction.finalAccount.vaultRoot oldMapRoots slots)
        else forest.getRoots accountId := by
  intro oldMapRoots slots
  obtain ⟨registered, grown, tables, found, same, staged⟩ := applyAccountDelta_eq_ok applied
  obtain ⟨headed, inserted, afterHeader⟩ := Fallible.bind_eq_ok.mp tables
  obtain ⟨changes, computed, written⟩ := Fallible.bind_eq_ok.mp afterHeader
  obtain ⟨-, -, -, rfl⟩ :=
    (db.insertAccountHeader_some_eq_ok_iff headed _ _ none).mp inserted
  cases written
  refine ⟨?_, ?_, registered, ?_, fun accountId => ?_⟩
  · rw [writeStorageDelta_frame]
    rfl
  · exact writeStorageDelta_accountStorage _ _ _ _ _
  · rw [transaction.sameAccount]
    exact found
  · rw [staged]
    show (grown.accountRoots.insert _ _)[accountId]? = _
    rw [ExtTreeMap.getElem?_insert, same.accountRoots]
    simp only [Std.compare_eq_iff_eq]
    rfl

/-- A transaction on an account with a correct root list stages a correct root list exactly when
it keeps the vault root in front and the empty roots in the list. -/
theorem correctRoots_applied_iff (correct : db.CorrectRoots forest transaction.finalAccount.id)
    (executed : transaction.ExecutedOn db)
    (applied : db.applyTransaction transaction forest = .ok next nextForest) :
    next.CorrectRoots nextForest transaction.finalAccount.id ↔
      transaction.KeepsVaultEntry db ∧ transaction.KeepsEmptyRoots db := by
  obtain ⟨latest, storage, registered, found, roots⟩ := applyTransaction_eq_ok applied
  obtain ⟨row, rest, -, listed, inStep⟩ := correct
  rw [listed] at found
  cases found
  have staged := roots transaction.finalAccount.id
  rw [if_pos rfl, finalRoots_eq, List.set_cons_zero] at staged
  have newest : next.latestAccountHeaders[transaction.finalAccount.id]? =
      some ⟨transaction.finalAccount, none, false⟩ := by
    rw [latest]
    exact ExtTreeMap.getElem?_insert_self
  let oldMapRoots :=
    db.getStorageMapRootsForDelta transaction.finalAccount.id transaction.accountDelta
  let slots := updatedSlots (newMapRoots oldMapRoots transaction.accountDelta)
    transaction.accountDelta
  let counts : EmptyRoots := ⟨(transaction.finalAccount.vaultRoot ::ₘ
    mapRoots db.accountStorage.latest transaction.finalAccount.id).count
      ProtocolLibrary.emptySmtRoot, 0⟩
  have start : counts.InStep transaction.finalAccount.vaultRoot
      (transaction.finalAccount.vaultRoot :: rest)
      (mapRoots db.accountStorage.latest transaction.finalAccount.id) := by
    refine ⟨?_, ?_⟩
    · rw [← Multiset.coe_count, ← Multiset.cons_coe, inStep]
    · rw [← inStep]
      exact add_zero _
  have whole : (counts.after oldMapRoots slots.toList).InStep transaction.finalAccount.vaultRoot
      (replaceMapRoots (transaction.finalAccount.vaultRoot :: rest) oldMapRoots slots.toList)
      (mapRoots next.accountStorage.latest transaction.finalAccount.id) := by
    rw [storage]
    refine replaceMapRoots_inStep slots.toList ?_ _ _ db.accountStorage
      (fun slot member => writesStoredMap_of_executedOn executed member) start
    rw [ExtTreeMap.map_fst_toList_eq_keys]
    exact ExtTreeMap.nodup_keys
  have complete := whole.eq_iff
  obtain ⟨others, split⟩ := List.head?_eq_some_iff.mp
    (head?_replaceMapRoots transaction.finalAccount.vaultRoot rest oldMapRoots slots.toList)
  rw [split] at staged complete
  constructor
  · rintro ⟨newRow, newRest, stored, registered, right⟩
    rw [newest] at stored
    cases stored
    rw [staged] at registered
    obtain ⟨front, same⟩ := List.cons.inj (Option.some.inj registered)
    refine ⟨front, complete.mp ?_⟩
    rw [front, same, ← right]
    rfl
  · rintro ⟨keeps, nothing⟩
    have kept : frontAfter transaction.finalAccount.vaultRoot oldMapRoots slots.toList =
        transaction.finalAccount.vaultRoot := keeps
    have right := complete.mpr nothing
    rw [kept] at staged right
    exact ⟨_, others, newest, staged, (Multiset.cons_inj_right _).mp right⟩

/-! ### The other accounts -/

omit [ProtocolLibrary] in
theorem mapRoots_insert_other
    (slots : ExtTreeMap (AccountId ×ₗ StorageSlotName) (Word × StorageSlotType))
    {accountId other : AccountId} (different : accountId ≠ other) (slotName : StorageSlotName)
    (value : Word × StorageSlotType) :
    mapRoots (slots.insert (toLex (accountId, slotName)) value) other = mapRoots slots other := by
  have foreign : ∀ value, mapRootOf other (toLex (accountId, slotName), value) = none :=
    fun value => if_neg fun own => different own.1
  have old : (slots[toLex (accountId, slotName)]?.bind fun value =>
      mapRootOf other (toLex (accountId, slotName), value)) = none :=
    Option.bind_eq_none_iff.mpr fun value _ => foreign value
  rw [mapRoots_insert, mapRoots_erase slots other (toLex (accountId, slotName)), foreign, old]

omit [ProtocolLibrary] in
theorem mapRoots_foldl_writeSlot_other {accountId other : AccountId}
    (different : accountId ≠ other) (nonce : ℕ)
    (slots : List (StorageSlotName × Word × StorageSlotType))
    (table : HistoryTable AccountId StorageSlotName (Word × StorageSlotType)
      (Option Word × StorageSlotType)) :
    mapRoots (slots.foldl (writeSlot accountId nonce) table).latest other =
      mapRoots table.latest other := by
  induction slots generalizing table with
  | nil => rfl
  | cons slot rest inductionHypothesis =>
    refine (inductionHypothesis _).trans ?_
    exact mapRoots_insert_other table.latest different slot.1 slot.2

/-- A transaction leaves the root lists of the other accounts correct. -/
theorem correctRoots_other {other : AccountId} (different : transaction.finalAccount.id ≠ other)
    (correct : db.CorrectRoots forest other)
    (applied : db.applyTransaction transaction forest = .ok next nextForest)
    (stored : next.latestAccountHeaders[other]? ≠ none) : next.CorrectRoots nextForest other := by
  obtain ⟨latest, storage, _, -, roots⟩ := applyTransaction_eq_ok applied
  obtain ⟨row, rest, found, listed, inStep⟩ := correct
  obtain ⟨newRow, kept⟩ := Option.ne_none_iff_exists'.mp stored
  have same : newRow = row := by
    rw [latest, replaceLatestHeader, ExtTreeMap.getElem?_insert,
      if_neg (by rwa [Std.compare_eq_iff_eq]), ExtTreeMap.getElem?_filter', found] at kept
    exact (Option.some.inj (Option.filter_eq_some_iff.mp kept).1).symm
  refine ⟨row, rest, ?_, ?_, ?_⟩
  · rw [kept, same]
  · rw [roots other, if_neg different]
    exact listed
  · rw [storage, mapRoots_foldl_writeSlot_other different]
    exact inStep

/-- All stored accounts have correct root lists. -/
def AllRootsCorrect (db : Database) (forest : AccountSmtForest) : Prop :=
  ∀ accountId : AccountId, db.latestAccountHeaders[accountId]? ≠ none →
    db.CorrectRoots forest accountId

omit [ProtocolLibrary] in
/-- The account of a transaction that was executed on the stored account is stored. -/
theorem executedOn_present (executed : transaction.ExecutedOn db) :
    db.latestAccountHeaders[transaction.finalAccount.id]? ≠ none := by
  intro absent
  have stored := executed.stored
  rw [absent] at stored
  cases stored

theorem allRootsCorrect_step (correct : db.AllRootsCorrect forest)
    (executed : transaction.ExecutedOn db) (keepsVault : transaction.KeepsVaultEntry db)
    (keepsEmpty : transaction.KeepsEmptyRoots db)
    (applied : db.applyTransaction transaction forest = .ok next nextForest) :
    next.AllRootsCorrect nextForest := by
  intro accountId stored
  by_cases own : transaction.finalAccount.id = accountId
  · subst own
    exact (correctRoots_applied_iff (correct _ (executedOn_present executed)) executed applied).mpr
      ⟨keepsVault, keepsEmpty⟩
  · refine correctRoots_other own (correct accountId fun absent => stored ?_) applied stored
    obtain ⟨latest, -⟩ := applyTransaction_eq_ok applied
    rw [latest, replaceLatestHeader, ExtTreeMap.getElem?_insert,
      if_neg (by rwa [Std.compare_eq_iff_eq]), ExtTreeMap.getElem?_filter', absent]
    rfl

end Database

end Library

namespace Sample

open Database

/-- An account with an empty vault and an empty map. -/
def mapAccount : Account where
  id := 7
  vault := ∅
  storage := (∅ : ExtTreeMap StorageSlotName StorageSlotContent).insert 3 (.map ∅)
  codeCommitment := 3
  nonce := 1
  seed := none

def mapRow : HeaderRow :=
  ⟨mapAccount.toHeader, none, false⟩

/-- The store with this account. -/
def mapInserted : Database :=
  { Database.empty with
    accountCode := {3}
    latestAccountHeaders := (∅ : ExtTreeMap AccountId HeaderRow).insert 7 mapRow
    accountStorage := Database.empty.accountStorage.put 7 3 (0, .map) }

/-- The forest in which it is registered. -/
def mapRegistered : AccountSmtForest :=
  AccountSmtForest.new.stageRoots 7 [0, 0]

/-- The delta that sets one entry of the map, and adds assets to the vault. -/
def mapDelta (fungible : ExtTreeMap AccountId ℤ) : AccountDelta where
  storage := (∅ : ExtTreeMap StorageSlotName StorageSlotDelta).insert 3
    (.map ((∅ : ExtTreeMap StorageMapKey Word).insert 5 6))
  fungible := fungible
  nonFungible := ∅

/-- A transaction with this delta. -/
def setEntry (vaultRoot : Word) (fungible : ExtTreeMap AccountId ℤ) : ExecutedTransaction where
  initialAccount := mapAccount.toHeader
  finalAccount := { mapAccount.toHeader with nonce := 2, vaultRoot := vaultRoot }
  accountDelta := mapDelta fungible
  sameAccount := rfl

theorem mapInserted_latest (id : AccountId) :
    mapInserted.latestAccountHeaders[id]? = if 7 = id then some mapRow else none := by
  rw [mapInserted, ExtTreeMap.getElem?_insert]
  simp only [Std.compare_eq_iff_eq, ExtTreeMap.getElem?_empty]

theorem mapInserted_allRootsCorrect : mapInserted.AllRootsCorrect mapRegistered := by
  intro accountId stored
  rw [mapInserted_latest] at stored
  split at stored
  · rename_i same
    subst same
    refine ⟨mapRow, [0], (mapInserted_latest 7).trans (if_pos rfl), by decide +kernel, ?_⟩
    have roots : mapInserted.accountStorage.latest.toList.filterMap (mapRootOf 7) = [0] := by
      decide +kernel
    exact congrArg Multiset.ofList roots.symm
  · exact absurd rfl stored

theorem mapInserted_current (slotName : StorageSlotName) :
    mapInserted.accountStorage.current 7 slotName =
      if 3 = slotName then some (0, .map) else none := by
  refine (HistoryTable.current_put _ _ _ _ _ _).trans ?_
  simp only [true_and]
  rfl

/-- A delta whose only change of a slot is one of a map was executed on the account. -/
theorem executedOn_mapInserted {transaction : ExecutedTransaction} {slotName : StorageSlotName}
    {entries : ExtTreeMap StorageMapKey Word}
    (initial : transaction.initialAccount = mapAccount.toHeader)
    (changes : transaction.accountDelta.storage =
      (∅ : ExtTreeMap StorageSlotName StorageSlotDelta).insert slotName (.map entries)) :
    transaction.ExecutedOn mapInserted := by
  have own : transaction.finalAccount.id = 7 := by
    rw [transaction.sameAccount, initial]
    rfl
  refine ⟨?_, fun name stored change found changed => ?_⟩
  · rw [own, mapInserted_latest, initial]
    rfl
  · rw [own, mapInserted_current] at found
    rw [changes, ExtTreeMap.getElem?_insert] at changed
    split at changed
    · cases changed
      split at found
      · cases found
        rfl
      · cases found
    · cases changed

end Sample

end MidenClient
