/-
This file compares the four ways in which the stores write a block header: each store writes
single headers (`insert_block_header`) and those of a sync (`apply_state_sync`).

The store trait asks for one merge law: a header that is stored stays with its peaks, and only
its flag can be raised. The SQLite store follows it on both ways. The IndexedDB store puts a
single header over the stored one, and leaves a stored header alone in a sync, so it follows the
law only when the written header differs in nothing, or asks for nothing.
-/

import MidenClient.Library.Run
import MidenClient.Sqlite.BlockHeaders

namespace MidenClient

open Std (ExtTreeMap)

/-! ### Writes of headers -/

/-- The headers of a sync are filed under their block numbers. -/
def BlockUpdates.Keyed (updates : BlockUpdates) : Prop :=
  ∀ (blockNum : BlockNumber) entry, updates.blockHeaders[blockNum]? = some entry →
    entry.1.blockNum = blockNum

theorem BlockUpdates.Keyed.empty : BlockUpdates.empty.Keyed := by
  intro blockNum entry found
  rw [BlockUpdates.empty, ExtTreeMap.getElem?_empty] at found
  cases found

theorem BlockUpdates.Keyed.insert {updates : BlockUpdates} (keyed : updates.Keyed)
    (blockHeader : BlockHeader) (hasClientNotes : Bool) (peaks : List Word)
    (nodes : List MmrNode) : (updates.insert blockHeader hasClientNotes peaks nodes).Keyed := by
  intro blockNum entry found
  unfold BlockUpdates.insert at found
  dsimp only at found
  split at found
  all_goals
    rw [ExtTreeMap.getElem?_insert] at found
    split at found
  · rename_i existing same
    cases found
    exact (keyed _ _ existing).trans (Std.compare_eq_iff_eq.mp same)
  · exact keyed blockNum entry found
  · rename_i same
    cases found
    exact Std.compare_eq_iff_eq.mp same
  · exact keyed blockNum entry found

/-- A write to the block header table. -/
inductive HeaderWrite where
  | insertBlockHeader (blockHeader : BlockHeader) (peaks : List Word) (hasClientNotes : Bool)
  | applyStateSync (updates : {updates : BlockUpdates // updates.Keyed})

/-- What a write has for a block. -/
def HeaderWrite.entryFor (blockNum : BlockNumber) :
    HeaderWrite → Option (BlockHeader × Bool × List Word)
  | .insertBlockHeader blockHeader peaks hasClientNotes =>
    if blockHeader.blockNum = blockNum then some (blockHeader, hasClientNotes, peaks) else none
  | .applyStateSync updates => updates.1.blockHeaders[blockNum]?

def StoreKind.write (kind : StoreKind) (chain : ChainData) : HeaderWrite → ChainData
  | .insertBlockHeader blockHeader peaks hasClientNotes =>
    kind.insertBlockHeader chain blockHeader peaks hasClientNotes
  | .applyStateSync updates => kind.applyBlockUpdates chain updates.1

/-! ### The merge law -/

/-- A stored header is raised by a later write, and a first write is stored as it is. -/
def mergeEntry (row : Option StoredHeader) (entry : Option (BlockHeader × Bool × List Word)) :
    Option StoredHeader :=
  match row, entry with
  | some stored, some (_, hasClientNotes, _) =>
    some { stored with hasClientNotes := stored.hasClientNotes || hasClientNotes }
  | some stored, none => some stored
  | none, entry => entry.map fun (blockHeader, hasClientNotes, peaks) =>
    ⟨blockHeader, peaks, hasClientNotes⟩

/-- The first write with the flags of all or-ed. -/
def mergedRow (row : Option StoredHeader) (entries : List (BlockHeader × Bool × List Word)) :
    Option StoredHeader :=
  match row, entries with
  | some stored, entries =>
    some { stored with hasClientNotes := stored.hasClientNotes || entries.any fun entry =>
      entry.2.1 }
  | none, [] => none
  | none, (blockHeader, hasClientNotes, peaks) :: later =>
    some ⟨blockHeader, peaks, hasClientNotes || later.any fun entry => entry.2.1⟩

/-- After every one of the writes, the row of the block is the first write with the flags
or-ed. -/
def FollowsMergeLaw (kind : StoreKind) (blockNum : BlockNumber) (chain : ChainData)
    (writes : List HeaderWrite) : Prop :=
  ∀ reached, reached <+: writes → (reached.foldl kind.write chain).blockHeaders[blockNum]? =
    mergedRow chain.blockHeaders[blockNum]? (reached.filterMap (HeaderWrite.entryFor blockNum))

/-- The condition under which a write raises the row of a block and does nothing else to it. In the
IndexedDB store, a single header has to be the stored one, with its peaks, and with its flag if
it is flagged; a sync must not ask for a flag that is not there. -/
def StoreKind.RaisesOnly (kind : StoreKind) (blockNum : BlockNumber) (chain : ChainData)
    (write : HeaderWrite) : Prop :=
  kind = .idxdb → ∀ stored, chain.blockHeaders[blockNum]? = some stored → match write with
    | .insertBlockHeader blockHeader peaks hasClientNotes => blockHeader.blockNum = blockNum →
      blockHeader = stored.header ∧ peaks = stored.partialBlockchainPeaks ∧
        (stored.hasClientNotes = true → hasClientNotes = true)
    | .applyStateSync updates => ∀ entry, updates.1.blockHeaders[blockNum]? = some entry →
      entry.2.1 = true → stored.hasClientNotes = true

theorem mergedRow_nil (row : Option StoredHeader) : mergedRow row [] = row := by
  cases row with
  | none => rfl
  | some stored => simp [mergedRow]

theorem mergedRow_filterMap_cons (row : Option StoredHeader) (blockNum : BlockNumber)
    (write : HeaderWrite) (rest : List HeaderWrite) :
    mergedRow row ((write :: rest).filterMap (HeaderWrite.entryFor blockNum)) =
      mergedRow (mergeEntry row (write.entryFor blockNum))
        (rest.filterMap (HeaderWrite.entryFor blockNum)) := by
  rw [List.filterMap_cons]
  rcases row with _ | stored <;> rcases write.entryFor blockNum with _ | ⟨header, flag, peaks⟩
  · rfl
  · rfl
  · rfl
  · simp [mergedRow, mergeEntry, Bool.or_assoc]

/-- The law holds for a run when it holds for its first write and for what follows. -/
theorem followsMergeLaw_cons (kind : StoreKind) (blockNum : BlockNumber) (chain : ChainData)
    (write : HeaderWrite) (rest : List HeaderWrite) :
    FollowsMergeLaw kind blockNum chain (write :: rest) ↔
      (kind.write chain write).blockHeaders[blockNum]? =
          mergeEntry chain.blockHeaders[blockNum]? (write.entryFor blockNum) ∧
        FollowsMergeLaw kind blockNum (kind.write chain write) rest := by
  have first : FollowsMergeLaw kind blockNum chain (write :: rest) →
      (kind.write chain write).blockHeaders[blockNum]? =
        mergeEntry chain.blockHeaders[blockNum]? (write.entryFor blockNum) := by
    intro law
    have once := law [write] ⟨rest, rfl⟩
    rwa [mergedRow_filterMap_cons, List.filterMap_nil, mergedRow_nil] at once
  constructor
  · intro law
    refine ⟨first law, ?_⟩
    rintro reached ⟨later, rfl⟩
    rw [first law, ← mergedRow_filterMap_cons]
    exact law (write :: reached) ⟨later, rfl⟩
  · rintro ⟨once, law⟩ reached prefixed
    rcases reached with _ | ⟨head, reached⟩
    · rw [List.filterMap_nil, mergedRow_nil, List.foldl_nil]
    · obtain ⟨rfl, earlier⟩ := List.cons_prefix_cons.mp prefixed
      rw [mergedRow_filterMap_cons, ← once]
      exact law reached earlier

/-! ### What the stores do to a row -/

namespace StoreKind

/-- The row of a block after a header of a sync was written for it. -/
def syncedRow (kind : StoreKind) (row : Option StoredHeader)
    (entry : BlockHeader × Bool × List Word) : StoredHeader :=
  match kind, row with
  | _, none => ⟨entry.1, entry.2.2, entry.2.1⟩
  | .sqlite, some stored => { stored with hasClientNotes := stored.hasClientNotes || entry.2.1 }
  | .idxdb, some stored => stored

theorem applyBlockHeader_getElem? (kind : StoreKind) (chain : ChainData)
    (entry : BlockHeader × Bool × List Word) (other : BlockNumber) :
    (kind.applyBlockHeader chain entry).blockHeaders[other]? =
      if entry.1.blockNum = other then some (kind.syncedRow chain.blockHeaders[other]? entry)
      else chain.blockHeaders[other]? := by
  cases kind with
  | sqlite =>
    change (chain.insertBlockHeaderTx entry.1 entry.2.2 entry.2.1).blockHeaders[other]? = _
    rw [ChainData.insertBlockHeaderTx_getElem?]
    cases chain.blockHeaders[other]? <;> rfl
  | idxdb =>
    change (chain.updateBlockHeader entry.1 entry.2.2 entry.2.1).blockHeaders[other]? = _
    unfold ChainData.updateBlockHeader ChainData.putBlockHeader
    by_cases same : entry.1.blockNum = other
    · subst same
      rw [if_pos rfl]
      cases found : chain.blockHeaders[entry.1.blockNum]? with
      | none => exact ExtTreeMap.getElem?_insert_self
      | some stored => exact found
    · rw [if_neg same]
      split
      · rfl
      · rw [ExtTreeMap.getElem?_insert, if_neg fun equal => same (Std.compare_eq_iff_eq.mp equal)]

theorem foldl_applyBlockHeader_of_ne (kind : StoreKind)
    {entries : List (BlockHeader × Bool × List Word)} {blockNum : BlockNumber}
    (others : ∀ entry ∈ entries, entry.1.blockNum ≠ blockNum) (chain : ChainData) :
    (entries.foldl kind.applyBlockHeader chain).blockHeaders[blockNum]? =
      chain.blockHeaders[blockNum]? := by
  induction entries generalizing chain with
  | nil => rfl
  | cons entry rest inductionHypothesis =>
    rw [List.foldl_cons,
      inductionHypothesis fun other member => others other (List.mem_cons_of_mem _ member),
      applyBlockHeader_getElem?, if_neg (others entry List.mem_cons_self)]

/-- Of several headers, each is written for a block of its own. -/
theorem foldl_applyBlockHeader_of_distinct (kind : StoreKind)
    {entries : List (BlockHeader × Bool × List Word)}
    (distinct : entries.Pairwise fun first second => first.1.blockNum ≠ second.1.blockNum)
    {entry : BlockHeader × Bool × List Word} (member : entry ∈ entries) (chain : ChainData) :
    (entries.foldl kind.applyBlockHeader chain).blockHeaders[entry.1.blockNum]? =
      some (kind.syncedRow chain.blockHeaders[entry.1.blockNum]? entry) := by
  induction entries generalizing chain with
  | nil => exact absurd member List.not_mem_nil
  | cons first rest inductionHypothesis =>
    obtain ⟨apart, restDistinct⟩ := List.pairwise_cons.mp distinct
    rw [List.foldl_cons]
    rcases List.mem_cons.mp member with rfl | later
    · rw [foldl_applyBlockHeader_of_ne kind (fun other inRest => Ne.symm (apart other inRest)),
        applyBlockHeader_getElem?, if_pos rfl]
    · rw [inductionHypothesis restDistinct later, applyBlockHeader_getElem?,
        if_neg (apart entry later)]

theorem applyBlockUpdates_blockHeaders (kind : StoreKind) (chain : ChainData)
    (updates : BlockUpdates) :
    (kind.applyBlockUpdates chain updates).blockHeaders =
      ((OrderedMap.values updates.blockHeaders).foldl kind.applyBlockHeader
        chain).blockHeaders := by
  cases kind <;> rfl

theorem applyBlockUpdates_getElem? (kind : StoreKind) (chain : ChainData)
    {updates : BlockUpdates} (keyed : updates.Keyed) (blockNum : BlockNumber) :
    (kind.applyBlockUpdates chain updates).blockHeaders[blockNum]? =
      match updates.blockHeaders[blockNum]? with
      | some entry => some (kind.syncedRow chain.blockHeaders[blockNum]? entry)
      | none => chain.blockHeaders[blockNum]? := by
  rw [applyBlockUpdates_blockHeaders]
  split
  · rename_i entry found
    have distinct : (OrderedMap.values updates.blockHeaders).Pairwise
        fun first second => first.1.blockNum ≠ second.1.blockNum := by
      refine List.pairwise_map.mpr ((OrderedMap.pairwise_lt_toList _).imp_of_mem ?_)
      intro first second firstMember secondMember below same
      have firstKey := keyed _ _ (ExtTreeMap.mem_toList_iff_getElem?_eq_some.mp firstMember)
      have secondKey := keyed _ _ (ExtTreeMap.mem_toList_iff_getElem?_eq_some.mp secondMember)
      exact Nat.ne_of_lt below (firstKey.symm.trans (same.trans secondKey))
    have written := foldl_applyBlockHeader_of_distinct kind distinct
      (OrderedMap.mem_values_iff.mpr ⟨blockNum, found⟩) chain
    rwa [keyed blockNum entry found] at written
  · rename_i absent
    refine foldl_applyBlockHeader_of_ne kind (fun entry member same => ?_) chain
    obtain ⟨key, found⟩ := OrderedMap.mem_values_iff.mp member
    rw [← keyed key entry found, same, absent] at found
    cases found

/-! ### When the stores follow the law -/

theorem replaced_eq_raised_iff (stored : StoredHeader) (blockHeader : BlockHeader)
    (peaks : List Word) (hasClientNotes : Bool) :
    some (⟨blockHeader, peaks, hasClientNotes⟩ : StoredHeader) =
        some { stored with hasClientNotes := stored.hasClientNotes || hasClientNotes } ↔
      blockHeader = stored.header ∧ peaks = stored.partialBlockchainPeaks ∧
        (stored.hasClientNotes = true → hasClientNotes = true) := by
  cases stored with
  | mk header partialBlockchainPeaks flag => cases flag <;> simp

theorem kept_eq_raised_iff (stored : StoredHeader) (hasClientNotes : Bool) :
    some stored = some { stored with hasClientNotes := stored.hasClientNotes || hasClientNotes } ↔
      (hasClientNotes = true → stored.hasClientNotes = true) := by
  cases stored with
  | mk header partialBlockchainPeaks flag => cases flag <;> cases hasClientNotes <;> simp

/-- In the SQLite store every write follows the law. -/
theorem sqlite_write_getElem? (blockNum : BlockNumber) (chain : ChainData) (write : HeaderWrite) :
    (sqlite.write chain write).blockHeaders[blockNum]? =
      mergeEntry chain.blockHeaders[blockNum]? (write.entryFor blockNum) := by
  cases write with
  | insertBlockHeader blockHeader peaks hasClientNotes =>
    change (chain.insertBlockHeaderTx blockHeader peaks hasClientNotes).blockHeaders[blockNum]? = _
    rw [ChainData.insertBlockHeaderTx_getElem?, HeaderWrite.entryFor]
    split
    · cases chain.blockHeaders[blockNum]? <;> rfl
    · cases chain.blockHeaders[blockNum]? <;> rfl
  | applyStateSync updates =>
    rw [write, applyBlockUpdates_getElem? sqlite chain updates.2, HeaderWrite.entryFor]
    cases updates.1.blockHeaders[blockNum]? <;> cases chain.blockHeaders[blockNum]? <;> rfl

/-- In the IndexedDB store a single header is put over the stored one. -/
theorem idxdb_insert_getElem? (blockNum : BlockNumber) (chain : ChainData)
    (blockHeader : BlockHeader) (peaks : List Word) (hasClientNotes : Bool) :
    (idxdb.write chain (.insertBlockHeader blockHeader peaks
      hasClientNotes)).blockHeaders[blockNum]? =
      if blockHeader.blockNum = blockNum then some ⟨blockHeader, peaks, hasClientNotes⟩
      else chain.blockHeaders[blockNum]? := by
  change (chain.putBlockHeader blockHeader peaks hasClientNotes).blockHeaders[blockNum]? = _
  unfold ChainData.putBlockHeader
  simp only [ExtTreeMap.getElem?_insert, Std.compare_eq_iff_eq]

/-- A write follows the law exactly when it raises the row only. -/
theorem write_getElem?_eq_merge_iff (kind : StoreKind) (blockNum : BlockNumber)
    (chain : ChainData) (write : HeaderWrite) :
    (kind.write chain write).blockHeaders[blockNum]? =
        mergeEntry chain.blockHeaders[blockNum]? (write.entryFor blockNum) ↔
      kind.RaisesOnly blockNum chain write := by
  cases kind with
  | sqlite => exact ⟨fun _ => nofun, fun _ => sqlite_write_getElem? blockNum chain write⟩
  | idxdb =>
    unfold RaisesOnly
    simp only [true_implies]
    cases write with
    | insertBlockHeader blockHeader peaks hasClientNotes =>
      rw [idxdb_insert_getElem?, HeaderWrite.entryFor]
      cases found : chain.blockHeaders[blockNum]? with
      | none => split <;> simp [mergeEntry]
      | some stored =>
        by_cases same : blockHeader.blockNum = blockNum
        · rw [if_pos same, if_pos same, mergeEntry, replaced_eq_raised_iff]
          exact ⟨fun equal _ known _ => Option.some.inj known ▸ equal,
            fun law => law stored rfl same⟩
        · rw [if_neg same, if_neg same]
          exact ⟨fun _ _ _ written => absurd written same, fun _ => rfl⟩
    | applyStateSync updates =>
      rw [StoreKind.write, applyBlockUpdates_getElem? idxdb chain updates.2, HeaderWrite.entryFor]
      cases chain.blockHeaders[blockNum]? with
      | none => cases updates.1.blockHeaders[blockNum]? <;> simp [mergeEntry, syncedRow]
      | some stored =>
        cases written : updates.1.blockHeaders[blockNum]? with
        | none =>
          exact ⟨fun _ _ _ entry found => (nomatch written.symm.trans found), fun _ => rfl⟩
        | some entry =>
          change some stored = some _ ↔ _
          rw [kept_eq_raised_iff]
          refine ⟨fun asked other known later found => ?_, fun law => law stored rfl entry written⟩
          cases known
          cases written.symm.trans found
          exact asked

end StoreKind

/-- The stores follow the merge law in a run of writes exactly when every write meets the
condition in the state in which it is made. -/
theorem followsMergeLaw_iff (kind : StoreKind) (blockNum : BlockNumber) (chain : ChainData)
    (writes : List HeaderWrite) :
    FollowsMergeLaw kind blockNum chain writes ↔
      Run.Conforms kind.write (kind.RaisesOnly blockNum) chain writes := by
  induction writes generalizing chain with
  | nil =>
    refine ⟨fun _ => trivial, fun _ reached prefixed => ?_⟩
    rw [List.prefix_nil.mp prefixed, List.filterMap_nil, mergedRow_nil, List.foldl_nil]
  | cons write rest inductionHypothesis =>
    rw [followsMergeLaw_cons, StoreKind.write_getElem?_eq_merge_iff, inductionHypothesis,
      Run.Conforms]

namespace Sample

def fifthHeader : BlockHeader :=
  ⟨5, 8, 200⟩

/-- A sync stores a block with notes of the client, and the block is written once more with the
peaks of a larger forest and without the flag. -/
def overwrites : List HeaderWrite :=
  [.applyStateSync ⟨BlockUpdates.empty.insert fifthHeader true [11] [],
    BlockUpdates.Keyed.empty.insert _ _ _ _⟩, .insertBlockHeader fifthHeader [12] false]

/-- The IndexedDB store loses the peaks and the flag. -/
theorem not_followsMergeLaw_overwritten :
    ¬FollowsMergeLaw .idxdb 5 .empty overwrites := by
  intro law
  have merged := law overwrites List.prefix_rfl
  have overwritten : (overwrites.foldl StoreKind.idxdb.write .empty).blockHeaders[5]? =
      some ⟨fifthHeader, [12], false⟩ := by decide +kernel
  rw [overwritten] at merged
  have kept : mergedRow ChainData.empty.blockHeaders[5]?
      (overwrites.filterMap (HeaderWrite.entryFor 5)) = some ⟨fifthHeader, [11], true⟩ := by
    decide +kernel
  cases merged.trans kept

end Sample

end MidenClient
