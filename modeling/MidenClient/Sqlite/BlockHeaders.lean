/-
This file says what the SQLite store does to the rows of the block header table. A row is
never overwritten: a header that is written again can only raise the flag of its row. The
flag is lost with the row alone, and pruning keeps the rows that have it.
-/

import MidenClient.Store.ChainData

namespace MidenClient

open Std (ExtTreeMap)

namespace ChainData

theorem setBlockHeaderHasClientNotes_getElem? (chain : ChainData) (blockNum other : BlockNumber)
    (hasClientNotes : Bool) :
    (chain.setBlockHeaderHasClientNotes blockNum hasClientNotes).blockHeaders[other]? =
      if blockNum = other then
        (chain.blockHeaders[other]?).map fun stored =>
          { stored with hasClientNotes := stored.hasClientNotes || hasClientNotes }
      else chain.blockHeaders[other]? := by
  unfold setBlockHeaderHasClientNotes
  simp only [ExtTreeMap.getElem?_modify, Std.compare_eq_iff_eq]
  by_cases same : blockNum = other
  · subst same
    rw [if_pos rfl, if_pos rfl]
    refine congrArg (fun raise => Option.map raise chain.blockHeaders[blockNum]?)
      (funext fun stored => ?_)
    cases flagged : stored.hasClientNotes
    · simp
    · rw [if_pos rfl, Bool.true_or, ← flagged]
  · rw [if_neg same, if_neg same]

theorem insertBlockHeaderTx_getElem? (chain : ChainData) (blockHeader : BlockHeader)
    (peaks : List Word) (hasClientNotes : Bool) (other : BlockNumber) :
    (chain.insertBlockHeaderTx blockHeader peaks hasClientNotes).blockHeaders[other]? =
      if blockHeader.blockNum = other then
        some (match chain.blockHeaders[other]? with
          | some stored => { stored with hasClientNotes := stored.hasClientNotes || hasClientNotes }
          | none => ⟨blockHeader, peaks, hasClientNotes⟩)
      else chain.blockHeaders[other]? := by
  unfold insertBlockHeaderTx
  rw [setBlockHeaderHasClientNotes_getElem?]
  by_cases same : blockHeader.blockNum = other
  · subst same
    rw [if_pos rfl, if_pos rfl, ExtTreeMap.getElem?_insertIfNew]
    cases found : chain.blockHeaders[blockHeader.blockNum]? with
    | none =>
      have absent : blockHeader.blockNum ∉ chain.blockHeaders := by
        rw [← ExtTreeMap.isSome_getElem?_iff_mem, found]
        exact Bool.false_ne_true
      rw [if_pos ⟨Std.ReflCmp.compare_self, absent⟩]
      simp
    | some stored =>
      have present : blockHeader.blockNum ∈ chain.blockHeaders := by
        rw [← ExtTreeMap.isSome_getElem?_iff_mem, found]
        rfl
      rw [if_neg fun both => both.2 present]
      rfl
  · rw [if_neg same, if_neg same, ExtTreeMap.getElem?_insertIfNew,
      if_neg fun both => same (Std.compare_eq_iff_eq.mp both.1)]

/-- The row is still there. Its flag may have been raised. -/
structure KeepsRow (old new : StoredHeader) : Prop where
  header : new.header = old.header
  peaks : new.partialBlockchainPeaks = old.partialBlockchainPeaks
  flag : old.hasClientNotes = true → new.hasClientNotes = true

theorem KeepsRow.refl (stored : StoredHeader) : KeepsRow stored stored :=
  ⟨rfl, rfl, id⟩

theorem KeepsRow.trans {first second third : StoredHeader} (left : KeepsRow first second)
    (right : KeepsRow second third) : KeepsRow first third :=
  ⟨right.header.trans left.header, right.peaks.trans left.peaks, right.flag ∘ left.flag⟩

theorem keepsRow_raise (stored : StoredHeader) (hasClientNotes : Bool) :
    KeepsRow stored { stored with hasClientNotes := stored.hasClientNotes || hasClientNotes } :=
  ⟨rfl, rfl, fun flagged => by rw [flagged, Bool.true_or]⟩

theorem setBlockHeaderHasClientNotes_keepsRow (chain : ChainData) (blockNum : BlockNumber)
    (hasClientNotes : Bool) {other : BlockNumber} {old : StoredHeader}
    (found : chain.blockHeaders[other]? = some old) :
    ∃ new, (chain.setBlockHeaderHasClientNotes blockNum hasClientNotes).blockHeaders[other]? =
      some new ∧ KeepsRow old new := by
  rw [setBlockHeaderHasClientNotes_getElem?, found]
  split
  · exact ⟨_, rfl, keepsRow_raise old hasClientNotes⟩
  · exact ⟨old, rfl, .refl old⟩

theorem insertBlockHeaderTx_keepsRow (chain : ChainData) (blockHeader : BlockHeader)
    (peaks : List Word) (hasClientNotes : Bool) {other : BlockNumber} {old : StoredHeader}
    (found : chain.blockHeaders[other]? = some old) :
    ∃ new, (chain.insertBlockHeaderTx blockHeader peaks hasClientNotes).blockHeaders[other]? =
      some new ∧ KeepsRow old new := by
  rw [insertBlockHeaderTx_getElem?, found]
  split
  · exact ⟨_, rfl, keepsRow_raise old hasClientNotes⟩
  · exact ⟨old, rfl, .refl old⟩

theorem foldl_applyBlockHeader_keepsRow (entries : List (BlockHeader × Bool × List Word))
    {before : ChainData} {other : BlockNumber} {old : StoredHeader}
    (found : before.blockHeaders[other]? = some old) :
    ∃ new, (entries.foldl StoreKind.sqlite.applyBlockHeader before).blockHeaders[other]? =
      some new ∧ KeepsRow old new := by
  induction entries generalizing before old with
  | nil => exact ⟨old, found, .refl old⟩
  | cons entry rest inductionHypothesis =>
    obtain ⟨middle, written, kept⟩ :=
      insertBlockHeaderTx_keepsRow before entry.1 entry.2.2 entry.2.1 found
    obtain ⟨new, after, later⟩ := inductionHypothesis written
    exact ⟨new, after, kept.trans later⟩

/-- A header that is written has a row afterwards, with the flag if it was written with it. -/
theorem foldl_applyBlockHeader_of_mem {entries : List (BlockHeader × Bool × List Word)}
    {before : ChainData} {entry : BlockHeader × Bool × List Word} (member : entry ∈ entries) :
    ∃ stored,
      (entries.foldl StoreKind.sqlite.applyBlockHeader before).blockHeaders[entry.1.blockNum]? =
      some stored ∧ (entry.2.1 = true → stored.hasClientNotes = true) := by
  induction entries generalizing before with
  | nil => exact absurd member List.not_mem_nil
  | cons first rest inductionHypothesis =>
    rcases List.mem_cons.mp member with rfl | later
    · have written := insertBlockHeaderTx_getElem? before entry.1 entry.2.2 entry.2.1
        entry.1.blockNum
      rw [if_pos rfl] at written
      obtain ⟨new, after, kept⟩ := foldl_applyBlockHeader_keepsRow rest written
      refine ⟨new, after, fun flagged => kept.flag ?_⟩
      split
      · rw [flagged, Bool.or_true]
      · exact flagged
    · exact inductionHypothesis later

/-- Where a row comes from after headers were written: header and peaks from the row that was
there, or else from one of the headers, and the flag from either. -/
structure RowFrom (before : ChainData) (entries : List (BlockHeader × Bool × List Word))
    (blockNum : BlockNumber) (stored : StoredHeader) : Prop where
  source : (∃ old, before.blockHeaders[blockNum]? = some old ∧ stored.header = old.header ∧
      stored.partialBlockchainPeaks = old.partialBlockchainPeaks) ∨
    (before.blockHeaders[blockNum]? = none ∧ ∃ entry ∈ entries, entry.1.blockNum = blockNum ∧
      stored.header = entry.1 ∧ stored.partialBlockchainPeaks = entry.2.2)
  flag : stored.hasClientNotes = true →
    (∃ old, before.blockHeaders[blockNum]? = some old ∧ old.hasClientNotes = true) ∨
      ∃ entry ∈ entries, entry.1.blockNum = blockNum ∧ entry.2.1 = true

theorem RowFrom.mono {before : ChainData} {entries more : List (BlockHeader × Bool × List Word)}
    (grows : entries ⊆ more) {blockNum : BlockNumber} {stored : StoredHeader}
    (row : RowFrom before entries blockNum stored) : RowFrom before more blockNum stored where
  source := row.source.imp id fun ⟨absent, entry, member, same⟩ =>
    ⟨absent, entry, grows member, same⟩
  flag flagged := (row.flag flagged).imp id fun ⟨entry, member, same⟩ =>
    ⟨entry, grows member, same⟩

theorem foldl_applyBlockHeader_rowFrom {entries : List (BlockHeader × Bool × List Word)}
    {before : ChainData} {blockNum : BlockNumber} {stored : StoredHeader}
    (found : (entries.foldl StoreKind.sqlite.applyBlockHeader before).blockHeaders[blockNum]? =
      some stored) : RowFrom before entries blockNum stored := by
  induction entries using List.reverseRecOn generalizing stored with
  | nil => exact ⟨Or.inl ⟨stored, found, rfl, rfl⟩, fun flagged => Or.inl ⟨stored, found, flagged⟩⟩
  | append_singleton earlier last inductionHypothesis =>
    rw [List.foldl_append, List.foldl_cons, List.foldl_nil] at found
    change (insertBlockHeaderTx _ last.1 last.2.2 last.2.1).blockHeaders[blockNum]? = _ at found
    rw [insertBlockHeaderTx_getElem?] at found
    have grows := List.subset_append_left earlier [last]
    have member : last ∈ earlier ++ [last] := List.mem_append_right _ (List.mem_singleton_self last)
    split at found
    · rename_i same
      cases present :
          (earlier.foldl StoreKind.sqlite.applyBlockHeader before).blockHeaders[blockNum]? with
      | some row =>
        rw [present] at found
        cases found
        have sameRow := (inductionHypothesis present).mono grows
        refine ⟨sameRow.source, fun flagged => ?_⟩
        rcases (Bool.or_eq_true _ _).mp flagged with old | raised
        · exact sameRow.flag old
        · exact Or.inr ⟨last, member, same, raised⟩
      | none =>
        rw [present] at found
        cases found
        refine ⟨Or.inr ⟨?_, last, member, same, rfl, rfl⟩, fun flagged =>
          Or.inr ⟨last, member, same, flagged⟩⟩
        -- Writing headers removes no row, so there was none at the start either.
        cases was : before.blockHeaders[blockNum]? with
        | none => rfl
        | some old =>
          obtain ⟨new, after, _⟩ := foldl_applyBlockHeader_keepsRow earlier was
          rw [present] at after
          cases after
    · exact (inductionHypothesis found).mono grows

end ChainData

/-- Pruning keeps the flagged rows, and those it does not look at. -/
theorem pruneIrrelevantBlocks_getElem?_eq_some_iff (kind : StoreKind) (syncHeight : BlockNumber)
    (chain : ChainData) (blockNum : BlockNumber) (stored : StoredHeader) :
    (kind.pruneIrrelevantBlocks syncHeight chain).blockHeaders[blockNum]? = some stored ↔
      chain.blockHeaders[blockNum]? = some stored ∧
        (stored.hasClientNotes = true ∨ kind.prunes syncHeight blockNum = false) := by
  unfold StoreKind.pruneIrrelevantBlocks
  rw [ExtTreeMap.getElem?_filter', Option.filter_eq_some_iff]
  simp

end MidenClient
