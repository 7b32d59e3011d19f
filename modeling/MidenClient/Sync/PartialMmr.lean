/-
This file says when a failing sync leaves the caller's partial MMR as it was.

The MMR is advanced in the middle of a sync. Before that only requests to the node and the
update itself can fail, and they leave the MMR alone. After that it has at least one leaf
more, for good: neither the note blocks nor the nullifiers take a leaf away, whether they
fail or not.
-/

import MidenClient.Sync.ChainMmr

namespace MidenClient

open Std (ExtTreeMap)
open Fallible

/-- How the operations of the MMR library change the number of leaves. An update that is refused
changes nothing. -/
structure MmrLibrary.CountsLeaves (Mmr : Type) {Delta : Type} [MmrLibrary Mmr Delta] : Prop where
  apply_refused : ∀ (delta : Delta) (mmr last : Mmr) (message : String),
    apply delta mmr = .error message last → last = mmr
  apply_leaves : ∀ (delta : Delta) (mmr next : Mmr) (nodes : List MmrNode),
    apply delta mmr = .ok nodes next → numLeaves mmr ≤ numLeaves next
  add_leaves : ∀ (leaf : Word) (tracked : Bool) (mmr : Mmr),
    numLeaves (add leaf tracked mmr).2 = numLeaves mmr + 1
  track_leaves : ∀ (position : ℕ) (leaf : Word) (path : List Word) (mmr : Mmr),
    numLeaves (finalState (track position leaf path mmr)) = numLeaves mmr

namespace StateSync

variable [NoteLibrary] [ChainLibrary] {Mmr Delta : Type} [MmrLibrary Mmr Delta] {sync : StateSync}
  {node : SyncNode Delta} {input : StateSyncInput} {noteTags : Finset NoteTag}

/-- The sync gets as far as to advance the MMR: the node answers its requests with progress, and
the MMR takes the update. -/
def AdvancesMmr (node : SyncNode Delta) (input : StateSyncInput) (noteTags : Finset NoteTag)
    (mmr : Mmr) : Prop :=
  ∃ blockNum data nodes next, currentBlockNum mmr = .ok blockNum ∧
    node.fetchSyncData blockNum input.accounts noteTags = .ok (some data) ∧
    accountStateSync node data = .ok () ∧ MmrLibrary.apply data.mmrDelta mmr = .ok nodes next

/-! ### The number of leaves -/

/-- The MMR has at least this many leaves. -/
def HasLeaves (count : ℕ) (mmr : Mmr) : Prop :=
  count ≤ MmrLibrary.numLeaves mmr

omit [NoteLibrary] [ChainLibrary] in
theorem finalState_mmrOperation {α : Type} (operation : EStateM String Mmr α) (mmr : Mmr) :
    finalState (mmrOperation operation mmr) = finalState (operation mmr) := by
  unfold mmrOperation
  rcases operation mmr with ⟨value, next⟩ | ⟨message, next⟩ <;> rfl

omit [NoteLibrary] in
theorem trackBlock_hasLeaves (counts : MmrLibrary.CountsLeaves Mmr) (count : ℕ)
    (block : NoteSyncBlock) :
    Preserves (fun mmr : Mmr => HasLeaves count mmr) (trackBlock block) := by
  refine (Preserves.get _).bind fun before => ?_
  split
  · exact Preserves.pure _ _
  · refine Preserves.bind (fun mmr holds => ?_) fun _ =>
      (Preserves.get _).bind fun after => Preserves.pure _ _
    unfold HasLeaves
    rw [finalState_mmrOperation, counts.track_leaves]
    exact holds

theorem applyNoteBlock_hasLeaves (counts : MmrLibrary.CountsLeaves Mmr) (count : ℕ)
    (publicNotes : ExtTreeMap NoteId InputNoteRecord) (progress : ChainProgress)
    (block : NoteSyncBlock) :
    Preserves (fun mmr : Mmr => HasLeaves count mmr)
      (sync.applyNoteBlock publicNotes progress block) := by
  refine (Preserves.fromExcept _ _).bind fun screened => ?_
  split
  · exact (trackBlock_hasLeaves counts count block).bind fun nodes =>
      (Preserves.get _).bind fun mmr => Preserves.pure _ _
  · exact Preserves.pure _ _

/-- Once the MMR takes the update, it ends with a leaf more, whatever comes after. -/
theorem applyChainData_advances (counts : MmrLibrary.CountsLeaves Mmr)
    {data : FetchedSyncData Delta} {start next : Mmr} {nodes : List MmrNode}
    (applied : MmrLibrary.apply data.mmrDelta start = .ok nodes next)
    (tracker : NoteUpdateTracker) :
    MmrLibrary.numLeaves start <
      MmrLibrary.numLeaves (finalState (sync.applyChainData data tracker start)) := by
  have moved : mmrOperation (MmrLibrary.apply data.mmrDelta) start = .ok nodes next := by
    unfold mmrOperation
    rw [applied]
  have grown := counts.apply_leaves data.mmrDelta start next nodes applied
  unfold applyChainData
  rw [bind_of_result_ok moved]
  refine (Preserves.foldlM (fun progress block => applyNoteBlock_hasLeaves counts
    (MmrLibrary.numLeaves start + 1) (publicNoteRecords (data.toRaw [])) progress block)
    data.noteBlocks _) _ ?_
  exact (Nat.add_le_add_right grown 1).trans (counts.add_leaves _ false next).ge

/-! ### The whole sync -/

/-- An update that the MMR refuses ends the sync with the MMR it started from. -/
theorem applyChainData_refused (counts : MmrLibrary.CountsLeaves Mmr)
    {data : FetchedSyncData Delta} {start refused : Mmr} {message : String}
    (failed : MmrLibrary.apply data.mmrDelta start = .error message refused)
    (tracker : NoteUpdateTracker) :
    sync.applyChainData data tracker start = .error (.mmrError message) start := by
  have same := counts.apply_refused data.mmrDelta start refused message failed
  have stopped : mmrOperation (MmrLibrary.apply data.mmrDelta) start =
      .error (.mmrError message) start := by
    unfold mmrOperation
    rw [failed, same]
  exact bind_eq_result_error.mpr (Or.inl stopped)

/-- A sync that advances the MMR ends with another MMR. -/
theorem syncChain_of_advances (counts : MmrLibrary.CountsLeaves Mmr) {start : Mmr}
    (advances : AdvancesMmr node input noteTags start) :
    finalState (sync.syncChain node input noteTags start) ≠ start := by
  obtain ⟨blockNum, data, nodes, next, known, fetched, resolved, applied⟩ := advances
  intro same
  have advanced : MmrLibrary.numLeaves start < MmrLibrary.numLeaves (finalState
      (sync.applyChainData data (.new input.inputNotes input.outputNotes) start)) :=
    applyChainData_advances counts applied _
  rw [syncChain_eq, known] at same
  simp only [fetched, resolved] at same
  rw [finalState_bind fun progress mmr => finalState_fromExcept _ mmr] at same
  rw [same] at advanced
  exact Nat.lt_irrefl _ advanced

/-- A sync that fails leaves the MMR as it was exactly when it did not get as far as to advance
it. -/
theorem syncChain_error_keeps_mmr_iff (counts : MmrLibrary.CountsLeaves Mmr) {start last : Mmr}
    {reason : ClientError}
    (failed : sync.syncChain node input noteTags start = .error reason last) :
    last = start ↔ ¬AdvancesMmr node input noteTags start := by
  constructor
  · intro same advances
    have moved : finalState (sync.syncChain node input noteTags start) ≠ start :=
      syncChain_of_advances counts advances
    rw [failed] at moved
    exact moved same
  · intro stays
    rw [syncChain_eq] at failed
    rcases known : currentBlockNum start with other | blockNum
    · rw [known] at failed
      cases failed
      rfl
    rcases fetched : node.fetchSyncData blockNum input.accounts noteTags with other | ⟨_ | data⟩
    · rw [known] at failed
      simp only [fetched] at failed
      cases failed
      rfl
    · rw [known] at failed
      simp only [fetched] at failed
      cases failed
    rcases resolved : accountStateSync node data with other | _
    · rw [known] at failed
      simp only [fetched, resolved] at failed
      cases failed
      rfl
    rw [known] at failed
    simp only [fetched, resolved] at failed
    -- Here only the refusal of the update is left, as the sync would advance the MMR otherwise.
    rcases applied : MmrLibrary.apply data.mmrDelta start with ⟨nodes, next⟩ | ⟨message, refused⟩
    · exact absurd ⟨blockNum, data, nodes, next, known, fetched, resolved, applied⟩ stays
    · rw [bind_eq_result_error.mpr (Or.inl (applyChainData_refused counts applied _))] at failed
      cases failed
      rfl

end StateSync

namespace Sample

theorem mmrLibrary_countsLeaves : MmrLibrary.CountsLeaves Mmr where
  apply_refused delta mmr last message failed := by
    change (if mmr.count = delta.1 ∧ delta.1 ≤ delta.2 then _ else _) = _ at failed
    split at failed <;> cases failed
    rfl
  apply_leaves delta mmr next nodes applied := by
    change (if mmr.count = delta.1 ∧ delta.1 ≤ delta.2 then _ else _) = _ at applied
    split at applied
    · rename_i fits
      cases applied
      exact le_trans (le_of_eq fits.1) fits.2
    · cases applied
  add_leaves _ _ _ := rfl
  track_leaves position leaf path mmr := by
    show Mmr.count (finalState (if position < mmr.count ∧ leaf = chain.leaf position ∧
      path = (chain.path mmr.count position).map Prod.snd then _ else _)) = mmr.count
    split <;> rfl

/-- A partial MMR with the genesis block. -/
def genesisMmr : Mmr :=
  ⟨1, ∅, ∅⟩

/-- A sync that keeps no notes. -/
def silentSync : StateSync where
  noteScreener _ _ := .ok .discard
  txDiscardDelta := none
  syncNullifiers := true

/-- A node with one block after the genesis block, which answers every request but that for
nullifiers. The delta it sends starts from the given number of leaves. -/
def failingNode (leaves : ℕ) : SyncNode (ℕ × ℕ) where
  chainTip := .ok (chain.header 1)
  syncChainMmr _ blockTo := .ok (leaves, blockTo)
  syncNotesWithDetails _ _ _ := .ok ([], ∅)
  syncTransactions _ _ _ := .ok []
  updatedPublicAccounts _ := .ok ()
  syncNullifiers _ _ _ := .error (.requestError "unavailable")

def noInput : StateSyncInput :=
  ⟨[], [], [], []⟩

/-- A delta that starts from another number of leaves is refused, and the MMR is kept. -/
theorem syncChain_error_keeps_mmr_refused :
    ∃ last, silentSync.syncChain (failingNode 0) noInput ∅ genesisMmr =
        .error (.mmrError "invalid update") last ∧
      (last = genesisMmr ↔ ¬StateSync.AdvancesMmr (failingNode 0) noInput ∅ genesisMmr) := by
  have refused : failsWith (silentSync.syncChain (failingNode 0) noInput ∅ genesisMmr)
      (.mmrError "invalid update") = true := by decide +kernel
  obtain ⟨last, failed⟩ := exists_of_failsWith refused
  exact ⟨last, failed, StateSync.syncChain_error_keeps_mmr_iff mmrLibrary_countsLeaves failed⟩

/-- The request for nullifiers fails after the MMR has taken the chain tip. -/
theorem not_syncChain_error_keeps_mmr :
    ¬∀ (sync : StateSync) (node : SyncNode (ℕ × ℕ)) (input : StateSyncInput)
      (noteTags : Finset NoteTag) (start last : Mmr) (reason : ClientError),
      sync.syncChain node input noteTags start = .error reason last → last = start := by
  intro keeps
  have fails : failsLeaving (silentSync.syncChain (failingNode 1) noInput ∅ genesisMmr)
      (fun mmr => mmr.count = 2) = true := by decide +kernel
  obtain ⟨reason, last, failed, longer⟩ := exists_of_failsLeaving fails
  rw [keeps _ _ _ _ _ _ _ failed] at longer
  exact absurd longer (by decide)

end Sample

end MidenClient
