/-
This file follows the tags that the two stores track on behalf of notes, through runs of
transactions, imports and syncs.

A transaction tracks a tag for each of its output notes and for the notes it expects, and
an import tracks one for an expected note. A sync stops tracking a tag only for an updated
input note that it leaves committed: SQLite removes the tag of the note's metadata,
IndexedDB every tag whose source is the note. The tag of a note that the client knows only
as an output note, or that the sync finds consumed, is therefore never released.
-/

import MidenClient.Library.Run
import MidenClient.Store.ChainData
import MidenClient.Sync.ProcessingNotes

namespace MidenClient

open Std (ExtTreeMap)
open Fallible

/-! ### The tag tables of the two stores -/

namespace ClientStore

variable [NoteLibrary]

/-- Writes an output note as a whole. -/
def upsertOutputNote (store : ClientStore) (note : OutputNoteRecord) : ClientStore :=
  { store with outputNotes := store.outputNotes.insert note.id note }

/-- The writes of updated notes in IndexedDB. New or not, a note is written as a whole. -/
def putNoteUpdates (updates : NoteUpdateTracker) : List (ClientStore → ClientStore) :=
  updates.updatedInputNotes.map (fun update store => store.upsertInputNote update.note) ++
    updates.updatedOutputNotes.map fun update store => store.upsertOutputNote update.note

/-- The writes of a transaction to the tables of IndexedDB. They are not in one database
transaction, so the ones before a failing write stay. -/
def transactionWrites (transaction : ExecutedTransaction) (environment : TransactionEnvironment)
    (updates : NoteUpdateTracker) : List (ClientStore → ClientStore) :=
  (fun store => store.upsertTransactionRecord
      (submittedRecord transaction environment.submissionHeight)) ::
    putNoteUpdates updates ++ (newTags updates).map fun record store => store.addNoteTag record

def performWrites (store : ClientStore) (writes : List (ClientStore → ClientStore)) :
    ClientStore :=
  writes.foldl (fun store write => write store) store

/-- The ids of the updated input notes that are committed (`committed_note_ids`). -/
def committedNoteIds (updates : NoteUpdateTracker) : List NoteId :=
  (updates.updatedInputNotes.filter fun update => update.note.state.isCommitted).map
    fun update => update.note.id

/-- Removes every tag whose source is one of the notes. -/
def updateCommittedNoteTags (store : ClientStore) (inputNoteIds : List NoteId) : ClientStore :=
  { store with noteTags := store.noteTags.filter fun record =>
      ∀ noteId ∈ inputNoteIds, record.source ≠ .note noteId }

end ClientStore

namespace StoreKind

open ClientStore

variable [NoteLibrary]

/-- A submitted transaction is recorded: by SQLite as a whole or not at all, by IndexedDB up to
the first write that fails, and if the account part fails only by its record. -/
def recordTransaction (kind : StoreKind) (store : ClientStore)
    (transaction : ClientStore.ExecutedTransaction) (environment : TransactionEnvironment)
    (completedWrites : ℕ) : ClientStore :=
  match kind with
  | .sqlite => store.orRolledBack (store.applyTransaction transaction environment)
  | .idxdb =>
    match store.getNoteUpdates transaction environment, environment.accounts with
    | .error _, _ => store
    | .ok updates, .error _ =>
      store.performWrites ((transactionWrites transaction environment updates).take
        (min 1 completedWrites))
    | .ok updates, .ok () =>
      store.performWrites ((transactionWrites transaction environment updates).take completedWrites)

/-- Stops tracking the tags of the notes that are now committed. -/
def removeCommittedTags (kind : StoreKind) (store : ClientStore) (updates : NoteUpdateTracker) :
    ClientStore :=
  match kind with
  | .sqlite => (tagsToRemove updates).foldl removeNoteTag store
  | .idxdb => store.updateCommittedNoteTags (committedNoteIds updates)

def writeNoteUpdates (kind : StoreKind) (store : ClientStore) (updates : NoteUpdateTracker) :
    ClientStore :=
  match kind with
  | .sqlite => store.applyNoteUpdates updates
  | .idxdb => store.performWrites (putNoteUpdates updates)

/-- Writes the note and transaction part of a sync update. -/
def applyStateSync (kind : StoreKind) (store : ClientStore) (update : StateSyncUpdate) :
    ClientStore :=
  let moved := { store with syncHeight := max store.syncHeight update.blockNum }
  let noted := kind.writeNoteUpdates moved update.noteUpdates
  (settledRecords update.transactionUpdates).foldl upsertTransactionRecord
    (kind.removeCommittedTags noted update.noteUpdates)

end StoreKind

/-! ### What a sync does to a tag -/

namespace ClientStore

variable [NoteLibrary]

/-- The update of an input note moves it to a committed or consumed state. -/
def movesInputNote (store : ClientStore) (update : InputNoteUpdate) : Bool :=
  (update.note.state.isCommitted || update.note.state.isConsumed) &&
    store.inputNotes[update.note.id]?.map InputNoteRecord.state ≠ some update.note.state

/-- The update of an output note moves it to a committed or consumed state. -/
def movesOutputNote (store : ClientStore) (update : OutputNoteUpdate) : Bool :=
  (update.note.state.isCommitted || update.note.state.isConsumed) &&
    store.outputNotes[update.note.id]?.map OutputNoteRecord.state ≠ some update.note.state

/-- The notes that an update moves to a committed or consumed state. -/
def movedNotes (store : ClientStore) (updates : NoteUpdateTracker) : List NoteId :=
  (updates.updatedInputNotes.filter store.movesInputNote).map (fun update => update.note.id) ++
    (updates.updatedOutputNotes.filter store.movesOutputNote).map fun update => update.note.id

end ClientStore

/-- The tag is that of an input note which the update leaves committed. SQLite compares the tag
with the metadata of the note, IndexedDB only the source. -/
def StoreKind.ReleasedBy [NoteLibrary] (kind : StoreKind) (updates : NoteUpdateTracker)
    (record : NoteTagRecord) : Prop :=
  ∃ update ∈ updates.updatedInputNotes, record.source = .note update.note.id ∧
    match kind with
    | .sqlite => ∃ state, update.note.state = .committed state ∧ record.tag = state.metadata.tag
    | .idxdb => update.note.state.isCommitted = true

namespace ClientStore

variable [NoteLibrary]

omit [NoteLibrary] in
theorem mem_foldl_removeNoteTag (tags : List NoteTagRecord) (store : ClientStore)
    (record : NoteTagRecord) :
    record ∈ (tags.foldl removeNoteTag store).noteTags ↔
      record ∈ store.noteTags ∧ record ∉ tags := by
  induction tags generalizing store with
  | nil => exact ⟨fun member => ⟨member, List.not_mem_nil⟩, And.left⟩
  | cons tag rest inductionHypothesis =>
    rw [List.foldl_cons, inductionHypothesis, List.mem_cons, not_or]
    unfold removeNoteTag
    rw [List.mem_filter, decide_eq_true_iff, and_assoc]

omit [NoteLibrary] in
theorem foldl_upsertTransactionRecord_noteTags (records : List TransactionRecord)
    (store : ClientStore) :
    (records.foldl upsertTransactionRecord store).noteTags = store.noteTags := by
  refine Run.foldl_view noteTags (fun store record => ?_) records store
  rfl

theorem applyNoteUpdates_noteTags (store : ClientStore) (updates : NoteUpdateTracker) :
    (store.applyNoteUpdates updates).noteTags = store.noteTags := by
  unfold applyNoteUpdates
  rw [Run.foldl_view noteTags (fun store update => ?_),
    Run.foldl_view noteTags (fun store update => ?_)]
  · unfold applyInputNoteUpdate
    cases update.updateType <;> rfl
  · unfold applyOutputNoteUpdate
    cases update.updateType <;> rfl

theorem performWrites_putNoteUpdates_noteTags (store : ClientStore)
    (updates : NoteUpdateTracker) :
    (store.performWrites (putNoteUpdates updates)).noteTags = store.noteTags := by
  unfold performWrites putNoteUpdates
  rw [List.foldl_append, List.foldl_map, List.foldl_map]
  refine (Run.foldl_view noteTags (fun store update => ?_) _ _).trans
    (Run.foldl_view noteTags (fun store update => ?_) _ _)
  · rfl
  · rfl

theorem mem_tagsToRemove_iff {updates : NoteUpdateTracker} {record : NoteTagRecord} :
    record ∈ tagsToRemove updates ↔ StoreKind.ReleasedBy .sqlite updates record := by
  unfold tagsToRemove
  rw [List.mem_filterMap]
  refine exists_congr fun update => and_congr_right fun _ => ?_
  constructor
  · intro removed
    split at removed
    · rename_i state committed
      cases removed
      exact ⟨rfl, state, committed, rfl⟩
    · cases removed
  · rintro ⟨source, state, committed, tag⟩
    rw [committed]
    refine congrArg some ?_
    unfold NoteTagRecord.withNoteSource
    rw [← source, ← tag]

theorem exists_mem_committedNoteIds_iff {updates : NoteUpdateTracker} {record : NoteTagRecord} :
    (∃ noteId ∈ committedNoteIds updates, record.source = .note noteId) ↔
      StoreKind.ReleasedBy .idxdb updates record := by
  unfold committedNoteIds
  constructor
  · rintro ⟨noteId, member, source⟩
    obtain ⟨update, listed, rfl⟩ := List.mem_map.mp member
    obtain ⟨updated, committed⟩ := List.mem_filter.mp listed
    exact ⟨update, updated, source, committed⟩
  · rintro ⟨update, updated, source, committed⟩
    exact ⟨update.note.id, List.mem_map.mpr ⟨update, List.mem_filter.mpr ⟨updated, committed⟩, rfl⟩,
      source⟩

end ClientStore

namespace StoreKind

open ClientStore

variable [NoteLibrary]

/-- A sync keeps exactly the tags that are not those of an input note it leaves committed. -/
theorem mem_applyStateSync_noteTags {kind : StoreKind} {store : ClientStore}
    {update : StateSyncUpdate} {record : NoteTagRecord} :
    record ∈ (kind.applyStateSync store update).noteTags ↔
      record ∈ store.noteTags ∧ ¬kind.ReleasedBy update.noteUpdates record := by
  unfold applyStateSync
  rw [foldl_upsertTransactionRecord_noteTags]
  cases kind with
  | sqlite =>
    unfold removeCommittedTags writeNoteUpdates
    rw [mem_foldl_removeNoteTag, applyNoteUpdates_noteTags, mem_tagsToRemove_iff]
  | idxdb =>
    unfold removeCommittedTags writeNoteUpdates updateCommittedNoteTags
    rw [List.mem_filter, performWrites_putNoteUpdates_noteTags, decide_eq_true_iff,
      ← exists_mem_committedNoteIds_iff, not_exists]
    simp only [not_and, ne_eq]

end StoreKind

/-! ### Whole runs -/

/-- A store, and the notes that the syncs so far have moved to a committed or consumed state. -/
structure NoteTagHistory where
  store : ClientStore
  moved : List NoteId

/-- The operations that write notes or their tags. -/
inductive NoteTagOperation where
  | applyTransaction (transaction : ClientStore.ExecutedTransaction)
      (environment : ClientStore.TransactionEnvironment) (completedWrites : ℕ)
  | importNotes (node : ImportNode) (noteFiles : List NoteFile)
  | syncState (environment : ClientStore.SyncEnvironment)

namespace NoteTagHistory

open ClientStore

variable [NoteLibrary]

def empty : NoteTagHistory :=
  ⟨.empty, []⟩

/-- The update of a sync that reaches the store and is applied. -/
def syncUpdate (history : NoteTagHistory) (environment : SyncEnvironment) :
    Except ClientError StateSyncUpdate := do
  let update ← (history.store.stateSync environment).syncState history.store.syncHeight
    (history.store.buildSyncInput environment.accounts) environment.data
  environment.others
  return update

def applyStateSync (kind : StoreKind) (history : NoteTagHistory) (update : StateSyncUpdate) :
    NoteTagHistory where
  store := kind.applyStateSync history.store update
  moved := history.moved ++ history.store.movedNotes update.noteUpdates

/-- The state after an operation. A failing sync is rolled back, and a failing import keeps what
it wrote. -/
def perform (kind : StoreKind) (history : NoteTagHistory) : NoteTagOperation → NoteTagHistory
  | .applyTransaction transaction environment completedWrites => { history with
      store := kind.recordTransaction history.store transaction environment completedWrites }
  | .importNotes node noteFiles => { history with
      store := finalState (MidenClient.importNotes node noteFiles history.store) }
  | .syncState environment =>
    match history.syncUpdate environment with
    | .ok update => history.applyStateSync kind update
    | .error _ => history

def run (kind : StoreKind) (history : NoteTagHistory) (operations : List NoteTagOperation) :
    NoteTagHistory :=
  operations.foldl (perform kind) history

/-- No tracked tag has as its source a note that a sync has moved. -/
def LeakFree (history : NoteTagHistory) : Prop :=
  ∀ record ∈ history.store.noteTags, ∀ noteId ∈ history.moved, record.source ≠ .note noteId

/-- Every tracked tag of a note that the update moves, or an earlier sync moved, is that of an
input note which the update leaves committed. -/
def ReleasesMoved (kind : StoreKind) (history : NoteTagHistory) (update : StateSyncUpdate) : Prop :=
  ∀ record ∈ history.store.noteTags,
    ∀ noteId ∈ history.moved ++ history.store.movedNotes update.noteUpdates,
      record.source = .note noteId → kind.ReleasedBy update.noteUpdates record

/-- What holds at every sync of a run that is applied. -/
def AtEverySync (kind : StoreKind) (operations : List NoteTagOperation)
    (condition : NoteTagHistory → StateSyncUpdate → Prop) : Prop :=
  ∀ (earlier later : List NoteTagOperation) (environment : SyncEnvironment)
    (update : StateSyncUpdate), operations = earlier ++ .syncState environment :: later →
    (run kind empty earlier).syncUpdate environment = .ok update →
    condition (run kind empty earlier) update

theorem applyStateSync_leakFree_iff {kind : StoreKind} {history : NoteTagHistory}
    {update : StateSyncUpdate} :
    (history.applyStateSync kind update).LeakFree ↔ history.ReleasesMoved kind update := by
  constructor
  · intro leakFree record tracked noteId moved source
    by_contra kept
    exact leakFree record (StoreKind.mem_applyStateSync_noteTags.mpr ⟨tracked, kept⟩) noteId moved
      source
  · intro releases record tracked noteId moved source
    obtain ⟨before, kept⟩ := StoreKind.mem_applyStateSync_noteTags.mp tracked
    exact kept (releases record before noteId moved source)

theorem run_syncState {kind : StoreKind} {earlier : List NoteTagOperation}
    {environment : SyncEnvironment} {update : StateSyncUpdate}
    (synced : (run kind empty earlier).syncUpdate environment = .ok update) :
    run kind empty (earlier ++ [.syncState environment]) =
      (run kind empty earlier).applyStateSync kind update := by
  unfold run at synced ⊢
  rw [List.foldl_append, List.foldl_cons, List.foldl_nil, perform, synced]

/-- A tag of a moved note that is tracked after the last sync of a run. -/
theorem not_atEverySync_of_leak {kind : StoreKind} (earlier : List NoteTagOperation)
    {environment : SyncEnvironment} (record : NoteTagRecord) (noteId : NoteId)
    (synced : ((run kind empty earlier).syncUpdate environment).isOk = true)
    (tracked : record ∈ (run kind empty (earlier ++ [.syncState environment])).store.noteTags)
    (moved : noteId ∈ (run kind empty (earlier ++ [.syncState environment])).moved)
    (source : record.source = .note noteId) :
    ¬AtEverySync kind (earlier ++ [.syncState environment]) (fun history update =>
      (history.applyStateSync kind update).LeakFree) := by
  intro leakFree
  cases computed : (run kind empty earlier).syncUpdate environment with
  | error error =>
    rw [computed] at synced
    cases synced
  | ok update =>
    rw [run_syncState computed] at tracked moved
    exact leakFree earlier [] environment update rfl computed record tracked noteId moved source

/-- In a run of either store, no tag of a moved note is tracked after a sync exactly when every
sync releases the tracked tags of the notes that it or an earlier sync moves. -/
theorem run_leakFree_iff (kind : StoreKind) (operations : List NoteTagOperation) :
    AtEverySync kind operations (fun history update =>
        (history.applyStateSync kind update).LeakFree) ↔
      AtEverySync kind operations (fun history update => history.ReleasesMoved kind update) := by
  constructor
  · intro leakFree earlier later environment update split synced
    exact applyStateSync_leakFree_iff.mp (leakFree earlier later environment update split synced)
  · intro releases earlier later environment update split synced
    exact applyStateSync_leakFree_iff.mpr (releases earlier later environment update split synced)

end NoteTagHistory

namespace Sample

open ClientStore NoteTagHistory

/-- A note that account 2 sends to somebody else. -/
def sentNote : Note :=
  ⟨⟨[], ⟨4, 1, 1⟩⟩, ⟨2, .isPublic, 9, 0⟩⟩

/-- The transaction that creates the note. -/
def sendNote : NoteTagOperation :=
  .applyTransaction ⟨6, ⟨2, 10, 11, [], 0, 0, 40, 100⟩, [], [.full sentNote], []⟩
    ⟨0, some 100, .ok [], .ok ()⟩ 3

/-- A sync to block 4 in which the note is found. -/
def syncSentNote : SyncEnvironment where
  txDiscardDelta := none
  syncNullifiers := true
  accounts := [2]
  data := ⟨⟨4, 8, 200⟩, [⟨⟨4, 8, 200⟩, (∅ : ExtTreeMap NoteId CommittedNote).insert sentNote.id
    ⟨sentNote.id, .isPublic, some sentNote.metadata, ⟨4, 0, [8]⟩⟩⟩], ∅, [], []⟩
  canConsume _ := .ok false
  others := .ok ()

/-- The note is committed and its tag stays, in both stores. -/
theorem not_run_leakFree_sent :
    ¬AtEverySync .sqlite [sendNote, .syncState syncSentNote] (fun history update =>
        (history.applyStateSync .sqlite update).LeakFree) ∧
      ¬AtEverySync .idxdb [sendNote, .syncState syncSentNote] (fun history update =>
        (history.applyStateSync .idxdb update).LeakFree) := by
  constructor
  · refine not_atEverySync_of_leak [sendNote] (.withNoteSource 9 sentNote.id) sentNote.id
      ?_ ?_ ?_ rfl
    · decide +kernel
    · decide +kernel
    · decide +kernel
  · refine not_atEverySync_of_leak [sendNote] (.withNoteSource 9 sentNote.id) sentNote.id
      ?_ ?_ ?_ rfl
    · decide +kernel
    · decide +kernel
    · decide +kernel

end Sample

end MidenClient
