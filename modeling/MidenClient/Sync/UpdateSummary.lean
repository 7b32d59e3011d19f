/-
This file says when the summary of a sync agrees with what the sync stores
(`rust-client/src/sync/state_sync_update.rs`, `sqlite-store/src/sync.rs`).

The summary is made of the update before the store is touched. Whether an account is locked is
decided later, by the states that the store remembers of it; and a consumed note is only looked
for among the input notes. The transactions always agree.
-/

import MidenClient.Sqlite.LockedRows
import MidenClient.Sync.SyncSummary
import MidenClient.Transaction.KnownNotes

namespace MidenClient

open Std (ExtTreeMap)

/-! ### The summary of an update -/

namespace SyncSummary

variable [NoteLibrary]

/-- The identifiers in order, each once. -/
def idSet (noteIds : List NoteId) : List NoteId :=
  noteIds.toFinset.sort (· ≤ ·)

/-- The updates of one type that pass a test. -/
def idsOf {record : Type} (id : record → NoteId) (test : NoteUpdate record → Bool)
    (updates : List (NoteUpdate record)) : List NoteId :=
  (updates.filter test).map fun update => id update.note

/-- `SyncSummary::from`. -/
def ofUpdate (update : SyncStoreUpdate) : SyncSummary where
  blockNum := update.blockNum
  newPublicNotes := idsOf InputNoteRecord.id (fun update => update.updateType = .insert)
    update.noteUpdates.updatedInputNotes
  committedNotes := idSet
    (idsOf InputNoteRecord.id (fun update => update.updateType = .update &&
      update.note.state.isCommitted) update.noteUpdates.updatedInputNotes ++
    idsOf OutputNoteRecord.id (fun update => update.updateType = .update &&
      update.note.state.isCommitted) update.noteUpdates.updatedOutputNotes)
  consumedNotes := idSet (idsOf InputNoteRecord.id (fun update => update.note.state.isConsumed)
    update.noteUpdates.updatedInputNotes)
  updatedAccounts := update.updatedPublicAccounts.map Account.id
  lockedAccounts := update.mismatchedPrivateAccounts.map Prod.fst
  committedTransactions := update.transactionUpdates.committedTransactions.map TransactionRecord.id

end SyncSummary

/-! ### What a write does to the state of a note -/

/-- How the state of a note is written, if it is. -/
abbrev StateWrite (σ : Type) := Option (NoteUpdateType × σ)

namespace StateWrite

variable {σ : Type}

/-- The stored state after the write. Only a new note is stored when there was none. -/
def after : StateWrite σ → Option σ → Option σ
  | some (.insert, new), _ => some new
  | some (.update, new), stored => stored.map fun _ => new
  | some (.none, _), stored => stored
  | none, stored => stored

/-- The note is stored for the first time. -/
def Appears (stored later : Option σ) : Prop :=
  stored = none ∧ later ≠ none

/-- A stored note gets to a state that passes the test. -/
def Enters (test : σ → Bool) (stored later : Option σ) : Prop :=
  (∃ old, stored = some old ∧ test old = false) ∧ ∃ new, later = some new ∧ test new = true

/-- A note, stored or not, gets to a state that passes the test. -/
def Reaches (test : σ → Bool) (stored later : Option σ) : Prop :=
  (∀ old, stored = some old → test old = false) ∧ ∃ new, later = some new ∧ test new = true

/-- The note is written as a new one. -/
def Inserts (write : StateWrite σ) : Prop :=
  ∃ new, write = some (.insert, new)

/-- The note is updated to a state that passes the test. -/
def UpdatesTo (test : σ → Bool) (write : StateWrite σ) : Prop :=
  ∃ new, write = some (.update, new) ∧ test new = true

/-- A state that passes the test is written. -/
def WritesTo (test : σ → Bool) (write : StateWrite σ) : Prop :=
  ∃ updateType new, write = some (updateType, new) ∧ updateType ≠ .none ∧ test new = true

variable {test : σ → Bool} {write : StateWrite σ} {stored : Option σ}

theorem appears_after_iff :
    Appears stored (write.after stored) ↔ write.Inserts ∧ stored = none := by
  constructor
  · rintro ⟨rfl, there⟩
    rcases write with _ | ⟨_ | _ | _, new⟩
    · exact absurd rfl there
    · exact absurd rfl there
    · exact ⟨⟨new, rfl⟩, rfl⟩
    · exact absurd rfl there
  · rintro ⟨⟨new, rfl⟩, rfl⟩
    exact ⟨rfl, Option.some_ne_none new⟩

theorem enters_after_iff : Enters test stored (write.after stored) ↔
    write.WritesTo test ∧ ∃ old, stored = some old ∧ test old = false := by
  constructor
  · rintro ⟨⟨old, rfl, notYet⟩, new, written, passes⟩
    refine ⟨?_, old, rfl, notYet⟩
    rcases write with _ | ⟨_ | _ | _, state⟩
    · cases written
      exact absurd (notYet.symm.trans passes) Bool.false_ne_true
    · cases written
      exact absurd (notYet.symm.trans passes) Bool.false_ne_true
    · cases written
      exact ⟨_, _, rfl, NoteUpdateType.noConfusion, passes⟩
    · cases written
      exact ⟨_, _, rfl, NoteUpdateType.noConfusion, passes⟩
  · rintro ⟨⟨updateType, new, rfl, changed, passes⟩, old, rfl, notYet⟩
    refine ⟨⟨old, rfl, notYet⟩, new, ?_, passes⟩
    cases updateType with
    | none => exact absurd rfl changed
    | insert => rfl
    | update => rfl

theorem reaches_after_iff : Reaches test stored (write.after stored) ↔
    write.WritesTo test ∧ (∀ old, stored = some old → test old = false) ∧
      (stored = none → write.Inserts) := by
  cases stored with
  | none =>
    constructor
    · rintro ⟨-, new, written, passes⟩
      rcases write with _ | ⟨_ | _ | _, state⟩
      · cases written
      · cases written
      · cases written
        exact ⟨⟨_, _, rfl, NoteUpdateType.noConfusion, passes⟩, fun _ absent => (nomatch absent),
          fun _ => ⟨_, rfl⟩⟩
      · cases written
    · rintro ⟨⟨updateType, new, rfl, _, passes⟩, _, inserts⟩
      obtain ⟨_, same⟩ := inserts rfl
      cases same
      exact ⟨fun _ absent => (nomatch absent), new, rfl, passes⟩
  | some old =>
    have reaches : Reaches test (some old) (write.after (some old)) ↔
        Enters test (some old) (write.after (some old)) := by
      refine and_congr_left fun _ => ?_
      constructor
      · exact fun notYet => ⟨old, rfl, notYet old rfl⟩
      · rintro ⟨_, ⟨⟩, notYet⟩ _ ⟨⟩
        exact notYet
    rw [reaches, enters_after_iff]
    refine and_congr_right fun _ => ?_
    constructor
    · rintro ⟨_, ⟨⟩, notYet⟩
      refine ⟨?_, fun absent => (nomatch absent)⟩
      rintro _ ⟨⟩
      exact notYet
    · rintro ⟨notYet, _⟩
      exact ⟨old, rfl, notYet old rfl⟩

end StateWrite

/-! ### What a sync does to the tables -/

namespace SyncSummary

/-- How the state of an input note is written. -/
def inputWrite (updates : NoteUpdateTracker) (noteId : NoteId) : StateWrite InputNoteState :=
  updates.inputNotes[noteId]?.map fun update => (update.updateType, update.note.state)

def outputWrite (updates : NoteUpdateTracker) (noteId : NoteId) : StateWrite OutputNoteState :=
  updates.outputNotes[noteId]?.map fun update => (update.updateType, update.note.state)

/-- The stored state of an input note. -/
def inputState (store : ClientStore) (noteId : NoteId) : Option InputNoteState :=
  store.inputNotes[noteId]?.map InputNoteRecord.state

def outputState (store : ClientStore) (noteId : NoteId) : Option OutputNoteState :=
  store.outputNotes[noteId]?.map OutputNoteRecord.state

variable [NoteLibrary]

/-- The trackers of an update keep notes and transactions under their identifiers. -/
structure Keyed (update : SyncStoreUpdate) : Prop where
  inputNotes : ∀ (noteId : NoteId) tracked, update.noteUpdates.inputNotes[noteId]? = some tracked →
    tracked.note.id = noteId
  outputNotes : ∀ (noteId : NoteId) tracked,
    update.noteUpdates.outputNotes[noteId]? = some tracked →
    tracked.note.id = noteId
  transactions : ∀ (id : TransactionId) record,
    update.transactionUpdates.transactions[id]? = some record → record.id = id

theorem inputState_applyNoteUpdates {updates : NoteUpdateTracker}
    (keyed : ∀ (noteId : NoteId) tracked, updates.inputNotes[noteId]? = some tracked →
      tracked.note.id = noteId) (store : ClientStore) (noteId : NoteId) :
    inputState (store.applyNoteUpdates updates) noteId =
      (inputWrite updates noteId).after (inputState store noteId) := by
  unfold inputState inputWrite
  rw [ClientStore.applyNoteUpdates_getElem? keyed]
  cases found : updates.inputNotes[noteId]? with
  | none => rfl
  | some update =>
    dsimp only
    rw [ClientStore.applyInputNoteUpdate_getElem?, if_pos (keyed noteId update found)]
    obtain ⟨note, updateType⟩ := update
    cases updateType with
    | none => rfl
    | insert => rfl
    | update =>
      show Option.map _ (Option.map _ _) = Option.map _ (Option.map _ _)
      rw [Option.map_map, Option.map_map]
      rfl

/-- What the update of an output note makes of the stored record. -/
def writtenOutputNote (update : OutputNoteUpdate) (stored : Option OutputNoteRecord) :
    Option OutputNoteRecord :=
  match update.updateType with
  | .insert => some update.note
  | .update => stored.map fun record => { record with state := update.note.state }
  | .none => stored

theorem applyOutputNoteUpdate_getElem? (store : ClientStore) (update : OutputNoteUpdate)
    (noteId : NoteId) :
    (store.applyOutputNoteUpdate update).outputNotes[noteId]? =
      if update.note.id = noteId then writtenOutputNote update store.outputNotes[noteId]?
      else store.outputNotes[noteId]? := by
  unfold ClientStore.applyOutputNoteUpdate writtenOutputNote
  cases update.updateType with
  | none => exact (ite_self _).symm
  | insert =>
    dsimp only
    rw [ExtTreeMap.getElem?_insert]
    simp only [Std.compare_eq_iff_eq]
  | update =>
    dsimp only
    rw [ExtTreeMap.getElem?_modify]
    by_cases same : update.note.id = noteId
    · subst same
      rw [if_pos (Std.compare_eq_iff_eq.mpr rfl), if_pos rfl]
    · rw [if_neg fun equal => same (Std.compare_eq_iff_eq.mp equal), if_neg same]

/-- With one update for each note, only the update of a note decides how it is stored. -/
theorem foldl_applyOutputNoteUpdate_getElem? {updates : List OutputNoteUpdate}
    (distinct : updates.Pairwise (·.note.id ≠ ·.note.id)) (store : ClientStore) (noteId : NoteId) :
    (updates.foldl ClientStore.applyOutputNoteUpdate store).outputNotes[noteId]? =
      (updates.find? fun update => update.note.id = noteId).elim store.outputNotes[noteId]?
        fun update => writtenOutputNote update store.outputNotes[noteId]? := by
  induction updates generalizing store with
  | nil => rfl
  | cons update rest inductionHypothesis =>
    obtain ⟨ahead, later⟩ := List.pairwise_cons.mp distinct
    rw [List.foldl_cons, inductionHypothesis later, applyOutputNoteUpdate_getElem?, List.find?_cons]
    by_cases same : update.note.id = noteId
    · have absent : rest.find? (fun other => other.note.id = noteId) = none := by
        refine List.find?_eq_none.mpr fun other listed equal => ahead other listed ?_
        rw [same, of_decide_eq_true equal]
      rw [absent, if_pos same, decide_eq_true same]
      rfl
    · rw [if_neg same, decide_eq_false same]

theorem foldl_applyInputNoteUpdate_outputNotes (updates : List InputNoteUpdate)
    (store : ClientStore) :
    (updates.foldl ClientStore.applyInputNoteUpdate store).outputNotes = store.outputNotes := by
  induction updates generalizing store with
  | nil => rfl
  | cons update rest inductionHypothesis =>
    rw [List.foldl_cons, inductionHypothesis]
    unfold ClientStore.applyInputNoteUpdate
    cases update.updateType <;> rfl

theorem outputState_applyNoteUpdates {updates : NoteUpdateTracker}
    (keyed : ∀ (noteId : NoteId) tracked, updates.outputNotes[noteId]? = some tracked →
      tracked.note.id = noteId) (store : ClientStore) (noteId : NoteId) :
    outputState (store.applyNoteUpdates updates) noteId =
      (outputWrite updates noteId).after (outputState store noteId) := by
  have distinct : updates.updatedOutputNotes.Pairwise (·.note.id ≠ ·.note.id) :=
    (OrderedMap.pairwise_values keyed).filter _
  have found : updates.updatedOutputNotes.find? (fun update => update.note.id = noteId) =
      updates.outputNotes[noteId]?.filter NoteUpdate.isUpdated :=
    OrderedMap.find?_values_filter keyed _ noteId
  unfold outputState outputWrite ClientStore.applyNoteUpdates
  rw [foldl_applyOutputNoteUpdate_getElem? distinct, found, foldl_applyInputNoteUpdate_outputNotes]
  cases updates.outputNotes[noteId]? with
  | none => rfl
  | some update =>
    obtain ⟨note, updateType⟩ := update
    cases updateType with
    | none => rfl
    | insert => rfl
    | update =>
      show Option.map _ (Option.map _ _) = Option.map _ (Option.map _ _)
      rw [Option.map_map, Option.map_map]
      rfl

end SyncSummary

namespace SqliteStore

/-- Writes that each change the client tables in a known way. -/
theorem foldl_write_client {ι : Type} (place : ι → Statement)
    {write : ι → StoreTables Database → StoreTables Database}
    (change : ClientStore → ι → ClientStore)
    (each : ∀ item tables, (write item tables).client = change tables.client item) (items : List ι)
    (tables : StoreTables Database) :
    ((items.map fun item => (place item, write item)).foldl (fun tables write => write.2 tables)
      tables).client = items.foldl change tables.client := by
  induction items generalizing tables with
  | nil => rfl
  | cons item rest inductionHypothesis =>
    rw [List.map_cons, List.foldl_cons, List.foldl_cons, inductionHypothesis, each]

section Client

variable [NoteLibrary]

/-- A sync does to notes, tags and transactions what its update says. -/
theorem syncWrites_client (update : SyncStoreUpdate) (tables : StoreTables Database) :
    ((syncWrites update).foldl (fun tables write => write.2 tables) tables).client =
      tables.client.applyStateSync update.toStateSyncUpdate := by
  have headers : ∀ tables : StoreTables Database, ((update.blockHeaders.map fun block =>
      (Statement.blockHeader block.1.blockNum, insertBlockHeader block)).foldl
        (fun tables write => write.2 tables) tables).client = tables.client := by
    refine foldl_write_view StoreTables.client fun write member tables => ?_
    obtain ⟨block, -, rfl⟩ := List.mem_map.mp member
    rfl
  unfold syncWrites ClientStore.applyStateSync
  rw [List.foldl_append, foldl_write_client _ ClientStore.upsertTransactionRecord
    (fun _ _ => rfl), List.foldl_append, List.foldl_cons, List.foldl_cons,
    foldl_write_client _ ClientStore.removeNoteTag (fun _ _ => rfl), List.foldl_cons]
  refine congrArg (fun moved : ClientStore => List.foldl ClientStore.upsertTransactionRecord
    (List.foldl ClientStore.removeNoteTag (moved.applyNoteUpdates update.noteUpdates)
      (ClientStore.tagsToRemove update.noteUpdates))
    (ClientStore.settledRecords update.transactionUpdates)) ?_
  exact headers _

variable [ProtocolLibrary]

omit [NoteLibrary] in
theorem lockWrites_client (mismatched : List (AccountId × Word))
    (tables : StoreTables Database) :
    ((lockWrites mismatched).foldl (fun tables write => write.2 tables) tables).client =
      tables.client := by
  refine foldl_write_view StoreTables.client (fun write member tables => ?_) tables
  obtain ⟨report, -, rfl⟩ := List.mem_map.mp member
  rfl

theorem applyStateSync_client {refusals : Refusals} {store after : Store Database}
    {update : SyncStoreUpdate} (synced : applyStateSync refusals update store = .ok () after) :
    after.tables.client = store.tables.client.applyStateSync update.toStateSyncUpdate := by
  unfold applyStateSync at synced
  rw [Fallible.get_bind] at synced
  obtain ⟨tables, first, written, rest⟩ :=
    Fallible.bind_eq_result_ok.mp (StoreM.inTransaction_eq_ok synced)
  obtain ⟨rfl, rfl⟩ := ForestM.writeAll_eq_ok written
  obtain ⟨_, _, -, rest⟩ := Fallible.bind_eq_result_ok.mp rest
  obtain ⟨accounts, second, updated, locked⟩ := Fallible.bind_eq_result_ok.mp rest
  rw [(ForestM.writeAll_eq_ok locked).1, lockWrites_client]
  exact syncWrites_client update store.tables

end Client

end SqliteStore

/-! ### What is in the lists -/

namespace SyncSummary

theorem mem_idSet {noteIds : List NoteId} {noteId : NoteId} :
    noteId ∈ idSet noteIds ↔ noteId ∈ noteIds := by
  unfold idSet
  rw [Finset.mem_sort, List.mem_toFinset]

section Tracked

variable {record σ : Type} {id : record → NoteId} {state : record → σ} {test : σ → Bool}
  {tracked : ExtTreeMap NoteId (NoteUpdate record)}
  (keyed : ∀ (noteId : NoteId) (update : NoteUpdate record), tracked[noteId]? = some update →
    id update.note = noteId)
  {noteId : NoteId}

include keyed

theorem mem_idsOf_iff {test : NoteUpdate record → Bool} :
    noteId ∈ idsOf id test ((OrderedMap.values tracked).filter NoteUpdate.isUpdated) ↔
      ∃ update, tracked[noteId]? = some update ∧ update.isUpdated = true ∧ test update = true := by
  unfold idsOf
  rw [List.mem_map]
  constructor
  · rintro ⟨update, listed, rfl⟩
    obtain ⟨listed, passes⟩ := List.mem_filter.mp listed
    obtain ⟨listed, updated⟩ := List.mem_filter.mp listed
    obtain ⟨other, found⟩ := OrderedMap.mem_values_iff.mp listed
    rw [keyed other update found]
    exact ⟨update, found, updated, passes⟩
  · rintro ⟨update, found, updated, passes⟩
    exact ⟨update, List.mem_filter.mpr ⟨List.mem_filter.mpr
      ⟨OrderedMap.mem_values_iff.mpr ⟨noteId, found⟩, updated⟩, passes⟩, keyed noteId update found⟩

theorem mem_idsOf_insert_iff :
    noteId ∈ idsOf id (fun update => update.updateType = .insert)
        ((OrderedMap.values tracked).filter NoteUpdate.isUpdated) ↔
      StateWrite.Inserts (tracked[noteId]?.map fun update =>
        (update.updateType, state update.note)) := by
  rw [mem_idsOf_iff keyed]
  constructor
  · rintro ⟨⟨note, updateType⟩, found, -, inserted⟩
    obtain rfl := of_decide_eq_true inserted
    exact ⟨state note, by rw [found]; rfl⟩
  · rintro ⟨new, write⟩
    obtain ⟨⟨note, updateType⟩, found, same⟩ := Option.map_eq_some_iff.mp write
    cases same
    exact ⟨_, found, rfl, rfl⟩

theorem mem_idsOf_update_iff :
    noteId ∈ idsOf id (fun update => update.updateType = .update && test (state update.note))
        ((OrderedMap.values tracked).filter NoteUpdate.isUpdated) ↔
      StateWrite.UpdatesTo test (tracked[noteId]?.map fun update =>
        (update.updateType, state update.note)) := by
  rw [mem_idsOf_iff keyed]
  constructor
  · rintro ⟨⟨note, updateType⟩, found, -, passes⟩
    obtain ⟨updated, passes⟩ := Bool.and_eq_true_iff.mp passes
    obtain rfl := of_decide_eq_true updated
    exact ⟨state note, by rw [found]; rfl, passes⟩
  · rintro ⟨new, write, passes⟩
    obtain ⟨⟨note, updateType⟩, found, same⟩ := Option.map_eq_some_iff.mp write
    cases same
    exact ⟨_, found, rfl, Bool.and_eq_true_iff.mpr ⟨rfl, passes⟩⟩

theorem mem_idsOf_state_iff :
    noteId ∈ idsOf id (fun update => test (state update.note))
        ((OrderedMap.values tracked).filter NoteUpdate.isUpdated) ↔
      StateWrite.WritesTo test (tracked[noteId]?.map fun update =>
        (update.updateType, state update.note)) := by
  rw [mem_idsOf_iff keyed]
  constructor
  · rintro ⟨⟨note, updateType⟩, found, updated, passes⟩
    exact ⟨updateType, state note, by rw [found]; rfl, of_decide_eq_true updated, passes⟩
  · rintro ⟨updateType, new, write, changed, passes⟩
    obtain ⟨⟨note, otherType⟩, found, same⟩ := Option.map_eq_some_iff.mp write
    cases same
    exact ⟨_, found, decide_eq_true changed, passes⟩

end Tracked

section Lists

variable [NoteLibrary] {update : SyncStoreUpdate} (keyed : Keyed update) {noteId : NoteId}

include keyed

theorem mem_newPublicNotes_iff :
    noteId ∈ (ofUpdate update).newPublicNotes ↔ (inputWrite update.noteUpdates noteId).Inserts :=
  mem_idsOf_insert_iff keyed.inputNotes

theorem mem_committedNotes_iff :
    noteId ∈ (ofUpdate update).committedNotes ↔
      (inputWrite update.noteUpdates noteId).UpdatesTo InputNoteState.isCommitted ∨
        (outputWrite update.noteUpdates noteId).UpdatesTo OutputNoteState.isCommitted :=
  mem_idSet.trans (List.mem_append.trans (or_congr (mem_idsOf_update_iff keyed.inputNotes)
    (mem_idsOf_update_iff keyed.outputNotes)))

theorem mem_consumedNotes_iff :
    noteId ∈ (ofUpdate update).consumedNotes ↔
      (inputWrite update.noteUpdates noteId).WritesTo InputNoteState.isConsumed :=
  mem_idSet.trans (mem_idsOf_state_iff keyed.inputNotes)

end Lists

/-! ### What the sync leaves -/

section Stored

variable [NoteLibrary] {update : SyncStoreUpdate}

theorem inputState_applyStateSync (keyed : Keyed update) (store : ClientStore) (noteId : NoteId) :
    inputState (store.applyStateSync update.toStateSyncUpdate) noteId =
      (inputWrite update.noteUpdates noteId).after (inputState store noteId) := by
  rw [← inputState_applyNoteUpdates keyed.inputNotes]
  unfold ClientStore.applyStateSync inputState
  dsimp only
  rw [ClientStore.foldl_upsertTransactionRecord_inputNotes,
    (ClientStore.foldl_removeNoteTag_frame _ _).1, ClientStore.applyNoteUpdates_getElem?
      keyed.inputNotes, ClientStore.applyNoteUpdates_getElem? keyed.inputNotes]
  cases update.noteUpdates.inputNotes[noteId]? with
  | none => rfl
  | some tracked =>
    dsimp only
    rw [ClientStore.applyInputNoteUpdate_getElem?, ClientStore.applyInputNoteUpdate_getElem?]

omit [NoteLibrary] in
theorem foldl_upsertTransactionRecord_outputNotes (records : List TransactionRecord)
    (store : ClientStore) :
    (records.foldl ClientStore.upsertTransactionRecord store).outputNotes = store.outputNotes := by
  induction records generalizing store with
  | nil => rfl
  | cons record rest inductionHypothesis => exact inductionHypothesis _

omit [NoteLibrary] in
theorem foldl_removeNoteTag_outputNotes (tags : List NoteTagRecord) (store : ClientStore) :
    (tags.foldl ClientStore.removeNoteTag store).outputNotes = store.outputNotes := by
  induction tags generalizing store with
  | nil => rfl
  | cons tag rest inductionHypothesis => exact inductionHypothesis _

theorem outputState_applyStateSync (keyed : Keyed update) (store : ClientStore) (noteId : NoteId) :
    outputState (store.applyStateSync update.toStateSyncUpdate) noteId =
      (outputWrite update.noteUpdates noteId).after (outputState store noteId) := by
  unfold ClientStore.applyStateSync
  dsimp only
  unfold outputState
  rw [foldl_upsertTransactionRecord_outputNotes, foldl_removeNoteTag_outputNotes]
  exact outputState_applyNoteUpdates keyed.outputNotes _ noteId

theorem mem_records_iff (keyed : Keyed update) {record : TransactionRecord} :
    record ∈ update.transactionUpdates.records ↔
      update.transactionUpdates.transactions[record.id]? = some record := by
  show record ∈ OrderedMap.values update.transactionUpdates.transactions ↔ _
  rw [OrderedMap.mem_values_iff]
  constructor
  · rintro ⟨id, found⟩
    rw [keyed.transactions id record found]
    exact found
  · exact fun found => ⟨record.id, found⟩

/-- A record is not settled twice. -/
theorem find?_settledRecords (keyed : Keyed update) (id : TransactionId) :
    (ClientStore.settledRecords update.transactionUpdates).find? (fun record => record.id = id) =
      update.transactionUpdates.transactions[id]?.filter fun record =>
        record.status.isCommitted || record.status.isDiscarded := by
  have find : ∀ test : TransactionRecord → Bool,
      (update.transactionUpdates.records.filter test).find? (fun record => record.id = id) =
        update.transactionUpdates.transactions[id]?.filter test :=
    fun test => OrderedMap.find?_values_filter keyed.transactions test id
  unfold ClientStore.settledRecords
  rw [List.find?_append]
  show Option.or ((List.filter _ _).find? _) ((List.filter _ _).find? _) = _
  rw [find, find]
  cases update.transactionUpdates.transactions[id]? with
  | none => rfl
  | some record =>
    rw [Option.filter_some, Option.filter_some, Option.filter_some]
    cases record.status.isCommitted with
    | true => rfl
    | false => rfl

theorem pairwise_settledRecords (keyed : Keyed update) :
    (ClientStore.settledRecords update.transactionUpdates).Pairwise (·.id ≠ ·.id) := by
  have distinct : update.transactionUpdates.records.Pairwise (·.id ≠ ·.id) :=
    OrderedMap.pairwise_values keyed.transactions
  refine List.pairwise_append.mpr ⟨distinct.filter _, distinct.filter _, ?_⟩
  intro committed inCommitted discarded inDiscarded same
  obtain ⟨inCommitted, isCommitted⟩ := List.mem_filter.mp inCommitted
  obtain ⟨inDiscarded, isDiscarded⟩ := List.mem_filter.mp inDiscarded
  have found := (mem_records_iff keyed).mp inCommitted
  rw [same, (mem_records_iff keyed).mp inDiscarded] at found
  cases found
  obtain ⟨_, _, status⟩ := (TransactionStatus.isCommitted_iff _).mp isCommitted
  rw [status] at isDiscarded
  cases isDiscarded

/-- The transactions after a sync are those that it settled, and the stored ones. -/
theorem transactions_applyStateSync (keyed : Keyed update) (store : ClientStore)
    (id : TransactionId) :
    (store.applyStateSync update.toStateSyncUpdate).transactions[id]? =
      ((ClientStore.settledRecords update.transactionUpdates).find? fun record =>
        record.id = id).elim store.transactions[id]? some := by
  have written : ∀ (records : List TransactionRecord) (store : ClientStore),
      (records.foldl ClientStore.upsertTransactionRecord store).transactions =
        records.foldl (fun table record => table.insert record.id record) store.transactions := by
    intro records
    induction records with
    | nil => exact fun _ => rfl
    | cons record rest inductionHypothesis => exact fun store => inductionHypothesis _
  unfold ClientStore.applyStateSync
  dsimp only
  rw [written, (ClientStore.foldl_removeNoteTag_frame _ _).2,
    ClientStore.applyNoteUpdates_transactions]
  refine OrderedMap.getElem?_foldl_touch (fun record _ => some record)
    (fun table record key => ?_) (pairwise_settledRecords keyed) store.transactions id
  rw [ExtTreeMap.getElem?_insert]
  simp only [Std.compare_eq_iff_eq]

end Stored

end SyncSummary

section Library

variable [ProtocolLibrary]

/-! ### Locked accounts -/

namespace Database

/-- The account is locked because of a report: it is stored when the reports are looked at, and one
of them is of none of its earlier states. -/
def LockedBy (db : Database) (mismatched : List (AccountId × Word)) (accountId : AccountId) :
    Prop :=
  db.latestAccountHeaders[accountId]? ≠ none ∧
    ∃ report ∈ mismatched, report.1 = accountId ∧ db.Unexpected report

/-- The account keeps a row when the states are undone, and a report is of none of the states that
it keeps. -/
def LocksReported (db : Database) (discardedStates mismatched : List (AccountId × Word))
    (accountId : AccountId) : Prop :=
  db.headerAfter accountId (db.undoneNonces discardedStates accountId) ≠ none ∧
    ∃ report ∈ mismatched, report.1 = accountId ∧
      ¬db.KeepsDigest discardedStates accountId report.2

/-- Whether an account is locked is known from the states before the sync. -/
theorem lockedBy_iff_locksReported (collisionFree : CollisionFree) {db updated : Database}
    (keyed : db.HeadersKeyed) {update : AccountSyncUpdate} {forest last : AccountSmtForest}
    (applied : db.applyAccountUpdates update forest = .ok updated last) {accountId : AccountId}
    (notUpdated : ∀ account ∈ update.updatedPublicAccounts, accountId ≠ account.id) :
    updated.LockedBy update.mismatchedPrivateAccounts accountId ↔
      db.LocksReported update.discardedStates update.mismatchedPrivateAccounts accountId := by
  obtain ⟨-, latest, history⟩ := applyAccountUpdates_headers collisionFree keyed applied notUpdated
  unfold LockedBy LocksReported
  rw [latest]
  refine and_congr_right fun _ => exists_congr fun report => and_congr_right fun _ =>
    and_congr_right fun about => ?_
  subst about
  unfold Unexpected KeepsDigest
  rw [history]
  constructor
  · rintro unexpected ⟨row, member, same, kept⟩
    exact unexpected row (List.mem_filter.mpr ⟨member, decide_eq_true kept⟩) same
  · intro forgotten row member same
    obtain ⟨member, kept⟩ := List.mem_filter.mp member
    exact forgotten ⟨row, member, same, of_decide_eq_true kept⟩

end Database

/-! ### The summary and the store -/

namespace SyncSummary

open StateWrite SqliteStore

variable [NoteLibrary]

/-- The lists of the summary are what the sync did to the store. -/
structure Exact (store after : Store Database) (update : SyncStoreUpdate) : Prop where
  lockedAccounts : ∀ updated last, store.tables.accounts.applyAccountUpdates
      (accountSyncUpdate update) store.forest = .ok updated last →
    ∀ accountId, accountId ∈ (ofUpdate update).lockedAccounts ↔
      updated.LockedBy update.mismatchedPrivateAccounts accountId
  committedTransactions : ∀ id, id ∈ (ofUpdate update).committedTransactions ↔
    (∃ record ∈ ClientStore.settledRecords update.transactionUpdates, record.id = id) ∧
      ∃ record, after.tables.client.transactions[id]? = some record ∧
        record.status.isCommitted = true
  newPublicNotes : ∀ noteId, noteId ∈ (ofUpdate update).newPublicNotes ↔
    Appears (inputState store.tables.client noteId) (inputState after.tables.client noteId) ∨
      Appears (outputState store.tables.client noteId) (outputState after.tables.client noteId)
  committedNotes : ∀ noteId, noteId ∈ (ofUpdate update).committedNotes ↔
    Enters InputNoteState.isCommitted (inputState store.tables.client noteId)
        (inputState after.tables.client noteId) ∨
      Enters OutputNoteState.isCommitted (outputState store.tables.client noteId)
        (outputState after.tables.client noteId)
  consumedNotes : ∀ noteId, noteId ∈ (ofUpdate update).consumedNotes ↔
    Reaches InputNoteState.isConsumed (inputState store.tables.client noteId)
        (inputState after.tables.client noteId) ∨
      Reaches OutputNoteState.isConsumed (outputState store.tables.client noteId)
        (outputState after.tables.client noteId)

/-- A new output note is not stored yet. -/
def NewOutput (store : ClientStore) (updates : NoteUpdateTracker) (noteId : NoteId) : Prop :=
  (outputWrite updates noteId).Inserts ∧ outputState store noteId = none

/-- A stored record of the note is committed now and was not before. -/
def Commits (store : ClientStore) (updates : NoteUpdateTracker) (noteId : NoteId) : Prop :=
  ((inputWrite updates noteId).WritesTo InputNoteState.isCommitted ∧
      ∃ old, inputState store noteId = some old ∧ old.isCommitted = false) ∨
    ((outputWrite updates noteId).WritesTo OutputNoteState.isCommitted ∧
      ∃ old, outputState store noteId = some old ∧ old.isCommitted = false)

/-- The input note is not consumed in the store, and is there unless it is new. -/
def UnconsumedInput (store : ClientStore) (updates : NoteUpdateTracker) (noteId : NoteId) : Prop :=
  (∀ old, inputState store noteId = some old → old.isConsumed = false) ∧
    (inputState store noteId = none → (inputWrite updates noteId).Inserts)

/-- The output note is consumed now and was not before. -/
def ConsumesOutput (store : ClientStore) (updates : NoteUpdateTracker) (noteId : NoteId) : Prop :=
  (outputWrite updates noteId).WritesTo OutputNoteState.isConsumed ∧
    (∀ old, outputState store noteId = some old → old.isConsumed = false) ∧
      (outputState store noteId = none → (outputWrite updates noteId).Inserts)

/-- The update changes what it says it changes, and says all of it. -/
structure Accounted (store : Store Database) (update : SyncStoreUpdate) : Prop where
  reports : ∀ report ∈ update.mismatchedPrivateAccounts, store.tables.accounts.LocksReported
    update.discardedStates update.mismatchedPrivateAccounts report.1
  newNotes : ∀ noteId, (inputWrite update.noteUpdates noteId).Inserts →
    inputState store.tables.client noteId = none ∨
      NewOutput store.tables.client update.noteUpdates noteId
  newOutputs : ∀ noteId, NewOutput store.tables.client update.noteUpdates noteId →
    (inputWrite update.noteUpdates noteId).Inserts
  committed : ∀ noteId,
    (inputWrite update.noteUpdates noteId).UpdatesTo InputNoteState.isCommitted ∨
      (outputWrite update.noteUpdates noteId).UpdatesTo OutputNoteState.isCommitted ↔
    Commits store.tables.client update.noteUpdates noteId
  consumed : ∀ noteId, (inputWrite update.noteUpdates noteId).WritesTo InputNoteState.isConsumed →
    UnconsumedInput store.tables.client update.noteUpdates noteId ∨
      ConsumesOutput store.tables.client update.noteUpdates noteId
  consumedOutputs : ∀ noteId, ConsumesOutput store.tables.client update.noteUpdates noteId →
    (inputWrite update.noteUpdates noteId).WritesTo InputNoteState.isConsumed

variable {refusals : Refusals} {store after : Store Database} {update : SyncStoreUpdate}

/-- The committed transactions are those that are stored as committed. -/
theorem mem_committedTransactions_iff (keyed : Keyed update)
    (synced : applyStateSync refusals update store = .ok () after) (id : TransactionId) :
    id ∈ (ofUpdate update).committedTransactions ↔
      (∃ record ∈ ClientStore.settledRecords update.transactionUpdates, record.id = id) ∧
        ∃ record, after.tables.client.transactions[id]? = some record ∧
          record.status.isCommitted = true := by
  rw [applyStateSync_client synced, transactions_applyStateSync keyed, find?_settledRecords keyed]
  show id ∈ List.map _ (List.filter _ _) ↔ _
  rw [List.mem_map]
  constructor
  · rintro ⟨record, listed, rfl⟩
    obtain ⟨listed, committed⟩ := List.mem_filter.mp listed
    refine ⟨⟨record, List.mem_append_left _ (List.mem_filter.mpr ⟨listed, committed⟩), rfl⟩, record,
      ?_, committed⟩
    rw [(mem_records_iff keyed).mp listed, Option.filter_some, committed]
    rfl
  · rintro ⟨⟨settled, listed, rfl⟩, record, stored, committed⟩
    have inRecords : settled ∈ update.transactionUpdates.records := by
      rcases List.mem_append.mp listed with inCommitted | inDiscarded
      · exact (List.mem_filter.mp inCommitted).1
      · exact (List.mem_filter.mp inDiscarded).1
    have isSettled : (settled.status.isCommitted || settled.status.isDiscarded) = true := by
      rcases List.mem_append.mp listed with inCommitted | inDiscarded
      · rw [(List.mem_filter.mp inCommitted).2]
        rfl
      · rw [(List.mem_filter.mp inDiscarded).2, Bool.or_true]
    rw [(mem_records_iff keyed).mp inRecords, Option.filter_some, isSettled] at stored
    cases stored
    exact ⟨settled, List.mem_filter.mpr ⟨inRecords, committed⟩, rfl⟩

omit [ProtocolLibrary] in
theorem newPublicNotes_exact_iff (keyed : Keyed update) (client : ClientStore) :
    (∀ noteId, noteId ∈ (ofUpdate update).newPublicNotes ↔
      Appears (inputState client noteId)
          (inputState (client.applyStateSync update.toStateSyncUpdate) noteId) ∨
        Appears (outputState client noteId)
          (outputState (client.applyStateSync update.toStateSyncUpdate) noteId)) ↔
      (∀ noteId, (inputWrite update.noteUpdates noteId).Inserts →
        inputState client noteId = none ∨ NewOutput client update.noteUpdates noteId) ∧
      ∀ noteId, NewOutput client update.noteUpdates noteId →
        (inputWrite update.noteUpdates noteId).Inserts := by
  rw [← forall_and]
  refine forall_congr' fun noteId => ?_
  rw [mem_newPublicNotes_iff keyed, inputState_applyStateSync keyed,
    outputState_applyStateSync keyed, appears_after_iff, appears_after_iff]
  unfold NewOutput
  tauto

omit [ProtocolLibrary] in
theorem committedNotes_exact_iff (keyed : Keyed update) (client : ClientStore) :
    (∀ noteId, noteId ∈ (ofUpdate update).committedNotes ↔
      Enters InputNoteState.isCommitted (inputState client noteId)
          (inputState (client.applyStateSync update.toStateSyncUpdate) noteId) ∨
        Enters OutputNoteState.isCommitted (outputState client noteId)
          (outputState (client.applyStateSync update.toStateSyncUpdate) noteId)) ↔
      ∀ noteId, (inputWrite update.noteUpdates noteId).UpdatesTo InputNoteState.isCommitted ∨
          (outputWrite update.noteUpdates noteId).UpdatesTo OutputNoteState.isCommitted ↔
        Commits client update.noteUpdates noteId := by
  refine forall_congr' fun noteId => ?_
  rw [mem_committedNotes_iff keyed, inputState_applyStateSync keyed,
    outputState_applyStateSync keyed, enters_after_iff, enters_after_iff]
  rfl

omit [ProtocolLibrary] in
theorem consumedNotes_exact_iff (keyed : Keyed update) (client : ClientStore) :
    (∀ noteId, noteId ∈ (ofUpdate update).consumedNotes ↔
      Reaches InputNoteState.isConsumed (inputState client noteId)
          (inputState (client.applyStateSync update.toStateSyncUpdate) noteId) ∨
        Reaches OutputNoteState.isConsumed (outputState client noteId)
          (outputState (client.applyStateSync update.toStateSyncUpdate) noteId)) ↔
      (∀ noteId, (inputWrite update.noteUpdates noteId).WritesTo InputNoteState.isConsumed →
        UnconsumedInput client update.noteUpdates noteId ∨
          ConsumesOutput client update.noteUpdates noteId) ∧
      ∀ noteId, ConsumesOutput client update.noteUpdates noteId →
        (inputWrite update.noteUpdates noteId).WritesTo InputNoteState.isConsumed := by
  rw [← forall_and]
  refine forall_congr' fun noteId => ?_
  rw [mem_consumedNotes_iff keyed, inputState_applyStateSync keyed,
    outputState_applyStateSync keyed, reaches_after_iff, reaches_after_iff]
  unfold UnconsumedInput ConsumesOutput
  tauto

theorem lockedAccounts_exact_iff (collisionFree : CollisionFree)
    (headersKeyed : store.tables.accounts.HeadersKeyed)
    (publicOnly : ∀ account ∈ update.updatedPublicAccounts,
      ProtocolLibrary.isPrivate account.id = false)
    (privateOnly : ∀ report ∈ update.mismatchedPrivateAccounts,
      ProtocolLibrary.isPrivate report.1 = true)
    (synced : applyStateSync refusals update store = .ok () after) :
    (∀ updated last, store.tables.accounts.applyAccountUpdates (accountSyncUpdate update)
        store.forest = .ok updated last →
      ∀ accountId, accountId ∈ (ofUpdate update).lockedAccounts ↔
        updated.LockedBy update.mismatchedPrivateAccounts accountId) ↔
      ∀ report ∈ update.mismatchedPrivateAccounts, store.tables.accounts.LocksReported
        update.discardedStates update.mismatchedPrivateAccounts report.1 := by
  obtain ⟨updated, last, applied, -⟩ := applyStateSync_eq_ok synced
  have decided : ∀ report ∈ update.mismatchedPrivateAccounts,
      (updated.LockedBy update.mismatchedPrivateAccounts report.1 ↔
        store.tables.accounts.LocksReported update.discardedStates
          update.mismatchedPrivateAccounts report.1) := by
    intro report reported
    refine Database.lockedBy_iff_locksReported collisionFree headersKeyed applied ?_
    intro account member same
    have isPrivate := privateOnly report reported
    rw [same, publicOnly account member] at isPrivate
    cases isPrivate
  constructor
  · intro exactly report reported
    exact (decided report reported).mp ((exactly updated last applied report.1).mp
      (List.mem_map_of_mem reported))
  · intro locks other final again accountId
    cases applied.symm.trans again
    constructor
    · intro listed
      obtain ⟨report, reported, rfl⟩ := List.mem_map.mp listed
      exact (decided report reported).mpr (locks report reported)
    · rintro ⟨-, report, reported, rfl, -⟩
      exact List.mem_map_of_mem reported

/-- The summary of an update says what its sync did exactly when every report locks its account and
every listed note was neither there nor in its new state before, and no output note is consumed
without its input note. -/
theorem exact_iff_accounted (collisionFree : CollisionFree)
    (headersKeyed : store.tables.accounts.HeadersKeyed) (keyed : Keyed update)
    (publicOnly : ∀ account ∈ update.updatedPublicAccounts,
      ProtocolLibrary.isPrivate account.id = false)
    (privateOnly : ∀ report ∈ update.mismatchedPrivateAccounts,
      ProtocolLibrary.isPrivate report.1 = true)
    (synced : applyStateSync refusals update store = .ok () after) :
    Exact store after update ↔ Accounted store update := by
  have locked := lockedAccounts_exact_iff collisionFree headersKeyed publicOnly privateOnly synced
  have new := newPublicNotes_exact_iff keyed store.tables.client
  have committed := committedNotes_exact_iff keyed store.tables.client
  have consumed := consumedNotes_exact_iff keyed store.tables.client
  rw [← applyStateSync_client synced] at new committed consumed
  constructor
  · intro exactly
    obtain ⟨newNotes, newOutputs⟩ := new.mp exactly.newPublicNotes
    obtain ⟨consumedInputs, consumedOutputs⟩ := consumed.mp exactly.consumedNotes
    exact ⟨locked.mp exactly.lockedAccounts, newNotes, newOutputs,
      committed.mp exactly.committedNotes, consumedInputs, consumedOutputs⟩
  · intro accounted
    exact ⟨locked.mpr accounted.reports, mem_committedTransactions_iff keyed synced,
      new.mpr ⟨accounted.newNotes, accounted.newOutputs⟩, committed.mpr accounted.committed,
      consumed.mpr ⟨accounted.consumed, accounted.consumedOutputs⟩⟩

end SyncSummary

end Library

namespace Sample

open SyncSummary

/-- A note that was sent, and that the network has. -/
def sentCoupon : OutputNoteRecord :=
  { OutputNoteRecord.fromFullNote couponNote 0 with
    state := .committedFull couponNote.details.recipient ⟨2, 0, [7]⟩ }

/-- The sent note when its receiver has consumed it. -/
def spentCoupon : OutputNoteRecord :=
  { sentCoupon with state := .consumed 5 couponNote.details.recipient }

/-- A store with the sent note and no account. -/
def sentCouponStore : Store Database where
  tables :=
    { accounts := .empty
      client := { ClientStore.empty with
        outputNotes := (∅ : ExtTreeMap NoteId OutputNoteRecord).insert couponNote.id sentCoupon }
      transactionScripts := ∅
      blockHeaders := ∅
      partialBlockchainNodes := ∅ }
  forest := .new
  forestPoisoned := false

/-- A sync in which only the nullifier of the sent note was received. -/
def spendSync : SyncStoreUpdate where
  blockNum := 5
  noteUpdates := { NoteUpdateTracker.new [] [] with
    outputNotes := (∅ : ExtTreeMap NoteId OutputNoteUpdate).insert couponNote.id
      ⟨spentCoupon, .update⟩ }
  transactionUpdates := .new []
  blockHeaders := []
  newAuthenticationNodes := []
  updatedPublicAccounts := []
  mismatchedPrivateAccounts := []

theorem spendSync_keyed : Keyed spendSync where
  inputNotes noteId tracked found := by
    rw [show spendSync.noteUpdates.inputNotes[noteId]? = none from ExtTreeMap.getElem?_empty]
      at found
    cases found
  outputNotes noteId tracked found := by
    unfold spendSync at found
    rw [ExtTreeMap.getElem?_insert] at found
    split at found
    · rename_i same
      cases found
      exact Std.compare_eq_iff_eq.mp same
    · rw [ExtTreeMap.getElem?_empty] at found
      cases found
  transactions id record found := by
    rw [show spendSync.transactionUpdates.transactions[id]? = none from
      ExtTreeMap.getElem?_empty] at found
    cases found

theorem spendSync_succeeds : ∃ after,
    SqliteStore.applyStateSync (fun _ => none) spendSync sentCouponStore = .ok () after := by
  have succeeds : Fallible.succeedsWith (SqliteStore.applyStateSync (fun _ => none) spendSync
    sentCouponStore) (fun _ _ => true) = true := by decide +kernel
  obtain ⟨_, after, synced, -⟩ := Fallible.exists_of_succeedsWith succeeds
  exact ⟨after, synced⟩

/-- The summary of the sync is compared with the store. -/
theorem exact_iff_accounted_spend : ∃ after,
    SqliteStore.applyStateSync (fun _ => none) spendSync sentCouponStore = .ok () after ∧
      (Exact sentCouponStore after spendSync ↔ Accounted sentCouponStore spendSync) := by
  obtain ⟨after, synced⟩ := spendSync_succeeds
  refine ⟨after, synced, exact_iff_accounted collisionFree ?_ spendSync_keyed ?_ ?_ synced⟩
  · intro id row found
    rw [show sentCouponStore.tables.accounts.latestAccountHeaders[id]? = none from
      ExtTreeMap.getElem?_empty] at found
    cases found
  · intro account member
    cases member
  · intro report member
    cases member

/-- The sync stores the sent note as consumed, and its summary lists no consumed note. -/
theorem not_exact_spend : ∃ after,
    SqliteStore.applyStateSync (fun _ => none) spendSync sentCouponStore = .ok () after ∧
      ¬Exact sentCouponStore after spendSync := by
  obtain ⟨after, synced⟩ := spendSync_succeeds
  refine ⟨after, synced, fun exactly => ?_⟩
  have consumed := exactly.consumedNotes
  rw [SqliteStore.applyStateSync_client synced] at consumed
  have listed := ((consumedNotes_exact_iff spendSync_keyed _).mp consumed).2 couponNote.id
    ⟨⟨.update, spentCoupon.state, by decide +kernel, NoteUpdateType.noConfusion, rfl⟩, ?_, ?_⟩
  · obtain ⟨_, _, write, -⟩ := listed
    cases write
  · intro old stored
    rw [show outputState sentCouponStore.tables.client couponNote.id = some sentCoupon.state by
      decide +kernel] at stored
    cases stored
    rfl
  · intro absent
    exact absurd absent (by decide +kernel)

end Sample

end MidenClient
