/-
This file follows the notes that are being processed through whole runs of the client.

A note is being processed on behalf of a local transaction, and the transaction record
should be pending for as long as that lasts. The two sides are moved by different
events: a transaction is settled by an inclusion, by its age, by a nullifier of any of
its notes or by the fall of an earlier transaction, while a note only leaves the
processing states when its own nullifier is received. The link between them therefore
holds in a run exactly as long as no sync settles the transaction of a note whose
nullifier it does not process.
-/

import MidenClient.Note.ImportedNotes
import MidenClient.Sync.SyncEvents

namespace MidenClient

open Std (ExtTreeMap)
open Fallible

/-! ### What the operations write -/

namespace ClientStore

variable [NoteLibrary]

/-- Every input note that is being processed has a pending record of its consumer
transaction. -/
def ProcessingNotesPending (store : ClientStore) : Prop :=
  ∀ (noteId : NoteId) (note : InputNoteRecord), store.inputNotes[noteId]? = some note →
    note.state.isProcessing = true →
    ∃ (consumer : TransactionId) (record : TransactionRecord),
      note.state.consumerTransactionId = some consumer ∧
        store.transactions[consumer]? = some record ∧ record.id = consumer ∧
        record.status = .pending

/-- Rows stand under their own id, and processing notes have a pending transaction. -/
structure Consistent (store : ClientStore) : Prop where
  notesKeyed : ∀ (noteId : NoteId) (note : InputNoteRecord),
    store.inputNotes[noteId]? = some note → note.id = noteId
  recordsKeyed : ∀ (id : TransactionId) (record : TransactionRecord),
    store.transactions[id]? = some record → record.id = id
  pending : store.ProcessingNotesPending

theorem applyInputNoteUpdate_getElem? (store : ClientStore) (update : InputNoteUpdate)
    (noteId : NoteId) :
    (store.applyInputNoteUpdate update).inputNotes[noteId]? =
      if update.note.id = noteId then
        match update.updateType with
        | .insert => some (storedInputNote update.note)
        | .update => store.inputNotes[noteId]?.map fun record =>
            { record with state := update.note.state }
        | .none => store.inputNotes[noteId]?
      else store.inputNotes[noteId]? := by
  unfold applyInputNoteUpdate
  cases update.updateType with
  | none => simp
  | insert => simp [upsertInputNote, ExtTreeMap.getElem?_insert]
  | update =>
    simp only [ExtTreeMap.getElem?_modify, Std.compare_eq_iff_eq]
    by_cases about : update.note.id = noteId
    · rw [if_pos about, if_pos about, about]
    · rw [if_neg about, if_neg about]

/-- Where a note of the store comes from after updates were written: it was there and none of
them is about it, or it has the state of one of them. -/
theorem foldl_applyInputNoteUpdate_eq_some {updates : List InputNoteUpdate}
    (marked : ∀ update ∈ updates, update.isUpdated = true) {store : ClientStore}
    {noteId : NoteId} {note : InputNoteRecord}
    (found : (updates.foldl applyInputNoteUpdate store).inputNotes[noteId]? = some note) :
    (store.inputNotes[noteId]? = some note ∧ ∀ update ∈ updates, update.note.id ≠ noteId) ∨
      ∃ update ∈ updates, update.note.id = noteId ∧ note.state = update.note.state := by
  induction updates using List.reverseRecOn generalizing note with
  | nil => exact Or.inl ⟨found, by simp⟩
  | append_singleton updates last inductionHypothesis =>
    rw [List.foldl_append, List.foldl_cons, List.foldl_nil, applyInputNoteUpdate_getElem?] at found
    have earlier : ∀ update ∈ updates, update.isUpdated = true :=
      fun update member => marked update (List.mem_append_left _ member)
    by_cases about : last.note.id = noteId
    · rw [if_pos about] at found
      refine Or.inr ⟨last, by simp, about, ?_⟩
      have mark := marked last (by simp)
      unfold NoteUpdate.isUpdated at mark
      cases updateType : last.updateType with
      | none => simp [updateType] at mark
      | insert =>
        rw [updateType] at found
        cases found
        rfl
      | update =>
        rw [updateType] at found
        obtain ⟨before, _, rfl⟩ := Option.map_eq_some_iff.mp found
        rfl
    · rw [if_neg about] at found
      rcases inductionHypothesis earlier found with ⟨before, others⟩ | ⟨update, member, id, state⟩
      · refine Or.inl ⟨before, fun update member => ?_⟩
        rcases List.mem_append.mp member with early | late
        · exact others update early
        · rw [List.mem_singleton.mp late]
          exact about
      · exact Or.inr ⟨update, List.mem_append_left _ member, id, state⟩

theorem foldl_applyInputNoteUpdate_keyed (updates : List InputNoteUpdate) (store : ClientStore)
    (keyed : ∀ (noteId : NoteId) (note : InputNoteRecord),
      store.inputNotes[noteId]? = some note → note.id = noteId)
    (noteId : NoteId) (note : InputNoteRecord)
    (found : (updates.foldl applyInputNoteUpdate store).inputNotes[noteId]? = some note) :
    note.id = noteId := by
  induction updates generalizing store with
  | nil => exact keyed noteId note found
  | cons update rest inductionHypothesis =>
    refine inductionHypothesis _ (fun other found foundAt => ?_) found
    rw [applyInputNoteUpdate_getElem?] at foundAt
    split at foundAt
    · rename_i about
      split at foundAt
      · cases foundAt
        exact about
      · obtain ⟨before, seen, rfl⟩ := Option.map_eq_some_iff.mp foundAt
        exact keyed other before seen
      · exact keyed other found foundAt
    · exact keyed other found foundAt

theorem foldl_applyInputNoteUpdate_transactions (updates : List InputNoteUpdate)
    (store : ClientStore) :
    (updates.foldl applyInputNoteUpdate store).transactions = store.transactions := by
  induction updates generalizing store with
  | nil => rfl
  | cons update rest inductionHypothesis =>
    rw [List.foldl_cons, inductionHypothesis]
    unfold applyInputNoteUpdate
    cases update.updateType <;> rfl

theorem foldl_applyOutputNoteUpdate_frame (updates : List OutputNoteUpdate)
    (store : ClientStore) :
    (updates.foldl applyOutputNoteUpdate store).inputNotes = store.inputNotes ∧
      (updates.foldl applyOutputNoteUpdate store).transactions = store.transactions := by
  induction updates generalizing store with
  | nil => exact ⟨rfl, rfl⟩
  | cons update rest inductionHypothesis =>
    rw [List.foldl_cons, (inductionHypothesis _).1, (inductionHypothesis _).2]
    unfold applyOutputNoteUpdate
    cases update.updateType <;> exact ⟨rfl, rfl⟩

theorem applyNoteUpdates_inputNotes (store : ClientStore) (updates : NoteUpdateTracker) :
    (store.applyNoteUpdates updates).inputNotes =
      (updates.updatedInputNotes.foldl applyInputNoteUpdate store).inputNotes :=
  (foldl_applyOutputNoteUpdate_frame _ _).1

theorem applyNoteUpdates_transactions (store : ClientStore) (updates : NoteUpdateTracker) :
    (store.applyNoteUpdates updates).transactions = store.transactions :=
  ((foldl_applyOutputNoteUpdate_frame _ _).2).trans
    (foldl_applyInputNoteUpdate_transactions _ store)

omit [NoteLibrary] in
theorem mem_updatedInputNotes_iff {tracker : NoteUpdateTracker} {update : InputNoteUpdate} :
    update ∈ tracker.updatedInputNotes ↔
      (∃ noteId : NoteId, tracker.inputNotes[noteId]? = some update) ∧
        update.isUpdated = true := by
  unfold NoteUpdateTracker.updatedInputNotes
  rw [List.mem_filter, OrderedMap.mem_values_iff]

/-! ### Imports and transactions keep the link -/

theorem empty_consistent : empty.Consistent where
  notesKeyed _ _ found := by simp [empty] at found
  recordsKeyed _ _ found := by simp [empty] at found
  pending _ _ found := by simp [empty] at found

theorem consistent_keptByImports : KeptByImports Consistent where
  tags _ _ consistent := ⟨consistent.notesKeyed, consistent.recordsKeyed, consistent.pending⟩
  upsert store note quiet consistent := by
    refine ⟨fun noteId found foundAt => ?_, consistent.recordsKeyed,
      fun noteId found foundAt processing => ?_⟩
    · unfold upsertInputNote at foundAt
      rw [ExtTreeMap.getElem?_insert] at foundAt
      split at foundAt
      · rename_i same
        cases foundAt
        exact Std.compare_eq_iff_eq.mp same
      · exact consistent.notesKeyed noteId found foundAt
    · unfold upsertInputNote at foundAt
      rw [ExtTreeMap.getElem?_insert] at foundAt
      split at foundAt
      · cases foundAt
        exact absurd (quiet.symm.trans processing) Bool.false_ne_true
      · exact consistent.pending noteId found foundAt processing

omit [NoteLibrary] in
/-- The notes a transaction consumes are processed on its behalf. -/
theorem consumedInputNotes_consumer {store : ClientStore} {transaction : ExecutedTransaction}
    {timestamp : Option ℕ} {notes : List InputNoteRecord}
    (consumed : store.consumedInputNotes transaction timestamp = .ok notes) :
    ∀ note ∈ notes, note.state.consumerTransactionId = some transaction.id := by
  refine foldlM_invariant (fun _ (updated : List InputNoteRecord) =>
      ∀ note ∈ updated, note.state.consumerTransactionId = some transaction.id)
    (consumeInputNote transaction timestamp) ?_ _ [] notes
    (fun _ absent => absurd absent List.not_mem_nil) consumed
  intro note _ updated next before step
  obtain ⟨result, changed, finished⟩ := bind_eq_ok.mp step
  rw [recordChange_eq_ok] at changed
  cases finished
  split
  · intro found member
    rcases List.mem_append.mp member with early | late
    · exact before found early
    · rw [List.mem_singleton.mp late]
      rcases InputNoteRecord.advance_eq_ok changed with ⟨state, moved, same⟩ | ⟨kept, _⟩
      · rw [same]
        exact InputNoteState.consumedLocally_consumer moved
      · unfold InputNoteState.consumedLocally at kept
        split at kept <;> try split at kept
        all_goals cases kept
  · exact before

/-- The notes of a transaction update are processed by that transaction, if by any. -/
theorem getNoteUpdates_consumer {store : ClientStore} {transaction : ExecutedTransaction}
    {environment : TransactionEnvironment} {updates : NoteUpdateTracker}
    (compiled : store.getNoteUpdates transaction environment = .ok updates)
    {update : InputNoteUpdate} (member : update ∈ updates.updatedInputNotes)
    (processing : update.note.state.isProcessing = true) :
    update.note.state.consumerTransactionId = some transaction.id := by
  obtain ⟨relevant, _, compiled⟩ := bind_eq_ok.mp compiled
  obtain ⟨consumed, consumedNotes, same⟩ := bind_eq_ok.mp compiled
  cases same
  obtain ⟨⟨noteId, tracked⟩, _⟩ := mem_updatedInputNotes_iff.mp member
  unfold NoteUpdateTracker.forTransactionUpdates at tracked
  rw [(NoteUpdateTracker.foldl_insertOutputNote _ _ _).1] at tracked
  rcases NoteUpdateTracker.foldl_insertInputNote_eq_some tracked with created | ⟨listed, _⟩
  · rcases NoteUpdateTracker.foldl_insertInputNote_eq_some created with absent | ⟨listed, _⟩
    · simp [NoteUpdateTracker.empty] at absent
    · rcases List.mem_append.mp listed with output | future
      · obtain ⟨raw, _, made⟩ := List.mem_filterMap.mp output
        split at made
        · split at made
          · rw [← Option.some.inj made] at processing
            cases processing
          · cases made
        · cases made
      · obtain ⟨given, _, made⟩ := List.mem_map.mp future
        rw [← made] at processing
        cases processing
  · exact consumedInputNotes_consumer consumedNotes update.note listed

theorem applyTransaction_consistent {store next : ClientStore}
    {transaction : ExecutedTransaction} {environment : TransactionEnvironment}
    (consistent : store.Consistent)
    (applied : store.applyTransaction transaction environment = .ok next) : next.Consistent := by
  obtain ⟨updates, compiled, applied⟩ := bind_eq_ok.mp applied
  obtain ⟨_, _, same⟩ := bind_eq_ok.mp applied
  cases same
  have records : ∀ id : TransactionId,
      ((store.upsertTransactionRecord (submittedRecord transaction
        environment.submissionHeight)).applyNoteUpdates updates).transactions[id]? =
        if transaction.id = id then
          some (submittedRecord transaction environment.submissionHeight)
        else store.transactions[id]? := by
    intro id
    rw [applyNoteUpdates_transactions]
    unfold upsertTransactionRecord
    rw [ExtTreeMap.getElem?_insert]
    simp only [Std.compare_eq_iff_eq]
    rfl
  refine ⟨fun noteId note found => ?_, fun id record found => ?_,
    fun noteId note found processing => ?_⟩
  · rw [applyNoteUpdates_inputNotes] at found
    exact foldl_applyInputNoteUpdate_keyed _ (store.upsertTransactionRecord _)
      consistent.notesKeyed noteId note found
  · rw [records] at found
    split at found
    · rename_i same
      cases found
      exact same
    · exact consistent.recordsKeyed id record found
  · rw [applyNoteUpdates_inputNotes] at found
    rcases foldl_applyInputNoteUpdate_eq_some
      (fun update member => (mem_updatedInputNotes_iff.mp member).2) found with
      ⟨before, _⟩ | ⟨update, member, _, state⟩
    · obtain ⟨consumer, record, consumes, stored, id, pending⟩ :=
        consistent.pending noteId note before processing
      by_cases same : transaction.id = consumer
      · exact ⟨consumer, _, consumes, by rw [records, if_pos same], same, rfl⟩
      · exact ⟨consumer, record, consumes, by rw [records, if_neg same]; exact stored, id, pending⟩
    · have consumes := getNoteUpdates_consumer compiled member (by rw [← state]; exact processing)
      exact ⟨transaction.id, _, by rw [state]; exact consumes, by rw [records, if_pos rfl], rfl,
        rfl⟩

/-! ### Syncs -/

omit [NoteLibrary] in
/-- The client's screener only inserts the public note it was given. -/
theorem stateSync_insertsGiven (store : ClientStore) (environment : SyncEnvironment) :
    (store.stateSync environment).InsertsGiven := by
  intro note given record screened
  change store.onNoteReceived environment.canConsume note given = .ok (.insert record) at screened
  unfold onNoteReceived at screened
  split at screened
  · cases screened
  · split at screened
    · rename_i publicNote
      unfold screenPublicNote at screened
      split at screened
      · cases screened
        rfl
      · obtain ⟨_, _, screened⟩ := bind_eq_ok.mp screened
        obtain ⟨relevant, _, screened⟩ := bind_eq_ok.mp screened
        cases relevant <;> cases screened
        rfl
    · cases screened

/-- The tracker of the pending transactions of the store. -/
def pendingTransactions (store : ClientStore) : TransactionUpdateTracker :=
  .new store.uncommittedTransactions

/-- The nullifiers that a sync processes. -/
def nullifiersOf (environment : SyncEnvironment) : List Nullifier :=
  if environment.syncNullifiers then
    (environment.data.nullifiers.filter fun update =>
      update.blockNum ≤ environment.data.chainTipHeader.blockNum).map NullifierUpdate.nullifier
  else []

/-- The transactions of the node's answer that a sync looks at. -/
def includedIn (environment : SyncEnvironment) : List RpcTransactionRecord :=
  if environment.accounts.isEmpty then [] else environment.data.transactions

/-- The sync settles the pending transaction: an inclusion commits it, or it falls. -/
def Settles (store : ClientStore) (environment : SyncEnvironment) (record : TransactionRecord) :
    Prop :=
  store.pendingTransactions.Included (includedIn environment) record.id ∨
    store.pendingTransactions.Falls (includedIn environment)
      (TransactionUpdateTracker.SyncHits environment.data.chainTipHeader.blockNum
        environment.txDiscardDelta (nullifiersOf environment)) record

/-- Every note that is being processed for a transaction the sync settles is nullified in the
same sync. A sync that finds no new block settles nothing. -/
def NullifiesSettled (store : ClientStore) (environment : SyncEnvironment) : Prop :=
  environment.data.chainTipHeader.blockNum ≠ store.syncHeight →
    ∀ (noteId : NoteId) (note : InputNoteRecord) (consumer : TransactionId)
      (record : TransactionRecord),
      store.inputNotes[noteId]? = some note → note.state.isProcessing = true →
      note.state.consumerTransactionId = some consumer →
      store.transactions[consumer]? = some record → store.Settles environment record →
      note.nullifier ∈ nullifiersOf environment

omit [NoteLibrary] in
theorem mem_uncommittedTransactions_iff {store : ClientStore} {record : TransactionRecord} :
    record ∈ store.uncommittedTransactions ↔
      (∃ id : TransactionId, store.transactions[id]? = some record) ∧
        record.status = .pending := by
  unfold uncommittedTransactions
  rw [List.mem_filter, OrderedMap.mem_values_iff, TransactionStatus.isPending_iff]

theorem pendingTransactions_eq_some_iff {store : ClientStore} (consistent : store.Consistent)
    {id : TransactionId} {record : TransactionRecord} :
    store.pendingTransactions.transactions[id]? = some record ↔
      store.transactions[id]? = some record ∧ record.status = .pending := by
  have distinct : (store.uncommittedTransactions.map TransactionRecord.id).Nodup := by
    have rising := (OrderedMap.pairwise_lt_toList store.transactions).imp (fun before => before.ne)
    have keys : (OrderedMap.values store.transactions).map TransactionRecord.id =
        store.transactions.toList.map Prod.fst := by
      unfold OrderedMap.values
      rw [List.map_map]
      refine List.map_congr_left fun entry member => ?_
      exact consistent.recordsKeyed entry.1 entry.2
        (ExtTreeMap.mem_toList_iff_getElem?_eq_some.mp member)
    refine List.Nodup.sublist (List.filter_sublist.map _) ?_
    rw [keys]
    exact List.pairwise_map.mpr rising
  unfold pendingTransactions
  rw [TransactionUpdateTracker.new_getElem?_eq_some_iff _ distinct,
    mem_uncommittedTransactions_iff]
  constructor
  · rintro ⟨⟨⟨key, stored⟩, pending⟩, same⟩
    rw [← same, consistent.recordsKeyed key record stored]
    exact ⟨stored, pending⟩
  · rintro ⟨stored, pending⟩
    exact ⟨⟨⟨id, stored⟩, pending⟩, consistent.recordsKeyed id record stored⟩

theorem mem_unspentInputNotes_iff {store : ClientStore} (consistent : store.Consistent)
    {note : InputNoteRecord} :
    note ∈ store.unspentInputNotes ↔
      store.inputNotes[note.id]? = some note ∧ isUnspentState note.state = true := by
  unfold unspentInputNotes
  rw [List.mem_filter, OrderedMap.mem_values_iff]
  refine and_congr_left fun _ => ⟨?_, fun stored => ⟨note.id, stored⟩⟩
  rintro ⟨noteId, stored⟩
  rwa [consistent.notesKeyed noteId note stored]

omit [NoteLibrary] in
theorem isUnspentState_of_processing {state : InputNoteState}
    (processing : state.isProcessing = true) : isUnspentState state = true := by
  cases state <;> first | rfl | cases processing

omit [NoteLibrary] in
/-- Writing back the settled records leaves the other records alone. -/
theorem foldl_upsertTransactionRecord_getElem? (records : List TransactionRecord)
    (store : ClientStore) {id : TransactionId} (others : ∀ record ∈ records, record.id ≠ id) :
    (records.foldl upsertTransactionRecord store).transactions[id]? = store.transactions[id]? := by
  induction records generalizing store with
  | nil => rfl
  | cons record rest inductionHypothesis =>
    rw [List.foldl_cons, inductionHypothesis _ fun other member =>
      others other (List.mem_cons_of_mem record member)]
    unfold upsertTransactionRecord
    rw [ExtTreeMap.getElem?_insert, if_neg fun same =>
      others record List.mem_cons_self (Std.compare_eq_iff_eq.mp same)]

omit [NoteLibrary] in
theorem foldl_upsertTransactionRecord_keyed (records : List TransactionRecord)
    (store : ClientStore) (keyed : ∀ (id : TransactionId) (record : TransactionRecord),
      store.transactions[id]? = some record → record.id = id) (id : TransactionId)
    (record : TransactionRecord)
    (found : (records.foldl upsertTransactionRecord store).transactions[id]? = some record) :
    record.id = id := by
  induction records generalizing store with
  | nil => exact keyed id record found
  | cons written rest inductionHypothesis =>
    refine inductionHypothesis _ (fun other earlier foundAt => ?_) found
    unfold upsertTransactionRecord at foundAt
    rw [ExtTreeMap.getElem?_insert] at foundAt
    split at foundAt
    · rename_i same
      cases foundAt
      exact Std.compare_eq_iff_eq.mp same
    · exact keyed other earlier foundAt

omit [NoteLibrary] in
theorem foldl_upsertTransactionRecord_inputNotes (records : List TransactionRecord)
    (store : ClientStore) :
    (records.foldl upsertTransactionRecord store).inputNotes = store.inputNotes := by
  induction records generalizing store with
  | nil => rfl
  | cons record rest inductionHypothesis => exact inductionHypothesis _

omit [NoteLibrary] in
theorem foldl_removeNoteTag_frame (tags : List NoteTagRecord) (store : ClientStore) :
    (tags.foldl removeNoteTag store).inputNotes = store.inputNotes ∧
      (tags.foldl removeNoteTag store).transactions = store.transactions := by
  induction tags generalizing store with
  | nil => exact ⟨rfl, rfl⟩
  | cons tag rest inductionHypothesis => exact inductionHypothesis _

/-- The input notes after a sync update are those after its note updates. -/
theorem applyStateSync_inputNotes (store : ClientStore) (update : StateSyncUpdate) :
    (store.applyStateSync update).inputNotes =
      (update.noteUpdates.updatedInputNotes.foldl applyInputNoteUpdate
        { store with syncHeight := max store.syncHeight update.blockNum }).inputNotes := by
  unfold applyStateSync
  rw [foldl_upsertTransactionRecord_inputNotes, (foldl_removeNoteTag_frame _ _).1,
    applyNoteUpdates_inputNotes]

/-- A record that the sync did not settle is the same after it. -/
theorem applyStateSync_transactions (store : ClientStore) (update : StateSyncUpdate)
    {id : TransactionId}
    (others : ∀ record ∈ settledRecords update.transactionUpdates, record.id ≠ id) :
    (store.applyStateSync update).transactions[id]? = store.transactions[id]? := by
  unfold applyStateSync
  rw [foldl_upsertTransactionRecord_getElem? _ _ others, (foldl_removeNoteTag_frame _ _).2,
    applyNoteUpdates_transactions]

theorem applyStateSync_keyed {store : ClientStore} (consistent : store.Consistent)
    (update : StateSyncUpdate) :
    (∀ (noteId : NoteId) (note : InputNoteRecord),
      (store.applyStateSync update).inputNotes[noteId]? = some note → note.id = noteId) ∧
      ∀ (id : TransactionId) (record : TransactionRecord),
        (store.applyStateSync update).transactions[id]? = some record → record.id = id := by
  refine ⟨fun noteId note found => ?_, fun id record found => ?_⟩
  · rw [applyStateSync_inputNotes] at found
    exact foldl_applyInputNoteUpdate_keyed _
      { store with syncHeight := max store.syncHeight update.blockNum }
      consistent.notesKeyed noteId note found
  · refine foldl_upsertTransactionRecord_keyed _ _ (fun other earlier foundAt => ?_) id record found
    rw [(foldl_removeNoteTag_frame _ _).2, applyNoteUpdates_transactions] at foundAt
    exact consistent.recordsKeyed other earlier foundAt

omit [NoteLibrary] in
theorem processedNullifiers_stateSync (store : ClientStore) (environment : SyncEnvironment) :
    ((store.stateSync environment).processedNullifiers environment.data).map
      NullifierUpdate.nullifier = nullifiersOf environment := by
  show (if environment.syncNullifiers then _ else []).map _ = _
  unfold nullifiersOf
  split <;> rfl

/-- A note that is being processed after a sync was so before it, and the sync did not process
its nullifier. -/
theorem processing_before_sync (collisionFree : NullifierCollisionFree) {store : ClientStore}
    (consistent : store.Consistent) {environment : SyncEnvironment} {update : StateSyncUpdate}
    (progress : environment.data.chainTipHeader.blockNum ≠ store.syncHeight)
    (synced : (store.stateSync environment).syncState store.syncHeight
      (store.buildSyncInput environment.accounts) environment.data = .ok update)
    {noteId : NoteId} {note : InputNoteRecord}
    (found : (store.applyStateSync update).inputNotes[noteId]? = some note)
    (processing : note.state.isProcessing = true) :
    ∃ earlier, store.inputNotes[noteId]? = some earlier ∧ earlier.state = note.state ∧
      earlier.nullifier ∉ nullifiersOf environment := by
  obtain ⟨⟨indexed, follows⟩, quiet, _⟩ := StateSync.syncState_eq_ok collisionFree
    (store.stateSync_insertsGiven environment) progress synced
  rw [processedNullifiers_stateSync] at quiet
  -- a processing note of the last tracker is the stored note it started from
  have stored : ∀ (id : NoteId) (tracked : InputNoteUpdate),
      update.noteUpdates.inputNotes[id]? = some tracked →
      tracked.note.state.isProcessing = true → store.inputNotes[id]? = some tracked.note := by
    intro id tracked trackedAt trackedProcessing
    obtain ⟨start, startAt, same⟩ := follows.processing id tracked trackedAt trackedProcessing
    obtain ⟨listed, ids, _⟩ := NoteUpdateTracker.new_eq_some startAt
    rw [← same, ← ids]
    exact ((mem_unspentInputNotes_iff consistent).mp listed).1
  rw [applyStateSync_inputNotes] at found
  rcases foldl_applyInputNoteUpdate_eq_some
    (fun update member => (mem_updatedInputNotes_iff.mp member).2) found with
    ⟨before, unmarked⟩ | ⟨written, member, id, state⟩
  · refine ⟨note, before, rfl, ?_⟩
    have listed : note ∈ store.unspentInputNotes := by
      rw [mem_unspentInputNotes_iff consistent, consistent.notesKeyed noteId note before]
      exact ⟨before, isUnspentState_of_processing processing⟩
    have kept := follows.kept note.id
      (NoteUpdateTracker.mem_new store.unspentOutputNotes listed)
    rw [consistent.notesKeyed noteId note before] at kept
    obtain ⟨last, lastAt⟩ := Option.isSome_iff_exists.mp
      (ExtTreeMap.isSome_getElem?_iff_mem.mpr kept)
    by_cases marked : last.isUpdated = true
    · exact absurd (indexed.keyed noteId last lastAt)
        (unmarked last (mem_updatedInputNotes_iff.mpr ⟨⟨noteId, lastAt⟩, marked⟩))
    · have start := follows.unmarked noteId last lastAt (eq_false_of_ne_true marked)
      obtain ⟨lastListed, lastId, _⟩ := NoteUpdateTracker.new_eq_some start
      have same := ((mem_unspentInputNotes_iff consistent).mp lastListed).1
      rw [lastId, before] at same
      rw [Option.some.inj same] at processing ⊢
      exact quiet noteId last lastAt processing
  · have trackedProcessing : written.note.state.isProcessing = true := by
      rw [← state]
      exact processing
    obtain ⟨⟨key, trackedAt⟩, _⟩ := mem_updatedInputNotes_iff.mp member
    obtain rfl : key = noteId := (indexed.keyed key written trackedAt).symm.trans id
    exact ⟨written.note, stored key written trackedAt trackedProcessing, state.symm,
      quiet key written trackedAt trackedProcessing⟩

/-- A pending record of the last tracker is not written back. -/
theorem settledRecords_ne {store : ClientStore} (consistent : store.Consistent)
    {tracker : TransactionUpdateTracker}
    (evolves : TransactionUpdateTracker.Evolves store.pendingTransactions tracker)
    {id : TransactionId} {record : TransactionRecord}
    (tracked : tracker.transactions[id]? = some record) (pending : record.status = .pending) :
    ∀ settled ∈ settledRecords tracker, settled.id ≠ id := by
  intro settled member same
  have listed : settled ∈ tracker.records ∧ settled.status ≠ .pending := by
    rcases List.mem_append.mp member with committed | discarded
    · obtain ⟨listed, status⟩ := List.mem_filter.mp committed
      refine ⟨listed, fun stillPending => ?_⟩
      rw [stillPending] at status
      cases status
    · obtain ⟨listed, status⟩ := List.mem_filter.mp discarded
      refine ⟨listed, fun stillPending => ?_⟩
      rw [stillPending] at status
      cases status
  obtain ⟨key, found⟩ := (tracker.mem_records_iff settled).mp listed.1
  obtain ⟨start, startAt, advances⟩ := evolves.of_after found
  have keyed := consistent.recordsKeyed key start
    ((pendingTransactions_eq_some_iff consistent).mp startAt).1
  have sameKey : key = id := by
    rw [← keyed, ← advances.id_eq, same]
  rw [sameKey, tracked] at found
  rw [← Option.some.inj found] at listed
  exact listed.2 pending

/-- A sync that found a new block keeps the link when it nullifies what it settles. -/
theorem syncState_consistent_of_progress (collisionFree : NullifierCollisionFree)
    {store : ClientStore} (consistent : store.Consistent) {environment : SyncEnvironment}
    {update : StateSyncUpdate} (nullifies : store.NullifiesSettled environment)
    (progress : environment.data.chainTipHeader.blockNum ≠ store.syncHeight)
    (synced : (store.stateSync environment).syncState store.syncHeight
      (store.buildSyncInput environment.accounts) environment.data = .ok update) :
    (store.applyStateSync update).Consistent := by
  obtain ⟨notesKeyed, recordsKeyed⟩ := applyStateSync_keyed consistent update
  refine ⟨notesKeyed, recordsKeyed, fun noteId note found processing => ?_⟩
  obtain ⟨earlier, before, state, unprocessed⟩ :=
    processing_before_sync collisionFree consistent progress synced found processing
  have wasProcessing : earlier.state.isProcessing = true := by
    rw [state]
    exact processing
  obtain ⟨consumer, record, consumes, stored, id, pending⟩ :=
    consistent.pending noteId earlier before wasProcessing
  have unsettled : ¬store.Settles environment record := fun settles =>
    unprocessed (nullifies progress noteId earlier consumer record before wasProcessing consumes
      stored settles)
  obtain ⟨excluded, stands⟩ := not_or.mp unsettled
  rw [id] at excluded
  obtain ⟨_, _, calls⟩ := StateSync.syncState_eq_ok collisionFree
    (store.stateSync_insertsGiven environment) progress synced
  rw [processedNullifiers_stateSync] at calls
  have tracked := (pendingTransactions_eq_some_iff consistent).mpr ⟨stored, pending⟩
  have kept := store.pendingTransactions.run_of_unsettled (includedIn environment)
    environment.data.chainTipHeader.timestamp environment.data.chainTipHeader.blockNum
    environment.txDiscardDelta (nullifiersOf environment) tracked pending excluded stands
  have same : update.transactionUpdates.transactions[consumer]? = some record := by
    rw [calls]
    exact kept
  have evolves : TransactionUpdateTracker.Evolves store.pendingTransactions
      update.transactionUpdates := by
    rw [calls]
    exact (TransactionUpdateTracker.run_cascade _ _).evolves
  refine ⟨consumer, record, by rw [← state]; exact consumes, ?_, id, pending⟩
  rw [applyStateSync_transactions store update
    (settledRecords_ne consistent evolves same pending)]
  exact stored

/-- A sync that finds no new block writes no note and settles no transaction. -/
theorem syncState_consistent_of_tip {store : ClientStore} (consistent : store.Consistent)
    {environment : SyncEnvironment} {update : StateSyncUpdate}
    (tip : environment.data.chainTipHeader.blockNum = store.syncHeight)
    (synced : (store.stateSync environment).syncState store.syncHeight
      (store.buildSyncInput environment.accounts) environment.data = .ok update) :
    (store.applyStateSync update).Consistent := by
  obtain ⟨notesKeyed, recordsKeyed⟩ := applyStateSync_keyed consistent update
  refine ⟨notesKeyed, recordsKeyed, fun noteId note found processing => ?_⟩
  unfold StateSync.syncState at synced
  rw [if_pos tip] at synced
  cases synced
  rw [applyStateSync_inputNotes] at found
  rcases foldl_applyInputNoteUpdate_eq_some
    (fun update member => (mem_updatedInputNotes_iff.mp member).2) found with
    ⟨before, _⟩ | ⟨written, member, _, _⟩
  · obtain ⟨consumer, record, consumes, stored, id, pending⟩ :=
      consistent.pending noteId note before processing
    refine ⟨consumer, record, consumes, ?_, id, pending⟩
    have tracked := (pendingTransactions_eq_some_iff consistent).mpr ⟨stored, pending⟩
    rw [applyStateSync_transactions store _ (settledRecords_ne consistent
      (TransactionUpdateTracker.Evolves.refl _) tracked pending)]
    exact stored
  · obtain ⟨⟨key, tracked⟩, marked⟩ := mem_updatedInputNotes_iff.mp member
    obtain ⟨_, _, untouched⟩ := NoteUpdateTracker.new_eq_some tracked
    simp [NoteUpdate.isUpdated, untouched] at marked

theorem syncState_consistent (collisionFree : NullifierCollisionFree) {store next : ClientStore}
    (consistent : store.Consistent) {environment : SyncEnvironment}
    (nullifies : store.NullifiesSettled environment)
    (synced : store.syncState environment = .ok next) : next.Consistent := by
  obtain ⟨update, computed, synced⟩ := bind_eq_ok.mp synced
  obtain ⟨_, _, same⟩ := bind_eq_ok.mp synced
  cases same
  by_cases tip : environment.data.chainTipHeader.blockNum = store.syncHeight
  · exact syncState_consistent_of_tip consistent tip computed
  · exact syncState_consistent_of_progress collisionFree consistent nullifies tip computed

/-! ### Whole runs -/

/-- The operations of the client that touch notes and transaction records. -/
inductive Operation where
  | applyTransaction (transaction : ExecutedTransaction) (environment : TransactionEnvironment)
  | syncState (environment : SyncEnvironment)
  | importNotes (node : ImportNode) (noteFiles : List NoteFile)

/-- A transaction of the database that fails is rolled back. -/
def orRolledBack (store : ClientStore) : Except ClientError ClientStore → ClientStore
  | .ok next => next
  | .error _ => store

/-- The store after an operation. A failing transaction update or sync is rolled back, while a
failing import keeps what it wrote. -/
def perform (store : ClientStore) : Operation → ClientStore
  | .applyTransaction transaction environment =>
    store.orRolledBack (store.applyTransaction transaction environment)
  | .syncState environment => store.orRolledBack (store.syncState environment)
  | .importNotes node noteFiles => finalState (importNotes node noteFiles store)

def run (store : ClientStore) (operations : List Operation) : ClientStore :=
  operations.foldl perform store

/-- The condition under which an operation keeps processing notes and pending transactions
together: a sync has to nullify the notes of every transaction it settles. -/
def Operation.Conforms (store : ClientStore) : Operation → Prop
  | .syncState environment => store.NullifiesSettled environment
  | .applyTransaction _ _ | .importNotes _ _ => True

theorem perform_consistent (collisionFree : NullifierCollisionFree) {store : ClientStore}
    (consistent : store.Consistent) {operation : Operation} (conforms : operation.Conforms store) :
    (store.perform operation).Consistent := by
  cases operation with
  | applyTransaction transaction environment =>
    show (store.orRolledBack (store.applyTransaction transaction environment)).Consistent
    cases applied : store.applyTransaction transaction environment with
    | ok next => exact applyTransaction_consistent consistent applied
    | error error => exact consistent
  | syncState environment =>
    show (store.orRolledBack (store.syncState environment)).Consistent
    cases synced : store.syncState environment with
    | ok next => exact syncState_consistent collisionFree consistent conforms synced
    | error error => exact consistent
  | importNotes node noteFiles =>
    exact importNotes_preserves node consistent_keptByImports noteFiles store consistent

/-- In every run whose syncs nullify the notes of the transactions they settle, every state
reached has a pending record for every note that is being processed. -/
theorem run_processingNotesPending (collisionFree : NullifierCollisionFree)
    (operations : List Operation)
    (conforms : ∀ earlier operation later, operations = earlier ++ operation :: later →
      operation.Conforms (empty.run earlier)) :
    ∀ reached, reached <+: operations → (empty.run reached).ProcessingNotesPending := by
  have consistent : ∀ reached, reached <+: operations → (empty.run reached).Consistent := by
    intro reached
    induction reached using List.reverseRecOn with
    | nil => exact fun _ => empty_consistent
    | append_singleton earlier operation inductionHypothesis =>
      rintro ⟨later, rfl⟩
      rw [List.append_assoc] at conforms
      have before := inductionHypothesis ⟨operation :: later, by simp⟩
      unfold run at before ⊢
      rw [List.foldl_append]
      exact perform_consistent collisionFree before (conforms earlier operation later rfl)
  exact fun reached prefixed => (consistent reached prefixed).pending

end ClientStore

namespace Sample

open ClientStore

/-- A public note for account 2, included in the genesis block. -/
def giftNote : Note :=
  ⟨⟨[], ⟨3, 1, 1⟩⟩, ⟨2, .isPublic, 9, 0⟩⟩

/-- A node at the genesis block that has seen no nullifier. -/
def genesisNode : ImportNode where
  getNotesById _ := .ok []
  syncNullifiers _ _ := .ok []
  syncNotesWithDetails _ _ _ := .ok []
  getAuthenticatedBlock block := .ok ⟨block, 7, 100⟩
  noteTagsLimit := .ok 1000
  currentTimestamp := some 100

def importGift : Operation :=
  .importNotes genesisNode [.noteWithProof giftNote ⟨0, 0, [7]⟩]

/-- A transaction that consumes the note and expires at block 4. -/
def consumeGift : Operation :=
  .applyTransaction ⟨5, ⟨2, 10, 11, [giftNote.nullifier], 0, 0, 4, 100⟩, [giftNote.id], [], []⟩
    ⟨0, some 100, .ok [], .ok ()⟩

/-- A sync to block 4 that finds no transaction and the given nullifiers. -/
def syncToBlockFour (nullifiers : List NullifierUpdate) : SyncEnvironment where
  txDiscardDelta := none
  syncNullifiers := true
  accounts := [2]
  data := ⟨⟨4, 8, 200⟩, [], ∅, [], nullifiers⟩
  canConsume _ := .ok false
  others := .ok ()

/-- The transaction expires and is discarded, and the note stays in processing. -/
theorem not_processingNotesPending_expired :
    ¬(empty.run
      [importGift, consumeGift, .syncState (syncToBlockFour [])]).ProcessingNotesPending := by
  intro linked
  have discarded : (empty.run [importGift, consumeGift,
      .syncState (syncToBlockFour [])]).transactions[5]?.map TransactionRecord.status =
        some (.discarded .expired) := by decide +kernel
  have consumed : (empty.run [importGift, consumeGift,
      .syncState (syncToBlockFour [])]).inputNotes[giftNote.id]?.map (fun note =>
        (note.state.isProcessing, note.state.consumerTransactionId)) = some (true, some 5) := by
    decide +kernel
  obtain ⟨note, found, state⟩ := Option.map_eq_some_iff.mp consumed
  obtain ⟨processing, consumes⟩ := Prod.mk.inj state
  obtain ⟨consumer, record, same, stored, _, pending⟩ := linked _ note found processing
  obtain rfl := Option.some.inj (consumes.symm.trans same)
  rw [stored, Option.map_some, pending] at discarded
  cases discarded

/-- When the same sync brings the nullifier of the note, the note is consumed. -/
theorem run_processingNotesPending_nullified :
    (empty.run [importGift, consumeGift,
      .syncState (syncToBlockFour [⟨giftNote.nullifier, 3⟩])]).ProcessingNotesPending := by
  refine run_processingNotesPending nullifierCollisionFree _ ?_ _ List.prefix_rfl
  intro earlier operation later split
  rcases earlier with _ | ⟨first, _ | ⟨second, _ | ⟨third, rest⟩⟩⟩
  · cases split
    exact trivial
  · cases split
    exact trivial
  · cases split
    intro _ noteId note consumer record found _ _ _ _
    have all : ∀ note ∈ OrderedMap.values (empty.run [importGift, consumeGift]).inputNotes,
        note.nullifier ∈ nullifiersOf (syncToBlockFour [⟨giftNote.nullifier, 3⟩]) := by
      decide +kernel
    exact all note (OrderedMap.mem_values_iff.mpr ⟨noteId, found⟩)
  · simp at split

end Sample

end MidenClient
