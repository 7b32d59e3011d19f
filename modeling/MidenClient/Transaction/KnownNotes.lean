/-
This file follows what the client knows of an input note through its transactions: which
transaction consumes it, the inclusion proof that was verified, and when it was consumed.

Executing a transaction and recording one both write fresh records of expected notes over
the stored ones. The execution spares the notes with a verified proof, but not the ones
that are processed without one. The recording only spares the notes that the transaction
itself consumes.
-/

import MidenClient.Sync.ProcessingNotes
import MidenClient.Transaction.Recording

namespace MidenClient

open Std (ExtTreeMap)
open Fallible ClientM

/-! ### What is known of a note -/

namespace InputNoteState

/-- A local transaction processes the note, its proof was verified, or it is consumed. -/
def isKnown (state : InputNoteState) : Bool :=
  state.isProcessing || state.isAuthenticated || state.isConsumed

def isExpected : InputNoteState → Bool
  | .expected _ => true
  | _ => false

/-- The next state is not an expected one and keeps the consumer transaction, the inclusion
proof and the consumption data. -/
structure KeptBy (state next : InputNoteState) : Prop where
  notExpected : next.isExpected = false
  consumer : ∀ transaction, state.consumerTransactionId = some transaction →
    next.consumerTransactionId = some transaction
  inclusionProof : ∀ proof, state.inclusionProof = some proof → next.inclusionProof = some proof
  consumedBlockHeight : ∀ height, state.consumedBlockHeight = some height →
    next.consumedBlockHeight = some height
  consumedTxOrder : ∀ order, state.consumedTxOrder = some order →
    next.consumedTxOrder = some order

theorem KeptBy.refl {state : InputNoteState} (known : state.isKnown = true) :
    state.KeptBy state where
  notExpected := by cases state <;> first | rfl | cases known
  consumer _ same := same
  inclusionProof _ same := same
  consumedBlockHeight _ same := same
  consumedTxOrder _ same := same

/-- A known note that can be consumed locally is a committed one, and keeps its proof. -/
theorem consumedLocally_keptBy {state next : InputNoteState} {account : AccountId}
    {transaction : TransactionId} {timestamp : Option ℕ} (known : state.isKnown = true)
    (moved : state.consumedLocally account transaction timestamp = .ok (some next)) :
    state.KeptBy next := by
  cases state with
  | committed state =>
    cases moved
    exact ⟨rfl, by simp [consumerTransactionId], fun _ same => same,
      by simp [InputNoteState.consumedBlockHeight], by simp [InputNoteState.consumedTxOrder]⟩
  | expected _ | unverified _ | invalid _ => cases known
  | processingAuthenticated _ | processingUnauthenticated _ | consumedAuthenticatedLocal _
  | consumedUnauthenticatedLocal _ | consumedExternal _ => cases moved

end InputNoteState

namespace ClientStore

/-- What is known of the note of a store is known in the other store as well. -/
def KeepsKnownNotes (before after : ClientStore) : Prop :=
  ∀ (noteId : NoteId) (record : InputNoteRecord), before.inputNotes[noteId]? = some record →
    record.state.isKnown = true →
    ∃ kept, after.inputNotes[noteId]? = some kept ∧ record.state.KeptBy kept.state

theorem KeepsKnownNotes.of_inputNotes_eq {before after : ClientStore}
    (same : after.inputNotes = before.inputNotes) : before.KeepsKnownNotes after := by
  intro noteId record stored known
  exact ⟨record, by rw [same]; exact stored, .refl known⟩

/-- The note is stored as one that a local transaction processes without a verified proof. -/
def ProcessesUnauthenticated (store : ClientStore) (noteId : NoteId) : Prop :=
  ∃ (record : InputNoteRecord) (state : ProcessingUnauthenticatedNoteState),
    store.inputNotes[noteId]? = some record ∧ record.state = .processingUnauthenticated state

/-- A known note that is neither consumed nor authenticated is processed without a proof. -/
theorem processesUnauthenticated_of_known {store : ClientStore} {noteId : NoteId}
    {record : InputNoteRecord} (stored : store.inputNotes[noteId]? = some record)
    (known : record.state.isKnown = true) (unspent : record.state.isConsumed = false)
    (unauthenticated : record.state.isAuthenticated ≠ true) :
    store.ProcessesUnauthenticated noteId := by
  cases state : record.state with
  | processingUnauthenticated processing => exact ⟨record, processing, stored, state⟩
  | expected _ | unverified _ | invalid _ =>
    rw [state] at known
    cases known
  | committed _ | processingAuthenticated _ | consumedAuthenticatedLocal _ =>
    rw [state] at unauthenticated
    exact absurd rfl unauthenticated
  | consumedUnauthenticatedLocal _ | consumedExternal _ =>
    rw [state] at unspent
    cases unspent

end ClientStore

section Execution

variable [NoteLibrary] {store : ClientStore} {request : TransactionRequest}
  {environment : ExecutionEnvironment} {accountId : AccountId}

/-! ### The execution -/

/-- Both checks that come before the notes are written let the request pass. -/
def PassesChecks (environment : ExecutionEnvironment) (store : ClientStore)
    (request : TransactionRequest) : Prop :=
  environment.validateRequest = .ok () ∧
    ∀ noteId ∈ request.inputNoteIds, ∀ record : InputNoteRecord,
      store.inputNotes[noteId]? = some record → record.state.isConsumed = false

theorem passesChecks_iff :
    PassesChecks environment store request ↔ environment.validateRequest = .ok () ∧
      checkNotConsumed (store.inputNotesWithIds request.inputNoteIds) = .ok () := by
  refine and_congr_right fun _ => ?_
  rw [checkNotConsumed_eq_ok]
  constructor
  · intro unspent record listed
    obtain ⟨noteId, wanted, stored⟩ := ClientStore.mem_inputNotesWithIds.mp listed
    exact unspent noteId wanted record stored
  · exact fun unspent noteId wanted record stored =>
      unspent record (ClientStore.mem_inputNotesWithIds.mpr ⟨noteId, wanted, stored⟩)

omit [NoteLibrary] in
theorem finalState_attempt {α : Type} (computation : Except ClientError α) (store : ClientStore) :
    finalState (attempt computation store) = store := by
  unfold attempt
  cases computation <;> rfl

/-- A request that passes the checks is written to the store, whatever comes after, and no
other request is. -/
theorem finalState_executeTransaction (environment : ExecutionEnvironment)
    (accountId : AccountId) (request : TransactionRequest) (store : ClientStore) :
    (PassesChecks environment store request →
        finalState (executeTransaction environment accountId request store) =
          upsertUnauthenticated store request) ∧
      (¬PassesChecks environment store request →
        finalState (executeTransaction environment accountId request store) = store) := by
  have ran : executeTransaction environment accountId request store =
      match environment.validateRequest,
        checkNotConsumed (store.inputNotesWithIds request.inputNoteIds) with
      | .ok (), .ok () =>
        attempt (runExecution environment accountId request (authenticatedRecords store request))
          (upsertUnauthenticated store request)
      | .ok (), .error reason => .error reason store
      | .error reason, _ => .error reason store := by
    show EStateM.bind (attempt environment.validateRequest) _ store = _
    unfold EStateM.bind
    cases environment.validateRequest with
    | error reason => rfl
    | ok _ =>
      show EStateM.bind (attempt (checkNotConsumed _)) _ store = _
      unfold EStateM.bind
      cases checkNotConsumed (store.inputNotesWithIds request.inputNoteIds) <;> rfl
  rw [ran, passesChecks_iff]
  cases environment.validateRequest with
  | error reason => simp [finalState]
  | ok _ =>
    cases checkNotConsumed (store.inputNotesWithIds request.inputNoteIds) with
    | error reason => simp [finalState]
    | ok _ => simp [finalState_attempt]

/-- Writing the notes of the request keeps what is known exactly when none of them is processed
without a verified proof. -/
theorem upsertUnauthenticated_keepsKnownNotes_iff (keyed : store.NotesKeyed)
    (unspent : ∀ noteId ∈ request.inputNoteIds, ∀ record : InputNoteRecord,
      store.inputNotes[noteId]? = some record → record.state.isConsumed = false) :
    store.KeepsKnownNotes (upsertUnauthenticated store request) ↔
      ∀ noteId ∈ request.inputNoteIds, ¬store.ProcessesUnauthenticated noteId := by
  have written := fun noteId => @upsertUnauthenticated_cases _ _ request keyed noteId
  constructor
  · rintro keeps noteId wanted ⟨record, state, stored, processing⟩
    have known : record.state.isKnown = true := by rw [processing]; rfl
    obtain ⟨kept, found, keptBy⟩ := keeps noteId record stored known
    rcases written noteId with
      ⟨_, authenticates⟩ | ⟨note, _, _, _, written⟩
    · obtain ⟨other, storedAgain, authenticated⟩ := authenticates wanted
      rw [stored] at storedAgain
      cases storedAgain
      rw [processing] at authenticated
      cases authenticated
    · rw [written] at found
      cases found
      exact absurd keptBy.notExpected (by simp [InputNoteRecord.ofNote,
        ClientStore.storedInputNote, InputNoteState.isExpected])
  · intro unprocessed noteId record stored known
    rcases written noteId with
      ⟨same, _⟩ | ⟨note, listed, about, unauthenticated, _⟩
    · exact ⟨record, by rw [same]; exact stored, .refl known⟩
    · have wanted : noteId ∈ request.inputNoteIds := by
        rw [← about]
        exact List.mem_map_of_mem listed
      refine absurd (ClientStore.processesUnauthenticated_of_known stored known
        (unspent noteId wanted record stored) fun authenticated => ?_) (unprocessed noteId wanted)
      exact unauthenticated ⟨record, stored, authenticated⟩

theorem executeTransaction_keepsKnownNotes_iff (keyed : store.NotesKeyed)
    (environment : ExecutionEnvironment) (accountId : AccountId) (request : TransactionRequest) :
    store.KeepsKnownNotes
        (finalState (executeTransaction environment accountId request store)) ↔
      (PassesChecks environment store request →
        ∀ noteId ∈ request.inputNoteIds, ¬store.ProcessesUnauthenticated noteId) := by
  obtain ⟨passing, failing⟩ := finalState_executeTransaction environment accountId request store
  by_cases passes : PassesChecks environment store request
  · rw [passing passes, upsertUnauthenticated_keepsKnownNotes_iff keyed passes.2]
    exact ⟨fun unprocessed _ => unprocessed, fun unprocessed => unprocessed passes⟩
  · rw [failing passes]
    exact ⟨fun _ passed => absurd passed passes,
      fun _ => ClientStore.KeepsKnownNotes.of_inputNotes_eq rfl⟩

/-! ### What the recording writes -/

namespace ClientStore

/-- A note after an update was written depends on how it was stored before. -/
theorem applyInputNoteUpdate_congr {first second : ClientStore} {noteId : NoteId}
    (same : first.inputNotes[noteId]? = second.inputNotes[noteId]?) (update : InputNoteUpdate) :
    (first.applyInputNoteUpdate update).inputNotes[noteId]? =
      (second.applyInputNoteUpdate update).inputNotes[noteId]? := by
  rw [applyInputNoteUpdate_getElem?, applyInputNoteUpdate_getElem?, same]

theorem foldl_applyInputNoteUpdate_of_untouched {updates : List InputNoteUpdate} {noteId : NoteId}
    (others : ∀ update ∈ updates, update.note.id ≠ noteId) (store : ClientStore) :
    (updates.foldl applyInputNoteUpdate store).inputNotes[noteId]? =
      store.inputNotes[noteId]? := by
  induction updates generalizing store with
  | nil => rfl
  | cons update rest inductionHypothesis =>
    rw [List.foldl_cons,
      inductionHypothesis fun other member => others other (List.mem_cons_of_mem update member),
      applyInputNoteUpdate_getElem?, if_neg (others update List.mem_cons_self)]

/-- With one update for each note, only the update of a note decides how it is stored. -/
theorem foldl_applyInputNoteUpdate_of_mem {updates : List InputNoteUpdate}
    (distinct : updates.Pairwise fun first second => first.note.id ≠ second.note.id)
    {update : InputNoteUpdate} (member : update ∈ updates) (store : ClientStore) :
    (updates.foldl applyInputNoteUpdate store).inputNotes[update.note.id]? =
      (store.applyInputNoteUpdate update).inputNotes[update.note.id]? := by
  induction updates generalizing store with
  | nil => cases member
  | cons first rest inductionHypothesis =>
    obtain ⟨ahead, later⟩ := List.pairwise_cons.mp distinct
    rw [List.foldl_cons]
    rcases List.mem_cons.mp member with rfl | listed
    · exact foldl_applyInputNoteUpdate_of_untouched (fun other among => (ahead other among).symm) _
    · rw [inductionHypothesis later listed]
      refine applyInputNoteUpdate_congr ?_ update
      rw [applyInputNoteUpdate_getElem?, if_neg (ahead update listed)]

/-- Writing the notes of a tracker changes each note as its own entry says. -/
theorem applyNoteUpdates_getElem? {tracker : NoteUpdateTracker}
    (keyed : ∀ (noteId : NoteId) (update : InputNoteUpdate),
      tracker.inputNotes[noteId]? = some update → update.note.id = noteId)
    (store : ClientStore) (noteId : NoteId) :
    (store.applyNoteUpdates tracker).inputNotes[noteId]? =
      match tracker.inputNotes[noteId]? with
      | some update => (store.applyInputNoteUpdate update).inputNotes[noteId]?
      | none => store.inputNotes[noteId]? := by
  rw [applyNoteUpdates_inputNotes]
  have distinct : tracker.updatedInputNotes.Pairwise
      fun first second => first.note.id ≠ second.note.id := by
    refine List.Pairwise.filter _ (List.pairwise_map.mpr ?_)
    refine (OrderedMap.pairwise_lt_toList tracker.inputNotes).imp_of_mem ?_
    intro first second inFirst inSecond below
    rw [keyed first.1 first.2 (ExtTreeMap.mem_toList_iff_getElem?_eq_some.mp inFirst),
      keyed second.1 second.2 (ExtTreeMap.mem_toList_iff_getElem?_eq_some.mp inSecond)]
    exact below.ne
  have untouched (unmarked : ∀ update, tracker.inputNotes[noteId]? = some update →
      update.isUpdated = false) :
      (tracker.updatedInputNotes.foldl applyInputNoteUpdate store).inputNotes[noteId]? =
        store.inputNotes[noteId]? := by
    refine foldl_applyInputNoteUpdate_of_untouched (fun update member about => ?_) store
    obtain ⟨⟨other, tracked⟩, marked⟩ := mem_updatedInputNotes_iff.mp member
    rw [keyed other update tracked] at about
    rw [about] at tracked
    rw [unmarked update tracked] at marked
    cases marked
  cases found : tracker.inputNotes[noteId]? with
  | none => exact untouched fun update tracked => by simp [found] at tracked
  | some update =>
    have about := keyed noteId update found
    by_cases marked : update.isUpdated = true
    · have member := mem_updatedInputNotes_iff.mpr ⟨⟨noteId, found⟩, marked⟩
      have written := foldl_applyInputNoteUpdate_of_mem distinct member store
      rw [about] at written
      exact written
    · rw [untouched fun other tracked => by
        rw [found] at tracked
        cases tracked
        exact Bool.eq_false_iff.mpr marked]
      show _ = (store.applyInputNoteUpdate update).inputNotes[noteId]?
      have unmarked : update.updateType = .none := by
        simpa [NoteUpdate.isUpdated] using marked
      rw [applyInputNoteUpdate_getElem?, unmarked]
      split <;> rfl

/-- An input note of a tracker for a transaction: an updated one goes before a new one. -/
theorem forTransactionUpdates_cases (newInputNotes updatedInputNotes : List InputNoteRecord)
    (newOutputNotes : List OutputNoteRecord) (noteId : NoteId) :
    (∃ note ∈ updatedInputNotes, note.id = noteId ∧
      (NoteUpdateTracker.forTransactionUpdates newInputNotes updatedInputNotes
        newOutputNotes).inputNotes[noteId]? = some ⟨note, .update⟩) ∨
    (∀ note ∈ updatedInputNotes, note.id ≠ noteId) ∧
      ((∃ note ∈ newInputNotes, note.id = noteId ∧
        (NoteUpdateTracker.forTransactionUpdates newInputNotes updatedInputNotes
          newOutputNotes).inputNotes[noteId]? = some ⟨note, .insert⟩) ∨
      (∀ note ∈ newInputNotes, note.id ≠ noteId) ∧
        (NoteUpdateTracker.forTransactionUpdates newInputNotes updatedInputNotes
          newOutputNotes).inputNotes[noteId]? = none) := by
  unfold NoteUpdateTracker.forTransactionUpdates
  rw [(NoteUpdateTracker.foldl_insertOutputNote _ _ _).1]
  rcases NoteUpdateTracker.foldl_insertInputNote_cases .update updatedInputNotes
    (newInputNotes.foldl (fun tracker note => tracker.insertInputNote note .insert)
      NoteUpdateTracker.empty) noteId with updated | ⟨others, same⟩
  · exact Or.inl updated
  · rw [same]
    refine Or.inr ⟨others, ?_⟩
    rcases NoteUpdateTracker.foldl_insertInputNote_cases .insert newInputNotes
      NoteUpdateTracker.empty noteId with created | ⟨absent, empty⟩
    · exact Or.inl created
    · exact Or.inr ⟨absent, empty.trans (by simp [NoteUpdateTracker.empty])⟩

omit [NoteLibrary] in
/-- The note is the stored record, marked as processed by the transaction. -/
def Marks (transaction : ExecutedTransaction) (timestamp : Option ℕ)
    (record note : InputNoteRecord) : Prop :=
  ∃ next, record.state.consumedLocally transaction.details.accountId transaction.id timestamp =
      .ok (some next) ∧ note = { record with state := next }

omit [NoteLibrary] in
theorem consumeInputNote_eq_ok {transaction : ExecutedTransaction} {timestamp : Option ℕ}
    {updated next : List InputNoteRecord} {record : InputNoteRecord}
    (stepped : consumeInputNote transaction timestamp updated record = .ok next) :
    ∃ note, Marks transaction timestamp record note ∧ next = updated ++ [note] := by
  obtain ⟨changed, moved, same⟩ := bind_eq_ok.mp stepped
  rw [recordChange_eq_ok] at moved
  cases same
  unfold InputNoteRecord.consumedLocally at moved
  rcases outcome : record.state.consumedLocally transaction.details.accountId transaction.id
    timestamp with reason | _ | state
  · rw [outcome] at moved
    cases moved
  · unfold InputNoteState.consumedLocally at outcome
    split at outcome <;> try split at outcome
    all_goals cases outcome
  · rw [outcome] at moved
    cases moved
    exact ⟨_, ⟨state, outcome, rfl⟩, rfl⟩

omit [NoteLibrary] in
/-- The stored notes and the marked ones correspond to each other. -/
theorem consumedInputNotes_eq_ok {store : ClientStore} {transaction : ExecutedTransaction}
    {timestamp : Option ℕ} {notes : List InputNoteRecord}
    (consumed : store.consumedInputNotes transaction timestamp = .ok notes) :
    List.Forall₂ (Marks transaction timestamp) (store.inputNotesWithIds transaction.inputNotes)
      notes := by
  obtain ⟨marked, same, corresponds⟩ :=
    foldlM_forall₂ (fun _ _ _ stepped => consumeInputNote_eq_ok stepped) consumed
  rw [List.nil_append] at same
  rw [same]
  exact corresponds

/-- The transaction creates this note for one of the client's accounts, or expects it later. -/
def ExecutedTransaction.Brings (transaction : ExecutedTransaction) (relevant : List NoteId)
    (noteId : NoteId) : Prop :=
  (∃ note, RawOutputNote.full note ∈ transaction.outputNotes ∧ note.id ∈ relevant ∧
    note.id = noteId) ∨
  ∃ future ∈ transaction.futureNotes, future.1.id = noteId

theorem exists_newInputNote_iff {store : ClientStore} {transaction : ExecutedTransaction}
    {environment : TransactionEnvironment} {relevant : List NoteId} {noteId : NoteId} :
    (∃ note ∈ store.newInputNotes transaction environment relevant, note.id = noteId) ↔
      transaction.Brings relevant noteId := by
  unfold newInputNotes ExecutedTransaction.Brings
  simp only [List.mem_append, List.mem_filterMap, List.mem_map]
  constructor
  · rintro ⟨record, ⟨raw, listed, made⟩ | ⟨future, listed, rfl⟩, about⟩
    · split at made
      · rename_i note
        split at made
        · rename_i consumable
          cases made
          exact Or.inl ⟨note, listed, consumable, about⟩
        · cases made
      · cases made
    · exact Or.inr ⟨future, listed, about⟩
  · rintro (⟨note, listed, consumable, about⟩ | ⟨future, listed, about⟩)
    · exact ⟨_, Or.inl ⟨.full note, listed, if_pos consumable⟩, about⟩
    · exact ⟨_, Or.inr ⟨future, listed, rfl⟩, about⟩

theorem newInputNotes_isExpected {store : ClientStore} {transaction : ExecutedTransaction}
    {environment : TransactionEnvironment} {relevant : List NoteId} {note : InputNoteRecord}
    (listed : note ∈ store.newInputNotes transaction environment relevant) :
    note.state.isExpected = true := by
  rcases List.mem_append.mp listed with output | future
  · obtain ⟨raw, _, made⟩ := List.mem_filterMap.mp output
    split at made
    · split at made
      · cases made
        rfl
      · cases made
    · cases made
  · obtain ⟨given, _, rfl⟩ := List.mem_map.mp future
    rfl

end ClientStore

variable {accounts : AccountId → Option AccountStatus}
  {transaction : ClientStore.ExecutedTransaction} {after : ClientStore}

/-- The parts of a recording that succeeds. -/
theorem recordTransaction_eq_ok {conditions : ClientStore.TransactionEnvironment} :
    recordTransaction store accounts transaction conditions = .ok after ↔
      ∃ relevant notes, conditions.relevances = .ok relevant ∧
        store.consumedInputNotes transaction conditions.currentTimestamp = .ok notes ∧
        checkNotLocked accounts transaction.details.accountId = .ok () ∧
        conditions.accounts = .ok () ∧ ∃ updates, updates =
          NoteUpdateTracker.forTransactionUpdates
            (store.newInputNotes transaction conditions relevant) notes
            (transaction.outputNotes.map fun note =>
              .tryFromOutputNote note conditions.submissionHeight) ∧
        ∃ noted, noted = (store.upsertTransactionRecord (ClientStore.submittedRecord transaction
            conditions.submissionHeight)).applyNoteUpdates updates ∧
          after = { noted with noteTags := noted.noteTags ++ ClientStore.newTags updates } := by
  constructor
  · intro recorded
    obtain ⟨updates, compiled, recorded⟩ := bind_eq_ok.mp recorded
    obtain ⟨_, checked, same⟩ := bind_eq_ok.mp recorded
    obtain ⟨_, unlocked, written⟩ := bind_eq_ok.mp checked
    obtain ⟨relevant, screened, compiled⟩ := bind_eq_ok.mp compiled
    obtain ⟨notes, consumed, tracked⟩ := bind_eq_ok.mp compiled
    cases tracked
    cases same
    exact ⟨relevant, notes, screened, consumed, unlocked, written, _, rfl, _, rfl, rfl⟩
  · rintro ⟨relevant, notes, screened, consumed, unlocked, written, _, rfl, _, rfl, rfl⟩
    refine bind_eq_ok.mpr ⟨_, bind_eq_ok.mpr ⟨relevant, screened,
      bind_eq_ok.mpr ⟨notes, consumed, rfl⟩⟩, bind_eq_ok.mpr ⟨(), ?_, rfl⟩⟩
    exact bind_eq_ok.mpr ⟨(), unlocked, written⟩

/-- A stored note after a recording that succeeds: the transaction consumes it, so it is the
marked one, or the transaction brings it, so it is an expected one, or it is as before. -/
theorem recordTransaction_cases (keyed : store.NotesKeyed)
    {conditions : ClientStore.TransactionEnvironment} {relevant : List NoteId}
    (screened : conditions.relevances = .ok relevant)
    (recorded : recordTransaction store accounts transaction conditions = .ok after)
    {noteId : NoteId} {record : InputNoteRecord}
    (stored : store.inputNotes[noteId]? = some record) :
    (noteId ∈ transaction.inputNotes ∧ ∃ note, ClientStore.Marks transaction
        conditions.currentTimestamp record note ∧ after.inputNotes[noteId]? = some note) ∨
    noteId ∉ transaction.inputNotes ∧
      ((transaction.Brings relevant noteId ∧ ∃ note : InputNoteRecord,
          note.state.isExpected = true ∧ after.inputNotes[noteId]? = some note) ∨
        ¬transaction.Brings relevant noteId ∧ after.inputNotes[noteId]? = some record) := by
  obtain ⟨_, notes, screenedAgain, consumed, _, _, updates, tracked, noted, written, same⟩ :=
    recordTransaction_eq_ok.mp recorded
  rw [screened] at screenedAgain
  cases screenedAgain
  have corresponds := ClientStore.consumedInputNotes_eq_ok consumed
  have cases := ClientStore.forTransactionUpdates_cases
    (store.newInputNotes transaction conditions relevant) notes
    (transaction.outputNotes.map fun note =>
      .tryFromOutputNote note conditions.submissionHeight)
  have updatesKeyed : ∀ (noteId : NoteId) (update : InputNoteUpdate),
      updates.inputNotes[noteId]? = some update → update.note.id = noteId := by
    intro other update found
    rw [tracked] at found
    rcases cases other with ⟨note, _, about, entry⟩ | ⟨_, ⟨note, _, about, entry⟩ | ⟨_, entry⟩⟩
    all_goals
      rw [entry] at found
      cases found
    · exact about
    · exact about
  have lookup : after.inputNotes[noteId]? = match updates.inputNotes[noteId]? with
      | some update => (store.applyInputNoteUpdate update).inputNotes[noteId]?
      | none => store.inputNotes[noteId]? := by
    rw [same, written]
    refine (ClientStore.applyNoteUpdates_getElem? updatesKeyed _ noteId).trans ?_
    have before : (store.upsertTransactionRecord (ClientStore.submittedRecord transaction
        conditions.submissionHeight)).inputNotes[noteId]? = store.inputNotes[noteId]? := rfl
    cases updates.inputNotes[noteId]? with
    | none => exact before
    | some update => exact ClientStore.applyInputNoteUpdate_congr before update
  rw [tracked] at lookup
  rcases cases noteId with ⟨note, listed, about, entry⟩ | ⟨unmarked, created⟩
  · refine Or.inl ?_
    obtain ⟨source, fetched, marks⟩ := exists_of_forall₂_right corresponds listed
    obtain ⟨other, wanted, found⟩ := ClientStore.mem_inputNotesWithIds.mp fetched
    obtain ⟨next, moved, rfl⟩ := marks
    have place : other = noteId := (keyed other source found).symm.trans about
    rw [place] at wanted found
    rw [stored] at found
    cases found
    refine ⟨wanted, _, ⟨next, moved, rfl⟩, ?_⟩
    rw [lookup, entry]
    show (store.applyInputNoteUpdate _).inputNotes[noteId]? = _
    rw [ClientStore.applyInputNoteUpdate_getElem?, if_pos about, stored]
    rfl
  · refine Or.inr ⟨fun wanted => ?_, ?_⟩
    · obtain ⟨note, listed, next, _, rfl⟩ := exists_of_forall₂_left corresponds
        (ClientStore.mem_inputNotesWithIds.mpr ⟨noteId, wanted, stored⟩)
      exact unmarked _ listed (keyed noteId record stored)
    · rcases created with ⟨note, listed, about, entry⟩ | ⟨absent, entry⟩
      · refine Or.inl ⟨ClientStore.exists_newInputNote_iff.mp ⟨note, listed, about⟩,
          ClientStore.storedInputNote note, ?_, ?_⟩
        · show note.state.isExpected = true
          exact ClientStore.newInputNotes_isExpected listed
        rw [lookup, entry]
        show (store.applyInputNoteUpdate _).inputNotes[noteId]? = _
        rw [ClientStore.applyInputNoteUpdate_getElem?, if_pos about]
      · refine Or.inr ⟨fun brings => ?_, ?_⟩
        · obtain ⟨note, listed, about⟩ := ClientStore.exists_newInputNote_iff.mpr brings
          exact absent note listed about
        · rw [lookup, entry]
          exact stored

/-- The client knows the note: it is processed, has a verified proof or is consumed. -/
def ClientStore.Knows (store : ClientStore) (noteId : NoteId) : Prop :=
  ∃ record : InputNoteRecord, store.inputNotes[noteId]? = some record ∧
    record.state.isKnown = true

/-- Nothing stops the recording: the screener and the database succeed, the account is not
locked, and the notes of the transaction can be consumed. -/
structure RecordsWith (store : ClientStore) (accounts : AccountId → Option AccountStatus)
    (transaction : ClientStore.ExecutedTransaction)
    (conditions : ClientStore.TransactionEnvironment) (relevant : List NoteId) : Prop where
  screened : conditions.relevances = .ok relevant
  written : conditions.accounts = .ok ()
  unlocked : ∃ status, accounts transaction.details.accountId = some status ∧
    status.isLocked = false
  consumable : ∀ noteId ∈ transaction.inputNotes, ∀ record : InputNoteRecord,
    store.inputNotes[noteId]? = some record → record.state.isConsumableLocally = true

omit [NoteLibrary] in
theorem RecordsWith.iff_succeeds [NoteLibrary]
    {conditions : ClientStore.TransactionEnvironment} {relevant : List NoteId} :
    RecordsWith store accounts transaction conditions relevant ↔
      conditions.relevances = .ok relevant ∧
        ∃ after, recordTransaction store accounts transaction conditions = .ok after := by
  constructor
  · intro records
    obtain ⟨notes, consumed⟩ := (store.consumedInputNotes_succeeds_iff transaction
      conditions.currentTimestamp).mpr records.consumable
    exact ⟨records.screened, _, recordTransaction_eq_ok.mpr ⟨relevant, notes, records.screened,
      consumed, checkNotLocked_eq_ok.mpr records.unlocked, records.written, _, rfl, _, rfl, rfl⟩⟩
  · rintro ⟨screened, after, recorded⟩
    obtain ⟨_, notes, _, consumed, unlocked, written, _⟩ := recordTransaction_eq_ok.mp recorded
    exact ⟨screened, written, checkNotLocked_eq_ok.mp unlocked,
      (store.consumedInputNotes_succeeds_iff transaction _).mp ⟨notes, consumed⟩⟩

/-- A recording keeps what is known exactly when the transaction brings no known note, apart
from those it consumes. -/
theorem recordTransaction_keepsKnownNotes_iff (keyed : store.NotesKeyed)
    (accounts : AccountId → Option AccountStatus) (transaction : ClientStore.ExecutedTransaction)
    (conditions : ClientStore.TransactionEnvironment) :
    (∀ after, recordTransaction store accounts transaction conditions = .ok after →
        store.KeepsKnownNotes after) ↔
      ∀ relevant, RecordsWith store accounts transaction conditions relevant →
        ∀ noteId, transaction.Brings relevant noteId → noteId ∉ transaction.inputNotes →
          ¬store.Knows noteId := by
  constructor
  · rintro keeps relevant records noteId brings unconsumed ⟨record, stored, known⟩
    obtain ⟨screened, after, recorded⟩ := RecordsWith.iff_succeeds.mp records
    obtain ⟨kept, found, keptBy⟩ := keeps after recorded noteId record stored known
    rcases recordTransaction_cases keyed screened recorded stored with
      ⟨consumed, _⟩ | ⟨_, ⟨_, note, expected, written⟩ | ⟨unbrought, _⟩⟩
    · exact unconsumed consumed
    · rw [written] at found
      cases found
      exact absurd expected (by simp [keptBy.notExpected])
    · exact unbrought brings
  · intro unknown after recorded noteId record stored known
    obtain ⟨relevant, _, screened, _⟩ := recordTransaction_eq_ok.mp recorded
    have records := RecordsWith.iff_succeeds.mpr ⟨screened, after, recorded⟩
    rcases recordTransaction_cases keyed screened recorded stored with
      ⟨_, _, ⟨next, moved, rfl⟩, written⟩ | ⟨unconsumed, ⟨brings, _⟩ | ⟨_, same⟩⟩
    · exact ⟨_, written, InputNoteState.consumedLocally_keptBy known moved⟩
    · exact absurd ⟨record, stored, known⟩ (unknown relevant records noteId brings unconsumed)
    · exact ⟨record, same, .refl known⟩

/-- An execution keeps what is known of the notes exactly when the request fails a check or asks
for no note that is processed without a verified proof. A recording does exactly when it fails
or the transaction brings no known note, apart from those it consumes. -/
theorem transactions_keepKnownNotes_iff (keyed : store.NotesKeyed) :
    (∀ (environment : ExecutionEnvironment) (accountId : AccountId)
        (request : TransactionRequest),
      store.KeepsKnownNotes
          (finalState (executeTransaction environment accountId request store)) ↔
        (PassesChecks environment store request →
          ∀ noteId ∈ request.inputNoteIds, ¬store.ProcessesUnauthenticated noteId)) ∧
    ∀ (accounts : AccountId → Option AccountStatus)
        (transaction : ClientStore.ExecutedTransaction)
        (conditions : ClientStore.TransactionEnvironment),
      (∀ after, recordTransaction store accounts transaction conditions = .ok after →
          store.KeepsKnownNotes after) ↔
        ∀ relevant, RecordsWith store accounts transaction conditions relevant →
          ∀ noteId, transaction.Brings relevant noteId → noteId ∉ transaction.inputNotes →
            ¬store.Knows noteId :=
  ⟨executeTransaction_keepsKnownNotes_iff keyed, recordTransaction_keepsKnownNotes_iff keyed⟩

end Execution

namespace Sample

open ClientStore

/-- A request for a committed note loses nothing of it. -/
theorem transactions_keepKnownNotes_coupon :
    (couponStore committedCoupon).KeepsKnownNotes
      (finalState (executeCoupon .tracked committedCoupon)) := by
  refine ((transactions_keepKnownNotes_iff (couponStore_keyed committedCoupon)).1
    (acceptingEnvironment .tracked) 2 (consumeRequest [couponNote])).mpr fun _ noteId _ => ?_
  rintro ⟨record, state, found, processing⟩
  unfold couponStore at found
  rw [ExtTreeMap.getElem?_insert] at found
  split at found
  · cases found
    cases processing
  · simp at found

/-- Transaction 5 of account 2 consumes the note, which has no verified proof. -/
def unprovenCoupon : InputNoteState :=
  .processingUnauthenticated ⟨couponNote.metadata, 0, ⟨some 100, 2, 5⟩⟩

/-- A transaction that expects the note to be created later. -/
def expectCoupon : ClientStore.ExecutedTransaction :=
  ⟨6, ⟨2, 10, 11, [], 0, 0, 4, 100⟩, [], [], [(couponNote.details, 9)]⟩

/-- The note that transaction 5 consumes is executed again, and its record forgets that. A
committed note that is expected once more loses its inclusion proof. -/
theorem not_keepKnownNotes_coupon :
    ¬(couponStore unprovenCoupon).KeepsKnownNotes
      (finalState (executeCoupon .tracked unprovenCoupon)) ∧
    ∃ after, recordCoupon .tracked expectCoupon (couponStore committedCoupon) = .ok after ∧
      ¬(couponStore committedCoupon).KeepsKnownNotes after := by
  have stored (state : InputNoteState) : (couponStore state).inputNotes[couponNote.id]? =
      some ⟨couponNote.details, some 0, state⟩ := ExtTreeMap.getElem?_insert_self
  constructor
  · intro keeps
    obtain ⟨kept, found, keptBy⟩ := keeps couponNote.id _ (stored unprovenCoupon) rfl
    have expected : (finalState (executeCoupon .tracked
        unprovenCoupon)).inputNotes[couponNote.id]?.map (fun note => note.state.isExpected) =
          some true := by decide +kernel
    rw [found] at expected
    simp [keptBy.notExpected] at expected
  · obtain ⟨after, recorded⟩ : ∃ after, recordCoupon .tracked expectCoupon
        (couponStore committedCoupon) = .ok after :=
      ⟨_, rfl⟩
    refine ⟨after, recorded, fun keeps => ?_⟩
    obtain ⟨kept, found, keptBy⟩ := keeps couponNote.id _ (stored committedCoupon) rfl
    have expected : (recordCoupon .tracked expectCoupon (couponStore committedCoupon)).toOption.bind
        (fun after => after.inputNotes[couponNote.id]?.map fun note => note.state.isExpected) =
          some true := by decide +kernel
    rw [recorded] at expected
    simp [Except.toOption, found, keptBy.notExpected] at expected

end Sample

end MidenClient
