/-
This file asks whether a transaction that was executed can be recorded.

The input notes are checked before the execution, and their records move to a processing
state only after the transaction was submitted. The first check lets a note pass that
another transaction is processing, as long as its inclusion proof was verified, and it
does not look at the status of the account. Both make the recording fail.
-/

import MidenClient.Note.TrackerEvents
import MidenClient.Transaction.Execution

namespace MidenClient

open Std (ExtTreeMap)
open Fallible ClientM

/-! ### Which notes can be consumed -/

/-- A note in this state can be marked as processed by a local transaction. -/
def InputNoteState.isConsumableLocally : InputNoteState → Bool
  | .expected state => state.metadata.isSome
  | .unverified _ | .committed _ => true
  | .invalid _ | .processingAuthenticated _ | .processingUnauthenticated _
  | .consumedAuthenticatedLocal _ | .consumedUnauthenticatedLocal _ | .consumedExternal _ => false

theorem InputNoteState.consumedLocally_succeeds_iff (state : InputNoteState)
    (account : AccountId) (transaction : TransactionId) (timestamp : Option ℕ) :
    (∃ next, state.consumedLocally account transaction timestamp = .ok next) ↔
      state.isConsumableLocally = true := by
  rcases state with ⟨_ | _, _, _⟩ | _ | _ | _ | _ | _ | _ | _ | _ <;>
    simp [consumedLocally, isConsumableLocally]

theorem InputNoteRecord.consumedLocally_succeeds_iff (record : InputNoteRecord)
    (account : AccountId) (transaction : TransactionId) (timestamp : Option ℕ) :
    (∃ changed, record.consumedLocally account transaction timestamp = .ok changed) ↔
      record.state.isConsumableLocally = true := by
  rw [← record.state.consumedLocally_succeeds_iff account transaction timestamp]
  unfold consumedLocally
  rcases record.state.consumedLocally account transaction timestamp with error | _ | next <;>
    simp [advance]

namespace ClientStore

theorem mem_inputNotesWithIds {store : ClientStore} {noteIds : List NoteId}
    {record : InputNoteRecord} :
    record ∈ store.inputNotesWithIds noteIds ↔
      ∃ noteId ∈ noteIds, store.inputNotes[noteId]? = some record := by
  unfold inputNotesWithIds
  rw [List.mem_map]
  constructor
  · rintro ⟨entry, listed, rfl⟩
    obtain ⟨member, wanted⟩ := List.mem_filter.mp listed
    exact ⟨entry.1, of_decide_eq_true wanted,
      ExtTreeMap.mem_toList_iff_getElem?_eq_some.mp member⟩
  · rintro ⟨noteId, wanted, stored⟩
    exact ⟨(noteId, record), List.mem_filter.mpr
      ⟨ExtTreeMap.mem_toList_iff_getElem?_eq_some.mpr stored, decide_eq_true wanted⟩, rfl⟩

theorem consumeInputNote_succeeds_iff (transaction : ExecutedTransaction)
    (timestamp : Option ℕ) (updated : List InputNoteRecord) (record : InputNoteRecord) :
    (∃ next, consumeInputNote transaction timestamp updated record = .ok next) ↔
      record.state.isConsumableLocally = true := by
  rw [← record.consumedLocally_succeeds_iff transaction.details.accountId transaction.id timestamp]
  unfold consumeInputNote
  constructor
  · rintro ⟨next, stepped⟩
    obtain ⟨changed, done, _⟩ := bind_eq_ok.mp stepped
    exact ⟨changed, recordChange_eq_ok.mp done⟩
  · rintro ⟨changed, done⟩
    exact ⟨_, bind_eq_ok.mpr ⟨changed, recordChange_eq_ok.mpr done, rfl⟩⟩

/-- The notes of a transaction are marked exactly when each one that is stored can be. -/
theorem consumedInputNotes_succeeds_iff (store : ClientStore) (transaction : ExecutedTransaction)
    (timestamp : Option ℕ) :
    (∃ notes, store.consumedInputNotes transaction timestamp = .ok notes) ↔
      ∀ noteId ∈ transaction.inputNotes, ∀ record, store.inputNotes[noteId]? = some record →
        record.state.isConsumableLocally = true := by
  unfold consumedInputNotes
  rw [foldlM_succeeds_iff (consumeInputNote_succeeds_iff transaction timestamp)]
  constructor
  · exact fun all noteId wanted record stored =>
      all record (mem_inputNotesWithIds.mpr ⟨noteId, wanted, stored⟩)
  · intro all record listed
    obtain ⟨noteId, wanted, stored⟩ := mem_inputNotesWithIds.mp listed
    exact all noteId wanted record stored

/-- Rows stand under the id of their note. -/
def NotesKeyed [NoteLibrary] (store : ClientStore) : Prop :=
  ∀ (noteId : NoteId) (note : InputNoteRecord), store.inputNotes[noteId]? = some note →
    note.id = noteId

variable [NoteLibrary]

/-- A note of the store after some notes were written: it was there and none of them is about
it, or it is one of them. -/
theorem foldl_upsertInputNote_cases (records : List InputNoteRecord) (store : ClientStore)
    (noteId : NoteId) :
    ((records.foldl upsertInputNote store).inputNotes[noteId]? = store.inputNotes[noteId]? ∧
        ∀ record ∈ records, record.id ≠ noteId) ∨
      ∃ record ∈ records, record.id = noteId ∧
        (records.foldl upsertInputNote store).inputNotes[noteId]? =
          some (storedInputNote record) := by
  induction records using List.reverseRecOn with
  | nil => exact Or.inl ⟨rfl, fun _ absent => absurd absent List.not_mem_nil⟩
  | append_singleton records last inductionHypothesis =>
    rw [List.foldl_append, List.foldl_cons, List.foldl_nil]
    unfold upsertInputNote at inductionHypothesis ⊢
    rw [ExtTreeMap.getElem?_insert]
    by_cases about : last.id = noteId
    · rw [if_pos (Std.compare_eq_iff_eq.mpr about)]
      exact Or.inr ⟨last, List.mem_append_right _ List.mem_cons_self, about, rfl⟩
    · rw [if_neg (by rwa [Std.compare_eq_iff_eq])]
      rcases inductionHypothesis with ⟨same, others⟩ | ⟨record, member, written⟩
      · refine Or.inl ⟨same, fun record member => ?_⟩
        rcases List.mem_append.mp member with early | late
        · exact others record early
        · rw [List.mem_singleton.mp late]
          exact about
      · exact Or.inr ⟨record, List.mem_append_left _ member, written⟩

end ClientStore

section Execution

variable [NoteLibrary] {store : ClientStore} {request : TransactionRequest}
  {environment : ExecutionEnvironment} {accountId : AccountId}

/-! ### What the execution writes -/

omit [NoteLibrary] in
/-- The note is stored with a verified inclusion proof. -/
def ClientStore.Authenticates (store : ClientStore) (noteId : NoteId) : Prop :=
  ∃ record : InputNoteRecord, store.inputNotes[noteId]? = some record ∧
    record.state.isAuthenticated = true

theorem mem_authenticatedRecords {record : InputNoteRecord} :
    record ∈ authenticatedRecords store request ↔
      (∃ noteId ∈ request.inputNoteIds, store.inputNotes[noteId]? = some record) ∧
        record.state.isAuthenticated = true := by
  unfold authenticatedRecords
  rw [List.mem_filter, ClientStore.mem_inputNotesWithIds]

/-- The ids of the stored notes with a verified proof. -/
theorem mem_authenticatedIds (keyed : store.NotesKeyed) {noteId : NoteId} :
    noteId ∈ (authenticatedRecords store request).map InputNoteRecord.id ↔
      noteId ∈ request.inputNoteIds ∧ store.Authenticates noteId := by
  rw [List.mem_map]
  constructor
  · rintro ⟨record, listed, same⟩
    obtain ⟨⟨other, wanted, stored⟩, authenticated⟩ := mem_authenticatedRecords.mp listed
    rw [keyed other record stored] at same
    rw [same] at wanted stored
    exact ⟨wanted, record, stored, authenticated⟩
  · rintro ⟨wanted, record, stored, authenticated⟩
    exact ⟨record, mem_authenticatedRecords.mpr ⟨⟨noteId, wanted, stored⟩, authenticated⟩,
      keyed noteId record stored⟩

/-- A note after the request was stored: it was written as an expected note with metadata
since it is a note of the request without a verified proof, or it is as before. -/
theorem upsertUnauthenticated_cases (keyed : store.NotesKeyed) (noteId : NoteId) :
    ((upsertUnauthenticated store request).inputNotes[noteId]? = store.inputNotes[noteId]? ∧
        (noteId ∈ request.inputNoteIds → store.Authenticates noteId)) ∨
      ∃ note ∈ request.inputNotes, note.id = noteId ∧ ¬store.Authenticates noteId ∧
        (upsertUnauthenticated store request).inputNotes[noteId]? =
          some (ClientStore.storedInputNote (InputNoteRecord.ofNote note)) := by
  unfold upsertUnauthenticated
  rcases ClientStore.foldl_upsertInputNote_cases _ store noteId with
    ⟨same, others⟩ | ⟨record, member, about, written⟩
  · refine Or.inl ⟨same, fun wanted => ?_⟩
    obtain ⟨note, listed, id⟩ := List.mem_map.mp wanted
    by_contra unauthenticated
    refine others (InputNoteRecord.ofNote note) (List.mem_map_of_mem ?_) id
    refine List.mem_filter.mpr ⟨listed, decide_eq_true fun authenticated => ?_⟩
    rw [id] at authenticated
    exact unauthenticated ((mem_authenticatedIds keyed).mp authenticated).2
  · obtain ⟨note, listed, rfl⟩ := List.mem_map.mp member
    obtain ⟨wanted, outside⟩ := List.mem_filter.mp listed
    have id : note.id = noteId := about
    refine Or.inr ⟨note, wanted, id, fun authenticates => ?_, written⟩
    refine of_decide_eq_true outside ((mem_authenticatedIds keyed).mpr ⟨?_, ?_⟩)
    · exact List.mem_map_of_mem wanted
    · rw [id]
      exact authenticates

theorem checkNotConsumed_eq_ok {records : List InputNoteRecord} :
    checkNotConsumed records = .ok () ↔
      ∀ record ∈ records, record.state.isConsumed = false := by
  unfold checkNotConsumed
  cases found : records.find? fun record => record.state.isConsumed with
  | none =>
    simp only [List.find?_eq_none, Bool.not_eq_true] at found
    exact ⟨fun _ => found, fun _ => rfl⟩
  | some record =>
    constructor
    · intro passed
      cases passed
    · intro all
      have consumed := List.find?_some found
      rw [all record (List.mem_of_find?_eq_some found)] at consumed
      cases consumed

/-- An execution that succeeds passed the checks, wrote the notes of the request and ran. -/
theorem executeTransaction_eq_ok {transaction : ClientStore.ExecutedTransaction}
    {after : ClientStore}
    (executed : executeTransaction environment accountId request store = .ok transaction after) :
    (∀ record ∈ store.inputNotesWithIds request.inputNoteIds, record.state.isConsumed = false) ∧
      after = upsertUnauthenticated store request ∧
      runExecution environment accountId request (authenticatedRecords store request) =
        .ok transaction := by
  unfold executeTransaction at executed
  obtain ⟨_, _, validated, executed⟩ := bind_eq_result_ok.mp executed
  obtain ⟨_, rfl⟩ := attempt_eq_ok.mp validated
  obtain ⟨_, _, read, executed⟩ := bind_eq_result_ok.mp executed
  cases read
  obtain ⟨_, _, checked, executed⟩ := bind_eq_result_ok.mp executed
  obtain ⟨passed, rfl⟩ := attempt_eq_ok.mp checked
  obtain ⟨_, _, written, ran⟩ := bind_eq_result_ok.mp executed
  cases written
  obtain ⟨finished, rfl⟩ := attempt_eq_ok.mp ran
  exact ⟨checkNotConsumed_eq_ok.mp passed, rfl, finished⟩

/-! ### What the execution is given -/

/-- Every prepared note stands under its own id. -/
def InputNotesKeyed (inputNotes : ExtTreeMap NoteId InputNote) : Prop :=
  ∀ (noteId : NoteId) (note : InputNote), inputNotes[noteId]? = some note → note.id = noteId

theorem InputNotesKeyed.insert {inputNotes : ExtTreeMap NoteId InputNote}
    (keyed : InputNotesKeyed inputNotes) {noteId : NoteId} {note : InputNote}
    (same : note.id = noteId) : InputNotesKeyed (inputNotes.insert noteId note) := by
  intro other found stored
  rw [ExtTreeMap.getElem?_insert] at stored
  split at stored
  · rename_i equal
    cases stored
    exact same.trans (Std.compare_eq_iff_eq.mp equal)
  · exact keyed other found stored

theorem addAuthenticated_keyed {inputNotes next : ExtTreeMap NoteId InputNote}
    {record : InputNoteRecord} (keyed : InputNotesKeyed inputNotes)
    (added : addAuthenticated inputNotes record = .ok next) : InputNotesKeyed next := by
  unfold addAuthenticated at added
  split at added
  · cases added
  · split at added
    · cases added
    · split at added
      · rename_i note converted
        cases added
        obtain ⟨metadata, _, rfl⟩ := Option.map_eq_some_iff.mp converted
        refine keyed.insert ?_
        split <;> rfl
      · cases added

theorem foldl_insertUnauthenticated_keyed (notes : List Note)
    {inputNotes : ExtTreeMap NoteId InputNote} (keyed : InputNotesKeyed inputNotes) :
    InputNotesKeyed (notes.foldl (fun prepared note =>
      prepared.insert note.id (.unauthenticated note)) inputNotes) := by
  induction notes generalizing inputNotes with
  | nil => exact keyed
  | cons note rest inductionHypothesis => exact inductionHypothesis (keyed.insert rfl)

/-- The notes taken so far are among the ones that were asked for. -/
def TakenFrom (noteIds : List NoteId)
    (progress : ExtTreeMap NoteId InputNote × List InputNote) : Prop :=
  InputNotesKeyed progress.1 ∧ ∀ note ∈ progress.2, note.id ∈ noteIds

/-- The executor is given notes of the request. -/
theorem buildInputNotes_eq_ok {records : List InputNoteRecord} {notes : List InputNote}
    (built : request.buildInputNotes environment records = .ok notes) :
    ∀ note ∈ notes, note.id ∈ request.inputNoteIds := by
  obtain ⟨authenticated, added, built⟩ := bind_eq_ok.mp built
  obtain ⟨taken, took, built⟩ := bind_eq_ok.mp built
  obtain ⟨_, _, same⟩ := bind_eq_ok.mp built
  cases same
  have authenticatedKeyed : InputNotesKeyed authenticated := by
    refine foldlM_invariant (fun _ => InputNotesKeyed) addAuthenticated ?_ records ∅ authenticated
      (fun _ _ stored => by simp at stored) added
    exact fun record rest inputNotes next keyed stepped => addAuthenticated_keyed keyed stepped
  refine (foldlM_invariant (fun rest progress =>
    TakenFrom request.inputNoteIds progress ∧ ∀ noteId ∈ rest, noteId ∈ request.inputNoteIds)
    takeInputNote ?_ request.inputNoteIds _ taken ⟨⟨?_, ?_⟩, fun _ member => member⟩ took).1.2
  · rintro noteId rest progress next ⟨⟨keyed, among⟩, wanted⟩ stepped
    unfold takeInputNote at stepped
    split at stepped
    · rename_i note found
      cases stepped
      refine ⟨⟨fun other stored foundAt => ?_, fun taken member => ?_⟩,
        fun other member => wanted other (List.mem_cons_of_mem noteId member)⟩
      · exact keyed other stored
          ((OrderedMap.getElem?_erase_eq_some_iff _ _ _ _).mp foundAt).2
      · rcases List.mem_append.mp member with early | late
        · exact among taken early
        · rw [List.mem_singleton.mp late, keyed noteId note found]
          exact wanted noteId List.mem_cons_self
    · cases stepped
  · exact foldl_insertUnauthenticated_keyed _ authenticatedKeyed
  · exact fun _ absent => absurd absent List.not_mem_nil

/-- Dropping notes leaves some of the given ones. -/
theorem getValidInputNotes_subset {checker : NoteConsumptionChecker} {notes valid : List InputNote}
    (dropped : getValidInputNotes checker notes = .ok valid) : valid ⊆ notes := by
  fun_induction getValidInputNotes checker notes with
  | case1 notes reason failed => cases dropped
  | case2 notes failed =>
    cases dropped
    exact List.Subset.refl _
  | case3 notes first rest failed inductionHypothesis =>
    exact List.Subset.trans (inductionHypothesis dropped) List.filter_sublist.subset

theorem executedNotes_subset {notes executed : List InputNote}
    (given : executedNotes environment request notes = .ok executed) : executed ⊆ notes := by
  unfold executedNotes at given
  split at given
  · exact getValidInputNotes_subset given
  · cases given
    exact List.Subset.refl notes

/-- The executor is given this note: it is a note of the request that was not dropped by the
check of the notes that can be consumed. -/
def Executes (environment : ExecutionEnvironment) (store : ClientStore)
    (request : TransactionRequest) (noteId : NoteId) : Prop :=
  ∃ notes executed, request.buildInputNotes environment (authenticatedRecords store request) =
      .ok notes ∧
    executedNotes environment request notes = .ok executed ∧
    ∃ note ∈ executed, note.id = noteId

theorem Executes.mem_inputNoteIds {noteId : NoteId}
    (executes : Executes environment store request noteId) : noteId ∈ request.inputNoteIds := by
  obtain ⟨notes, executed, built, given, note, member, rfl⟩ := executes
  exact buildInputNotes_eq_ok built note (executedNotes_subset given member)

/-- A transaction belongs to a known account and consumes the notes the executor was given. -/
theorem runExecution_eq_ok {transaction : ClientStore.ExecutedTransaction}
    (ran : runExecution environment accountId request (authenticatedRecords store request) =
      .ok transaction) :
    (∃ status, environment.accounts accountId = some status) ∧
      transaction.details.accountId = accountId ∧
      ∀ noteId, noteId ∈ transaction.inputNotes ↔
        Executes environment store request noteId := by
  obtain ⟨notes, built, ran⟩ := bind_eq_ok.mp ran
  obtain ⟨_, _, ran⟩ := bind_eq_ok.mp ran
  obtain ⟨_, known, ran⟩ := bind_eq_ok.mp ran
  obtain ⟨executed, given, ran⟩ := bind_eq_ok.mp ran
  obtain ⟨outcome, _, ran⟩ := bind_eq_ok.mp ran
  obtain ⟨_, _, same⟩ := bind_eq_ok.mp ran
  cases same
  refine ⟨?_, rfl, fun noteId => ?_⟩
  · unfold checkKnown at known
    split at known
    · cases known
    · rename_i status found
      exact ⟨status, found⟩
  · rw [List.mem_map]
    constructor
    · rintro ⟨note, member, same⟩
      exact ⟨notes, executed, built, given, note, member, same⟩
    · rintro ⟨others, taken, builtAgain, givenAgain, note, member, same⟩
      rw [built] at builtAgain
      cases builtAgain
      rw [given] at givenAgain
      cases givenAgain
      exact ⟨note, member, same⟩

/-! ### Recording the transaction -/

/-- Recording the transaction fails only where the screener or the database does. -/
def Recordable (store : ClientStore) (accounts : AccountId → Option AccountStatus)
    (transaction : ClientStore.ExecutedTransaction) : Prop :=
  ∀ (environment : ClientStore.TransactionEnvironment) (relevant : List NoteId),
    environment.relevances = .ok relevant → environment.accounts = .ok () →
    ∃ recorded, recordTransaction store accounts transaction environment = .ok recorded

omit [NoteLibrary] in
theorem checkNotLocked_eq_ok {accounts : AccountId → Option AccountStatus} :
    checkNotLocked accounts accountId = .ok () ↔
      ∃ status, accounts accountId = some status ∧ status.isLocked = false := by
  unfold checkNotLocked
  cases accounts accountId with
  | none => simp
  | some status => cases status.isLocked <;> simp

theorem recordable_iff {accounts : AccountId → Option AccountStatus}
    {transaction : ClientStore.ExecutedTransaction} :
    Recordable store accounts transaction ↔
      (∃ status, accounts transaction.details.accountId = some status ∧
        status.isLocked = false) ∧
      ∀ noteId ∈ transaction.inputNotes, ∀ record, store.inputNotes[noteId]? = some record →
        record.state.isConsumableLocally = true := by
  rw [← checkNotLocked_eq_ok]
  constructor
  · intro recordable
    obtain ⟨recorded, applied⟩ := recordable ⟨0, none, .ok [], .ok ()⟩ [] rfl rfl
    obtain ⟨updates, compiled, applied⟩ := bind_eq_ok.mp applied
    obtain ⟨_, checked, _⟩ := bind_eq_ok.mp applied
    obtain ⟨_, unlocked, _⟩ := bind_eq_ok.mp checked
    obtain ⟨_, _, compiled⟩ := bind_eq_ok.mp compiled
    obtain ⟨notes, consumed, _⟩ := bind_eq_ok.mp compiled
    exact ⟨unlocked, (store.consumedInputNotes_succeeds_iff transaction _).mp ⟨notes, consumed⟩⟩
  · rintro ⟨unlocked, consumable⟩ environment relevant screened written
    obtain ⟨notes, consumed⟩ := (store.consumedInputNotes_succeeds_iff transaction
      environment.currentTimestamp).mpr consumable
    refine ⟨_, bind_eq_ok.mpr ⟨_, bind_eq_ok.mpr ⟨relevant, screened,
      bind_eq_ok.mpr ⟨notes, consumed, rfl⟩⟩, bind_eq_ok.mpr ⟨(), ?_, rfl⟩⟩⟩
    exact bind_eq_ok.mpr ⟨(), unlocked, written⟩

omit [NoteLibrary] in
/-- The note is stored as one that a local transaction processes, with a verified proof. -/
def ClientStore.ProcessesAuthenticated (store : ClientStore) (noteId : NoteId) : Prop :=
  ∃ (record : InputNoteRecord) (state : ProcessingAuthenticatedNoteState),
    store.inputNotes[noteId]? = some record ∧ record.state = .processingAuthenticated state

/-- After a note of the request passed the checks, the only reason not to consume it is that
another transaction is processing it. -/
theorem consumable_after_upsert_iff (keyed : store.NotesKeyed)
    (unspent : ∀ record ∈ store.inputNotesWithIds request.inputNoteIds,
      record.state.isConsumed = false) {noteId : NoteId} (wanted : noteId ∈ request.inputNoteIds) :
    (∀ record, (upsertUnauthenticated store request).inputNotes[noteId]? = some record →
        record.state.isConsumableLocally = true) ↔
      ¬store.ProcessesAuthenticated noteId := by
  rcases upsertUnauthenticated_cases keyed noteId with
    ⟨same, authenticates⟩ | ⟨note, _, _, unauthenticated, written⟩
  · obtain ⟨record, stored, authenticated⟩ := authenticates wanted
    have unconsumed := unspent record
      (ClientStore.mem_inputNotesWithIds.mpr ⟨noteId, wanted, stored⟩)
    rw [same, stored]
    constructor
    · rintro consumable ⟨other, state, found, processing⟩
      rw [stored] at found
      cases found
      have allowed := consumable record rfl
      rw [processing] at allowed
      cases allowed
    · intro unprocessed other found
      cases found
      cases state : record.state with
      | committed _ => rfl
      | processingAuthenticated processing =>
        exact absurd ⟨record, processing, stored, state⟩ unprocessed
      | consumedAuthenticatedLocal _ =>
        rw [state] at unconsumed
        cases unconsumed
      | expected _ | unverified _ | invalid _ | processingUnauthenticated _
      | consumedUnauthenticatedLocal _ | consumedExternal _ =>
        rw [state] at authenticated
        cases authenticated
  · constructor
    · rintro _ ⟨record, state, stored, processing⟩
      exact unauthenticated ⟨record, stored, by rw [processing]; rfl⟩
    · intro _ record found
      rw [written] at found
      cases found
      rfl

/-- A transaction that was executed can be recorded exactly when its account is not locked and
no note it consumes was being processed with a verified proof. -/
theorem executed_recordable_iff (keyed : store.NotesKeyed)
    {transaction : ClientStore.ExecutedTransaction} {after : ClientStore}
    (executed : executeTransaction environment accountId request store = .ok transaction after) :
    Recordable after environment.accounts transaction ↔
      (∀ status, environment.accounts accountId = some status → status.isLocked = false) ∧
      ∀ noteId, Executes environment store request noteId →
        ¬store.ProcessesAuthenticated noteId := by
  obtain ⟨unspent, rfl, ran⟩ := executeTransaction_eq_ok executed
  obtain ⟨⟨status, known⟩, account, consumes⟩ := runExecution_eq_ok ran
  rw [recordable_iff, account, known]
  refine and_congr (by simp) (forall_congr' fun noteId => ?_)
  rw [consumes]
  exact forall_congr' fun executes =>
    consumable_after_upsert_iff keyed unspent executes.mem_inputNoteIds

end Execution

namespace Sample

open ClientStore

/-- A public note for account 2. -/
def couponNote : Note :=
  ⟨⟨[], ⟨3, 1, 1⟩⟩, ⟨2, .isPublic, 9, 0⟩⟩

/-- A store that holds the note in a state. -/
def couponStore (state : InputNoteState) : ClientStore :=
  { empty with
    inputNotes := (∅ : ExtTreeMap NoteId InputNoteRecord).insert couponNote.id
      ⟨couponNote.details, some 0, state⟩ }

/-- The note is on chain, and nobody consumes it yet. -/
def committedCoupon : InputNoteState :=
  .committed ⟨couponNote.metadata, ⟨0, 0, [7]⟩, 7⟩

/-- The note is on chain, and transaction 5 of account 2 consumes it. -/
def processedCoupon : InputNoteState :=
  .processingAuthenticated ⟨couponNote.metadata, ⟨0, 0, [7]⟩, 7, ⟨some 100, 2, 5⟩⟩

/-- A request to consume some notes and nothing else. -/
def consumeRequest (notes : List Note) : TransactionRequest :=
  ⟨notes, ∅, ∅, false⟩

/-- An executor that turns any notes into transaction 6, for accounts with a status. -/
def acceptingEnvironment (status : AccountStatus) : ExecutionEnvironment where
  validateRequest := .ok ()
  checkInputNotes _ := .ok ()
  prepare := .ok ()
  accounts _ := some status
  checker := ⟨fun _ => .ok [], fun same noteId member => by cases same; cases member⟩
  execute _ := .ok ⟨6, ⟨2, 10, 11, [couponNote.nullifier], 0, 0, 4, 100⟩, []⟩

theorem couponStore_keyed (state : InputNoteState) : (couponStore state).NotesKeyed := by
  intro noteId note found
  unfold couponStore at found
  rw [ExtTreeMap.getElem?_insert] at found
  split at found
  · rename_i same
    cases found
    exact Std.compare_eq_iff_eq.mp same
  · simp at found

/-- Executing the request for the note. -/
def executeCoupon (status : AccountStatus) (state : InputNoteState) :
    EStateM.Result ClientError ClientStore ClientStore.ExecutedTransaction :=
  executeTransaction (acceptingEnvironment status) 2 (consumeRequest [couponNote])
    (couponStore state)

/-- Recording a transaction when the screener and the database succeed. -/
def recordCoupon (status : AccountStatus) (transaction : ClientStore.ExecutedTransaction)
    (store : ClientStore) : Except ClientError ClientStore :=
  recordTransaction store (acceptingEnvironment status).accounts transaction
    ⟨0, some 100, .ok [], .ok ()⟩

/-- A transaction that consumes a committed note is recorded. -/
theorem executed_recordable_coupon : ∃ transaction after,
    executeCoupon .tracked committedCoupon = .ok transaction after ∧
      Recordable after (acceptingEnvironment .tracked).accounts transaction := by
  obtain ⟨transaction, after, executed, _⟩ := exists_of_succeedsWith
    (show succeedsWith (executeCoupon .tracked committedCoupon) (fun _ _ => true) = true by
      decide +kernel)
  refine ⟨transaction, after, executed,
    (executed_recordable_iff (couponStore_keyed _) executed).mpr ⟨?_, ?_⟩⟩
  · intro status known
    cases known
    rfl
  · rintro noteId _ ⟨record, state, found, processing⟩
    unfold couponStore at found
    rw [ExtTreeMap.getElem?_insert] at found
    split at found
    · cases found
      cases processing
    · simp at found

/-- A note that a pending transaction consumes passes the checks of a second execution, and an
account that is locked passes them as well. Neither result can be recorded. -/
theorem executed_not_recordable :
    (∃ transaction after, executeCoupon .tracked processedCoupon = .ok transaction after ∧
      recordCoupon .tracked transaction after =
        .error (.noteRecordConversionError (.noteNotConsumable "Note being consumed"))) ∧
    ∃ transaction after, executeCoupon (.locked none) committedCoupon = .ok transaction after ∧
      recordCoupon (.locked none) transaction after = .error (.accountLocked 2) := by
  constructor
  · obtain ⟨transaction, after, executed, refused⟩ := exists_of_succeedsWith
      (show succeedsWith (executeCoupon .tracked processedCoupon) (fun transaction after =>
        refusesWith (recordCoupon .tracked transaction after)
          (.noteRecordConversionError (.noteNotConsumable "Note being consumed"))) = true by
        decide +kernel)
    exact ⟨transaction, after, executed, eq_error_of_refusesWith refused⟩
  · obtain ⟨transaction, after, executed, refused⟩ := exists_of_succeedsWith
      (show succeedsWith (executeCoupon (.locked none) committedCoupon) (fun transaction after =>
        refusesWith (recordCoupon (.locked none) transaction after) (.accountLocked 2)) = true by
        decide +kernel)
    exact ⟨transaction, after, executed, eq_error_of_refusesWith refused⟩

end Sample

end MidenClient
