/-
This file shows that an import only ever writes tags and notes that are not being
processed: it refuses a note that is, and none of the events it applies makes one so.

A property of the store that survives such writes is therefore kept by every import,
also by one that fails half way.
-/

import MidenClient.Note.Import
import MidenClient.Note.TrackerEvents

namespace MidenClient

open Std (ExtTreeMap)
open Fallible ClientM

/-- The note is not being processed by a local transaction. -/
def Quiet (note : InputNoteRecord) : Prop :=
  note.state.isProcessing = false

/-- None of the notes found is being processed. -/
def AllQuiet (notes : List (Option InputNoteRecord)) : Prop :=
  ∀ note, some note ∈ notes → Quiet note

theorem AllQuiet.append {first second : List (Option InputNoteRecord)} (left : AllQuiet first)
    (right : AllQuiet second) : AllQuiet (first ++ second) := by
  intro note member
  exact (List.mem_append.mp member).elim (left note) (right note)

theorem allQuiet_nil : AllQuiet [] :=
  fun _ member => absurd member List.not_mem_nil

theorem allQuiet_singleton {note : Option InputNoteRecord}
    (quiet : ∀ record, note = some record → Quiet record) : AllQuiet [note] := by
  intro record member
  exact quiet record (List.mem_singleton.mp member).symm

/-! ### Single steps -/

theorem attempt_preserves {α : Type} (invariant : ClientStore → Prop)
    (computation : Except ClientError α) : Preserves invariant (attempt computation) := by
  intro store holds
  unfold attempt
  split <;> exact holds

theorem ask_preserves {α : Type} (invariant : ClientStore → Prop) (answer : Except RpcError α) :
    Preserves invariant (ask answer) :=
  attempt_preserves invariant _

theorem attempt_returns {α : Type} {condition : α → Prop} {computation : Except ClientError α}
    (holds : ∀ value, computation = .ok value → condition value) :
    Returns condition (attempt computation) := by
  intro store value last finished
  cases computation with
  | ok result =>
    cases finished
    exact holds _ rfl
  | error error => cases finished

theorem skipWhen_returns {α : Type} {condition : α → Prop} (skip : Bool) {nothing : α}
    {operation : ClientM α} (holds : condition nothing) (returns : Returns condition operation) :
    Returns condition (skipWhen skip nothing operation) := by
  unfold skipWhen
  split
  · exact Returns.pure holds
  · exact returns

theorem skipWhen_preserves {α : Type} {invariant : ClientStore → Prop} (skip : Bool) (nothing : α)
    {operation : ClientM α} (preserves : Preserves invariant operation) :
    Preserves invariant (skipWhen skip nothing operation) := by
  unfold skipWhen
  split
  · exact Preserves.pure invariant _
  · exact preserves

/-- The event leaves no note in processing that was not there before. -/
def StaysQuiet (record : InputNoteRecord)
    (result : Except NoteRecordError (InputNoteRecord × Bool)) : Prop :=
  ∀ changed flag, result = .ok (changed, flag) → Quiet record → Quiet changed

theorem staysQuiet_of_advance {record : InputNoteRecord}
    {result : Except NoteRecordError (Option InputNoteState)}
    (moves : ∀ next, result = .ok (some next) → next.isProcessing = false) :
    StaysQuiet record (record.advance result) := by
  intro changed flag done quiet
  rcases InputNoteRecord.advance_eq_ok done with ⟨next, moved, rfl⟩ | ⟨_, rfl⟩
  · exact moves next moved
  · exact quiet

theorem inclusionProofReceived_staysQuiet (record : InputNoteRecord) (proof : NoteInclusionProof)
    (metadata : NoteMetadata) :
    StaysQuiet record (record.inclusionProofReceived proof metadata) :=
  staysQuiet_of_advance fun _ moved => InputNoteState.inclusionProofReceived_ne_processing moved

section Import

variable [NoteLibrary]

theorem blockHeaderReceived_staysQuiet (record : InputNoteRecord) (header : BlockHeader) :
    StaysQuiet record (record.blockHeaderReceived header) :=
  staysQuiet_of_advance fun _ moved => InputNoteState.blockHeaderReceived_ne_processing moved

theorem consumedExternally_staysQuiet (record : InputNoteRecord) (nullifier : Nullifier)
    (height : BlockNumber) : StaysQuiet record (record.consumedExternally nullifier height) := by
  unfold InputNoteRecord.consumedExternally
  split
  · intro changed flag done
    cases done
  · exact staysQuiet_of_advance fun _ moved => InputNoteState.consumedExternally_ne_processing moved

omit [NoteLibrary] in
/-- The record after an event that never starts processing. -/
theorem attempt_recordChange_returns {record : InputNoteRecord}
    {result : Except NoteRecordError (InputNoteRecord × Bool)} (stays : StaysQuiet record result)
    (quiet : Quiet record) :
    Returns (fun change : InputNoteRecord × Bool => Quiet change.1)
      (attempt (recordChange result)) :=
  attempt_returns fun change done =>
    stays change.1 change.2 (recordChange_eq_ok.mp done) quiet

variable (node : ImportNode)

/-! ### What the steps return -/

theorem verifyImported_returns {record : InputNoteRecord} (proof : NoteInclusionProof)
    (tag : NoteTag) (quiet : Quiet record) :
    Returns (fun change : InputNoteRecord × Bool => Quiet change.1)
      (verifyImported node record proof tag) := by
  intro store value last finished
  unfold verifyImported at finished
  split at finished
  · exact (Returns.any _).bind (fun header _ => attempt_recordChange_returns
      (blockHeaderReceived_staysQuiet record header) quiet) store value last finished
  · have unverified : Returns (fun change : InputNoteRecord × Bool => Quiet change.1)
        (pure (record, false) : ClientM (InputNoteRecord × Bool)) := Returns.pure quiet
    exact (Returns.any _).bind (fun _ _ => unverified) store value last finished

theorem importUnspent_returns {record : InputNoteRecord} (note : Note)
    (proof : NoteInclusionProof) (quiet : Quiet record) :
    Returns AllQuiet (importUnspent node record note proof) := by
  refine (attempt_recordChange_returns
    (inclusionProofReceived_staysQuiet record proof note.metadata) quiet).bind
      fun received first => ?_
  refine (verifyImported_returns node proof note.metadata.tag first).bind fun verified second => ?_
  refine Returns.pure (allQuiet_singleton fun found chosen => ?_)
  split at chosen
  · cases chosen
    exact second
  · cases chosen

theorem importSpent_returns {record : InputNoteRecord} (height : BlockNumber)
    (quiet : Quiet record) : Returns AllQuiet (importSpent record height) := by
  refine (attempt_recordChange_returns
    (consumedExternally_staysQuiet record record.nullifier height) quiet).bind
      fun consumed done => ?_
  refine Returns.pure (AllQuiet.append ?_ (allQuiet_singleton fun _ absent => by cases absent))
  split
  · exact allQuiet_singleton fun found chosen => by
      cases chosen
      exact done
  · exact allQuiet_nil

omit [NoteLibrary] in
/-- The record of a request is new, or it is the stored one. -/
theorem recordOfProofRequest_quiet {request : ProofRequest}
    (quiet : ∀ previous, request.1 = some previous → Quiet previous) :
    Quiet (recordOfProofRequest node request) := by
  unfold recordOfProofRequest
  cases previous : request.1 with
  | none => rfl
  | some note => exact quiet note previous

theorem importNoteRecordsByProof_returns {requests : List ProofRequest}
    (quiet : ∀ request ∈ requests, ∀ previous, request.1 = some previous → Quiet previous) :
    Returns AllQuiet (importNoteRecordsByProof node requests) := by
  refine (Returns.any _).bind fun updates _ => ?_
  refine Returns.foldlM AllQuiet requests (fun request member records found => ?_) allQuiet_nil
  have stored := recordOfProofRequest_quiet node (quiet request member)
  have imported : Returns AllQuiet (importProofRequest node updates request) := by
    unfold importProofRequest
    split
    · exact importSpent_returns _ stored
    · exact importUnspent_returns node _ _ stored
  exact imported.bind fun new newFound => Returns.pure (found.append newFound)

/-- None of the records found by id is being processed, and no request for a proof is about a
stored note. -/
def QuietProgress (progress : FetchProgress) : Prop :=
  (∀ (noteId : NoteId) (record : InputNoteRecord),
    progress.1[noteId]? = some (some record) → Quiet record) ∧
    ∀ request ∈ progress.2, request.1 = none

omit [NoteLibrary] in
theorem quiet_insert {records : ExtTreeMap NoteId (Option InputNoteRecord)}
    (quiet : ∀ (noteId : NoteId) (record : InputNoteRecord),
      records[noteId]? = some (some record) → Quiet record)
    (inserted : NoteId) {note : Option InputNoteRecord}
    (quietNote : ∀ record, note = some record → Quiet record) (noteId : NoteId)
    (record : InputNoteRecord)
    (found : (records.insert inserted note)[noteId]? = some (some record)) : Quiet record := by
  rw [ExtTreeMap.getElem?_insert] at found
  split at found
  · exact quietNote record (Option.some.inj found)
  · exact quiet noteId record found

theorem updatePrevious_returns {progress : FetchProgress} (quiet : QuietProgress progress)
    {previous : InputNoteRecord} (fetched : FetchedNote) (stored : Quiet previous) :
    Returns QuietProgress (updatePrevious progress previous fetched) := by
  refine (attempt_recordChange_returns
    (inclusionProofReceived_staysQuiet previous _ _) stored).bind fun received done => ?_
  split
  · refine (Returns.any _).bind fun tag _ => (Returns.any _).bind fun _ _ => ?_
    refine Returns.pure ⟨quiet_insert quiet.1 _ fun record same => ?_, quiet.2⟩
    cases same
    exact done
  · exact Returns.pure ⟨quiet_insert quiet.1 _ fun _ absent => (by cases absent), quiet.2⟩

theorem importFetched_returns {requests : ExtTreeMap NoteId (Option InputNoteRecord)}
    (stored : ∀ (noteId : NoteId) (record : InputNoteRecord),
      requests[noteId]? = some (some record) → Quiet record)
    {progress : FetchProgress} (quiet : QuietProgress progress) (fetched : FetchedNote) :
    Returns QuietProgress (importFetched requests progress fetched) := by
  unfold importFetched
  split
  · intro store value last finished
    cases finished
  · rename_i previous requested
    exact updatePrevious_returns quiet _ (stored _ previous requested)
  · intro store value last finished
    cases finished
  · refine Returns.pure ⟨quiet.1, fun request member => ?_⟩
    rcases List.mem_append.mp member with early | late
    · exact quiet.2 request early
    · rw [List.mem_singleton.mp late]

theorem importRemaining_returns {progress : FetchProgress} (quiet : QuietProgress progress) :
    Returns (fun records : ExtTreeMap NoteId (Option InputNoteRecord) =>
        ∀ (noteId : NoteId) (record : InputNoteRecord),
          records[noteId]? = some (some record) → Quiet record)
      (importRemaining node progress) := by
  unfold importRemaining
  split
  · exact Returns.pure quiet.1
  · refine (importNoteRecordsByProof_returns node fun request member previous stored => by
      rw [quiet.2 request member] at stored
      cases stored).bind fun imported found => ?_
    refine Returns.pure ?_
    have all : ∀ (notes : List InputNoteRecord)
      (records : ExtTreeMap NoteId (Option InputNoteRecord)),
        (∀ note ∈ notes, Quiet note) →
        (∀ (noteId : NoteId) (record : InputNoteRecord),
          records[noteId]? = some (some record) → Quiet record) →
        ∀ (noteId : NoteId) (record : InputNoteRecord),
          (notes.foldl (fun records record => records.insert record.id (some record))
            records)[noteId]? = some (some record) → Quiet record := by
      intro notes
      induction notes with
      | nil => exact fun _ _ before => before
      | cons note rest inductionHypothesis =>
        intro records quietNotes before
        refine inductionHypothesis _ (fun other member =>
          quietNotes other (List.mem_cons_of_mem note member)) ?_
        refine quiet_insert before _ fun record same => ?_
        cases same
        exact quietNotes note List.mem_cons_self
    exact all _ _ (fun note member => found note (List.reduceOption_mem_iff.mp member)) quiet.1

theorem importNoteRecordsById_returns {requests : ExtTreeMap NoteId (Option InputNoteRecord)}
    (stored : ∀ (noteId : NoteId) (record : InputNoteRecord),
      requests[noteId]? = some (some record) → Quiet record) :
    Returns (fun records : ExtTreeMap NoteId (Option InputNoteRecord) =>
        ∀ (noteId : NoteId) (record : InputNoteRecord),
          records[noteId]? = some (some record) → Quiet record)
      (importNoteRecordsById node requests) := by
  refine (Returns.any _).bind fun answer _ => (Returns.any _).bind fun fetched _ => ?_
  refine (Returns.foldlM QuietProgress fetched (fun note _ progress quiet =>
    importFetched_returns stored quiet note) ?_).bind fun progress quiet =>
    importRemaining_returns node quiet
  exact ⟨fun _ _ absent => by simp at absent, fun _ absent => absurd absent List.not_mem_nil⟩

omit [NoteLibrary] in
theorem recordOfDetailsRequest_quiet {request : DetailsRequest}
    (quiet : ∀ previous, request.1 = some previous → Quiet previous) :
    Quiet (recordOfDetailsRequest node request) := by
  unfold recordOfDetailsRequest
  cases previous : request.1 with
  | none => rfl
  | some note => exact quiet note previous

theorem importCommitted_returns {record : InputNoteRecord} (metadata : NoteMetadata)
    (proof : NoteInclusionProof) (quiet : Quiet record) :
    Returns (fun found => ∀ note, found = some note → Quiet note)
      (importCommitted node record metadata proof) := by
  refine (Returns.any _).bind fun header _ => ?_
  refine (attempt_recordChange_returns
    (inclusionProofReceived_staysQuiet record proof metadata) quiet).bind fun received first => ?_
  refine (attempt_recordChange_returns
    (blockHeaderReceived_staysQuiet received.1 header) first).bind fun verified second => ?_
  split
  · refine (Returns.any _).bind fun _ _ => Returns.pure fun note same => ?_
    cases same
    exact second
  · exact Returns.pure fun _ absent => by cases absent

theorem importNoteRecordsByDetails_returns {requests : List DetailsRequest}
    (quiet : ∀ request ∈ requests, ∀ previous, request.1 = some previous → Quiet previous) :
    Returns AllQuiet (importNoteRecordsByDetails node requests) := by
  refine (Returns.any _).bind fun proofs _ => ?_
  refine (Returns.foldlM (fun progress : DetailsProgress => AllQuiet progress.2) requests
    (fun request member progress found => ?_) allQuiet_nil).bind
    fun progress found => Returns.pure found
  have stored := recordOfDetailsRequest_quiet node (quiet request member)
  unfold importDetailsRequest
  split
  · exact (importCommitted_returns node _ _ stored).bind fun imported importedQuiet =>
      Returns.pure (found.append (allQuiet_singleton importedQuiet))
  · refine Returns.pure (found.append (allQuiet_singleton fun record same => ?_))
    cases same
    exact stored

/-! ### The requests -/

/-- None of the stored notes the requests are about is being processed. -/
structure QuietRequests (requests : ImportRequests) : Prop where
  byId : ∀ (noteId : NoteId) (record : InputNoteRecord),
    requests.byId[noteId]? = some (some record) → Quiet record
  byDetails : ∀ request ∈ requests.byDetails, ∀ previous, request.1 = some previous →
    Quiet previous
  byProof : ∀ request ∈ requests.byProof, ∀ previous, request.1 = some previous → Quiet previous

omit [NoteLibrary] in
theorem addRequest_quiet {store : ClientStore} {requests next : ImportRequests}
    {entry : NoteId × NoteFile} (quiet : QuietRequests requests)
    (added : addRequest store requests entry = .ok next) : QuietRequests next := by
  unfold addRequest at added
  dsimp only at added
  split at added
  · cases added
  · rename_i unprocessed
    have stored : ∀ previous, store.inputNotes[entry.1]? = some previous → Quiet previous := by
      intro previous found
      rw [found] at unprocessed
      exact eq_false_of_ne_true unprocessed
    split at added
    · cases added
      exact ⟨quiet_insert quiet.byId _ stored, quiet.byDetails, quiet.byProof⟩
    · cases added
      refine ⟨quiet.byId, fun request member => ?_, quiet.byProof⟩
      rcases List.mem_append.mp member with early | late
      · exact quiet.byDetails request early
      · rw [List.mem_singleton.mp late]
        exact stored
    · cases added
      refine ⟨quiet.byId, quiet.byDetails, fun request member => ?_⟩
      rcases List.mem_append.mp member with early | late
      · exact quiet.byProof request early
      · rw [List.mem_singleton.mp late]
        exact stored

theorem importRequests_quiet {store : ClientStore} {noteFiles : List NoteFile}
    {requests : ImportRequests} (done : importRequests store noteFiles = .ok requests) :
    QuietRequests requests := by
  refine foldlM_invariant (fun _ => QuietRequests) (addRequest store)
    (fun _ _ _ _ quiet added => addRequest_quiet quiet added) _ _ _ ?_ done
  exact ⟨fun _ _ absent => by simp at absent, fun _ absent => absurd absent List.not_mem_nil,
    fun _ absent => absurd absent List.not_mem_nil⟩

theorem importRecords_returns {requests : ImportRequests} (quiet : QuietRequests requests) :
    Returns AllQuiet (importRecords node requests) := by
  refine (skipWhen_returns _ ?_ (importNoteRecordsById_returns node quiet.byId)).bind
    fun first firstQuiet => (skipWhen_returns _ allQuiet_nil
      (importNoteRecordsByDetails_returns node quiet.byDetails)).bind
    fun second secondQuiet => (skipWhen_returns _ allQuiet_nil
      (importNoteRecordsByProof_returns node quiet.byProof)).bind
    fun third thirdQuiet => Returns.pure ?_
  · exact fun _ _ absent => by simp at absent
  refine (AllQuiet.append ?_ secondQuiet).append thirdQuiet
  intro note member
  obtain ⟨noteId, found⟩ := OrderedMap.mem_values_iff.mp member
  exact firstQuiet noteId note found

/-! ### What an import writes -/

/-- A property of the store that does not read the tags, and that survives the insertion of a
note that is not being processed. -/
structure KeptByImports (invariant : ClientStore → Prop) : Prop where
  tags : ∀ store tags, invariant store → invariant { store with noteTags := tags }
  upsert : ∀ store note, Quiet note → invariant store → invariant (store.upsertInputNote note)

section Writes

variable {invariant : ClientStore → Prop} (kept : KeptByImports invariant)
include kept

theorem removeNoteTag_preserves (record : NoteTagRecord) :
    Preserves invariant (modify fun store => store.removeNoteTag record : ClientM PUnit) :=
  fun store holds => kept.tags store _ holds

theorem insertNoteTag_preserves (record : NoteTagRecord) :
    Preserves invariant (insertNoteTag node record) := by
  refine (ask_preserves invariant _).bind fun limit store holds => ?_
  split
  · exact holds
  · unfold ClientStore.addNoteTag
    split
    · exact holds
    · exact kept.tags store _ holds

theorem verifyImported_preserves (record : InputNoteRecord) (proof : NoteInclusionProof)
    (tag : NoteTag) : Preserves invariant (verifyImported node record proof tag) := by
  intro store holds
  unfold verifyImported
  split
  · exact (attempt_preserves invariant _).bind (fun _ => attempt_preserves invariant _) store holds
  · exact (insertNoteTag_preserves node kept _).bind
      (fun _ => Preserves.pure invariant _) store holds

theorem importNoteRecordsByProof_preserves (requests : List ProofRequest) :
    Preserves invariant (importNoteRecordsByProof node requests) := by
  refine (ask_preserves invariant _).bind fun updates =>
    Preserves.foldlM (fun records request => ?_)
    requests []
  refine Preserves.bind ?_ fun _ => Preserves.pure invariant _
  unfold importProofRequest
  split
  · exact (attempt_preserves invariant _).bind fun _ => Preserves.pure invariant _
  · exact (attempt_preserves invariant _).bind fun _ =>
      (verifyImported_preserves node kept _ _ _).bind fun _ => Preserves.pure invariant _

theorem importFetched_preserves (requests : ExtTreeMap NoteId (Option InputNoteRecord))
    (progress : FetchProgress) (fetched : FetchedNote) :
    Preserves invariant (importFetched requests progress fetched) := by
  unfold importFetched
  split
  · exact fun _ holds => holds
  · refine (attempt_preserves invariant _).bind fun received => ?_
    split
    · exact (attempt_preserves invariant _).bind fun _ =>
        (removeNoteTag_preserves kept _).bind fun _ => Preserves.pure invariant _
    · exact Preserves.pure invariant _
  · exact fun _ holds => holds
  · exact Preserves.pure invariant _

theorem importNoteRecordsById_preserves (requests : ExtTreeMap NoteId (Option InputNoteRecord)) :
    Preserves invariant (importNoteRecordsById node requests) := by
  refine (attempt_preserves invariant _).bind fun answer =>
    (attempt_preserves invariant _).bind fun fetched =>
      (Preserves.foldlM (importFetched_preserves kept requests) fetched _).bind fun progress => ?_
  unfold importRemaining
  split
  · exact Preserves.pure invariant _
  · exact (importNoteRecordsByProof_preserves node kept _).bind fun _ => Preserves.pure invariant _

theorem importDetailsRequest_preserves (progress : DetailsProgress) (request : DetailsRequest) :
    Preserves invariant (importDetailsRequest node progress request) := by
  unfold importDetailsRequest
  split
  · refine Preserves.bind ?_ fun _ => Preserves.pure invariant _
    refine (attempt_preserves invariant _).bind fun header =>
      (attempt_preserves invariant _).bind fun received =>
        (attempt_preserves invariant _).bind fun verified => ?_
    split
    · exact (removeNoteTag_preserves kept _).bind fun _ => Preserves.pure invariant _
    · exact Preserves.pure invariant _
  · exact Preserves.pure invariant _

theorem importNoteRecordsByDetails_preserves (requests : List DetailsRequest) :
    Preserves invariant (importNoteRecordsByDetails node requests) := by
  have expected : ∀ block notes, Preserves invariant (checkExpectedNotes node block notes) := by
    intro block notes store holds
    unfold checkExpectedNotes
    split
    · exact holds
    · exact (ask_preserves invariant _).bind (fun _ => attempt_preserves invariant _) store holds
  exact (expected _ _).bind fun proofs =>
    (Preserves.foldlM (importDetailsRequest_preserves node kept) requests _).bind
      fun _ => Preserves.pure invariant _

theorem importRecords_preserves (requests : ImportRequests) :
    Preserves invariant (importRecords node requests) := by
  exact (skipWhen_preserves _ _ (importNoteRecordsById_preserves node kept _)).bind fun _ =>
    (skipWhen_preserves _ _ (importNoteRecordsByDetails_preserves node kept _)).bind fun _ =>
    (skipWhen_preserves _ _ (importNoteRecordsByProof_preserves node kept _)).bind fun _ =>
    Preserves.pure invariant _

theorem trackTag_preserves (note : InputNoteRecord) : Preserves invariant (trackTag node note) := by
  unfold trackTag
  split
  · exact insertNoteTag_preserves node kept _
  · exact Preserves.pure invariant _

theorem storeImported_preserves (noteIds : List NoteId) {note : InputNoteRecord}
    (quiet : Quiet note) : Preserves invariant (storeImported node noteIds note) := by
  refine (trackTag_preserves node kept note).bind fun _ =>
    Preserves.bind ?_ fun _ => Preserves.pure invariant _
  exact fun store holds => kept.upsert store note quiet holds

/-- An import keeps the property, whether it succeeds or fails half way. -/
theorem importNotes_preserves (noteFiles : List NoteFile) :
    Preserves invariant (importNotes node noteFiles) := by
  refine Preserves.bind (fun _ holds => holds) fun store => ?_
  intro before holds
  cases requested : importRequests store noteFiles with
  | error error => exact holds
  | ok requests =>
    have stored : Preserves invariant
        (do let imported ← importRecords node requests
            imported.reduceOption.foldlM (storeImported node) []) := by
      intro start held
      show invariant (finalState (EStateM.bind _ _ start))
      unfold EStateM.bind
      have recordsKept := importRecords_preserves node kept requests start held
      cases outcome : importRecords node requests start with
      | error error next =>
        rw [outcome] at recordsKept
        exact recordsKept
      | ok imported next =>
        rw [outcome] at recordsKept
        have quiet := importRecords_returns node (importRequests_quiet requested) start
          imported next outcome
        refine Preserves.foldlM_of_mem (fun noteIds note member =>
          storeImported_preserves node kept noteIds
            (quiet note (List.reduceOption_mem_iff.mp member))) [] next recordsKept
    exact stored before holds

end Writes

end Import

end MidenClient
