/-
This file says which batches of the note transport network the client gets past.

A note of a batch that does not decode, or that decodes to a note in processing, makes the
whole fetch fail: nothing of the batch is imported, the cursor stays, and a sync ends
there. Without such a note, a batch is imported as far as the node and the limits allow.
The stored cursor is always the last one that was answered to a fetch that succeeded.
-/

import MidenClient.Note.ImportedNotes
import MidenClient.Note.Transport

namespace MidenClient

open Std (ExtTreeMap)
open Fallible ClientM

section Import

variable [NoteLibrary] (node : ImportNode)

/-! ### What a successful import of note details stores -/

/-- A note with the id is stored. -/
theorem mem_inputNotes_keptByImports (noteId : NoteId) :
    KeptByImports fun store => noteId ∈ store.inputNotes where
  tags _ _ stored := stored
  upsert store note _ stored := by
    unfold ClientStore.upsertInputNote
    exact ExtTreeMap.mem_insert.mpr (Or.inr stored)

/-- A request for note details is answered with a record of the note, or the note is stored and
unchanged. -/
def AnswersRequest (request : DetailsRequest) (records : List (Option InputNoteRecord)) : Prop :=
  (∃ record, some record ∈ records ∧ record.id = (recordOfDetailsRequest node request).id) ∨
    request.1.isSome = true

theorem advance_id {record changed : InputNoteRecord} {flag : Bool}
    {result : Except NoteRecordError (Option InputNoteState)}
    (done : record.advance result = .ok (changed, flag)) : changed.id = record.id := by
  rcases InputNoteRecord.advance_eq_ok done with ⟨state, _, rfl⟩ | ⟨_, rfl⟩
  · rfl
  · rfl

omit [NoteLibrary] in
/-- An unknown note always takes its proof. -/
theorem inclusionProofReceived_of_new {request : DetailsRequest} (unknown : request.1 = none)
    (proof : NoteInclusionProof) (metadata : NoteMetadata) :
    ∃ changed, (recordOfDetailsRequest node request).inclusionProofReceived proof metadata =
      .ok (changed, true) := by
  unfold recordOfDetailsRequest
  rw [unknown]
  exact ⟨_, rfl⟩

theorem importCommitted_answers {request : DetailsRequest} {metadata : NoteMetadata}
    {proof : NoteInclusionProof} {found : Option InputNoteRecord} {start last : ClientStore}
    (imported : importCommitted node (recordOfDetailsRequest node request) metadata proof start =
      .ok found last) : AnswersRequest node request [found] := by
  obtain ⟨header, _, _, imported⟩ := bind_eq_result_ok.mp imported
  obtain ⟨received, _, attempted, imported⟩ := bind_eq_result_ok.mp imported
  have first := recordChange_eq_ok.mp (attempt_eq_ok.mp attempted).1
  obtain ⟨verified, _, attempted, imported⟩ := bind_eq_result_ok.mp imported
  have second := recordChange_eq_ok.mp (attempt_eq_ok.mp attempted).1
  split at imported
  · obtain ⟨_, _, _, returned⟩ := bind_eq_result_ok.mp imported
    cases returned
    exact Or.inl ⟨verified.1, List.mem_singleton_self _,
      (advance_id second).trans (advance_id first)⟩
  · rename_i unchanged
    cases known : request.1 with
    | some previous => exact Or.inr (by rw [known]; rfl)
    | none =>
      obtain ⟨changed, takes⟩ := inclusionProofReceived_of_new node known proof metadata
      rw [takes] at first
      refine absurd ?_ unchanged
      rw [← Except.ok.inj first, Bool.or_true]

/-- One step of the import adds one answer. -/
theorem importDetailsRequest_eq_ok {request : DetailsRequest} {progress next : DetailsProgress}
    {start last : ClientStore}
    (ran : importDetailsRequest node progress request start = .ok next last) :
    ∃ added, next.2 = progress.2 ++ [added] ∧ AnswersRequest node request [added] := by
  unfold importDetailsRequest at ran
  cases committed : progress.1[(recordOfDetailsRequest node request).id]? with
  | some data =>
    rw [committed] at ran
    obtain ⟨added, _, imported, returned⟩ := bind_eq_result_ok.mp ran
    cases returned
    exact ⟨added, rfl, importCommitted_answers node imported⟩
  | none =>
    rw [committed] at ran
    cases ran
    exact ⟨_, rfl, Or.inl ⟨_, List.mem_singleton_self _, rfl⟩⟩

theorem importNoteRecordsByDetails_answers {requests : List DetailsRequest}
    {records : List (Option InputNoteRecord)} {start last : ClientStore}
    (imported : importNoteRecordsByDetails node requests start = .ok records last) :
    ∀ request ∈ requests, AnswersRequest node request records := by
  obtain ⟨proofs, middle, _, imported⟩ := bind_eq_result_ok.mp imported
  obtain ⟨progress, _, folded, returned⟩ := bind_eq_result_ok.mp imported
  cases returned
  let covers : DetailsRequest → DetailsProgress → ClientStore → Prop :=
    fun request progress _ => AnswersRequest node request progress.2
  refine foldlM_result_covers covers (fun request _ progress start next last ran => ?_)
    (fun request _ other progress start next last answers ran => ?_) folded
  · obtain ⟨added, grown, answers⟩ := importDetailsRequest_eq_ok node ran
    show AnswersRequest node request next.2
    rw [grown]
    exact answers.imp_left fun ⟨record, member, same⟩ =>
      ⟨record, List.mem_append_right _ member, same⟩
  · obtain ⟨added, grown, _⟩ := importDetailsRequest_eq_ok node ran
    show AnswersRequest node other next.2
    rw [grown]
    exact Or.imp_left (fun ⟨record, member, same⟩ =>
      ⟨record, List.mem_append_left _ member, same⟩) answers

/-! ### The requests of an import -/

omit [NoteLibrary] in
/-- A request for note details is added with the stored record of the note, which is not being
processed. -/
theorem addRequest_details {store : ClientStore} {requests next : ImportRequests}
    {noteId : NoteId} {details : NoteDetails} {afterBlockNum : BlockNumber} {tag : Option NoteTag}
    (added :
      addRequest store requests (noteId, .noteDetails details afterBlockNum tag) = .ok next) :
    store.inputNotes[noteId]?.any (fun note => note.state.isProcessing) = false ∧
      next = { requests with byDetails := requests.byDetails ++
        [(store.inputNotes[noteId]?, details, afterBlockNum, tag)] } := by
  unfold addRequest at added
  dsimp only at added
  split at added
  · cases added
  · rename_i free
    cases added
    exact ⟨eq_false_of_ne_true free, rfl⟩

/-- Only note details are imported. -/
def OnlyDetails (noteFiles : List NoteFile) : Prop :=
  ∀ noteFile ∈ noteFiles, ∃ details afterBlockNum tag,
    noteFile = .noteDetails details afterBlockNum tag

/-- Every file has an entry under its id in the map of an import, with a file of the same note. -/
theorem exists_entry_of_mem {noteFiles : List NoteFile} {noteFile : NoteFile}
    (member : noteFile ∈ noteFiles) :
    ∃ last ∈ noteFiles, last.id = noteFile.id ∧
      (noteFile.id, last) ∈ (noteIdsMap noteFiles).toList := by
  have some_ : (noteFiles.map fun noteFile => (noteFile.id, noteFile)).filter
      (fun entry => entry.1 = noteFile.id) ≠ [] :=
    List.ne_nil_of_mem (List.mem_filter.mpr
      ⟨List.mem_map.mpr ⟨noteFile, member, rfl⟩, decide_eq_true rfl⟩)
  obtain ⟨entry, last⟩ := Option.isSome_iff_exists.mp (List.getLast?_isSome.mpr some_)
  obtain ⟨listed, same⟩ := List.mem_filter.mp (List.mem_of_getLast? last)
  obtain ⟨file, inFiles, rfl⟩ := List.mem_map.mp listed
  refine ⟨file, inFiles, of_decide_eq_true same, ?_⟩
  rw [ExtTreeMap.mem_toList_iff_getElem?_eq_some]
  unfold noteIdsMap
  rw [OrderedMap.getElem?_ofList, last]
  rfl

/-- Each entry of the map is a file under its id. -/
theorem mem_of_mem_noteIdsMap {noteFiles : List NoteFile} {entry : NoteId × NoteFile}
    (member : entry ∈ (noteIdsMap noteFiles).toList) :
    entry.2 ∈ noteFiles ∧ entry.1 = entry.2.id := by
  have found := ExtTreeMap.mem_toList_iff_getElem?_eq_some.mp member
  unfold noteIdsMap at found
  rw [OrderedMap.getElem?_ofList] at found
  obtain ⟨listed, last, same⟩ := Option.map_eq_some_iff.mp found
  obtain ⟨inList, key⟩ := List.mem_filter.mp (List.mem_of_getLast? last)
  obtain ⟨file, inFiles, rfl⟩ := List.mem_map.mp inList
  rw [← same]
  exact ⟨inFiles, (of_decide_eq_true key).symm⟩

/-- The entry has its request, with the stored record of a note that is not being processed. -/
def Requested (store : ClientStore) (requests : ImportRequests) (entry : NoteId × NoteFile) :
    Prop :=
  store.inputNotes[entry.1]?.any (fun note => note.state.isProcessing) = false ∧
    ∃ request ∈ requests.byDetails, request.1 = store.inputNotes[entry.1]? ∧
      request.2.1.id = entry.1

theorem importRequests_requested {store : ClientStore} {noteFiles : List NoteFile}
    (details : OnlyDetails noteFiles) {requests : ImportRequests}
    (sorted : importRequests store noteFiles = .ok requests) :
    ∀ entry ∈ (noteIdsMap noteFiles).toList, Requested store requests entry := by
  have covered := foldlM_invariant (fun remaining requests =>
      (∀ entry ∈ remaining, entry ∈ (noteIdsMap noteFiles).toList) ∧
        ∀ entry ∈ (noteIdsMap noteFiles).toList,
          entry ∈ remaining ∨ Requested store requests entry)
    (addRequest store) ?_ _ _ _ ⟨fun _ listed => listed, fun _ listed => Or.inl listed⟩ sorted
  · exact fun entry listed => (covered.2 entry listed).resolve_left List.not_mem_nil
  · rintro ⟨noteId, noteFile⟩ rest requests next ⟨inMap, done⟩ added
    obtain ⟨inFiles, same⟩ := mem_of_mem_noteIdsMap (inMap _ List.mem_cons_self)
    obtain ⟨noteDetails, afterBlockNum, tag, rfl⟩ := details _ inFiles
    obtain ⟨free, rfl⟩ := addRequest_details added
    refine ⟨fun entry listed => inMap entry (List.mem_cons_of_mem _ listed), fun entry listed => ?_⟩
    rcases done entry listed with waiting | ⟨unprocessed, request, member, holds⟩
    · rcases List.mem_cons.mp waiting with rfl | later
      · exact Or.inr ⟨free, _, List.mem_append_right _ (List.mem_singleton_self _), rfl, same.symm⟩
      · exact Or.inl later
    · exact Or.inr ⟨unprocessed, request, List.mem_append_left _ member, holds⟩

/-! ### Whole imports -/

theorem storeImported_eq_ok {noteIds next : List NoteId} {note : InputNoteRecord}
    {start last : ClientStore} (stored : storeImported node noteIds note start = .ok next last) :
    note.id ∈ last.inputNotes := by
  obtain ⟨_, middle, _, upserted⟩ := bind_eq_result_ok.mp stored
  cases upserted
  exact ExtTreeMap.mem_insert.mpr (Or.inl Std.ReflCmp.compare_self)

theorem storeImported_keeps (noteId : NoteId) {noteIds next : List NoteId} {note : InputNoteRecord}
    {start last : ClientStore} (holds : noteId ∈ start.inputNotes)
    (stored : storeImported node noteIds note start = .ok next last) :
    noteId ∈ last.inputNotes := by
  obtain ⟨_, middle, tracked, upserted⟩ := bind_eq_result_ok.mp stored
  have kept := trackTag_preserves node (mem_inputNotes_keptByImports noteId) note
  cases upserted
  exact ExtTreeMap.mem_insert.mpr (Or.inr (kept.of_ok holds tracked))

theorem importRecords_answers {requests : ImportRequests} {records : List (Option InputNoteRecord)}
    {start last : ClientStore} (found : importRecords node requests start = .ok records last) :
    ∀ request ∈ requests.byDetails, AnswersRequest node request records := by
  intro request asked
  obtain ⟨byId, _, _, found⟩ := bind_eq_result_ok.mp found
  obtain ⟨byDetails, _, detailed, found⟩ := bind_eq_result_ok.mp found
  obtain ⟨byProof, _, _, returned⟩ := bind_eq_result_ok.mp found
  cases returned
  unfold skipWhen at detailed
  rw [if_neg (by rw [List.isEmpty_iff]; exact List.ne_nil_of_mem asked)] at detailed
  exact (importNoteRecordsByDetails_answers node detailed request asked).imp_left
    fun ⟨record, member, same⟩ =>
      ⟨record, List.mem_append_left _ (List.mem_append_right _ member), same⟩

/-- After a successful import of note details, every note is stored, and none of them was being
processed before. -/
theorem importNotes_stores {noteFiles : List NoteFile} (details : OnlyDetails noteFiles)
    {noteIds : List NoteId} {start last : ClientStore}
    (imported : importNotes node noteFiles start = .ok noteIds last) :
    ∀ noteFile ∈ noteFiles,
      start.inputNotes[noteFile.id]?.any (fun note => note.state.isProcessing) = false ∧
        noteFile.id ∈ last.inputNotes := by
  intro noteFile member
  have kept := importNotes_preserves node (mem_inputNotes_keptByImports noteFile.id) noteFiles
  obtain ⟨before, _, same, ran⟩ := bind_eq_result_ok.mp imported
  cases same
  obtain ⟨requests, _, attempted, ran⟩ := bind_eq_result_ok.mp ran
  obtain ⟨sorted, rfl⟩ := attempt_eq_ok.mp attempted
  obtain ⟨records, middle, found, stored⟩ := bind_eq_result_ok.mp ran
  obtain ⟨entryFile, inFiles, same, listed⟩ := exists_entry_of_mem member
  obtain ⟨free, request, asked, previous, requested⟩ :=
    importRequests_requested details sorted _ listed
  refine ⟨free, ?_⟩
  cases known : start.inputNotes[noteFile.id]? with
  | some note =>
    have after := kept start (ExtTreeMap.isSome_getElem?_iff_mem.mp (by rw [known]; rfl))
    rwa [imported] at after
  | none =>
    rw [known] at previous
    rcases importRecords_answers node found request asked with ⟨record, member, own⟩ | stale
    · have recordId : record.id = noteFile.id := by
        rw [own, recordOfDetailsRequest, previous]
        exact requested
      rw [← recordId]
      exact foldlM_result_covers
        (fun (note : InputNoteRecord) _ store => note.id ∈ store.inputNotes)
        (fun note _ ids start next last ran => storeImported_eq_ok node ran)
        (fun note inRecords other ids start next last holds ran =>
          storeImported_keeps node other.id holds ran) stored record
        (List.reduceOption_mem_iff.mpr member)
    · rw [previous] at stale
      cases stale

end Import

namespace TransportClient

section Batches

variable [NoteDetailsReader]

/-- The bytes of the note hold its details, and its header has its metadata. -/
def Rejoins (info : NoteInfo) (note : Note) : Prop :=
  NoteDetailsReader.readNoteDetails info.detailsBytes = .ok note.details ∧
    note.metadata = info.header.metadata

theorem rejoinNotes_eq_ok {infos : List NoteInfo} {notes : List Note}
    (rejoined : rejoinNotes infos = .ok notes) : List.Forall₂ Rejoins infos notes := by
  unfold rejoinNotes at rejoined
  induction infos generalizing notes with
  | nil =>
    cases rejoined
    exact .nil
  | cons info rest inductionHypothesis =>
    rw [List.mapM_cons] at rejoined
    obtain ⟨note, first, rejoined⟩ := bind_eq_ok.mp rejoined
    obtain ⟨others, later, returned⟩ := bind_eq_ok.mp rejoined
    cases returned
    refine .cons ?_ (inductionHypothesis later)
    obtain ⟨details, read, made⟩ := bind_eq_ok.mp (eq_ok_of_mapError first)
    cases made
    exact ⟨read, rfl⟩

variable [NoteLibrary]

/-- The note of the batch decodes, and the client is not processing it. -/
def importable (store : ClientStore) (info : NoteInfo) : Bool :=
  match NoteDetailsReader.readNoteDetails info.detailsBytes with
  | .error _ => false
  | .ok details => !store.inputNotes[details.id]?.any fun note => note.state.isProcessing

variable (node : ImportNode)

/-- When a batch is fetched, and what that does. -/
theorem importBatch_eq_ok_iff {infos : List NoteInfo} {cursor : NoteTransportCursor}
    {client last : TransportClient} :
    importBatch node infos cursor client = .ok () last ↔
      ∃ notes noteIds, rejoinNotes infos = .ok notes ∧
        importNotes node (notes.map (noteRequest client.store.syncHeight)) client.store =
          .ok noteIds last.store ∧ last.cursor = some cursor := by
  unfold importBatch
  constructor
  · intro fetched
    obtain ⟨notes, _, decoded, fetched⟩ := bind_eq_result_ok.mp fetched
    obtain ⟨rejoined, rfl⟩ := fromExcept_eq_ok.mp decoded
    obtain ⟨_, _, same, fetched⟩ := bind_eq_result_ok.mp fetched
    cases same
    obtain ⟨noteIds, middle, imported, updated⟩ := bind_eq_result_ok.mp fetched
    cases updated
    unfold onStore at imported
    split at imported
    · rename_i ids store done
      cases imported
      exact ⟨notes, noteIds, rejoined, done, rfl⟩
    · cases imported
  · rintro ⟨notes, noteIds, rejoined, imported, stored⟩
    obtain ⟨store, kept⟩ := last
    cases stored
    refine bind_eq_result_ok.mpr ⟨notes, client, fromExcept_eq_ok.mpr ⟨rejoined, rfl⟩, ?_⟩
    refine bind_eq_result_ok.mpr ⟨client, client, rfl, ?_⟩
    refine bind_eq_result_ok.mpr ⟨noteIds, { client with store := store }, ?_, rfl⟩
    unfold onStore
    rw [imported]

/-- The batch is fetched: the notes that could be imported are stored, and so is the cursor. -/
structure Delivered (before after : TransportClient) (infos : List NoteInfo)
    (cursor : NoteTransportCursor) : Prop where
  stored : ∀ info ∈ infos, importable before.store info = true →
    ∀ details, NoteDetailsReader.readNoteDetails info.detailsBytes = .ok details →
      details.id ∈ after.store.inputNotes
  moved : after.cursor = some cursor

/-- A batch that is fetched has only notes that can be imported, and they are all delivered. -/
theorem importBatch_delivers {infos : List NoteInfo} {cursor : NoteTransportCursor}
    {client last : TransportClient}
    (fetched : importBatch node infos cursor client = .ok () last) :
    (∀ info ∈ infos, importable client.store info = true) ∧
      Delivered client last infos cursor := by
  obtain ⟨notes, noteIds, rejoined, imported, moved⟩ := (importBatch_eq_ok_iff node).mp fetched
  have paired := rejoinNotes_eq_ok rejoined
  have onlyDetails : OnlyDetails (notes.map (noteRequest client.store.syncHeight)) := by
    intro noteFile member
    obtain ⟨note, _, rfl⟩ := List.mem_map.mp member
    exact ⟨_, _, _, rfl⟩
  have stores := importNotes_stores node onlyDetails imported
  have each : ∀ info ∈ infos, ∃ details,
      NoteDetailsReader.readNoteDetails info.detailsBytes = .ok details ∧
        client.store.inputNotes[details.id]?.any (fun note => note.state.isProcessing) = false ∧
          details.id ∈ last.store.inputNotes := by
    intro info member
    obtain ⟨note, listed, read, _⟩ := exists_of_forall₂_left paired member
    exact ⟨note.details, read, stores _ (List.mem_map.mpr ⟨note, listed, rfl⟩)⟩
  refine ⟨fun info member => ?_, fun info member _ details read => ?_, moved⟩
  · obtain ⟨details, read, free, _⟩ := each info member
    unfold importable
    rw [read]
    exact congrArg (!·) free
  · obtain ⟨found, readAgain, _, kept⟩ := each info member
    rw [read] at readAgain
    cases readAgain
    exact kept

/-- The transport network answers with a batch and a cursor. -/
def answering (infos : List NoteInfo) (cursor : NoteTransportCursor) : Option NoteTransport :=
  some fun _ _ => .ok (infos, cursor)

/-- The notes of the batch that could be imported by themselves can be imported together. -/
def RestImportable (client : TransportClient) (infos : List NoteInfo)
    (cursor : NoteTransportCursor) : Prop :=
  ∃ last, importBatch node (infos.filter (importable client.store)) cursor client = .ok () last

/-- The client gets past the batch: it is delivered, from whatever cursor and for whatever tags, and
a sync goes on after it. -/
def GetsPast (client : TransportClient) (infos : List NoteInfo) (cursor : NoteTransportCursor) :
    Prop :=
  ∃ last, Delivered client last infos cursor ∧
    (∀ start tags, fetchTransportNotes node (answering infos cursor) start tags client =
      .ok () last) ∧
    ∀ setting, setting.inPlace = .ok () →
      syncState node (answering infos cursor) setting client =
        stateSync setting.environment last

omit [NoteDetailsReader] [NoteLibrary] in
/-- The stored cursor is read, and is in the settings from then on. -/
theorem getNoteTransportCursor_eq (client : TransportClient) :
    getNoteTransportCursor client =
      .ok client.storedCursor { client with cursor := some client.storedCursor } := by
  obtain ⟨store, _ | stored⟩ := client
  · rfl
  · rfl

/-- A fetch does not depend on the cursor that was stored before. -/
theorem syncState_of_fetched {infos : List NoteInfo} {cursor : NoteTransportCursor}
    {client last : TransportClient}
    (fetched : importBatch node infos cursor client = .ok () last) {setting : SyncSetting}
    (inPlace : setting.inPlace = .ok ()) :
    syncState node (answering infos cursor) setting client =
      stateSync setting.environment last := by
  obtain ⟨notes, noteIds, rejoined, imported, moved⟩ := (importBatch_eq_ok_iff node).mp fetched
  let started : TransportClient := { client with cursor := some client.storedCursor }
  have opened : getNoteTransportCursor client = .ok client.storedCursor started :=
    getNoteTransportCursor_eq client
  have again : importBatch node infos cursor started = .ok () last :=
    (importBatch_eq_ok_iff node).mpr ⟨notes, noteIds, rejoined, imported, moved⟩
  unfold syncState
  rw [inPlace, bind_of_result_ok (show attempt (Except.mapError .clientError (.ok ())) client =
    .ok () client from rfl)]
  show (getNoteTransportCursor >>= _) client = _
  rw [bind_of_result_ok opened]
  show (getUniqueNoteTags >>= _) started = _
  rw [bind_of_result_ok (show getUniqueNoteTags started =
    .ok (started.store.uniqueNoteTags.sort (· ≤ ·)) started from rfl)]
  show (importBatch node infos cursor >>= fun _ => stateSync setting.environment) started = _
  rw [bind_of_result_ok again]

/-- When the notes that can be imported by themselves can be imported together, the client gets past
the batch exactly when it has no others. -/
theorem getsPast_iff {client : TransportClient} {infos : List NoteInfo}
    {cursor : NoteTransportCursor} (rest : RestImportable node client infos cursor) :
    GetsPast node client infos cursor ↔
      ∀ info ∈ infos, importable client.store info = true := by
  constructor
  · rintro ⟨last, _, fetched, _⟩
    exact (importBatch_delivers node (fetched 0 [])).1
  · intro all
    obtain ⟨last, fetched⟩ := rest
    rw [List.filter_eq_self.mpr all] at fetched
    exact ⟨last, (importBatch_delivers node fetched).2, fun _ _ => fetched,
      fun _ inPlace => syncState_of_fetched node fetched inPlace⟩

/-! ### The stored cursor over many calls -/

/-- A call of the client that fetches notes, with the node and the transport network it meets. -/
inductive TransportCall where
  | fetchPrivateNotes (node : ImportNode) (transport : Option NoteTransport)
  | fetchAllPrivateNotes (node : ImportNode) (transport : Option NoteTransport)
  | syncState (node : ImportNode) (transport : Option NoteTransport) (setting : SyncSetting)

/-- Performs a call. Its result is of no interest here, a failed call keeps what it wrote. -/
def perform (client : TransportClient) : TransportCall → TransportClient
  | .fetchPrivateNotes node transport => finalState (fetchPrivateNotes node transport client)
  | .fetchAllPrivateNotes node transport => finalState (fetchAllPrivateNotes node transport client)
  | .syncState node transport setting => finalState (syncState node transport setting client)

/-- The cursor that the transport network answers, if it is there and answers. -/
def answeredCursor (transport : Option NoteTransport) (tags : List NoteTag)
    (start : NoteTransportCursor) : List NoteTransportCursor :=
  match transport with
  | none => []
  | some api =>
    match api tags start with
    | .error _ => []
    | .ok answer => [answer.2]

/-- The cursor answered to a call. A sync that does not get to the transport is not answered. -/
def answered (client : TransportClient) : TransportCall → List NoteTransportCursor
  | .fetchPrivateNotes _ transport =>
    answeredCursor transport (client.store.uniqueNoteTags.sort (· ≤ ·)) client.storedCursor
  | .fetchAllPrivateNotes _ transport =>
    answeredCursor transport (client.store.uniqueNoteTags.sort (· ≤ ·)) 0
  | .syncState _ transport setting =>
    match setting.inPlace with
    | .error _ => []
    | .ok _ =>
      answeredCursor transport (client.store.uniqueNoteTags.sort (· ≤ ·)) client.storedCursor

/-- The cursors answered in a run, in order. -/
def answeredCursors : TransportClient → List TransportCall → List NoteTransportCursor
  | _, [] => []
  | client, call :: rest => answered client call ++ answeredCursors (perform client call) rest

/-- The stored cursor is the earlier one or one that was answered. -/
def CursorFrom (before after : TransportClient) (cursors : List NoteTransportCursor) : Prop :=
  after.storedCursor = before.storedCursor ∨ after.storedCursor ∈ cursors

omit [NoteDetailsReader] [NoteLibrary] in
theorem onStore_cursor {α : Type} (operation : ClientM α) (client : TransportClient) :
    (finalState (onStore operation client)).cursor = client.cursor := by
  unfold onStore
  split <;> rfl

omit [NoteDetailsReader] [NoteLibrary] in
theorem storedCursor_of_cursor {first second : TransportClient}
    (same : first.cursor = second.cursor) : first.storedCursor = second.storedCursor := by
  unfold storedCursor
  rw [same]

omit [NoteDetailsReader] in
theorem stateSync_storedCursor (environment : ClientStore.SyncEnvironment)
    (client : TransportClient) :
    (finalState (stateSync environment client)).storedCursor = client.storedCursor :=
  storedCursor_of_cursor (onStore_cursor _ client)

/-- A batch is imported with its cursor stored, or the cursor stays. -/
theorem importBatch_cursor (infos : List NoteInfo) (cursor : NoteTransportCursor)
    (client : TransportClient) :
    CursorFrom client (finalState (importBatch node infos cursor client)) [cursor] := by
  cases ran : importBatch node infos cursor client with
  | ok value last =>
    refine Or.inr (List.mem_singleton.mpr ?_)
    obtain ⟨_, _, _, _, moved⟩ := (importBatch_eq_ok_iff node).mp ran
    show last.cursor.getD 0 = cursor
    rw [moved]
    rfl
  | error reason last =>
    refine Or.inl (storedCursor_of_cursor ?_)
    show last.cursor = client.cursor
    unfold importBatch at ran
    rcases bind_eq_result_error.mp ran with failed | ⟨notes, middle, decoded, ran⟩
    · exact congrArg TransportClient.cursor (fromExcept_eq_error.mp failed).2.symm
    obtain ⟨_, rfl⟩ := fromExcept_eq_ok.mp decoded
    rcases bind_eq_result_error.mp ran with failed | ⟨_, _, same, ran⟩
    · cases failed
    cases same
    rcases bind_eq_result_error.mp ran with failed | ⟨_, _, _, failed⟩
    · have kept := onStore_cursor
        (importNotes node (notes.map (noteRequest client.store.syncHeight))) client
      rwa [failed] at kept
    · cases failed

theorem fetchTransportNotes_cursor (transport : Option NoteTransport) (start : NoteTransportCursor)
    (tags : List NoteTag) (client : TransportClient) :
    CursorFrom client (finalState (fetchTransportNotes node transport start tags client))
      (answeredCursor transport tags start) := by
  cases transport with
  | none => exact Or.inl rfl
  | some api =>
    cases answer : api tags start with
    | error reason =>
      have failed : fetchTransportNotes node (some api) start tags client =
          .error (.noteTransportError reason) client := by
        show (attempt ((api tags start).mapError .noteTransportError) >>= _) client = _
        rw [answer]
        rfl
      rw [failed]
      exact Or.inl rfl
    | ok batch =>
      have fetched : fetchTransportNotes node (some api) start tags client =
          importBatch node batch.1 batch.2 client := by
        show (attempt ((api tags start).mapError .noteTransportError) >>= _) client = _
        rw [answer]
        rfl
      have only : answeredCursor (some api) tags start = [batch.2] := by
        unfold answeredCursor
        dsimp only
        rw [answer]
      rw [fetched, only]
      exact importBatch_cursor node batch.1 batch.2 client

/-- A call ends with the cursor it found or with the one it was answered. -/
theorem perform_cursor (client : TransportClient) (call : TransportCall) :
    CursorFrom client (perform client call) (answered client call) := by
  let tags := client.store.uniqueNoteTags.sort (· ≤ ·)
  let started : TransportClient := { client with cursor := some client.storedCursor }
  have opened : getNoteTransportCursor client = .ok client.storedCursor started :=
    getNoteTransportCursor_eq client
  cases call with
  | fetchAllPrivateNotes node transport =>
    exact fetchTransportNotes_cursor node transport 0 tags client
  | fetchPrivateNotes node transport =>
    have fetch : fetchPrivateNotes node transport client =
        fetchTransportNotes node transport client.storedCursor tags started := by
      show (getNoteTransportCursor >>= _) client = _
      rw [bind_of_result_ok opened]
    show CursorFrom client (finalState (fetchPrivateNotes node transport client)) _
    rw [fetch]
    exact fetchTransportNotes_cursor node transport client.storedCursor tags started
  | syncState node transport setting =>
    show CursorFrom client (finalState (syncState node transport setting client)) _
    cases inPlace : setting.inPlace with
    | error reason =>
      have failed : syncState node transport setting client =
          .error (.clientError reason) client := by
        unfold syncState
        rw [inPlace]
        rfl
      rw [failed]
      exact Or.inl rfl
    | ok _ =>
      have reached : answered client (.syncState node transport setting) =
          answeredCursor transport tags client.storedCursor := by
        unfold answered
        dsimp only
        rw [inPlace]
      rw [reached]
      cases transport with
      | none =>
        have synced : syncState node none setting client =
            stateSync setting.environment client := by
          unfold syncState
          rw [inPlace]
          rfl
        rw [synced]
        exact Or.inl (stateSync_storedCursor setting.environment client)
      | some api =>
        have synced : syncState node (some api) setting client =
            (fetchTransportNotes node (some api) client.storedCursor tags >>=
              fun _ => stateSync setting.environment) started := by
          unfold syncState
          rw [inPlace, bind_of_result_ok (show attempt (Except.mapError .clientError (.ok ()))
            client = .ok () client from rfl)]
          show (getNoteTransportCursor >>= _) client = _
          rw [bind_of_result_ok opened]
          rfl
        rw [synced]
        have fetched := fetchTransportNotes_cursor node (some api) client.storedCursor tags started
        have after : (finalState ((fetchTransportNotes node (some api) client.storedCursor tags >>=
            fun _ => stateSync setting.environment) started)).storedCursor =
              (finalState (fetchTransportNotes node (some api) client.storedCursor tags
                started)).storedCursor :=
          view_finalState_bind storedCursor
            (fun _ state => stateSync_storedCursor setting.environment state) started
        exact fetched.imp (fun same => after.trans same) (fun member => by rwa [after])

/-- Fetching all notes starts from the first cursor, and then stores the one it is answered without
a look at the one that is stored. An earlier cursor takes the client back: the notes after it are
fetched again. -/
theorem fetchAllPrivateNotes_storedCursor {client last : TransportClient} {api : NoteTransport}
    {batch : List NoteInfo × NoteTransportCursor}
    (answered : api (client.store.uniqueNoteTags.sort (· ≤ ·)) 0 = .ok batch)
    (fetched : fetchAllPrivateNotes node (some api) client = .ok () last) :
    last.storedCursor = batch.2 := by
  replace fetched : (attempt ((api (client.store.uniqueNoteTags.sort (· ≤ ·)) 0).mapError
    .noteTransportError) >>= fun answer => importBatch node answer.1 answer.2) client =
      .ok () last := fetched
  rw [answered] at fetched
  obtain ⟨_, _, _, _, moved⟩ := (importBatch_eq_ok_iff node).mp fetched
  rw [storedCursor, moved]
  rfl

/-- An answer that is no earlier than what was stored and answered before keeps the cursor from
going back. -/
theorem perform_storedCursor {client : TransportClient} {call : TransportCall}
    {later : List NoteTransportCursor}
    (ordered : (client.storedCursor :: (answered client call ++ later)).Pairwise (· ≤ ·)) :
    client.storedCursor ≤ (perform client call).storedCursor ∧
      ((perform client call).storedCursor :: later).Pairwise (· ≤ ·) := by
  obtain ⟨first, rest⟩ := List.pairwise_cons.mp ordered
  obtain ⟨_, laterOrdered, across⟩ := List.pairwise_append.mp rest
  rcases perform_cursor client call with same | member
  · rw [same]
    exact ⟨UInt64.le_refl _, List.pairwise_cons.mpr
      ⟨fun cursor listed => first cursor (List.mem_append_right _ listed), laterOrdered⟩⟩
  · exact ⟨first _ (List.mem_append_left _ member),
      List.pairwise_cons.mpr ⟨across _ member, laterOrdered⟩⟩

/-- The stored cursor never goes back in a run. -/
def CursorNeverDecreases (client : TransportClient) (calls : List TransportCall) : Prop :=
  ∀ reached call, reached ++ [call] <+: calls →
    (reached.foldl perform client).storedCursor ≤
      (perform (reached.foldl perform client) call).storedCursor

/-- With a transport whose cursors never decrease, neither does the stored cursor. -/
theorem cursorNeverDecreases_of_answered {client : TransportClient} {calls : List TransportCall}
    (ordered : (client.storedCursor :: answeredCursors client calls).Pairwise (· ≤ ·)) :
    CursorNeverDecreases client calls := by
  induction calls generalizing client with
  | nil =>
    intro reached call prefixed
    exact absurd (List.prefix_nil.mp prefixed)
      (List.append_ne_nil_of_right_ne_nil _ (List.cons_ne_nil _ _))
  | cons first rest inductionHypothesis =>
    obtain ⟨grows, remaining⟩ := perform_storedCursor ordered
    rintro (_ | ⟨head, reached⟩) call prefixed
    · obtain ⟨rfl, _⟩ := List.cons_prefix_cons.mp prefixed
      exact grows
    · obtain ⟨rfl, earlier⟩ := List.cons_prefix_cons.mp prefixed
      exact inductionHypothesis remaining reached call earlier

/-- The client gets past a batch exactly when all of its notes decode and none is in processing,
given that those alone could be imported. The stored cursor never goes back when the answered ones
do not. -/
theorem transport_getsPast_iff_importable :
    (∀ (node : ImportNode) (client : TransportClient) (infos : List NoteInfo)
      (cursor : NoteTransportCursor), RestImportable node client infos cursor →
        (GetsPast node client infos cursor ↔
          ∀ info ∈ infos, importable client.store info = true)) ∧
      ∀ (client : TransportClient) (calls : List TransportCall),
        (client.storedCursor :: answeredCursors client calls).Pairwise (· ≤ ·) →
          CursorNeverDecreases client calls :=
  ⟨fun node _ _ _ rest => getsPast_iff node rest,
    fun _ _ ordered => cursorNeverDecreases_of_answered ordered⟩

end Batches

end TransportClient

namespace Sample

open TransportClient

/-- Details without assets, given by three bytes. -/
scoped instance noteDetailsReader : NoteDetailsReader where
  readNoteDetails
    | serialNum :: scriptRoot :: storage :: _ =>
      .ok ⟨[], ⟨serialNum.toNat, scriptRoot.toNat, storage.toNat⟩⟩
    | _ => .error "unexpected end of file"

/-- A node at block 4 that has not seen the note. -/
def transportNode : ImportNode where
  getNotesById _ := .ok []
  syncNullifiers _ _ := .ok []
  syncNotesWithDetails _ _ _ := .ok []
  getAuthenticatedBlock block := .ok ⟨block, 7, 100⟩
  noteTagsLimit := .ok 1000
  currentTimestamp := some 100

def readable : NoteInfo :=
  ⟨⟨5, ⟨2, .isPrivate, 9, 0⟩⟩, [3, 1, 1]⟩

/-- Bytes that anyone may send to the tag. -/
def undecodable : NoteInfo :=
  ⟨⟨6, ⟨2, .isPrivate, 9, 0⟩⟩, []⟩

/-- A transport network that answers the next cursor. -/
def advancing : Option NoteTransport :=
  some fun _ cursor => .ok ([readable], max cursor 11 + 1)

/-- Without the bad note, the client gets past the batch, and its cursor moves on. -/
theorem getsPast_readable :
    GetsPast transportNode .empty [readable] 12 ∧
      CursorNeverDecreases .empty [.fetchAllPrivateNotes transportNode advancing,
        .fetchPrivateNotes transportNode advancing] := by
  have fetched : succeedsWith (importBatch transportNode
      ([readable].filter (importable TransportClient.empty.store)) 12 .empty)
        (fun _ _ => true) = true := by decide +kernel
  obtain ⟨_, last, fetched, _⟩ := exists_of_succeedsWith fetched
  exact ⟨(transport_getsPast_iff_importable.1 transportNode .empty [readable] 12
      ⟨last, fetched⟩).mpr (by decide +kernel),
    transport_getsPast_iff_importable.2 .empty _ (by decide +kernel)⟩

/-- A client that has got to cursor 12 goes back to 5. -/
example : (TransportClient.perform { TransportClient.empty with cursor := some 12 }
    (.fetchAllPrivateNotes transportNode (answering [] 5))).storedCursor = 5 := by
  decide +kernel

/-- The good note could be imported, and the bad one blocks it. -/
theorem not_getsPast_undecodable :
    RestImportable transportNode .empty [readable, undecodable] 12 ∧
      ¬GetsPast transportNode .empty [readable, undecodable] 12 := by
  have fetched : succeedsWith (importBatch transportNode
      ([readable, undecodable].filter (importable TransportClient.empty.store)) 12 .empty)
        (fun _ _ => true) = true := by decide +kernel
  obtain ⟨_, last, fetched, _⟩ := exists_of_succeedsWith fetched
  refine ⟨⟨last, fetched⟩, ?_⟩
  rintro ⟨last, _, every, _⟩
  have refused : failsWith (fetchTransportNotes transportNode
      (answering [readable, undecodable] 12) 0 [] .empty)
        (.dataDeserializationError "unexpected end of file") = true := by decide +kernel
  obtain ⟨after, refused⟩ := exists_of_failsWith refused
  rw [every 0 []] at refused
  cases refused

end Sample

end MidenClient
