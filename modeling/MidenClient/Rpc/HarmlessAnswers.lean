/-
This file says which answers of the node make a call of the client panic, and proves that
no others do.

A panic needs one of these: a negative note type, a path with too many nodes, an account
witness that the protocol library refuses, a lookup in a proof without entries, a limit of
zero, a block number at the end of its range, or a forest too large for the machine. It is
only reached when everything that the call reads before it is accepted.
-/

import MidenClient.Rpc.AccountMixtures
import MidenClient.Rpc.NodeCalls

namespace MidenClient

open Std (ExtTreeMap)
open Panicking Fallible FromProto

/-! ### Messages -/

section Messages

variable [ConversionLibrary]

omit [ConversionLibrary] in
theorem unsigned_eq_some_iff {number : Int32} :
    (∃ value, unsigned number = some value) ↔ 0 ≤ number.toInt := by
  unfold unsigned
  by_cases negative : number.toInt < 0
  · rw [if_pos negative]
    exact ⟨fun ⟨_, absent⟩ => (nomatch absent),
      fun positive => absurd negative (not_lt.mpr positive)⟩
  · rw [if_neg negative]
    exact ⟨fun _ => not_lt.mp negative, fun _ => ⟨_, rfl⟩⟩

theorem returns_noteType_iff {number : Int32} : Returns (noteType number) ↔ 0 ≤ number.toInt := by
  unfold noteType
  rw [returns_bind, returns_expect_iff, unsigned_eq_some_iff]
  exact and_iff_left fun value _ => returns_fallible _

/-- The note type is not negative, if it is read. -/
def HarmlessMetadata (value : Proto.NoteMetadata) : Prop :=
  Succeeds (requiredAccountId "NoteMetadata" "sender" value.sender) → 0 ≤ value.noteType.toInt

theorem returns_noteMetadata_iff {value : Proto.NoteMetadata} :
    Returns (noteMetadata value) ↔ HarmlessMetadata value := by
  unfold noteMetadata HarmlessMetadata
  rw [returns_fallible_bind]
  constructor
  · rintro returns ⟨sender, present⟩
    exact returns_noteType_iff.mp (returns_bind.mp (returns sender present)).1
  · intro harmless sender present
    rw [returns_bind, returns_noteType_iff]
    refine ⟨harmless ⟨sender, present⟩, fun noteType _ => ?_⟩
    rw [returns_fallible_bind]
    exact fun attachment _ => returns_ok _

omit [ConversionLibrary] in
theorem required_eq_ok {α : Type} {entity fieldName : String} {value : Option α} {present : α} :
    required entity fieldName value = .ok present ↔ value = some present := by
  cases value with
  | none => exact ⟨fun absent => (nomatch absent), fun absent => (nomatch absent)⟩
  | some held => exact ⟨fun same => congrArg some (Except.ok.inj same),
      fun same => congrArg Except.ok (Option.some.inj same)⟩

/-- Metadata that is read is harmless. -/
def HarmlessHeader (value : Proto.NoteHeader) : Prop :=
  Succeeds (headerNoteId value) → ∀ metadata, value.metadata = some metadata →
    HarmlessMetadata metadata

theorem returns_noteHeader_iff {value : Proto.NoteHeader} :
    Returns (noteHeader value) ↔ HarmlessHeader value := by
  unfold noteHeader HarmlessHeader
  rw [returns_fallible_bind]
  constructor
  · rintro returns ⟨noteId, read⟩ metadata present
    have inner := returns_fallible_bind.mp (returns noteId read) metadata
      (required_eq_ok.mpr present)
    exact returns_noteMetadata_iff.mp (returns_bind.mp inner).1
  · intro harmless noteId read
    rw [returns_fallible_bind]
    intro metadata present
    rw [returns_bind, returns_noteMetadata_iff]
    exact ⟨harmless ⟨noteId, read⟩ metadata (required_eq_ok.mp present), fun _ _ => returns_ok _⟩

/-- The note type of a synchronized note is not negative, if it is read. -/
def HarmlessRecord (value : Proto.NoteSyncRecord) : Prop :=
  ∀ header, value.metadataHeader = some header → Succeeds (recordSender header) →
    0 ≤ header.noteType.toInt

theorem returns_committedNote_iff {value : Proto.NoteSyncRecord} :
    Returns (committedNote value) ↔ HarmlessRecord value := by
  unfold committedNote HarmlessRecord
  rw [returns_fallible_bind]
  constructor
  · rintro returns header present ⟨sender, read⟩
    have inner := returns_fallible_bind.mp (returns header (required_eq_ok.mpr present)) sender read
    exact returns_noteType_iff.mp (returns_bind.mp inner).1
  · intro harmless header present
    rw [returns_fallible_bind]
    intro sender read
    rw [returns_bind, returns_noteType_iff]
    refine ⟨harmless header (required_eq_ok.mp present) ⟨sender, read⟩, fun noteType _ => ?_⟩
    rw [returns_fallible_bind]
    intro proof _
    rw [returns_fallible_bind]
    exact fun included _ => returns_ok _

def HarmlessNote (value : Proto.CommittedNote) : Prop :=
  ∀ included note metadata, fetchedProof value = .ok (included, note, metadata) →
    HarmlessMetadata metadata

theorem returns_fetchedNote_iff {value : Proto.CommittedNote} :
    Returns (fetchedNote value) ↔ HarmlessNote value := by
  unfold fetchedNote HarmlessNote
  rw [returns_fallible_bind]
  constructor
  · intro returns included note metadata read
    exact returns_noteMetadata_iff.mp (returns_bind.mp (returns _ read)).1
  · rintro harmless ⟨included, note, metadata⟩ read
    show Returns (noteMetadata metadata >>= _)
    rw [returns_bind, returns_noteMetadata_iff]
    refine ⟨harmless included note metadata read, fun full _ => ?_⟩
    cases note.details with
    | none => exact returns_ok _
    | some bytes =>
      show Returns (fallible _ >>= _)
      rw [returns_fallible_bind]
      exact fun details _ => returns_ok _

/-- A path has not too many digests before the first one that is refused. -/
def HarmlessPath (value : Proto.MerklePath) : Prop :=
  ∃ path, ConversionLibrary.merklePath (leadingDigests value.siblings).1 = some path

theorem returns_merklePath_iff {value : Proto.MerklePath} :
    Returns (merklePath value) ↔ HarmlessPath value := by
  unfold merklePath HarmlessPath
  rw [returns_bind, returns_expect_iff]
  exact and_iff_left fun path _ => returns_fallible _

/-- The header of a block of notes, which is read first. -/
def blockOfNotes (value : Proto.NoteSyncBlock) : Except RpcConversionError BlockHeader := do
  blockHeader (← required "SyncNotesResponse" "blocks.block_header" value.blockHeader)

def HarmlessBlock (value : Proto.NoteSyncBlock) : Prop :=
  Succeeds (blockOfNotes value) → ∀ path, value.mmrPath = some path → HarmlessPath path ∧
    (Succeeds (merklePath path) →
      SafeWhile (fun note => Succeeds (committedNote note)) HarmlessRecord value.notes)

theorem returns_noteBlock_iff {value : Proto.NoteSyncBlock} :
    Returns (noteBlock value) ↔ HarmlessBlock value := by
  have notes : Returns (value.notes.mapM committedNote) ↔
      SafeWhile (fun note => Succeeds (committedNote note)) HarmlessRecord value.notes :=
    returns_mapM.trans (SafeWhile.congr fun note _ => returns_committedNote_iff)
  show Returns (fallible (blockOfNotes value) >>= _) ↔ _
  unfold HarmlessBlock
  rw [returns_fallible_bind]
  constructor
  · rintro returns ⟨header, read⟩ path present
    have inner := returns_fallible_bind.mp (returns header read) path (required_eq_ok.mpr present)
    obtain ⟨pathReturns, rest⟩ := returns_bind.mp inner
    refine ⟨returns_merklePath_iff.mp pathReturns, ?_⟩
    rintro ⟨nodes, made⟩
    exact notes.mp (returns_bind.mp (rest nodes made)).1
  · intro harmless header read
    rw [returns_fallible_bind]
    intro path present
    obtain ⟨harmlessPath, safe⟩ := harmless ⟨header, read⟩ path (required_eq_ok.mp present)
    rw [returns_bind, returns_merklePath_iff]
    refine ⟨harmlessPath, fun nodes made => ?_⟩
    rw [returns_bind, notes]
    exact ⟨safe ⟨nodes, made⟩, fun _ _ => returns_ok _⟩

def HarmlessNotes (value : Proto.SyncNotesResponse) : Prop :=
  value.paginationInfo.isSome = true →
    SafeWhile (fun block => Succeeds (noteBlock block)) HarmlessBlock value.blocks

theorem returns_noteSyncInfo_iff {value : Proto.SyncNotesResponse} :
    Returns (noteSyncInfo value) ↔ HarmlessNotes value := by
  have blocks : Returns (value.blocks.mapM noteBlock) ↔
      SafeWhile (fun block => Succeeds (noteBlock block)) HarmlessBlock value.blocks :=
    returns_mapM.trans (SafeWhile.congr fun block _ => returns_noteBlock_iff)
  unfold noteSyncInfo HarmlessNotes
  rw [returns_fallible_bind]
  constructor
  · intro returns present
    obtain ⟨page, here⟩ := Option.isSome_iff_exists.mp present
    exact blocks.mp (returns_bind.mp (returns page (required_eq_ok.mpr here))).1
  · intro harmless page here
    rw [returns_bind, blocks]
    exact ⟨harmless (Option.isSome_iff_exists.mpr ⟨page, required_eq_ok.mp here⟩),
      fun _ _ => returns_ok _⟩

/-- The output notes of a transaction are harmless, if they are read. -/
def HarmlessTransaction (value : Proto.TransactionRecord) : Prop :=
  ∀ header, value.header = some header → Succeeds (transactionParts header) →
    SafeWhile (fun note => Succeeds (noteHeader note)) HarmlessHeader header.outputNotes

theorem returns_transactionRecord_iff {value : Proto.TransactionRecord} :
    Returns (transactionRecord value) ↔ HarmlessTransaction value := by
  have notes : ∀ header : Proto.TransactionHeader,
      Returns (mapFailure NodeError.ofConversion (header.outputNotes.mapM noteHeader)) ↔
        SafeWhile (fun note => Succeeds (noteHeader note)) HarmlessHeader header.outputNotes :=
    fun header => returns_mapFailure_iff.trans
      (returns_mapM.trans (SafeWhile.congr fun note _ => returns_noteHeader_iff))
  have header : ∀ header : Proto.TransactionHeader, Returns (transactionHeader header) ↔
      (Succeeds (transactionParts header) →
        SafeWhile (fun note => Succeeds (noteHeader note)) HarmlessHeader header.outputNotes) := by
    intro header
    unfold transactionHeader
    rw [returns_fallible_bind]
    constructor
    · rintro returns ⟨parts, read⟩
      exact (notes header).mp (returns_bind.mp (returns parts read)).1
    · rintro harmless ⟨id, initial, final, inputNotes⟩ read
      show Returns (mapFailure _ _ >>= _)
      rw [returns_bind, notes]
      refine ⟨harmless ⟨_, read⟩, fun outputNotes _ => ?_⟩
      rw [returns_fallible_bind]
      intro id _
      rw [returns_fallible_bind]
      intro initial _
      rw [returns_fallible_bind]
      exact fun final _ => returns_ok _
  unfold transactionRecord HarmlessTransaction
  rw [returns_fallible_bind]
  constructor
  · intro returns held present
    exact (header held).mp (returns_bind.mp
      (returns held (mapError_eq_ok.mpr (required_eq_ok.mpr present)))).1
  · intro harmless held read
    have present := required_eq_ok.mp (mapError_eq_ok.mp read)
    rw [returns_bind, header]
    exact ⟨harmless held present, fun _ _ => returns_ok _⟩

/-! ### Accounts -/

/-- The protocol library accepts the parts of the witness, if they are read. -/
def HarmlessWitness (value : Proto.AccountWitness) : Prop :=
  ∀ id stateCommitment path, witnessParts value = .ok (id, stateCommitment, path) →
    Succeeds (ConversionLibrary.accountWitness id stateCommitment path)

omit [ConversionLibrary] in
theorem toOption_eq_some_iff {α : Type} {result : Except String α} :
    (∃ value, result.toOption = some value) ↔ Succeeds result := by
  cases result with
  | ok value => exact ⟨fun _ => ⟨value, rfl⟩, fun _ => ⟨value, rfl⟩⟩
  | error reason =>
    constructor
    · rintro ⟨_, absent⟩
      cases absent
    · rintro ⟨_, absent⟩
      cases absent

theorem returns_accountWitness_iff {value : Proto.AccountWitness} :
    Returns (accountWitness value) ↔ HarmlessWitness value := by
  unfold accountWitness HarmlessWitness
  rw [returns_fallible_bind]
  constructor
  · intro returns id stateCommitment path read
    exact toOption_eq_some_iff.mp (returns_expect_iff.mp (returns _ read))
  · rintro harmless ⟨id, stateCommitment, path⟩ read
    exact returns_expect_iff.mpr (toOption_eq_some_iff.mpr (harmless id stateCommitment path read))

variable [ProtocolLibrary]

/-- The proofs for the keys of a map can all be looked into, as far as they are. -/
def HarmlessProofs (requirements : AccountStorageRequirements) (details : ReceivedMapDetails) :
    Prop :=
  ∀ proofs, details.entries = .entriesWithProofs proofs →
    proofs.length = (requirements.keysForSlot details.slotName).length →
      SafeWhile (fun opened => Succeeds (checkProof opened))
        (fun opened => ∃ value, ConversionLibrary.smtProofGet opened.1
          (ProtocolLibrary.mapKeyHash opened.2) = some value)
        (proofs.zip (requirements.keysForSlot details.slotName))

theorem returns_checkProof_iff {opened : SmtOpening × StorageMapKey} :
    Returns (checkProof opened) ↔ ∃ value, ConversionLibrary.smtProofGet opened.1
      (ProtocolLibrary.mapKeyHash opened.2) = some value := by
  unfold checkProof
  rw [returns_bind, returns_expect_iff]
  refine and_iff_left fun value _ => ?_
  cases value with
  | none => exact returns_error _
  | some held => exact returns_ok ()

theorem returns_checkMapDetails_iff {requirements : AccountStorageRequirements}
    {details : ReceivedMapDetails} :
    Returns (checkMapDetails requirements details) ↔ HarmlessProofs requirements details := by
  unfold checkMapDetails HarmlessProofs
  cases details.entries with
  | allEntries entries => exact ⟨fun _ _ absent => (nomatch absent), fun _ => returns_ok ()⟩
  | entriesWithProofs proofs =>
    have lookups : Returns
        ((proofs.zip (requirements.keysForSlot details.slotName)).mapM checkProof) ↔ _ :=
      returns_mapM.trans (SafeWhile.congr fun opened _ => returns_checkProof_iff)
    by_cases same : proofs.length = (requirements.keysForSlot details.slotName).length
    · dsimp only
      rw [if_neg (not_not.mpr same), returns_bind, lookups]
      constructor
      · rintro ⟨safe, _⟩ _ ⟨⟩ _
        exact safe
      · exact fun harmless => ⟨harmless proofs rfl same, fun _ _ => returns_ok ()⟩
    · dsimp only
      rw [if_pos same]
      refine ⟨fun _ => ?_, fun _ => returns_error _⟩
      rintro _ ⟨⟩ equal
      exact absurd equal same

/-- Where no keys are requested there is nothing to look up. -/
theorem harmlessProofs_nil (details : ReceivedMapDetails) : HarmlessProofs [] details := by
  intro proofs _ _
  show SafeWhile _ _ (proofs.zip [])
  rw [List.zip_nil_right]
  exact trivial

def HarmlessDetails (requirements : AccountStorageRequirements) (value : Proto.AccountDetails) :
    Prop :=
  ∀ header slots maps, detailsHeader value = .ok (header, slots, maps) →
    SafeWhile (fun details => Succeeds (checkMapDetails requirements details))
      (HarmlessProofs requirements) maps

theorem returns_accountDetails_iff {value : Proto.AccountDetails} {knownAccountCodes : List Word}
    {requirements : AccountStorageRequirements} :
    Returns (accountDetails value knownAccountCodes requirements) ↔
      HarmlessDetails requirements value := by
  have checks : ∀ maps : List ReceivedMapDetails,
      Returns (maps.mapM (checkMapDetails requirements)) ↔
        SafeWhile (fun details => Succeeds (checkMapDetails requirements details))
          (HarmlessProofs requirements) maps :=
    fun maps => returns_mapM.trans (SafeWhile.congr fun details _ => returns_checkMapDetails_iff)
  unfold accountDetails HarmlessDetails
  rw [returns_fallible_bind]
  constructor
  · intro returns header slots maps read
    exact (checks maps).mp (returns_bind.mp (returns _ read)).1
  · rintro harmless ⟨header, slots, maps⟩ read
    show Returns (maps.mapM (checkMapDetails requirements) >>= _)
    rw [returns_bind, checks]
    refine ⟨harmless header slots maps read, fun _ _ => ?_⟩
    rw [returns_fallible_bind]
    intro code _
    rw [returns_fallible_bind]
    exact fun vault _ => returns_ok _

theorem harmlessDetails_nil (value : Proto.AccountDetails) : HarmlessDetails [] value := by
  intro header slots maps _
  exact safeWhile_iff.mpr fun _ details _ _ _ => harmlessProofs_nil details

open NodeCalls

theorem returns_receivedDetails (details : Option Proto.AccountDetails) :
    Returns (receivedDetails details) := by
  cases details with
  | none => exact returns_ok none
  | some value =>
    show Returns (accountDetails value [] [] >>= _)
    rw [returns_bind, returns_accountDetails_iff]
    exact ⟨harmlessDetails_nil value, fun _ _ => returns_ok _⟩

/-- The witness of a response is harmless, if it is read. -/
def HarmlessAccount (response : Proto.AccountResponse) : Prop :=
  ∀ witness, response.witness = some witness → Succeeds (receivedDetails response.details) →
    HarmlessWitness witness

omit [ConversionLibrary] [ProtocolLibrary] in
theorem expected_eq_ok {α : Type} {field : String} {value : Option α} {present : α} :
    expected field value = .ok present ↔ value = some present := by
  cases value with
  | none => exact ⟨fun absent => (nomatch absent), fun absent => (nomatch absent)⟩
  | some held => exact ⟨fun same => congrArg some (Except.ok.inj same),
      fun same => congrArg Except.ok (Option.some.inj same)⟩

theorem returns_accountProof_iff {response : Proto.AccountResponse} :
    Returns (accountProof response) ↔ HarmlessAccount response := by
  unfold accountProof HarmlessAccount
  rw [returns_fallible_bind]
  constructor
  · rintro returns witness present ⟨details, read⟩
    have inner := (returns_bind.mp (returns witness (expected_eq_ok.mpr present))).2 details read
    exact returns_accountWitness_iff.mp (returns_mapFailure_iff.mp (returns_bind.mp inner).1)
  · intro harmless witness present
    rw [returns_bind]
    refine ⟨returns_receivedDetails _, fun details read => ?_⟩
    rw [returns_bind, returns_mapFailure_iff, returns_accountWitness_iff]
    exact ⟨harmless witness (expected_eq_ok.mp present) ⟨details, read⟩,
      fun made _ => returns_fallible _⟩

/-- The witness of the response is harmless, and so are its details if they are read. -/
def HarmlessProof (requirements : AccountStorageRequirements)
    (answer : Except NodeError Proto.AccountResponse) : Prop :=
  ∀ response witness, answer = .ok response → response.witness = some witness →
    HarmlessWitness witness ∧ ∀ made details, accountWitness witness = .ok made →
      ProtocolLibrary.isPrivate made.id = false → response.details = some details →
        HarmlessDetails requirements details

theorem returns_getAccountProof_iff {requirements : AccountStorageRequirements}
    {knownAccountCodes : List Word} {answer : Except NodeError Proto.AccountResponse} :
    Returns (getAccountProof requirements knownAccountCodes answer) ↔
      HarmlessProof requirements answer := by
  have headers : ∀ (made : AccountWitness) (details : Option Proto.AccountDetails),
      Returns (publicDetails requirements knownAccountCodes made details) ↔
        (ProtocolLibrary.isPrivate made.id = false → ∀ value, details = some value →
          HarmlessDetails requirements value) := by
    intro made details
    unfold publicDetails
    cases isPrivate : ProtocolLibrary.isPrivate made.id with
    | true => exact ⟨fun _ absent => (nomatch absent), fun _ => returns_ok none⟩
    | false =>
      show Returns (fallible (expected _ details) >>= _) ↔ _
      rw [returns_fallible_bind]
      constructor
      · intro returns _ value present
        exact returns_accountDetails_iff.mp
          (returns_bind.mp (returns value (expected_eq_ok.mpr present))).1
      · intro harmless value present
        rw [returns_bind, returns_accountDetails_iff]
        exact ⟨harmless rfl value (expected_eq_ok.mp present), fun _ _ => returns_ok _⟩
  unfold getAccountProof HarmlessProof
  rw [returns_fallible_bind]
  constructor
  · intro returns response witness answered present
    have inner := returns_fallible_bind.mp (returns response answered) witness
      (expected_eq_ok.mpr present)
    obtain ⟨witnessReturns, rest⟩ := returns_bind.mp inner
    refine ⟨returns_accountWitness_iff.mp (returns_mapFailure_iff.mp witnessReturns), ?_⟩
    intro made details read isPublic held
    have inner := (returns_bind.mp (rest made (mapFailure_eq_ok.mpr read))).1
    exact (headers made response.details).mp inner isPublic details held
  · intro harmless response answered
    rw [returns_fallible_bind]
    intro witness present
    obtain ⟨harmlessWitness, harmlessDetails⟩ :=
      harmless response witness answered (expected_eq_ok.mp present)
    rw [returns_bind, returns_mapFailure_iff, returns_accountWitness_iff]
    refine ⟨harmlessWitness, fun made read => ?_⟩
    rw [returns_bind, headers]
    refine ⟨fun isPublic details held =>
      harmlessDetails made details (mapFailure_eq_ok.mp read) isPublic held, fun _ _ => ?_⟩
    rw [returns_fallible_bind]
    intro proof _
    rw [returns_fallible_bind]
    exact fun blockNum _ => returns_ok _

/-- The response that the proof is taken from is harmless: the first one for a private account, and
the second one for an account with public state. -/
def HarmlessRequests (answers : AccountAnswers) (accountId : AccountId) : Prop :=
  (ProtocolLibrary.isPrivate accountId = true → ∀ response,
    answers 0 ⟨accountId, none⟩ = .ok response → response.blockNum.isSome = true →
      HarmlessAccount response) ∧
  (ProtocolLibrary.isPrivate accountId = false → ∀ response second,
    answers 0 ⟨accountId, some []⟩ = .ok response → response.blockNum.isSome = true →
      secondRequest answers accountId response = .ok second → HarmlessAccount second)

theorem returns_secondRequest (answers : AccountAnswers) (accountId : AccountId)
    (response : Proto.AccountResponse) : Returns (secondRequest answers accountId response) := by
  unfold secondRequest
  rw [returns_fallible_bind]
  intro details _
  rw [returns_bind, returns_accountDetails_iff]
  exact ⟨harmlessDetails_nil details, fun _ _ => returns_fallible _⟩

theorem returns_fetchFullAccountProof_iff {answers : AccountAnswers} {accountId : AccountId} :
    Returns (fetchFullAccountProof answers accountId) ↔ HarmlessRequests answers accountId := by
  have proofReturns : ∀ (blockNumber : UInt32) (response : Proto.AccountResponse),
      Returns (do return (blockNumber.toNat, ← accountProof response) :
        Except (Failure NodeError) (BlockNumber × AccountProof)) ↔ HarmlessAccount response := by
    intro blockNumber response
    rw [returns_bind, returns_accountProof_iff]
    exact and_iff_left fun _ _ => returns_ok _
  unfold fetchFullAccountProof HarmlessRequests
  cases isPrivate : ProtocolLibrary.isPrivate accountId with
  | true =>
    show Returns (fallible (answers 0 ⟨accountId, none⟩) >>= _) ↔ _
    rw [returns_fallible_bind]
    constructor
    · intro returns
      refine ⟨fun _ response answered numbered => ?_, fun absent => (nomatch absent)⟩
      obtain ⟨blockNumber, here⟩ := Option.isSome_iff_exists.mp numbered
      exact (proofReturns blockNumber response).mp (returns_fallible_bind.mp
        (returns response answered) blockNumber (expected_eq_ok.mpr here))
    · intro harmless response answered
      rw [returns_fallible_bind]
      intro blockNumber here
      exact (proofReturns blockNumber response).mpr (harmless.1 rfl response answered
        (Option.isSome_iff_exists.mpr ⟨blockNumber, expected_eq_ok.mp here⟩))
  | false =>
    show Returns (fallible (answers 0 ⟨accountId, some []⟩) >>= _) ↔ _
    rw [returns_fallible_bind]
    constructor
    · intro returns
      refine ⟨fun absent => (nomatch absent), fun _ response second answered numbered read => ?_⟩
      obtain ⟨blockNumber, here⟩ := Option.isSome_iff_exists.mp numbered
      have inner := returns_fallible_bind.mp (returns response answered) blockNumber
        (expected_eq_ok.mpr here)
      exact (proofReturns blockNumber second).mp ((returns_bind.mp inner).2 second read)
    · intro harmless response answered
      rw [returns_fallible_bind]
      intro blockNumber here
      show Returns (secondRequest answers accountId response >>= _)
      rw [returns_bind]
      refine ⟨returns_secondRequest answers accountId response, fun second read => ?_⟩
      exact (proofReturns blockNumber second).mpr (harmless.2 rfl response second answered
        (Option.isSome_iff_exists.mpr ⟨blockNumber, expected_eq_ok.mp here⟩) read)

/-- What is put together from the response cannot panic. -/
theorem returns_getAccountDetails_iff [AccountConstructors] {source : AccountSource}
    {accountId : AccountId} :
    Returns (getAccountDetails source accountId) ↔
      HarmlessRequests source.getAccount accountId := by
  unfold getAccountDetails
  rw [returns_bind, returns_fetchFullAccountProof_iff]
  refine and_iff_left ?_
  rintro ⟨blockNumber, proof⟩ _
  dsimp only
  split
  · exact returns_ok _
  · rw [returns_fallible_bind]
    intro details _
    rw [returns_fallible_bind]
    exact fun account _ => returns_ok _

end Messages

/-! ### Calls -/

section Calls

open NodeCalls

variable [ConversionLibrary]

/-- The path in the response is harmless and the forest not too large, if they are read. -/
def HarmlessForest (build : BuildTarget) (includeMmrProof : Bool)
    (answer : Except NodeError Proto.BlockHeaderByNumberResponse) : Prop :=
  includeMmrProof = true → ∀ response header forest path, answer = .ok response →
    response.blockHeader = some header → Succeeds (blockHeader header) →
      response.chainLength = some forest → response.mmrPath = some path →
        HarmlessPath path ∧
          (Succeeds (merklePath path) → forest.toNat < 2 ^ build.pointerWidth)

omit [ConversionLibrary] in
theorem usize_eq_some_iff {build : BuildTarget} {number : UInt64} :
    (∃ value, build.usize number = some value) ↔ number.toNat < 2 ^ build.pointerWidth := by
  unfold BuildTarget.usize
  by_cases small : number.toNat < 2 ^ build.pointerWidth
  · rw [if_pos small]
    exact ⟨fun _ => small, fun _ => ⟨_, rfl⟩⟩
  · rw [if_neg small]
    exact ⟨fun ⟨_, absent⟩ => (nomatch absent), fun fits => absurd fits small⟩

theorem returns_getBlockHeaderByNumber_iff {build : BuildTarget} {includeMmrProof : Bool}
    {answer : Except NodeError Proto.BlockHeaderByNumberResponse} :
    Returns (getBlockHeaderByNumber build includeMmrProof answer) ↔
      HarmlessForest build includeMmrProof answer := by
  unfold getBlockHeaderByNumber HarmlessForest
  rw [returns_fallible_bind]
  cases includeMmrProof with
  | false =>
    refine ⟨fun _ absent => (nomatch absent), fun _ response _ => ?_⟩
    rw [returns_fallible_bind]
    intro header _
    rw [returns_fallible_bind]
    exact fun _ _ => returns_ok _
  | true =>
    constructor
    · rintro returns _ response header forest path answered present ⟨read, accepted⟩ counted given
      have inner := returns_fallible_bind.mp (returns_fallible_bind.mp (returns response answered)
        header (expected_eq_ok.mpr present)) read (mapError_eq_ok.mpr accepted)
      have inner := returns_fallible_bind.mp (returns_fallible_bind.mp inner forest
        (expected_eq_ok.mpr counted)) path (expected_eq_ok.mpr given)
      obtain ⟨pathReturns, rest⟩ := returns_bind.mp inner
      refine ⟨returns_merklePath_iff.mp (returns_mapFailure_iff.mp pathReturns), ?_⟩
      rintro ⟨nodes, made⟩
      have inner := (returns_bind.mp (rest nodes (mapFailure_eq_ok.mpr made))).1
      exact usize_eq_some_iff.mp (returns_expect_iff.mp inner)
    · intro harmless response answered
      rw [returns_fallible_bind]
      intro header present
      rw [returns_fallible_bind]
      intro read accepted
      show Returns (fallible (expected _ response.chainLength) >>= _)
      rw [returns_fallible_bind]
      intro forest counted
      rw [returns_fallible_bind]
      intro path given
      obtain ⟨harmlessPath, fits⟩ := harmless rfl response header forest path answered
        (expected_eq_ok.mp present) ⟨read, mapError_eq_ok.mp accepted⟩ (expected_eq_ok.mp counted)
        (expected_eq_ok.mp given)
      rw [returns_bind, returns_mapFailure_iff, returns_merklePath_iff]
      refine ⟨harmlessPath, fun nodes made => ?_⟩
      rw [returns_bind, returns_expect_iff, usize_eq_some_iff]
      exact ⟨fits ⟨nodes, mapFailure_eq_ok.mp made⟩, fun _ _ => returns_ok _⟩

theorem returns_syncNotes_iff {answer : Except NodeError Proto.SyncNotesResponse} :
    Returns (syncNotes answer) ↔ ∀ response, answer = .ok response → HarmlessNotes response := by
  unfold syncNotes
  rw [returns_fallible_bind]
  refine forall_congr' fun response => imp_congr_right fun _ => ?_
  rw [returns_mapFailure_iff, returns_noteSyncInfo_iff]

/-- The transactions of the response are harmless, as far as they are read. -/
def HarmlessTransactions (answer : Except NodeError Proto.SyncTransactionsResponse) : Prop :=
  ∀ response, answer = .ok response → response.paginationInfo.isSome = true →
    SafeWhile (fun record => Succeeds (transactionRecord record)) HarmlessTransaction
      response.transactions

theorem returns_syncTransactions_iff {answer : Except NodeError Proto.SyncTransactionsResponse} :
    Returns (syncTransactions answer) ↔ HarmlessTransactions answer := by
  have records : ∀ response : Proto.SyncTransactionsResponse,
      Returns (response.transactions.mapM transactionRecord) ↔
        SafeWhile (fun record => Succeeds (transactionRecord record)) HarmlessTransaction
          response.transactions :=
    fun response => returns_mapM.trans
      (SafeWhile.congr fun record _ => returns_transactionRecord_iff)
  unfold syncTransactions HarmlessTransactions
  rw [returns_fallible_bind]
  refine forall_congr' fun response => imp_congr_right fun _ => ?_
  unfold transactionsInfo
  rw [returns_fallible_bind]
  constructor
  · intro returns present
    obtain ⟨page, here⟩ := Option.isSome_iff_exists.mp present
    exact (records response).mp (returns_bind.mp
      (returns page (mapError_eq_ok.mpr (required_eq_ok.mpr here)))).1
  · intro harmless page here
    rw [returns_bind, records]
    have present := required_eq_ok.mp (mapError_eq_ok.mp here)
    exact ⟨harmless (Option.isSome_iff_exists.mpr ⟨page, present⟩), fun _ _ => returns_ok _⟩

/-! ### Chunks -/

omit [ConversionLibrary] in
theorem returns_chunks_iff {α : Type} {size : UInt32} {items : List α} :
    Returns (chunks size items) ↔ size ≠ 0 := by
  unfold chunks
  by_cases zero : size = 0
  · rw [if_pos zero]
    exact ⟨fun returns => absurd rfl (returns _), fun positive => absurd zero positive⟩
  · rw [if_neg zero]
    exact ⟨fun _ => zero, fun _ => returns_ok _⟩

omit [ConversionLibrary] in
theorem chunks_eq_ok {α : Type} {size : UInt32} {items : List α} (positive : size ≠ 0) :
    chunks size items = .ok (items.toChunks size.toNat) :=
  if_neg positive

/-- The limit is not zero, and the notes in the answers are harmless, as far as they are read. -/
def HarmlessFetch (source : LimitsSource)
    (answers : Answers (List NoteId) (List Proto.CommittedNote)) (noteIds : List NoteId) : Prop :=
  ∀ limits, getRpcLimits source = .ok limits → limits.noteIdsLimit ≠ 0 ∧
    SafeWhile (fun chunk => Succeeds (fetchedNotes answers chunk))
      (fun chunk => ∀ notes, answers chunk.2 chunk.1 = .ok notes →
        SafeWhile (fun note => Succeeds (fetchedNote note)) HarmlessNote notes)
      (noteIds.toChunks limits.noteIdsLimit.toNat).zipIdx

theorem returns_fetchedNotes_iff {answers : Answers (List NoteId) (List Proto.CommittedNote)}
    {chunk : List NoteId × ℕ} :
    Returns (fetchedNotes answers chunk) ↔ ∀ notes, answers chunk.2 chunk.1 = .ok notes →
      SafeWhile (fun note => Succeeds (fetchedNote note)) HarmlessNote notes := by
  unfold fetchedNotes
  rw [returns_fallible_bind]
  refine forall_congr' fun notes => imp_congr_right fun _ => ?_
  rw [returns_mapFailure_iff, returns_mapM]
  exact SafeWhile.congr fun note _ => returns_fetchedNote_iff

theorem returns_getNotesById_iff {source : LimitsSource}
    {answers : Answers (List NoteId) (List Proto.CommittedNote)} {noteIds : List NoteId} :
    Returns (getNotesById source answers noteIds) ↔ HarmlessFetch source answers noteIds := by
  unfold getNotesById HarmlessFetch
  rw [returns_fallible_bind]
  refine forall_congr' fun limits => imp_congr_right fun _ => ?_
  rw [returns_bind, returns_chunks_iff, and_congr_right_iff]
  intro positive
  have collects : ∀ parts : List (List NoteId), Returns (do
      return (← parts.zipIdx.mapM (fetchedNotes answers)).flatten) ↔
        SafeWhile (fun chunk => Succeeds (fetchedNotes answers chunk))
          (fun chunk => ∀ notes, answers chunk.2 chunk.1 = .ok notes →
            SafeWhile (fun note => Succeeds (fetchedNote note)) HarmlessNote notes)
          parts.zipIdx := by
    intro parts
    rw [returns_bind, returns_mapM, SafeWhile.congr fun chunk _ => returns_fetchedNotes_iff]
    exact and_iff_left fun _ _ => returns_ok _
  constructor
  · intro returns
    exact (collects _).mp (returns _ (chunks_eq_ok positive))
  · intro safe parts made
    rw [chunks_eq_ok positive] at made
    cases made
    exact (collects _).mpr safe

/-- The limit for nullifiers is not zero. -/
def HarmlessLimit (source : LimitsSource) : Prop :=
  ∀ limits, getRpcLimits source = .ok limits → limits.nullifiersLimit ≠ 0

theorem returns_checkNullifiers_iff {source : LimitsSource}
    {answers : Answers (List Nullifier) (List Proto.SmtOpening)} {nullifiers : List Nullifier} :
    Returns (checkNullifiers source answers nullifiers) ↔ HarmlessLimit source := by
  unfold checkNullifiers HarmlessLimit
  rw [returns_fallible_bind]
  refine forall_congr' fun limits => imp_congr_right fun _ => ?_
  rw [returns_bind, returns_chunks_iff]
  refine and_iff_left fun parts _ => ?_
  rw [returns_fallible_bind]
  exact fun proofs _ => returns_ok _

omit [ConversionLibrary] in
/-- A block number below another one can be increased. -/
theorem increment_of_lt {build : BuildTarget} {ε : Type} {number bound : UInt32}
    (below : number < bound) :
    (build.increment number : Except (Failure ε) UInt32) = .ok (number + 1) := by
  have range := bound.toNat_lt
  have smaller : number.toNat < bound.toNat := UInt32.lt_iff_toNat_lt.mp below
  exact if_neg fun overflows => by omega

omit [ConversionLibrary] in
/-- The next page starts behind one that ends before the target, so its first block is in range. -/
theorem returns_nextPage (build : BuildTarget) (currentBlockFrom : UInt32)
    (blockTo : Option UInt32) (page : Option Proto.PaginationInfo) :
    Returns (nextPage build currentBlockFrom blockTo page) := by
  cases page with
  | none => exact returns_ok _
  | some page =>
    unfold nextPage
    dsimp only
    split
    · exact returns_error _
    · split
      · exact returns_ok none
      · rename_i before
        rw [increment_of_lt (UInt32.not_le.mp before)]
        exact returns_ok _

omit [ConversionLibrary] in
/-- No answer makes the pages of a chunk panic. -/
theorem returns_nullifierPages (build : BuildTarget)
    (answers : Answers NullifierRequest Proto.SyncNullifiersResponse) (chunk : List UInt16)
    (blockTo : Option UInt32) (iterations number : ℕ) (currentBlockFrom : UInt32)
    (collected : List NullifierUpdate) :
    Returns (nullifierPages build answers chunk blockTo iterations number currentBlockFrom
      collected) := by
  induction iterations generalizing number currentBlockFrom collected with
  | zero => exact returns_error _
  | succ iterations inductionHypothesis =>
    unfold nullifierPages
    rw [returns_fallible_bind]
    intro response _
    rw [returns_fallible_bind]
    intro batch _
    rw [returns_bind]
    refine ⟨returns_nextPage build currentBlockFrom blockTo _, fun next _ => ?_⟩
    cases next with
    | none => exact returns_ok _
    | some first => exact inductionHypothesis (number + 1) first (collected ++ batch)

omit [ConversionLibrary] in
theorem returns_syncNullifiers_iff {build : BuildTarget} {source : LimitsSource}
    {answers : Answers NullifierRequest Proto.SyncNullifiersResponse} {prefixes : List UInt16}
    {blockNum : UInt32} {blockTo : Option UInt32} :
    Returns (syncNullifiers build source answers prefixes blockNum blockTo) ↔
      HarmlessLimit source := by
  unfold syncNullifiers HarmlessLimit
  rw [returns_fallible_bind]
  refine forall_congr' fun limits => imp_congr_right fun _ => ?_
  rw [returns_bind, returns_chunks_iff]
  refine and_iff_left fun parts _ => ?_
  rw [returns_bind]
  exact ⟨returns_foldlM (fun progress chunk => returns_nullifierPages build answers chunk blockTo
    maxIterations progress.1 blockNum progress.2) parts (0, []), fun _ _ => returns_ok _⟩

/-! ### Pages of notes -/

section Notes

variable [NoteLibrary]

/-- The details of the notes that need them are harmless. -/
def HarmlessNoteDetails (source : LimitsSource)
    (answers : Answers (List NoteId) (List Proto.CommittedNote)) (blocks : List NoteBlock) : Prop :=
  NoteSyncNode.requestedNotes blocks ≠ [] →
    HarmlessFetch source answers (NoteSyncNode.requestedNotes blocks)

theorem returns_fetchDetails_iff {source : LimitsSource}
    {answers : Answers (List NoteId) (List Proto.CommittedNote)} {blocks : List NoteBlock} :
    Returns (fetchDetails source answers blocks) ↔ HarmlessNoteDetails source answers blocks := by
  unfold fetchDetails HarmlessNoteDetails
  cases requested : NoteSyncNode.requestedNotes blocks with
  | nil => exact ⟨fun _ absent => absurd rfl absent, fun _ => returns_ok _⟩
  | cons first rest =>
    show Returns (getNotesById source answers (first :: rest) >>= _) ↔ _
    rw [returns_bind, returns_getNotesById_iff]
    constructor
    · exact fun both _ => both.1
    · exact fun harmless => ⟨harmless (List.cons_ne_nil first rest), fun _ _ => returns_ok _⟩

omit [NoteLibrary] in
/-- The page is harmless, and the block number behind it is in range if that is checked. -/
def HarmlessPage (build : BuildTarget) (answer : Except NodeError Proto.SyncNotesResponse) : Prop :=
  (∀ response, answer = .ok response → HarmlessNotes response) ∧
    ∀ noteSync, syncNotes answer = .ok noteSync → build.overflowChecks = true →
      (UInt32.ofNat noteSync.blockTo).toNat + 1 ≠ 2 ^ 32

omit [NoteLibrary] in
theorem returns_notesPage_iff {build : BuildTarget}
    {answer : Except NodeError Proto.SyncNotesResponse} :
    Returns (notesPage build answer) ↔ HarmlessPage build answer := by
  unfold notesPage HarmlessPage
  rw [returns_bind, returns_syncNotes_iff, and_congr_right_iff]
  intro _
  refine forall_congr' fun noteSync => imp_congr_right fun _ => ?_
  rw [returns_bind]
  unfold BuildTarget.increment
  split
  · rename_i overflows
    exact ⟨fun both => absurd rfl (both.1 _),
      fun inRange => absurd overflows.2 (inRange overflows.1)⟩
  · rename_i inRange
    exact ⟨fun _ checked atEnd => inRange ⟨checked, atEnd⟩,
      fun _ => ⟨returns_ok _, fun _ _ => returns_ok _⟩⟩

/-- From a page on, the loop comes to a page that is refused, or to a last page after which the
details are harmless. -/
inductive EndsSafely (build : BuildTarget) (source : LimitsSource)
    (notes : Answers NotesRequest Proto.SyncNotesResponse)
    (details : Answers (List NoteId) (List Proto.CommittedNote)) (blockTo : Option UInt32)
    (noteTags : Finset NoteTag) : ℕ → UInt32 → List NoteBlock → Prop
  | refused {number : ℕ} {cursor : UInt32} {allBlocks : List NoteBlock}
      (harmless : HarmlessPage build (notes number ⟨cursor, blockTo, noteTags⟩))
      (fails : ¬Succeeds (notesPage build (notes number ⟨cursor, blockTo, noteTags⟩))) :
      EndsSafely build source notes details blockTo noteTags number cursor allBlocks
  | last {number : ℕ} {cursor next : UInt32} {allBlocks blocks : List NoteBlock}
      (page : notesPage build (notes number ⟨cursor, blockTo, noteTags⟩) = .ok (blocks, next, true))
      (harmless : HarmlessNoteDetails source details (allBlocks ++ blocks)) :
      EndsSafely build source notes details blockTo noteTags number cursor allBlocks
  | more {number : ℕ} {cursor next : UInt32} {allBlocks blocks : List NoteBlock}
      (page : notesPage build (notes number ⟨cursor, blockTo, noteTags⟩) =
        .ok (blocks, next, false))
      (rest : EndsSafely build source notes details blockTo noteTags (number + 1) next
        (allBlocks ++ blocks)) :
      EndsSafely build source notes details blockTo noteTags number cursor allBlocks

theorem syncNotesWithDetails_ends_iff {build : BuildTarget} {source : LimitsSource}
    {notes : Answers NotesRequest Proto.SyncNotesResponse}
    {details : Answers (List NoteId) (List Proto.CommittedNote)} {blockTo : Option UInt32}
    {noteTags : Finset NoteTag} {number : ℕ} {cursor : UInt32} {allBlocks : List NoteBlock} :
    (∃ fuel pages, notesPages build notes blockTo noteTags fuel number cursor allBlocks =
      some pages ∧
      Returns (pages >>= fetchDetails source details)) ↔
        EndsSafely build source notes details blockTo noteTags number cursor allBlocks := by
  constructor
  · rintro ⟨fuel, pages, ended, returns⟩
    induction fuel generalizing number cursor allBlocks with
    | zero => cases ended
    | succ fuel inductionHypothesis =>
      unfold notesPages at ended
      cases page : notesPage build (notes number ⟨cursor, blockTo, noteTags⟩) with
      | error failure =>
        rw [page] at ended
        cases ended
        refine .refused (returns_notesPage_iff.mp ?_) ?_
        · rw [page]
          intro message same
          cases same
          exact returns message rfl
        · rw [page]
          rintro ⟨_, absent⟩
          cases absent
      | ok parts =>
        obtain ⟨blocks, next, done⟩ := parts
        rw [page] at ended
        cases done with
        | true =>
          cases ended
          exact .last page (returns_fetchDetails_iff.mp returns)
        | false => exact .more page (inductionHypothesis ended)
  · intro ends
    induction ends with
    | @refused number cursor allBlocks harmless fails =>
      cases page : notesPage build (notes number ⟨cursor, blockTo, noteTags⟩) with
      | ok parts => exact absurd ⟨parts, page⟩ fails
      | error failure =>
        refine ⟨1, .error failure, ?_, fun message same => ?_⟩
        · unfold notesPages
          rw [page]
        · cases same
          exact returns_notesPage_iff.mpr harmless message page
    | @last number cursor next allBlocks blocks page harmless =>
      refine ⟨1, .ok (allBlocks ++ blocks), ?_, returns_fetchDetails_iff.mpr harmless⟩
      unfold notesPages
      rw [page]
    | more page _ inductionHypothesis =>
      obtain ⟨fuel, pages, ended, returns⟩ := inductionHypothesis
      refine ⟨fuel + 1, pages, ?_, returns⟩
      unfold notesPages
      rw [page]
      exact ended

end Notes

end Calls

/-! ### All calls -/

/-- A call to the node, with its arguments and the answers it gets. -/
inductive NodeCall where
  | submitProvenTransaction (answer : Except NodeError UInt32)
  | getBlockHeaderByNumber (includeMmrProof : Bool)
      (answer : Except NodeError Proto.BlockHeaderByNumberResponse)
  | getNotesById (source : NodeCalls.LimitsSource)
      (answers : Answers (List NoteId) (List Proto.CommittedNote)) (noteIds : List NoteId)
  | syncChainMmr (answer : Except NodeError Proto.SyncChainMmrResponse)
  | getAccountDetails (source : NodeCalls.AccountSource) (accountId : AccountId)
  | getAccountProof (requirements : AccountStorageRequirements) (knownAccountCodes : List Word)
      (answer : Except NodeError Proto.AccountResponse)
  | syncNotes (answer : Except NodeError Proto.SyncNotesResponse)
  | syncNotesWithDetails (source : NodeCalls.LimitsSource)
      (notes : Answers NodeCalls.NotesRequest Proto.SyncNotesResponse)
      (details : Answers (List NoteId) (List Proto.CommittedNote)) (blockFrom : UInt32)
      (blockTo : Option UInt32) (noteTags : Finset NoteTag)
  | syncNullifiers (source : NodeCalls.LimitsSource)
      (answers : Answers NodeCalls.NullifierRequest Proto.SyncNullifiersResponse)
      (prefixes : List UInt16) (blockNum : UInt32) (blockTo : Option UInt32)
  | checkNullifiers (source : NodeCalls.LimitsSource)
      (answers : Answers (List Nullifier) (List Proto.SmtOpening)) (nullifiers : List Nullifier)
  | getBlockByNumber (answer : Except NodeError (Option Bytes))
  | getNoteScriptByRoot (answer : Except NodeError (Option Proto.NoteScript))
  | syncStorageMaps (source : NodeCalls.AccountSource) (blockFrom : BlockNumber)
      (blockTo : Option BlockNumber) (accountId : AccountId)
  | syncAccountVault (source : NodeCalls.AccountSource) (blockFrom : BlockNumber)
      (blockTo : Option BlockNumber) (accountId : AccountId)
  | syncTransactions (answer : Except NodeError Proto.SyncTransactionsResponse)
  | getRpcLimits (source : NodeCalls.LimitsSource)
  | getStatusUnversioned (answer : Except NodeError Proto.RpcStatus)

namespace NodeCall

variable [ConversionLibrary] [NoteLibrary] [ProtocolLibrary] [AccountConstructors]

/-- The call ends with a value or an error. Only the loop over the pages of notes could also go on
for ever. -/
def Returns (build : BuildTarget) : NodeCall → Prop
  | submitProvenTransaction answer => Panicking.Returns (fallible answer)
  | getBlockHeaderByNumber includeMmrProof answer =>
    Panicking.Returns (NodeCalls.getBlockHeaderByNumber build includeMmrProof answer)
  | getNotesById source answers noteIds =>
    Panicking.Returns (NodeCalls.getNotesById source answers noteIds)
  | syncChainMmr answer => Panicking.Returns (fallible (NodeCalls.syncChainMmr build answer))
  | getAccountDetails source accountId =>
    Panicking.Returns (NodeCalls.getAccountDetails source accountId)
  | getAccountProof requirements knownAccountCodes answer =>
    Panicking.Returns (NodeCalls.getAccountProof requirements knownAccountCodes answer)
  | syncNotes answer => Panicking.Returns (NodeCalls.syncNotes answer)
  | syncNotesWithDetails source notes details blockFrom blockTo noteTags =>
    ∃ fuel result, NodeCalls.syncNotesWithDetails build source notes details blockFrom blockTo
      noteTags fuel = some result ∧ Panicking.Returns result
  | syncNullifiers source answers prefixes blockNum blockTo =>
    Panicking.Returns (NodeCalls.syncNullifiers build source answers prefixes blockNum blockTo)
  | checkNullifiers source answers nullifiers =>
    Panicking.Returns (NodeCalls.checkNullifiers source answers nullifiers)
  | getBlockByNumber answer => Panicking.Returns (fallible (NodeCalls.getBlockByNumber answer))
  | getNoteScriptByRoot answer =>
    Panicking.Returns (fallible (NodeCalls.getNoteScriptByRoot answer))
  | syncStorageMaps source blockFrom blockTo accountId =>
    Panicking.Returns (fallible (NodeCalls.syncStorageMaps source blockFrom blockTo accountId))
  | syncAccountVault source blockFrom blockTo accountId =>
    Panicking.Returns (fallible (NodeCalls.syncAccountVault source blockFrom blockTo accountId))
  | syncTransactions answer => Panicking.Returns (NodeCalls.syncTransactions answer)
  | getRpcLimits source => Panicking.Returns (fallible (NodeCalls.getRpcLimits source))
  | getStatusUnversioned answer =>
    Panicking.Returns (fallible (NodeCalls.getStatusUnversioned answer))

/-- The answers that the call gets do not make it panic. -/
def Harmless (build : BuildTarget) : NodeCall → Prop
  | getBlockHeaderByNumber includeMmrProof answer => HarmlessForest build includeMmrProof answer
  | getNotesById source answers noteIds => HarmlessFetch source answers noteIds
  | getAccountDetails source accountId => HarmlessRequests source.getAccount accountId
  | getAccountProof requirements _ answer => HarmlessProof requirements answer
  | syncNotes answer => ∀ response, answer = .ok response → HarmlessNotes response
  | syncNotesWithDetails source notes details blockFrom blockTo noteTags =>
    EndsSafely build source notes details blockTo noteTags 0 blockFrom []
  | syncNullifiers source _ _ _ _ => HarmlessLimit source
  | checkNullifiers source _ _ => HarmlessLimit source
  | syncTransactions answer => HarmlessTransactions answer
  | submitProvenTransaction _ | syncChainMmr _ | getBlockByNumber _ | getNoteScriptByRoot _
  | syncStorageMaps _ _ _ _ | syncAccountVault _ _ _ _ | getRpcLimits _
  | getStatusUnversioned _ => True

/-- A call returns exactly when the answers it gets are harmless. -/
theorem returns_iff (build : BuildTarget) (call : NodeCall) :
    call.Returns build ↔ call.Harmless build := by
  cases call with
  | submitProvenTransaction answer => exact iff_true_intro (returns_fallible answer)
  | getBlockHeaderByNumber includeMmrProof answer => exact returns_getBlockHeaderByNumber_iff
  | getNotesById source answers noteIds => exact returns_getNotesById_iff
  | syncChainMmr answer => exact iff_true_intro (returns_fallible _)
  | getAccountDetails source accountId => exact returns_getAccountDetails_iff
  | getAccountProof requirements knownAccountCodes answer => exact returns_getAccountProof_iff
  | syncNotes answer => exact returns_syncNotes_iff
  | syncNotesWithDetails source notes details blockFrom blockTo noteTags =>
    refine Iff.trans ?_ syncNotesWithDetails_ends_iff
    constructor
    · rintro ⟨fuel, result, ended, returns⟩
      obtain ⟨pages, paged, rfl⟩ := Option.map_eq_some_iff.mp ended
      exact ⟨fuel, pages, paged, returns⟩
    · rintro ⟨fuel, pages, paged, returns⟩
      exact ⟨fuel, _, Option.map_eq_some_iff.mpr ⟨pages, paged, rfl⟩, returns⟩
  | syncNullifiers source answers prefixes blockNum blockTo => exact returns_syncNullifiers_iff
  | checkNullifiers source answers nullifiers => exact returns_checkNullifiers_iff
  | getBlockByNumber answer => exact iff_true_intro (returns_fallible _)
  | getNoteScriptByRoot answer => exact iff_true_intro (returns_fallible _)
  | syncStorageMaps source blockFrom blockTo accountId => exact iff_true_intro (returns_fallible _)
  | syncAccountVault source blockFrom blockTo accountId => exact iff_true_intro (returns_fallible _)
  | syncTransactions answer => exact returns_syncTransactions_iff
  | getRpcLimits source => exact iff_true_intro (returns_fallible _)
  | getStatusUnversioned answer => exact iff_true_intro (returns_fallible _)

end NodeCall

/-! ### A node with a wrong note type -/

namespace FaultyNode

open scoped Sample

/-- A library that reads single bytes, and refuses a witness whose path has not 64 nodes. -/
scoped instance conversionLibrary : ConversionLibrary where
  accountId
    | [byte] => .ok byte.toNat
    | _ => .error "account id"
  noteType value :=
    if value = 1 then .ok .isPublic else if value = 2 then .ok .isPrivate else .error "note type"
  noteAttachment
    | [byte] => .ok byte.toNat
    | _ => .error "attachment"
  defaultAttachment := 0
  isAttachmentKind kind := kind = 1 || kind = 2
  merklePath nodes := if nodes.length < 256 then some nodes else none
  sparseMerklePath _ nodes := if nodes.length ≤ 64 then .ok nodes else .error "depth"
  noteInclusionProof blockNum index path := .ok ⟨blockNum, index, path⟩
  noteDetails _ := .error "note details"
  noteScript bytes entrypoint :=
    if entrypoint.toNat < bytes.length then .ok 0 else .error "entrypoint"
  validatorKey bytes := if bytes.length = 33 then .ok () else .error "key"
  feeParameters _ _ := .ok ()
  provenBlock _ := .error "block"
  accountCode _ := .error "code"
  nonce number := number.toNat % feltOrder
  storageSlotName name := if name.length < 256 then .ok name.length else .error "slot name"
  storageSlotType number :=
    if number = 0 then .ok .value else if number = 1 then .ok .map else .error "slot type"
  storageHeader slots := if (slots.map Prod.fst).Nodup then .ok slots else .error "slots"
  asset _ _ := .error "asset"
  assetVaultKey _ := .error "vault key"
  leafIndex index := .ok index.toNat
  checkSmtProof _ := .ok ()
  smtProofGet opening key := match opening.leaf with
    | .empty index => some (if index = key then some 0 else none)
    | .single entry => some (if entry.1 = key then some entry.2 else none)
    | .multiple [] => none
    | .multiple entries => some ((entries.find? fun entry => entry.1 = key).map Prod.snd)
  smtRoot opening := opening.path.sum
  accountWitness id stateCommitment path :=
    if path.length = 64 then .ok ⟨id, stateCommitment⟩ else .error "path"
  transactionId account initial final _ _ := account + initial + final

scoped instance accountConstructors : AccountConstructors := Fetching.accountConstructors

def zeros : Proto.Digest := ⟨0, 0, 0, 0⟩

/-- The header of block 5. -/
def header : Proto.BlockHeader :=
  ⟨0, some zeros, 5, some zeros, some zeros, some zeros, some zeros, some zeros,
    some (List.replicate 33 0), some zeros, some ⟨some ⟨[1]⟩, 0⟩, 0⟩

/-- A note whose type is negative, which an enumeration of the message can hold. -/
def record : Proto.NoteSyncRecord :=
  ⟨some ⟨some ⟨[1]⟩, -1, 0, 0⟩, some ⟨some ⟨some zeros⟩, 5, 0, some ⟨0, []⟩⟩⟩

/-- One block with the note. -/
def response : Proto.SyncNotesResponse :=
  ⟨some ⟨5, 5⟩, [⟨some header, some ⟨[]⟩, [record]⟩]⟩

theorem syncNotes_panics :
    ¬∀ (build : BuildTarget) (call : NodeCall), call.Returns build := by
  intro all
  exact absurd rfl (all ⟨64, false⟩ (.syncNotes (.ok response)) "invalid note type")

end FaultyNode

end MidenClient
