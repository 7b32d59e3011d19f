/-
This file models how the client converts the messages of the node into its own types
(`rust-client/src/rpc/domain`).

Most conversions only fail with an error. Those that can also panic have a type that says
so: the ones with a note type, a Merkle path, an account witness, or proofs for the keys of
a storage map. What the protocol library refuses is taken as a class of functions. Two of
them can panic themselves: a Merkle path with too many nodes, and a lookup in a leaf
without entries.
-/

import MidenClient.Library.Panic
import MidenClient.Rpc.AccountDetails
import MidenClient.Rpc.Protobuf
import MidenClient.Rpc.SyncNotes
import MidenClient.Rpc.Transaction

namespace MidenClient

open Std (ExtTreeMap)
open Panicking

inductive RpcConversionError where
  | deserializationError (message : String)
  | notAValidFelt
  | noteTypeError (message : String)
  | merkleError (message : String)
  | invalidField (message : String)
  | missingField (entity fieldName : String)
  deriving DecidableEq, Repr

def RpcConversionError.message : RpcConversionError → String
  | .deserializationError _ => "failed to deserialize"
  | .notAValidFelt => "invalid field element: value is outside the valid range " ++
      "(0..modulus, where modulus = 2^64 - 2^32 + 1)"
  | .noteTypeError _ => "invalid note type in node response"
  | .merkleError _ => "merkle proof error in node response"
  | .invalidField field => s!"invalid field in node response: {field}"
  | .missingField entity fieldName =>
      s!"field `{fieldName}` expected to be present in protobuf representation of {entity}"

/-- A conversion that fails makes the response one that cannot be deserialized. -/
def NodeError.ofConversion (error : RpcConversionError) : NodeError :=
  .rpcError (.deserializationError error.message)

/-- The leaf of a sparse Merkle tree. -/
inductive SmtLeaf where
  | empty (index : ℕ)
  | single (entry : Word × Word)
  | multiple (entries : List (Word × Word))
  deriving DecidableEq, Repr

/-- A leaf with the path to the root. -/
structure SmtOpening where
  path : List Word
  leaf : SmtLeaf
  deriving DecidableEq, Repr

/-- What the conversions use of the protocol library. -/
class ConversionLibrary where
  /-- `AccountId::read_from_bytes`. -/
  accountId : Bytes → Except String AccountId
  /-- `NoteType::try_from`. -/
  noteType : UInt64 → Except String NoteType
  /-- `NoteAttachment::read_from_bytes`. -/
  noteAttachment : Bytes → Except String Word
  /-- `NoteAttachment::default`. -/
  defaultAttachment : Word
  /-- Whether a number stands for a kind of attachment other than none. -/
  isAttachmentKind : UInt8 → Bool
  /-- `MerklePath::new`, if it does not panic. -/
  merklePath : List Word → Option (List Word)
  /-- `SparseMerklePath::from_parts`. -/
  sparseMerklePath : UInt64 → List Word → Except String (List Word)
  /-- `NoteInclusionProof::new`. -/
  noteInclusionProof : BlockNumber → ℕ → List Word → Except String NoteInclusionProof
  /-- `NoteDetails::read_from_bytes`. -/
  noteDetails : Bytes → Except String NoteDetails
  /-- `MastForest::read_from_bytes` and `MastNodeId::from_u32_safe`. -/
  noteScript : Bytes → UInt32 → Except String Word
  /-- `PublicKey::read_from_bytes`. -/
  validatorKey : Bytes → Except String Unit
  /-- `FeeParameters::new`. -/
  feeParameters : AccountId → UInt32 → Except String Unit
  /-- `ProvenBlock::read_from_bytes`. -/
  provenBlock : Bytes → Except String Word
  /-- `AccountCode::read_from_bytes`. -/
  accountCode : Bytes → Except String Word
  /-- `Felt::new`, as a nonce. -/
  nonce : UInt64 → ℕ
  /-- `StorageSlotName::new`. -/
  storageSlotName : String → Except String StorageSlotName
  /-- `StorageSlotType::try_from`. -/
  storageSlotType : UInt8 → Except String StorageSlotType
  /-- `AccountStorageHeader::new`, of slots in the order of their identifiers. -/
  storageHeader : List StorageSlotHeader → Except String (List StorageSlotHeader)
  /-- `Asset::from_key_value_words`. -/
  asset : Word → Word → Except String Asset
  /-- `AssetVaultKey::try_from`. -/
  assetVaultKey : Word → Except String AssetVaultKey
  /-- `LeafIndex::new`. -/
  leafIndex : UInt64 → Except String ℕ
  /-- The checks of `SmtProof::new`. -/
  checkSmtProof : SmtOpening → Except String Unit
  /-- `SmtProof::get`, if it does not panic. -/
  smtProofGet : SmtOpening → Word → Option (Option Word)
  /-- `SmtProof::compute_root`. -/
  smtRoot : SmtOpening → Word
  /-- `AccountWitness::new`. -/
  accountWitness : AccountId → Word → List Word → Except String AccountWitness
  /-- `TransactionHeader::new`, which computes the identifier. -/
  transactionId : AccountId → Word → Word → List Nullifier → List (NoteId × NoteMetadata) →
    TransactionId

namespace FromProto

variable [ConversionLibrary]

/-- A field that must be present. -/
def required {α : Type} (entity fieldName : String) (value : Option α) :
    Except RpcConversionError α :=
  value.elim (.error (.missingField entity fieldName)) .ok

/-! ### Primitives -/

/-- `Felt::ORDER`. -/
def feltOrder : ℕ := 2 ^ 64 - 2 ^ 32 + 1

/-- A digest has four elements of the field. -/
def digest (value : Proto.Digest) : Except RpcConversionError Word :=
  if [value.d0, value.d1, value.d2, value.d3].all fun element => element.toNat < feltOrder then
    .ok (value.d0.toNat + 2 ^ 64 * (value.d1.toNat + 2 ^ 64 *
      (value.d2.toNat + 2 ^ 64 * value.d3.toNat)))
  else .error .notAValidFelt

def requiredDigest (entity fieldName : String) (value : Option Proto.Digest) :
    Except RpcConversionError Word := do
  digest (← required entity fieldName value)

def accountId (value : Proto.AccountId) : Except RpcConversionError AccountId :=
  (ConversionLibrary.accountId value.id).mapError fun _ => .notAValidFelt

def requiredAccountId (entity fieldName : String) (value : Option Proto.AccountId) :
    Except RpcConversionError AccountId := do
  accountId (← required entity fieldName value)

/-- The digests up to the first one that is refused, and why it is. -/
def leadingDigests : List Proto.Digest → List Word × Option RpcConversionError
  | [] => ([], none)
  | value :: rest =>
    match digest value with
    | .ok word => (word :: (leadingDigests rest).1, (leadingDigests rest).2)
    | .error error => ([], some error)

/-- A path panics when it has too many nodes. It is made of the digests up to the first one that is
refused, before that is seen. -/
def merklePath (value : Proto.MerklePath) :
    Except (Failure RpcConversionError) (List Word) := do
  let leading := leadingDigests value.siblings
  let path ← expect "MerklePath may have at most 256 items"
    (ConversionLibrary.merklePath leading.1)
  fallible (leading.2.elim (.ok path) .error)

def sparseMerklePath (value : Proto.SparseMerklePath) :
    Except RpcConversionError (List Word) := do
  let nodes ← value.siblings.mapM digest
  (ConversionLibrary.sparseMerklePath value.emptyNodesMask nodes).mapError .merkleError

def smtLeafEntry (value : Proto.SmtLeafEntry) : Except RpcConversionError (Word × Word) := do
  let key ← requiredDigest "SmtLeafEntry" "key" value.key
  return (key, ← requiredDigest "SmtLeafEntry" "value" value.value)

def smtLeaf : Proto.SmtLeaf → Except RpcConversionError SmtLeaf
  | .emptyLeafIndex index => do
    return .empty (← (ConversionLibrary.leafIndex index).mapError .invalidField)
  | .single entry => return .single (← smtLeafEntry entry)
  | .multiple entries => return .multiple (← entries.mapM smtLeafEntry)

def smtProof (value : Proto.SmtOpening) : Except RpcConversionError SmtOpening := do
  let leaf ← required "SmtOpening" "leaf" value.leaf
  let leaf ← smtLeaf (← required "SmtLeaf" "leaf" leaf)
  let path ← sparseMerklePath (← required "SmtOpening" "path" value.path)
  (ConversionLibrary.checkSmtProof ⟨path, leaf⟩).mapError .invalidField
  return ⟨path, leaf⟩

def asset (value : Proto.Asset) : Except RpcConversionError Asset := do
  let key ← requiredDigest "Asset" "key" value.key
  let assetValue ← requiredDigest "Asset" "value" value.value
  (ConversionLibrary.asset key assetValue).mapError .invalidField

/-! ### Blocks -/

def feeParameters (value : Proto.FeeParameters) : Except RpcConversionError Unit := do
  let nativeAssetId ← requiredAccountId "FeeParameters" "account_id" value.nativeAssetId
  (ConversionLibrary.feeParameters nativeAssetId value.verificationBaseFee).mapError
    fun _ => .invalidField "FeeParameter"

/-- All fields of a block header are checked; the client reads three of them. -/
def blockHeader (value : Proto.BlockHeader) : Except RpcConversionError BlockHeader := do
  let validatorKey ← required "BlockHeader" "validator_key" value.validatorKey
  (ConversionLibrary.validatorKey validatorKey).mapError .deserializationError
  let _ ← requiredDigest "BlockHeader" "prev_block_commitment" value.prevBlockCommitment
  let _ ← requiredDigest "BlockHeader" "chain_commitment" value.chainCommitment
  let _ ← requiredDigest "BlockHeader" "account_root" value.accountRoot
  let _ ← requiredDigest "BlockHeader" "nullifier_root" value.nullifierRoot
  let noteRoot ← requiredDigest "BlockHeader" "note_root" value.noteRoot
  let _ ← requiredDigest "BlockHeader" "tx_commitment" value.txCommitment
  let _ ← requiredDigest "BlockHeader" "tx_kernel_commitment" value.txKernelCommitment
  feeParameters (← required "BlockHeader" "fee_parameters" value.feeParameters)
  return ⟨value.blockNum.toNat, noteRoot, value.timestamp.toNat⟩

/-- The number of leaves of a forest and the digests that are new in it. -/
def mmrDelta (build : BuildTarget) (value : Proto.MmrDelta) :
    Except RpcConversionError (ℕ × List Word) :=
  match build.usize value.forest with
  | none => .error (.invalidField "MmrDelta forest value exceeds usize")
  | some forest => do return (forest, ← value.data.mapM digest)

/-- A range of blocks with the change of the MMR. -/
def chainMmrInfo (build : BuildTarget) (value : Proto.SyncChainMmrResponse) :
    Except RpcConversionError (BlockNumber × BlockNumber × ℕ × List Word) := do
  let range ← required "SyncChainMmrResponse" "block_range" value.blockRange
  let delta ← mmrDelta build (← required "SyncChainMmrResponse" "mmr_delta" value.mmrDelta)
  let blockTo ← required "SyncChainMmrResponse" "block_range.block_to" range.blockTo
  return (range.blockFrom.toNat, blockTo.toNat, delta)

/-! ### Notes -/

/-- `u64::try_from`, which refuses negative numbers. -/
def unsigned (number : Int32) : Option UInt64 :=
  if number.toInt < 0 then none else some (UInt64.ofNat number.toInt.toNat)

/-- A negative note type panics; any other unknown one is refused. -/
def noteType (number : Int32) : Except (Failure RpcConversionError) NoteType := do
  let value ← expect "invalid note type" (unsigned number)
  fallible ((ConversionLibrary.noteType value).mapError .noteTypeError)

def noteId (value : Proto.NoteId) : Except RpcConversionError NoteId :=
  requiredDigest "NoteId" "id" value.id

def noteAttachment (bytes : Bytes) : Except RpcConversionError Word :=
  if bytes.isEmpty then .ok ConversionLibrary.defaultAttachment
  else (ConversionLibrary.noteAttachment bytes).mapError .deserializationError

def noteMetadata (value : Proto.NoteMetadata) :
    Except (Failure RpcConversionError) NoteMetadata := do
  let sender ← fallible (requiredAccountId "NoteMetadata" "sender" value.sender)
  let noteType ← noteType value.noteType
  let attachment ← fallible (noteAttachment value.attachment)
  return ⟨sender, noteType, value.tag.toNat, attachment⟩

def headerNoteId (value : Proto.NoteHeader) : Except RpcConversionError NoteId := do
  noteId (← required "NoteHeader" "note_id" value.noteId)

def noteHeader (value : Proto.NoteHeader) :
    Except (Failure RpcConversionError) (NoteId × NoteMetadata) := do
  let noteId ← fallible (headerNoteId value)
  let metadata ← fallible (required "NoteHeader" "metadata" value.metadata)
  return (noteId, ← noteMetadata metadata)

def noteInclusionProof (value : Proto.NoteInclusionInBlockProof) :
    Except RpcConversionError NoteInclusionProof := do
  if 2 ^ 16 ≤ value.noteIndexInBlock.toNat then throw (.invalidField "NoteIndexInBlock")
  let path ← sparseMerklePath
    (← required "NoteInclusionInBlockProof" "inclusion_path" value.inclusionPath)
  (ConversionLibrary.noteInclusionProof value.blockNum.toNat value.noteIndexInBlock.toNat
    path).mapError .noteTypeError

/-- The note identifier and the proof of a committed note. -/
def includedNote (entity fieldName : String) (value : Proto.NoteInclusionInBlockProof) :
    Except RpcConversionError (NoteId × NoteInclusionProof) := do
  let noteId ← noteId (← required entity fieldName value.noteId)
  return (noteId, ← noteInclusionProof value)

/-- Numbers that are no kind of attachment stand for none. -/
def hasAttachment (kind : Int32) : Bool :=
  decide (0 ≤ kind.toInt ∧ kind.toInt < 256) &&
    ConversionLibrary.isAttachmentKind (UInt8.ofNat kind.toInt.toNat)

/-- The sender of a synchronized note. -/
def recordSender (header : Proto.NoteMetadataHeader) : Except RpcConversionError AccountId :=
  requiredAccountId "SyncNotesResponse" "notes.metadata_header.sender" header.sender

/-- The full metadata is known when the note has no attachment. -/
def committedNote (value : Proto.NoteSyncRecord) :
    Except (Failure RpcConversionError) CommittedNote := do
  let header ← fallible (required "SyncNotesResponse" "notes.metadata_header" value.metadataHeader)
  let sender ← fallible (recordSender header)
  let noteType ← noteType header.noteType
  let metadata := if hasAttachment header.attachmentKind then none
    else some ⟨sender, noteType, header.tag.toNat, ConversionLibrary.defaultAttachment⟩
  let proof ← fallible (required "SyncNotesResponse" "notes.inclusion_proof" value.inclusionProof)
  let (noteId, inclusionProof) ← fallible
    (includedNote "SyncNotesResponse" "notes.inclusion_proof.note_id" proof)
  return ⟨noteId, noteType, metadata, inclusionProof⟩

/-- What is read of a fetched note before its metadata. -/
def fetchedProof (value : Proto.CommittedNote) :
    Except RpcConversionError ((NoteId × NoteInclusionProof) × Proto.Note ×
      Proto.NoteMetadata) := do
  let proof ← required "CommittedNote" "inclusion_proof" value.inclusionProof
  let included ← includedNote "CommittedNote" "inclusion_proof.note_id" proof
  let note ← required "CommittedNote" "note" value.note
  return (included, note, ← required "CommittedNote" "note.metadata" note.metadata)

def fetchedNote (value : Proto.CommittedNote) :
    Except (Failure RpcConversionError) FetchedNote := do
  let ((noteId, inclusionProof), note, metadata) ← fallible (fetchedProof value)
  let metadata ← noteMetadata metadata
  match note.details with
  | some bytes =>
    let details ← fallible ((ConversionLibrary.noteDetails bytes).mapError .deserializationError)
    return .isPublic ⟨details, metadata⟩ inclusionProof
  | none => return .isPrivate noteId metadata inclusionProof

/-- The path of the block is checked and not kept. -/
def noteBlock (value : Proto.NoteSyncBlock) : Except (Failure RpcConversionError) NoteBlock := do
  let header ← fallible (do
    blockHeader (← required "SyncNotesResponse" "blocks.block_header" value.blockHeader))
  let path ← fallible (required "SyncNotesResponse" "blocks.mmr_path" value.mmrPath)
  let _ ← merklePath path
  let notes ← value.notes.mapM committedNote
  return ⟨header, ExtTreeMap.ofList (notes.map fun note => (note.noteId, note))⟩

def noteSyncInfo (value : Proto.SyncNotesResponse) :
    Except (Failure RpcConversionError) NoteSyncInfo := do
  let page ← fallible (required "SyncNotesResponse" "pagination_info" value.paginationInfo)
  return ⟨page.chainTip.toNat, page.blockNum.toNat, ← value.blocks.mapM noteBlock⟩

def noteScript (value : Proto.NoteScript) : Except RpcConversionError Word :=
  (ConversionLibrary.noteScript value.mast value.entrypoint).mapError .deserializationError

/-! ### Nullifiers -/

def nullifierUpdate (value : Proto.NullifierUpdate) :
    Except RpcConversionError NullifierUpdate := do
  return ⟨← requiredDigest "NullifierUpdate" "nullifier" value.nullifier, value.blockNum.toNat⟩

/-! ### Accounts -/

def invalidResponse {α : Type} (result : Except String α) : Except NodeError α :=
  result.mapError .invalidResponse

def accountHeader (value : Proto.AccountHeader) : Except RpcConversionError AccountHeader := do
  let accountId ← requiredAccountId "AccountHeader" "account_id" value.accountId
  let vaultRoot ← requiredDigest "AccountHeader" "vault_root" value.vaultRoot
  let storageCommitment ←
    requiredDigest "AccountHeader" "storage_commitment" value.storageCommitment
  let codeCommitment ← requiredDigest "AccountHeader" "code_commitment" value.codeCommitment
  return ⟨accountId, ConversionLibrary.nonce value.nonce, vaultRoot, storageCommitment,
    codeCommitment⟩

def converted {α : Type} (result : Except RpcConversionError α) : Except NodeError α :=
  result.mapError NodeError.ofConversion

def storageSlot (value : Proto.StorageSlot) : Except NodeError StorageSlotHeader := do
  let slotValue ← converted (requiredDigest "StorageSlot" "commitment" value.commitment)
  if 256 ≤ value.slotType.toNat then
    throw (.invalidResponse "out of range integral type conversion attempted")
  let slotType ← invalidResponse (ConversionLibrary.storageSlotType value.slotType.toUInt8)
  let slotName ← invalidResponse (ConversionLibrary.storageSlotName value.slotName)
  return (slotName, slotType, slotValue)

def storageHeader (value : Proto.AccountStorageHeader) :
    Except NodeError (List StorageSlotHeader) := do
  let slots ← value.slots.mapM storageSlot
  invalidResponse (ConversionLibrary.storageHeader
    (slots.mergeSort fun first second => first.1 ≤ second.1))

def expected {α : Type} (field : String) (value : Option α) : Except NodeError α :=
  value.elim (.error (.rpcError (.expectedDataMissing field))) .ok

def storageMapEntry (value : Proto.StorageMapEntry) :
    Except NodeError (StorageMapKey × Word) := do
  let key ← converted (digest (← expected "key" value.key))
  return (key, ← converted (digest (← expected "value" value.value)))

/-- The entries of a map as they are received, or the openings for some keys. -/
inductive ReceivedEntries where
  | allEntries (entries : List (StorageMapKey × Word))
  | entriesWithProofs (proofs : List SmtOpening)

structure ReceivedMapDetails where
  slotName : StorageSlotName
  tooManyEntries : Bool
  entries : ReceivedEntries

def mapEntries : Option Proto.StorageMapEntries → Except NodeError ReceivedEntries
  | some (.allEntries entries) => return .allEntries (← entries.mapM storageMapEntry)
  | some (.entriesWithProofs proofs) => do
    return .entriesWithProofs (← proofs.mapM fun entry => do
      converted (smtProof (← expected "proof" entry)))
  | none => return .allEntries []

def mapDetails (value : Proto.AccountStorageMapDetails) :
    Except NodeError ReceivedMapDetails := do
  let slotName ← (ConversionLibrary.storageSlotName value.slotName).mapError
    fun message => .rpcError (.expectedDataMissing message)
  return ⟨slotName, value.tooManyEntries, ← mapEntries value.entries⟩

def storageDetails (value : Proto.AccountStorageDetails) :
    Except NodeError (List StorageSlotHeader × List ReceivedMapDetails) := do
  let header ← storageHeader
    (← converted (required "AccountStorageHeader" "header" value.header))
  return (header, ← value.mapDetails.mapM mapDetails)

def vaultDetails (value : Proto.AccountVaultDetails) : Except NodeError AccountVaultDetails := do
  return ⟨value.tooManyAssets, ← converted (value.assets.mapM asset)⟩

/-- What an opening shows. -/
def SmtOpening.toProof (opening : SmtOpening) : SmtProof where
  root := ConversionLibrary.smtRoot opening
  get key := (ConversionLibrary.smtProofGet opening key).getD none

def ReceivedMapDetails.toDetails (details : ReceivedMapDetails) : AccountStorageMapDetails where
  slotName := details.slotName
  tooManyEntries := details.tooManyEntries
  entries := match details.entries with
    | .allEntries entries => .allEntries entries
    | .entriesWithProofs proofs => .entriesWithProofs (proofs.map SmtOpening.toProof)

section Details

variable [ProtocolLibrary]

/-- An opening must cover the key that was requested. -/
def checkProof (opened : SmtOpening × StorageMapKey) : Except (Failure NodeError) Unit := do
  let value ← expect "index out of bounds"
    (ConversionLibrary.smtProofGet opened.1 (ProtocolLibrary.mapKeyHash opened.2))
  if value.isNone then
    throw (.error (.invalidResponse "proof for storage map key does not match the requested key"))

/-- The openings must be those for the requested keys. -/
def checkMapDetails (requirements : AccountStorageRequirements) (details : ReceivedMapDetails) :
    Except (Failure NodeError) Unit :=
  match details.entries with
  | .allEntries _ => return
  | .entriesWithProofs proofs => do
    let requestedKeys := requirements.keysForSlot details.slotName
    if proofs.length ≠ requestedKeys.length then
      throw (.error (.invalidResponse "unexpected number of proofs for storage map slot"))
    let _ ← (proofs.zip requestedKeys).mapM checkProof

/-- The code is the one received, or the known one with the commitment in the header. -/
def accountCode (knownAccountCodes : List Word) (codeCommitment : Word) :
    Option Bytes → Except NodeError Word
  | some bytes => (ConversionLibrary.accountCode bytes).mapError
      fun message => .rpcError (.deserializationError message)
  | none => if codeCommitment ∈ knownAccountCodes then .ok codeCommitment
      else .error (.invalidResponse
        "Account code was not provided, but the response did not contain it either")

def detailsHeader (value : Proto.AccountDetails) : Except NodeError
    (AccountHeader × List StorageSlotHeader × List ReceivedMapDetails) := do
  let header ← converted (do accountHeader (← required "AccountDetails" "header" value.header))
  return (header, ← storageDetails
    (← converted (required "AccountDetails" "storage_details" value.storageDetails)))

def detailsVault (value : Proto.AccountDetails) : Except NodeError AccountVaultDetails := do
  vaultDetails (← converted (required "AccountVaultDetails" "vault_details" value.vaultDetails))

/-- `AccountDetails::into_domain`. -/
def accountDetails (value : Proto.AccountDetails) (knownAccountCodes : List Word)
    (requirements : AccountStorageRequirements) : Except (Failure NodeError) AccountDetails := do
  let (header, slots, maps) ← fallible (detailsHeader value)
  let _ ← maps.mapM (checkMapDetails requirements)
  let code ← fallible (accountCode knownAccountCodes header.codeCommitment value.code)
  let vault ← fallible (detailsVault value)
  return ⟨header, ⟨slots, maps.map ReceivedMapDetails.toDetails⟩, code, vault⟩

end Details

/-- The parts of an account witness. -/
def witnessParts (value : Proto.AccountWitness) :
    Except RpcConversionError (AccountId × Word × List Word) := do
  let stateCommitment ← requiredDigest "AccountWitness" "state_commitment" value.commitment
  let path ← sparseMerklePath (← required "AccountWitness" "merkle_path" value.path)
  return (← requiredAccountId "AccountWitness" "witness_id" value.witnessId, stateCommitment, path)

/-- The parts of a witness are put together with an `unwrap`. -/
def accountWitness (value : Proto.AccountWitness) :
    Except (Failure RpcConversionError) AccountWitness := do
  let (id, stateCommitment, path) ← fallible (witnessParts value)
  expect "called `Result::unwrap()` on an `Err` value"
    (ConversionLibrary.accountWitness id stateCommitment path).toOption

def storageMapUpdate (value : Proto.StorageMapUpdate) :
    Except RpcConversionError StorageMapUpdate := do
  let slotName ← (ConversionLibrary.storageSlotName value.slotName).mapError .invalidField
  let key ← requiredDigest "StorageMapUpdate" "key" value.key
  return ⟨value.blockNum.toNat, slotName, key,
    ← requiredDigest "StorageMapUpdate" "value" value.value⟩

/-- The vault key must be that of the asset. -/
def accountVaultUpdate (value : Proto.AccountVaultUpdate) :
    Except NodeError AccountVaultUpdate := do
  let vaultKey ← invalidResponse (ConversionLibrary.assetVaultKey
    (← converted (requiredDigest "SyncAccountVaultResponse" "vault_key" value.vaultKey)))
  match value.asset with
  | none => return ⟨value.blockNum.toNat, none, vaultKey⟩
  | some held => do
    let held ← converted (asset held)
    if held.vaultKey ≠ vaultKey then
      throw (.invalidResponse "account vault update returned mismatched asset key")
    return ⟨value.blockNum.toNat, some held, vaultKey⟩

/-! ### Transactions -/

def inputNote (value : Option Proto.Digest) : Except NodeError Nullifier := do
  (digest (← expected "nullifier" value)).mapError fun error => .invalidResponse error.message

/-- What is read of a transaction before its output notes. The commitments are only looked at
afterwards. -/
def transactionParts (value : Proto.TransactionHeader) : Except NodeError
    (Proto.AccountId × Proto.Digest × Proto.Digest × List Nullifier) := do
  let accountId ← converted (required "TransactionHeader" "account_id" value.accountId)
  let initial ← converted
    (required "TransactionHeader" "initial_state_commitment" value.initialStateCommitment)
  let final ← converted
    (required "TransactionHeader" "final_state_commitment" value.finalStateCommitment)
  return (accountId, initial, final, ← value.inputNotes.mapM inputNote)

def transactionHeader (value : Proto.TransactionHeader) :
    Except (Failure NodeError) TransactionHeader := do
  let (id, initial, final, inputNotes) ← fallible (transactionParts value)
  let outputNotes ← mapFailure NodeError.ofConversion (value.outputNotes.mapM noteHeader)
  let id ← fallible (converted (accountId id))
  let initial ← fallible (converted (digest initial))
  let final ← fallible (converted (digest final))
  return ⟨ConversionLibrary.transactionId id initial final inputNotes outputNotes, id, initial,
    final,
    inputNotes⟩

def transactionRecord (value : Proto.TransactionRecord) :
    Except (Failure NodeError) RpcTransactionRecord := do
  let header ← fallible
    (converted (required "TransactionRecord" "transaction_header" value.header))
  return ⟨value.blockNum.toNat, ← transactionHeader header⟩

/-- Represent a list of transaction records that were included in a range of blocks. -/
structure TransactionsInfo where
  chainTip : BlockNumber
  blockNum : BlockNumber
  transactionRecords : List RpcTransactionRecord

def transactionsInfo (value : Proto.SyncTransactionsResponse) :
    Except (Failure NodeError) TransactionsInfo := do
  let page ← fallible (converted
    (required "SyncTransactionsResponse" "pagination_info" value.paginationInfo))
  return ⟨page.chainTip.toNat, page.blockNum.toNat, ← value.transactions.mapM transactionRecord⟩

/-! ### Status and limits -/

/-- Represents node status info with fields converted into domain types. -/
structure RpcStatusInfo where
  version : String
  genesisCommitment : Option Word
  store : Option Proto.StoreStatus
  blockProducer : Option Proto.BlockProducerStatus

def rpcStatusInfo (value : Proto.RpcStatus) : Except NodeError RpcStatusInfo := do
  let genesisCommitment ← converted (value.genesisCommitment.mapM digest)
  return ⟨value.version, genesisCommitment, value.store, value.blockProducer⟩

omit [ConversionLibrary] in
/-- The limit of a parameter of an endpoint. -/
def getParam (limits : Proto.RpcLimits) (endpoint param : String) :
    Except RpcConversionError UInt32 :=
  match (limits.endpoints[endpoint]?).bind fun parameters => parameters[param]? with
  | some limit => .ok limit
  | none => .error (.missingField "RpcLimits" param)

end FromProto

/-- The maximum number of items in a request. -/
structure RpcLimits where
  noteIdsLimit : UInt32
  nullifiersLimit : UInt32
  accountIdsLimit : UInt32
  noteTagsLimit : UInt32
  deriving DecidableEq, Repr

namespace FromProto

def nullifiersLimit (limits : Proto.RpcLimits) : Except RpcConversionError UInt32 :=
  match getParam limits "CheckNullifiers" "nullifier" with
  | .ok limit => .ok limit
  | .error _ => getParam limits "SyncNullifiers" "nullifier"

/-- No limit is refused, not even zero. -/
def rpcLimits (limits : Proto.RpcLimits) : Except RpcConversionError RpcLimits := do
  return ⟨← getParam limits "GetNotesById" "note_id", ← nullifiersLimit limits,
    ← getParam limits "SyncTransactions" "account_id", ← getParam limits "SyncNotes" "note_tag"⟩

end FromProto

end MidenClient
