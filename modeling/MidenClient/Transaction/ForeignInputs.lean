/-
This file models how the inputs of a public foreign account are fetched
(`fetch_public_account_inputs` of `rust-client/src/transaction/mod.rs`, `get_account_proof` of
`rust-client/src/rpc/tonic_client/mod.rs` and `account_proof_into_inputs` of
`rust-client/src/transaction/request/foreign.rs`).

The inputs hold an account without the parts of its state that were not asked for, and a witness
of the commitment that the chain has for it. Only the header of the account is compared with that
commitment. The assets of the account are never requested, so they are only right when there are
none; and a partial storage keeps its maps by their roots, so of two maps with the same root only
the one that came last can be opened.

The code of the account is then stored for later requests. Whether that succeeds does not matter.
-/

import MidenClient.Rpc.HarmlessAnswers
import MidenClient.Transaction.DataStore

namespace MidenClient

open Std (ExtTreeMap)
open Fallible Panicking FromProto

/-! ### The request -/

/-- What is requested of a storage map. -/
inductive SlotData where
  | allEntries
  | mapKeys (keys : List StorageMapKey)
  deriving DecidableEq, Repr

structure StorageMapDetailRequest where
  slotName : StorageSlotName
  slotData : SlotData
  deriving DecidableEq, Repr

/-- Code and vault are answered when the account has others than the ones named here. A vault that
is not named is not requested. -/
structure AccountDetailRequest where
  codeCommitment : Option Word
  assetVaultCommitment : Option Word
  storageMaps : List StorageMapDetailRequest
  deriving DecidableEq, Repr

structure AccountProofRequest where
  accountId : AccountId
  blockNum : Option BlockNumber
  details : Option AccountDetailRequest
  deriving DecidableEq, Repr

def AccountStorageRequirements.mapRequests (requirements : AccountStorageRequirements) :
    List StorageMapDetailRequest :=
  requirements.map fun requirement =>
    ⟨requirement.1, if requirement.2.isEmpty then .allEntries else .mapKeys requirement.2⟩

/-- The details that are requested of an account with public state. -/
def accountDetailRequest (requirements : AccountStorageRequirements) : AccountDetailRequest :=
  ⟨some emptyWord, none, requirements.mapRequests⟩

def accountProofRequest [ProtocolLibrary] (accountId : AccountId)
    (requirements : AccountStorageRequirements) (stateAt : AccountStateAt) :
    AccountProofRequest where
  accountId := accountId
  blockNum := match stateAt with
    | .block blockNum => some blockNum
    | .chainTip => none
  details := if ProtocolLibrary.isPrivate accountId then none
    else some (accountDetailRequest requirements)

/-- What the node answers to a request for an account proof. -/
abbrev ProofAnswers := AccountProofRequest → Except NodeError Proto.AccountResponse

namespace ForeignInputs

theorem keysForSlot_toList (requirements : ExtTreeMap StorageSlotName (List StorageMapKey))
    (slotName : StorageSlotName) :
    AccountStorageRequirements.keysForSlot requirements.toList slotName =
      (requirements[slotName]?).getD [] := by
  unfold AccountStorageRequirements.keysForSlot
  congr 1
  cases found : requirements[slotName]? with
  | none =>
    rw [Option.map_eq_none_iff, List.find?_eq_none]
    rintro ⟨other, keys⟩ listed same
    obtain rfl := of_decide_eq_true same
    rw [ExtTreeMap.mem_toList_iff_getElem?_eq_some.mp listed] at found
    cases found
  | some keys =>
    have listed := ExtTreeMap.mem_toList_iff_getElem?_eq_some.mpr found
    obtain ⟨entry, first⟩ := Option.isSome_iff_exists.mp
      (List.find?_isSome.mpr ⟨_, listed, decide_eq_true rfl⟩ :
        (requirements.toList.find? fun requirement => requirement.1 = slotName).isSome = true)
    have matching := List.find?_some first
    have stored := ExtTreeMap.mem_toList_iff_getElem?_eq_some.mp (List.mem_of_find?_eq_some first)
    rw [of_decide_eq_true matching, found] at stored
    rw [first, Option.map_some, Option.some.inj stored]

theorem mem_mapRequests_iff {requirements : ExtTreeMap StorageSlotName (List StorageMapKey)}
    {request : StorageMapDetailRequest} :
    request ∈ AccountStorageRequirements.mapRequests requirements.toList ↔
      ∃ keys, requirements[request.slotName]? = some keys ∧
        request.slotData = if keys.isEmpty then .allEntries else .mapKeys keys := by
  unfold AccountStorageRequirements.mapRequests
  rw [List.mem_map]
  constructor
  · rintro ⟨⟨slotName, keys⟩, listed, rfl⟩
    exact ⟨keys, ExtTreeMap.mem_toList_iff_getElem?_eq_some.mp listed, rfl⟩
  · rintro ⟨keys, found, data⟩
    refine ⟨(request.slotName, keys), ExtTreeMap.mem_toList_iff_getElem?_eq_some.mpr found, ?_⟩
    rw [← data]

/-! ### Honest answers -/

section Honest

variable [ProtocolLibrary] [ConversionLibrary]

/-- The slots of an account with their values. -/
def slotHeaders (account : Account) : List StorageSlotHeader :=
  account.storage.toList.map fun slot => (slot.1, slot.2.slotType, slot.2.topValue)

/-- The opening is that of the key in a map with these entries. -/
structure OpensKey (contents : ExtTreeMap StorageMapKey Word) (opening : SmtOpening)
    (key : StorageMapKey) : Prop where
  root : ConversionLibrary.smtRoot opening = storageMapRoot contents
  value : ConversionLibrary.smtProofGet opening (ProtocolLibrary.mapKeyHash key) =
    some (some (contents[key]?.getD emptyWord))

/-- The details of a map are what was requested of it. When that is too much, they have no
entries. -/
inductive AnswersMap (account : Account) : StorageMapDetailRequest → ReceivedMapDetails → Prop
  | tooManyEntries {request : StorageMapDetailRequest} {contents : ExtTreeMap StorageMapKey Word}
      (stored : account.storage[request.slotName]? = some (.map contents)) :
      AnswersMap account request ⟨request.slotName, true, .allEntries []⟩
  | allEntries {slotName : StorageSlotName} {contents : ExtTreeMap StorageMapKey Word}
      {entries : List (StorageMapKey × Word)}
      (stored : account.storage[slotName]? = some (.map contents))
      (complete : entries.Perm contents.toList) :
      AnswersMap account ⟨slotName, .allEntries⟩ ⟨slotName, false, .allEntries entries⟩
  | mapKeys {slotName : StorageSlotName} {contents : ExtTreeMap StorageMapKey Word}
      {keys : List StorageMapKey} {openings : List SmtOpening}
      (stored : account.storage[slotName]? = some (.map contents))
      (opened : List.Forall₂ (OpensKey contents) openings keys) :
      AnswersMap account ⟨slotName, .mapKeys keys⟩ ⟨slotName, false, .entriesWithProofs openings⟩

/-- The details are those of the account, with nothing that was not requested. -/
structure HonestDetails (account : Account) (request : AccountDetailRequest)
    (message : Proto.AccountDetails) (maps : List ReceivedMapDetails) : Prop where
  headers : detailsHeader message = .ok (account.toHeader, slotHeaders account, maps)
  maps : ∃ order, order.Perm request.storageMaps ∧ List.Forall₂ (AnswersMap account) order maps
  code : ∀ bytes, message.code = some bytes →
    ConversionLibrary.accountCode bytes = .ok account.codeCommitment
  knownCode : message.code = none → request.codeCommitment = some account.codeCommitment
  vault : request.assetVaultCommitment = none →
    ∀ vault, message.vaultDetails = some vault → vault = ⟨false, []⟩

/-- The response proves the commitment of the account and gives the requested details. -/
structure HonestResponse (account : Account) (request : AccountProofRequest)
    (response : Proto.AccountResponse) : Prop where
  witness : ∃ message, response.witness = some message ∧
    accountWitness message = .ok ⟨account.id, account.toHeader.toCommitment⟩
  details : ∀ requested, request.details = some requested →
    ∃ message maps, response.details = some message ∧ HonestDetails account requested message maps
  blockNum : response.blockNum ≠ none

/-- Every answer of the node to a request for the account is an honest one. -/
def HonestNode (account : Account) (answers : ProofAnswers) : Prop :=
  ∀ request response, request.accountId = account.id → answers request = .ok response →
    HonestResponse account request response

/-! ### What is read of an honest answer -/

variable {account : Account} {requirements : ExtTreeMap StorageSlotName (List StorageMapKey)}
  {request : StorageMapDetailRequest} {details : ReceivedMapDetails}

theorem OpensKey.get {contents : ExtTreeMap StorageMapKey Word} {opening : SmtOpening}
    {key : StorageMapKey} (opens : OpensKey contents opening key) :
    (SmtOpening.toProof opening).get (ProtocolLibrary.mapKeyHash key) =
      some (contents[key]?.getD emptyWord) := by
  show (ConversionLibrary.smtProofGet opening _).getD none = _
  rw [opens.value]
  rfl

theorem OpensKey.checkProof {contents : ExtTreeMap StorageMapKey Word} {opening : SmtOpening}
    {key : StorageMapKey} (opens : OpensKey contents opening key) :
    checkProof (opening, key) = .ok () := by
  unfold FromProto.checkProof
  rw [opens.value]
  rfl

theorem mapM_checkProof {contents : ExtTreeMap StorageMapKey Word} {openings : List SmtOpening}
    {keys : List StorageMapKey} (opened : List.Forall₂ (OpensKey contents) openings keys) :
    ∃ checked, (openings.zip keys).mapM checkProof = .ok checked := by
  induction opened with
  | nil => exact ⟨[], rfl⟩
  | @cons opening key openings keys opens _ inductionHypothesis =>
    obtain ⟨checked, succeeded⟩ := inductionHypothesis
    refine ⟨() :: checked, ?_⟩
    rw [List.zip_cons_cons, List.mapM_cons, opens.checkProof]
    exact bind_eq_ok.mpr ⟨(), rfl, bind_eq_ok.mpr ⟨checked, succeeded, rfl⟩⟩

/-- Only maps can be requested of an honest node. -/
theorem AnswersMap.stored (answers : AnswersMap account request details) :
    ∃ contents : ExtTreeMap StorageMapKey Word,
      account.storage[request.slotName]? = some (.map contents) := by
  cases answers with
  | tooManyEntries stored => exact ⟨_, stored⟩
  | allEntries stored _ => exact ⟨_, stored⟩
  | mapKeys stored _ => exact ⟨_, stored⟩

/-- The proofs for the keys of a slot are those that were requested. -/
theorem AnswersMap.checkMapDetails (answers : AnswersMap account request details)
    (requested : request ∈ AccountStorageRequirements.mapRequests requirements.toList) :
    checkMapDetails requirements.toList details = .ok () := by
  cases answers with
  | tooManyEntries _ => rfl
  | allEntries _ _ => rfl
  | @mapKeys slotName contents keys openings stored opened =>
    obtain ⟨others, found, data⟩ := mem_mapRequests_iff.mp requested
    obtain rfl : keys = others := by
      split at data
      · cases data
      · exact SlotData.mapKeys.inj data
    obtain ⟨checked, succeeded⟩ := mapM_checkProof opened
    unfold FromProto.checkMapDetails
    dsimp only at found ⊢
    rw [keysForSlot_toList, found, Option.getD_some, if_neg (not_not.mpr opened.length_eq)]
    exact bind_eq_ok.mpr ⟨checked, succeeded, rfl⟩

variable {message : Proto.AccountDetails} {maps : List ReceivedMapDetails}

/-- Every map that is answered was requested. -/
theorem HonestDetails.requested {asked : AccountDetailRequest}
    (honest : HonestDetails account asked message maps) (listed : details ∈ maps) :
    ∃ request ∈ asked.storageMaps, AnswersMap account request details := by
  obtain ⟨order, reordered, answered⟩ := honest.maps
  obtain ⟨request, inOrder, answers⟩ := exists_of_forall₂_right answered listed
  exact ⟨request, reordered.mem_iff.mp inOrder, answers⟩

theorem HonestDetails.accountCode_eq_ok_iff {asked : AccountDetailRequest}
    (honest : HonestDetails account asked message maps) {known : List Word} {code : Word} :
    accountCode known account.codeCommitment message.code = .ok code ↔
      (message.code = none → account.codeCommitment ∈ known) ∧ code = account.codeCommitment := by
  cases received : message.code with
  | none =>
    unfold accountCode
    dsimp only
    split
    · rename_i among
      exact ⟨fun same => ⟨fun _ => among, (Except.ok.inj same).symm⟩,
        fun same => congrArg Except.ok same.2.symm⟩
    · rename_i unknown
      exact ⟨fun same => (nomatch same), fun same => absurd (same.1 rfl) unknown⟩
  | some bytes =>
    unfold accountCode
    dsimp only
    rw [mapError_eq_ok, honest.code bytes received]
    exact ⟨fun same => ⟨fun absent => (nomatch absent), (Except.ok.inj same).symm⟩,
      fun same => congrArg Except.ok same.2.symm⟩

/-- The vault is not requested, so it is answered without assets. -/
theorem HonestDetails.detailsVault_eq_ok_iff {asked : AccountDetailRequest}
    (honest : HonestDetails account asked message maps)
    (notRequested : asked.assetVaultCommitment = none) {vault : AccountVaultDetails} :
    detailsVault message = .ok vault ↔ message.vaultDetails ≠ none ∧ vault = ⟨false, []⟩ := by
  unfold detailsVault
  cases received : message.vaultDetails with
  | none => exact ⟨fun same => (nomatch same), fun same => absurd rfl same.1⟩
  | some answered =>
    rw [honest.vault notRequested answered received]
    exact ⟨fun same => ⟨Option.some_ne_none _, (Except.ok.inj same).symm⟩,
      fun same => congrArg Except.ok same.2.symm⟩

/-- The details that are made of an honest message. They have no assets. -/
def receivedDetails (account : Account) (maps : List ReceivedMapDetails) : AccountDetails :=
  ⟨account.toHeader, ⟨slotHeaders account, maps.map ReceivedMapDetails.toDetails⟩,
    account.codeCommitment, ⟨false, []⟩⟩

theorem HonestDetails.accountDetails_eq_ok_iff
    (honest : HonestDetails account (accountDetailRequest requirements.toList) message maps)
    {known : List Word} {result : AccountDetails} :
    accountDetails message known requirements.toList = .ok result ↔
      ((message.code = none → account.codeCommitment ∈ known) ∧ message.vaultDetails ≠ none) ∧
        result = receivedDetails account maps := by
  obtain ⟨checked, checks, _⟩ := mapM_forall₂ (checkMapDetails requirements.toList)
    (fun _ _ => True) maps (fun details listed => by
      obtain ⟨request, asked, answers⟩ := honest.requested listed
      exact ⟨(), answers.checkMapDetails asked, trivial⟩)
  unfold accountDetails
  rw [honest.headers]
  constructor
  · intro made
    obtain ⟨_, headers, made⟩ := bind_eq_ok.mp made
    cases Except.ok.inj headers
    obtain ⟨_, _, made⟩ := bind_eq_ok.mp made
    obtain ⟨code, codeMade, made⟩ := bind_eq_ok.mp made
    obtain ⟨vault, vaultMade, made⟩ := bind_eq_ok.mp made
    cases made
    obtain ⟨known, rfl⟩ := honest.accountCode_eq_ok_iff.mp (fallible_eq_ok.mp codeMade)
    obtain ⟨present, rfl⟩ := (honest.detailsVault_eq_ok_iff rfl).mp (fallible_eq_ok.mp vaultMade)
    exact ⟨⟨known, present⟩, rfl⟩
  · rintro ⟨⟨known, present⟩, rfl⟩
    have code := honest.accountCode_eq_ok_iff.mpr ⟨known, rfl⟩
    have vault := (honest.detailsVault_eq_ok_iff rfl).mpr ⟨present, rfl⟩
    exact bind_eq_ok.mpr ⟨_, rfl, bind_eq_ok.mpr ⟨checked, checks,
      bind_eq_ok.mpr ⟨_, fallible_eq_ok.mpr code,
        bind_eq_ok.mpr ⟨_, fallible_eq_ok.mpr vault, rfl⟩⟩⟩⟩

/-- The proof that is made of an honest response. -/
def receivedProof (account : Account) (maps : List ReceivedMapDetails) : AccountProof :=
  ⟨⟨account.id, account.toHeader.toCommitment⟩, some (receivedDetails account maps)⟩

theorem newProof_receivedDetails (account : Account) (maps : List ReceivedMapDetails) :
    NodeCalls.newProof ⟨account.id, account.toHeader.toCommitment⟩
      (some (receivedDetails account maps)) = .ok (receivedProof account maps) := by
  unfold NodeCalls.newProof AccountProof.new receivedDetails
  dsimp only
  rw [if_neg (not_not.mpr rfl),
    if_neg (show ¬account.toHeader.id ≠ account.id from not_not.mpr rfl),
    if_neg (show ¬account.codeCommitment ≠ account.toHeader.codeCommitment from not_not.mpr rfl)]
  rfl

/-- The details of a public account are read. -/
theorem publicDetails_eq_ok_iff
    (isPublic : ProtocolLibrary.isPrivate account.id = false) {known : List Word}
    {commitment : Word}
    {result : Option AccountDetails} :
    NodeCalls.publicDetails requirements.toList known ⟨account.id, commitment⟩ (some message) =
        .ok result ↔
      ∃ details, accountDetails message known requirements.toList = .ok details ∧
        result = some details := by
  unfold NodeCalls.publicDetails
  dsimp only
  rw [isPublic]
  constructor
  · intro made
    obtain ⟨_, received, made⟩ := bind_eq_ok.mp made
    cases Except.ok.inj received
    obtain ⟨details, read, made⟩ := bind_eq_ok.mp made
    cases made
    exact ⟨details, read, rfl⟩
  · rintro ⟨details, read, rfl⟩
    exact bind_eq_ok.mpr ⟨message, rfl, bind_eq_ok.mpr ⟨details, read, rfl⟩⟩

variable {response : Proto.AccountResponse} {stateAt : AccountStateAt}

omit [ConversionLibrary] in
/-- The details of a public account are requested. -/
theorem accountProofRequest_details (isPublic : ProtocolLibrary.isPrivate account.id = false)
    (requirements : AccountStorageRequirements) (stateAt : AccountStateAt) :
    (accountProofRequest account.id requirements stateAt).details =
      some (accountDetailRequest requirements) := by
  unfold accountProofRequest
  rw [isPublic]
  rfl

theorem HonestResponse.exists_getAccountProof_iff {asked : AccountProofRequest}
    (honest : HonestResponse account asked response)
    (isPublic : ProtocolLibrary.isPrivate account.id = false)
    (present : response.details = some message)
    (about : HonestDetails account (accountDetailRequest requirements.toList) message maps)
    {known : List Word} {proof : AccountProof} :
    (∃ blockNum, NodeCalls.getAccountProof requirements.toList known (.ok response) =
        .ok (blockNum, proof)) ↔
      ((message.code = none → account.codeCommitment ∈ known) ∧ message.vaultDetails ≠ none) ∧
        proof = receivedProof account maps := by
  obtain ⟨witness, witnessPresent, witnessRead⟩ := honest.witness
  obtain ⟨blockNum, blockPresent⟩ := Option.ne_none_iff_exists'.mp honest.blockNum
  have read : mapFailure NodeError.ofConversion (accountWitness witness) =
      .ok ⟨account.id, account.toHeader.toCommitment⟩ := mapFailure_eq_ok.mpr witnessRead
  unfold NodeCalls.getAccountProof
  constructor
  · rintro ⟨_, made⟩
    obtain ⟨_, received, made⟩ := bind_eq_ok.mp made
    cases Except.ok.inj received
    rw [witnessPresent, blockPresent] at made
    obtain ⟨_, received, made⟩ := bind_eq_ok.mp made
    cases Except.ok.inj received
    obtain ⟨_, received, made⟩ := bind_eq_ok.mp made
    cases Except.ok.inj (read.symm.trans received)
    obtain ⟨_, headers, made⟩ := bind_eq_ok.mp made
    rw [present] at headers
    obtain ⟨details, detailsRead, rfl⟩ := (publicDetails_eq_ok_iff isPublic).mp headers
    obtain ⟨accepted, rfl⟩ := about.accountDetails_eq_ok_iff.mp detailsRead
    obtain ⟨_, proofMade, made⟩ := bind_eq_ok.mp made
    cases Except.ok.inj ((newProof_receivedDetails account maps).symm.trans
      (fallible_eq_ok.mp proofMade))
    obtain ⟨_, _, made⟩ := bind_eq_ok.mp made
    cases made
    exact ⟨accepted, rfl⟩
  · rintro ⟨accepted, rfl⟩
    have details := about.accountDetails_eq_ok_iff.mpr ⟨accepted, rfl⟩
    refine ⟨blockNum.toNat, bind_eq_ok.mpr ⟨response, rfl, ?_⟩⟩
    rw [witnessPresent, blockPresent, present]
    refine bind_eq_ok.mpr ⟨witness, rfl, bind_eq_ok.mpr ⟨_, read, ?_⟩⟩
    refine bind_eq_ok.mpr ⟨_, (publicDetails_eq_ok_iff isPublic).mpr ⟨_, details, rfl⟩, ?_⟩
    exact bind_eq_ok.mpr ⟨_, fallible_eq_ok.mpr (newProof_receivedDetails account maps),
      bind_eq_ok.mpr ⟨blockNum, rfl, rfl⟩⟩

end Honest

end ForeignInputs

/-! ### Partial accounts -/

/-- The slots of an account with some of its maps, by their roots. -/
structure PartialStorage where
  header : List StorageSlotHeader
  maps : ExtTreeMap Word PartialStorageMap

/-- An account with some parts of its state. The code stands for itself as its commitment. -/
structure PartialAccount where
  id : AccountId
  nonce : ℕ
  code : Word
  storage : PartialStorage
  vault : ExtTreeMap AssetVaultKey Asset

/-- A partial account with the witness of its commitment. -/
structure ForeignAccountInputs where
  account : PartialAccount
  witness : AccountWitness

/-- The constructors of partial accounts. -/
class ForeignAccountConstructors extends PartialAccountConstructors where
  /-- The maps of `PartialStorage::new`, which keeps them by their roots. -/
  mapsByRoot : List PartialStorageMap → ExtTreeMap Word PartialStorageMap

section Inputs

variable [ProtocolLibrary]

def PartialAccount.toHeader (account : PartialAccount) : AccountHeader where
  id := account.id
  nonce := account.nonce
  vaultRoot := assetVaultRoot account.vault
  storageCommitment := ProtocolLibrary.storageCommitment account.storage.header
  codeCommitment := account.code

namespace ForeignInputs

variable [ForeignAccountConstructors]

/-- `account_proof_into_inputs`. -/
def ofProof (proof : AccountProof) (requirements : AccountStorageRequirements) :
    Except String ForeignAccountInputs :=
  match proof.stateHeaders with
  | none => .error "foreign account data missing"
  | some details => do
    let maps ← details.storageDetails.mapDetails.mapM (partialMapOfDetails requirements)
    let vault ← AccountConstructors.assetVault details.vaultDetails.assets
    PartialAccountConstructors.checkPartialAccount details.header details.code
      details.storageDetails.header maps
    return ⟨⟨details.header.id, details.header.nonce, details.code,
      ⟨details.storageDetails.header, ForeignAccountConstructors.mapsByRoot maps⟩, vault⟩,
      proof.accountWitness⟩

/-- The data store looks at a part of these inputs. -/
theorem accountProofIntoInputs_of_ofProof {proof : AccountProof}
    {requirements : AccountStorageRequirements} {inputs : ForeignAccountInputs}
    (made : ofProof proof requirements = .ok inputs) :
    ∃ maps, accountProofIntoInputs proof.stateHeaders requirements =
        .ok ⟨inputs.account.id, inputs.account.code, inputs.account.storage.header, maps⟩ ∧
      inputs.account.storage.maps = ForeignAccountConstructors.mapsByRoot maps := by
  unfold ofProof at made
  split at made
  · cases made
  · rename_i details present
    obtain ⟨maps, mapsMade, made⟩ := bind_eq_ok.mp made
    obtain ⟨vault, vaultMade, made⟩ := bind_eq_ok.mp made
    obtain ⟨_, checked, made⟩ := bind_eq_ok.mp made
    cases made
    refine ⟨maps, ?_, rfl⟩
    rw [present]
    exact bind_eq_ok.mpr ⟨maps, mapsMade, bind_eq_ok.mpr ⟨vault, vaultMade,
      bind_eq_ok.mpr ⟨_, checked, rfl⟩⟩⟩

variable [ConversionLibrary]

inductive FetchError where
  | storeError (error : StoreError)
  | rpcError (error : NodeError)
  | requestError (message : String)

/-- Fetches a foreign account's proof and details from the network. The store may know the code
that the account had before. -/
def fetchPublicAccountInputs (foreignAccountCode : Except StoreError (Option Word))
    (answers : ProofAnswers) (accountId : AccountId) (requirements : AccountStorageRequirements)
    (stateAt : AccountStateAt) : Except (Failure FetchError) ForeignAccountInputs := do
  let knownAccountCode ← fallible (foreignAccountCode.mapError .storeError)
  let answered ← mapFailure .rpcError (NodeCalls.getAccountProof requirements
    knownAccountCode.toList (answers (accountProofRequest accountId requirements stateAt)))
  fallible ((ofProof answered.2 requirements).mapError .requestError)

/-! ### Partial maps -/

/-- The root under which a map is kept. One that was too large is taken for an empty one. -/
def keptRoot (account : Account) (details : ReceivedMapDetails) : Word :=
  if details.tooManyEntries then storageMapRoot ∅
  else (account.storage[details.slotName]?).elim emptyWord StorageSlotContent.topValue

/-- The entries, or one of the openings, have the key. -/
def covers (details : ReceivedMapDetails) (key : StorageMapKey) : Bool :=
  match details.entries with
  | .allEntries _ => true
  | .entriesWithProofs openings =>
    openings.any fun opening =>
      (SmtOpening.toProof opening).get (ProtocolLibrary.mapKeyHash key) |>.isSome

/-- What the constructors of the protocol library make of the parts of an account. -/
structure PartialAccountLaws : Prop where
  /-- A vault can be without assets. -/
  assetVault : AccountConstructors.assetVault [] = .ok ∅
  /-- The root of a map depends on its entries, not on their order. -/
  storageMap : ∀ (contents : ExtTreeMap StorageMapKey Word) entries,
    entries.Perm contents.toList → ∃ map, AccountConstructors.storageMap entries = .ok map ∧
      storageMapRoot map = storageMapRoot contents
  /-- Witnesses of one tree can be put together. They open the keys that they cover. -/
  partialMap : ∀ (witnesses : List StorageMapWitness) (root : Word), witnesses ≠ [] →
    (∀ witness ∈ witnesses, witness.proof.root = root) →
      ∃ map, PartialAccountConstructors.partialMap witnesses = .ok map ∧ map.root = root ∧
        ∀ key, map.tracked key = witnesses.any fun witness =>
          (witness.proof.get (ProtocolLibrary.mapKeyHash key)).isSome
  /-- A partial account without a seed is not new, and has only maps of its slots. -/
  checkPartialAccount : ∀ (header : AccountHeader) code slots (maps : List PartialStorageMap),
    PartialAccountConstructors.checkPartialAccount header code slots maps = .ok () ↔
      header.nonce ≠ 0 ∧ ∀ map ∈ maps, ∃ slotName, (slotName, .map, map.root) ∈ slots
  /-- Of two maps with the same root the last one is kept. -/
  mapsByRoot : ∀ (maps : List PartialStorageMap) (root : Word),
    (ForeignAccountConstructors.mapsByRoot maps)[root]? =
      maps.reverse.find? fun map => map.root = root

section Maps

variable {account : Account} {requirements : ExtTreeMap StorageSlotName (List StorageMapKey)}
  {request : StorageMapDetailRequest} {details : ReceivedMapDetails}

/-- The partial map has the root and the keys of the details. -/
structure Keeps (account : Account) (details : ReceivedMapDetails) (map : PartialStorageMap) :
    Prop where
  root : map.root = keptRoot account details
  tracked : ∀ key, map.tracked key = covers details key

/-- A map of which all entries are there. -/
theorem exists_fullMap (laws : PartialAccountLaws) {contents : ExtTreeMap StorageMapKey Word}
    {entries : List (StorageMapKey × Word)} (complete : entries.Perm contents.toList)
    {slotName : StorageSlotName} {tooManyEntries : Bool}
    (kept : keptRoot account ⟨slotName, tooManyEntries, .allEntries entries⟩ =
      storageMapRoot contents) :
    ∃ map, partialMapOfDetails requirements.toList (ReceivedMapDetails.toDetails
        ⟨slotName, tooManyEntries, .allEntries entries⟩) = .ok map ∧
      Keeps account ⟨slotName, tooManyEntries, .allEntries entries⟩ map := by
  obtain ⟨map, made, root⟩ := laws.storageMap contents entries complete
  exact ⟨_, bind_eq_ok.mpr ⟨map, made, rfl⟩, root.trans kept.symm, fun _ => rfl⟩

omit [ForeignAccountConstructors] in
/-- Each opening is a witness of its key. -/
theorem mapM_witness {contents : ExtTreeMap StorageMapKey Word} {openings : List SmtOpening}
    {keys : List StorageMapKey} (opened : List.Forall₂ (OpensKey contents) openings keys) :
    ∃ witnesses, ((openings.map SmtOpening.toProof).zip keys).mapM
        (fun pair => StorageMapWitness.new pair.1 [pair.2]) = .ok witnesses ∧
      witnesses.map StorageMapWitness.proof = openings.map SmtOpening.toProof := by
  induction opened with
  | nil => exact ⟨[], rfl, rfl⟩
  | @cons opening key openings keys opens _ inductionHypothesis =>
    obtain ⟨witnesses, made, proofs⟩ := inductionHypothesis
    have here : StorageMapWitness.new (SmtOpening.toProof opening) [key] =
        .ok ⟨SmtOpening.toProof opening, [key]⟩ := by
      unfold StorageMapWitness.new
      rw [List.all_cons, opens.get]
      rfl
    refine ⟨⟨SmtOpening.toProof opening, [key]⟩ :: witnesses, ?_, ?_⟩
    · rw [List.map_cons, List.zip_cons_cons, List.mapM_cons]
      exact bind_eq_ok.mpr ⟨_, here, bind_eq_ok.mpr ⟨witnesses, made, rfl⟩⟩
    · rw [List.map_cons, List.map_cons, proofs]

/-- A partial map is made of the details that answer a request. -/
theorem AnswersMap.exists_partialMap (laws : PartialAccountLaws)
    (answers : AnswersMap account request details)
    (requested : request ∈ AccountStorageRequirements.mapRequests requirements.toList) :
    ∃ map, partialMapOfDetails requirements.toList (ReceivedMapDetails.toDetails details) =
      .ok map ∧
      Keeps account details map := by
  cases answers with
  | tooManyEntries _ =>
    exact exists_fullMap laws (List.Perm.refl (∅ : ExtTreeMap StorageMapKey Word).toList) rfl
  | @allEntries slotName contents entries stored complete =>
    refine exists_fullMap laws complete ?_
    unfold keptRoot
    rw [if_neg Bool.false_ne_true, stored]
    rfl
  | @mapKeys slotName contents keys openings stored opened =>
    obtain ⟨others, found, data⟩ := mem_mapRequests_iff.mp requested
    dsimp only at found data
    split at data
    · cases data
    · rename_i nonempty
      cases SlotData.mapKeys.inj data
      obtain ⟨witnesses, made, proofs⟩ := mapM_witness opened
      have some_ : witnesses ≠ [] := by
        rintro rfl
        rw [List.map_nil, eq_comm, List.map_eq_nil_iff] at proofs
        rw [proofs, List.forall₂_nil_left_iff] at opened
        exact nonempty (List.isEmpty_iff.mpr opened)
      have roots : ∀ witness ∈ witnesses, witness.proof.root = storageMapRoot contents := by
        intro witness listed
        have listed := List.mem_map_of_mem (f := StorageMapWitness.proof) listed
        rw [proofs] at listed
        obtain ⟨opening, among, same⟩ := List.mem_map.mp listed
        obtain ⟨key, _, opens⟩ := exists_of_forall₂_left opened among
        rw [← same]
        exact opens.root
      obtain ⟨map, mapMade, root, tracked⟩ := laws.partialMap witnesses _ some_ roots
      refine ⟨map, ?_, ?_, fun key => ?_⟩
      · unfold partialMapOfDetails
        dsimp only [ReceivedMapDetails.toDetails]
        rw [keysForSlot_toList, found]
        exact bind_eq_ok.mpr ⟨witnesses, made, mapMade⟩
      · unfold keptRoot
        rw [if_neg Bool.false_ne_true, stored]
        exact root
      · have same := congrArg (fun proofs : List SmtProof => proofs.any fun proof =>
          (proof.get (ProtocolLibrary.mapKeyHash key)).isSome) proofs
        rw [tracked]
        show _ = openings.any _
        simpa only [List.any_map, Function.comp_def] using same

end Maps

/-! ### Exact inputs -/

variable [WitnessLibrary]

/-- Opens a key of the map in a slot. -/
def openKey (storage : PartialStorage) (slotName : StorageSlotName)
    (key : StorageMapKey) : Option StorageMapWitness := do
  let slot ← storage.header.find? fun slot => slot.1 = slotName
  let partialMap ← storage.maps[slot.2.2]?
  partialMap.openKey key

/-- Without keys all entries of a map are requested. -/
def Requests (keys : List StorageMapKey) (key : StorageMapKey) : Prop :=
  keys = [] ∨ key ∈ keys

/-- The partial account is the one that the chain has, and everything requested can be opened. -/
structure Exact (requirements : ExtTreeMap StorageSlotName (List StorageMapKey))
    (inputs : ForeignAccountInputs) : Prop where
  commitment : inputs.account.toHeader.toCommitment = inputs.witness.stateCommitment
  opens : ∀ (slotName : StorageSlotName) keys, requirements[slotName]? = some keys →
    ∀ key, Requests keys key → (openKey inputs.account.storage slotName key).isSome = true

/-- Fetching the inputs fails or gives exact ones. -/
def FetchesExactly (foreignAccountCode : Except StoreError (Option Word)) (answers : ProofAnswers)
    (accountId : AccountId) (requirements : ExtTreeMap StorageSlotName (List StorageMapKey))
    (stateAt : AccountStateAt) : Prop :=
  ∀ inputs, fetchPublicAccountInputs foreignAccountCode answers accountId requirements.toList
    stateAt = .ok inputs → Exact requirements inputs

/-- Nothing in the details is a reason to refuse them. -/
structure Accepted (account : Account) (knownAccountCode : Option Word)
    (message : Proto.AccountDetails) (maps : List ReceivedMapDetails) : Prop where
  nonce : account.nonce ≠ 0
  code : message.code = none → account.codeCommitment ∈ knownAccountCode.toList
  vault : message.vaultDetails ≠ none
  roots : ∀ details ∈ maps, ∃ (slotName : StorageSlotName)
    (contents : ExtTreeMap StorageMapKey Word),
    account.storage[slotName]? = some (.map contents) ∧
      storageMapRoot contents = keptRoot account details

/-- The last of the maps that are kept under the root of a requested map has the requested keys. -/
def KeepsRequested (account : Account)
    (requirements : ExtTreeMap StorageSlotName (List StorageMapKey))
    (maps : List ReceivedMapDetails) : Prop :=
  ∀ (slotName : StorageSlotName) keys (contents : ExtTreeMap StorageMapKey Word),
    requirements[slotName]? = some keys → account.storage[slotName]? = some (.map contents) →
      ∀ key, Requests keys key → ∃ details,
        maps.reverse.find? (fun details => keptRoot account details = storageMapRoot contents) =
          some details ∧ covers details key = true

/-- Where nothing is refused, the vault of the account is empty, and no requested map is displaced
by another one. -/
def NothingLost (foreignAccountCode : Except StoreError (Option Word)) (answers : ProofAnswers)
    (account : Account) (requirements : ExtTreeMap StorageSlotName (List StorageMapKey))
    (stateAt : AccountStateAt) : Prop :=
  ∀ knownAccountCode response message header slots maps,
    foreignAccountCode = .ok knownAccountCode →
      answers (accountProofRequest account.id requirements.toList stateAt) = .ok response →
        response.details = some message → detailsHeader message = .ok (header, slots, maps) →
          Accepted account knownAccountCode message maps →
            account.vaultRoot = assetVaultRoot ∅ ∧ KeepsRequested account requirements maps

section Fetched

variable {account : Account} {requirements : ExtTreeMap StorageSlotName (List StorageMapKey)}
  {message : Proto.AccountDetails} {maps : List ReceivedMapDetails}

omit [WitnessLibrary] [ForeignAccountConstructors] [ConversionLibrary] in
theorem mem_slotHeaders_map_iff {slotName : StorageSlotName} {root : Word} :
    (slotName, .map, root) ∈ slotHeaders account ↔
      ∃ contents : ExtTreeMap StorageMapKey Word,
        account.storage[slotName]? = some (.map contents) ∧ storageMapRoot contents = root := by
  unfold slotHeaders
  rw [List.mem_map]
  constructor
  · rintro ⟨⟨name, content⟩, listed, same⟩
    have stored := ExtTreeMap.mem_toList_iff_getElem?_eq_some.mp listed
    cases content with
    | value word => cases same
    | map contents =>
      cases same
      exact ⟨contents, stored, rfl⟩
  · rintro ⟨contents, stored, rfl⟩
    exact ⟨(slotName, .map contents), ExtTreeMap.mem_toList_iff_getElem?_eq_some.mpr stored, rfl⟩

omit [WitnessLibrary] in
/-- The maps of honest details are those of the account, if no empty one stands for a large one. -/
theorem checkPartialAccount_iff (laws : PartialAccountLaws) {made : List PartialStorageMap}
    (kept : List.Forall₂ (Keeps account) maps made) :
    PartialAccountConstructors.checkPartialAccount account.toHeader account.codeCommitment
        (slotHeaders account) made = .ok () ↔
      account.nonce ≠ 0 ∧ ∀ details ∈ maps, ∃ (slotName : StorageSlotName)
        (contents : ExtTreeMap StorageMapKey Word),
          account.storage[slotName]? = some (.map contents) ∧
            storageMapRoot contents = keptRoot account details := by
  rw [laws.checkPartialAccount]
  refine and_congr_right fun _ => ?_
  constructor
  · intro listed details among
    obtain ⟨map, inMade, keeps⟩ := exists_of_forall₂_left kept among
    obtain ⟨slotName, header⟩ := listed map inMade
    obtain ⟨contents, stored, root⟩ := mem_slotHeaders_map_iff.mp header
    exact ⟨slotName, contents, stored, root.trans keeps.root⟩
  · intro stored map among
    obtain ⟨details, inMaps, keeps⟩ := exists_of_forall₂_right kept among
    obtain ⟨slotName, contents, there, root⟩ := stored details inMaps
    exact ⟨slotName, mem_slotHeaders_map_iff.mpr ⟨contents, there, root.trans keeps.root.symm⟩⟩

/-- The inputs that are made of honest details. They have no assets. -/
def receivedInputs (account : Account) (made : List PartialStorageMap) : ForeignAccountInputs :=
  ⟨⟨account.id, account.nonce, account.codeCommitment,
    ⟨slotHeaders account, ForeignAccountConstructors.mapsByRoot made⟩, ∅⟩,
    ⟨account.id, account.toHeader.toCommitment⟩⟩

omit [WitnessLibrary] in
theorem HonestDetails.ofProof_eq_ok_iff (laws : PartialAccountLaws)
    (about : HonestDetails account (accountDetailRequest requirements.toList) message maps) :
    ∃ made, List.Forall₂ (Keeps account) maps made ∧ ∀ inputs,
      (ofProof (receivedProof account maps) requirements.toList = .ok inputs ↔
        (account.nonce ≠ 0 ∧ ∀ details ∈ maps, ∃ (slotName : StorageSlotName)
          (contents : ExtTreeMap StorageMapKey Word),
            account.storage[slotName]? = some (.map contents) ∧
              storageMapRoot contents = keptRoot account details) ∧
          inputs = receivedInputs account made) := by
  obtain ⟨made, makes, kept⟩ := mapM_forall₂
    (fun details => partialMapOfDetails requirements.toList (ReceivedMapDetails.toDetails details))
    (Keeps account) maps (fun details listed => by
      obtain ⟨request, asked, answers⟩ := about.requested listed
      exact answers.exists_partialMap laws asked)
  have makes : (maps.map ReceivedMapDetails.toDetails).mapM
    (partialMapOfDetails requirements.toList) =
      .ok made := by
    rw [List.mapM_map]
    exact makes
  refine ⟨made, kept, fun inputs => ?_⟩
  rw [← checkPartialAccount_iff laws kept]
  unfold ofProof receivedProof receivedDetails
  constructor
  · intro succeeded
    obtain ⟨_, mapsMade, succeeded⟩ := bind_eq_ok.mp succeeded
    cases makes.symm.trans mapsMade
    obtain ⟨_, vaultMade, succeeded⟩ := bind_eq_ok.mp succeeded
    cases laws.assetVault.symm.trans vaultMade
    obtain ⟨_, checked, succeeded⟩ := bind_eq_ok.mp succeeded
    cases succeeded
    exact ⟨checked, rfl⟩
  · rintro ⟨checked, rfl⟩
    exact bind_eq_ok.mpr ⟨made, makes, bind_eq_ok.mpr ⟨∅, laws.assetVault,
      bind_eq_ok.mpr ⟨(), checked, rfl⟩⟩⟩

omit [WitnessLibrary] [ForeignAccountConstructors] [ConversionLibrary] in
theorem find?_slotHeaders {slotName : StorageSlotName} {contents : ExtTreeMap StorageMapKey Word}
    (stored : account.storage[slotName]? = some (.map contents)) :
    (slotHeaders account).find? (fun slot => slot.1 = slotName) =
      some (slotName, .map, storageMapRoot contents) := by
  have listed := mem_slotHeaders_map_iff.mpr ⟨contents, stored, rfl⟩
  obtain ⟨slot, first⟩ := Option.isSome_iff_exists.mp
    (List.find?_isSome.mpr ⟨_, listed, decide_eq_true rfl⟩ :
      ((slotHeaders account).find? fun slot => slot.1 = slotName).isSome = true)
  have matching := List.find?_some first
  obtain ⟨⟨name, content⟩, inStorage, rfl⟩ := List.mem_map.mp (List.mem_of_find?_eq_some first)
  obtain rfl := of_decide_eq_true matching
  rw [ExtTreeMap.mem_toList_iff_getElem?_eq_some, stored] at inStorage
  cases inStorage
  exact first

/-- A key can be opened when the last map with the root of its slot has it. -/
theorem openKey_receivedInputs (laws : PartialAccountLaws) {made : List PartialStorageMap}
    (kept : List.Forall₂ (Keeps account) maps made) {slotName : StorageSlotName}
    {contents : ExtTreeMap StorageMapKey Word}
    (stored : account.storage[slotName]? = some (.map contents)) (key : StorageMapKey) :
    (openKey (receivedInputs account made).account.storage slotName key).isSome = true ↔
      ∃ details, maps.reverse.find? (fun details => keptRoot account details =
        storageMapRoot contents) = some details ∧ covers details key = true := by
  have paired := find?_forall₂ (List.rel_reverse kept)
    (fun details => keptRoot account details = storageMapRoot contents)
    (fun map => map.root = storageMapRoot contents)
    fun details map keeps => by rw [keeps.root]
  show (((slotHeaders account).find? fun slot => slot.1 = slotName).bind fun slot =>
    (ForeignAccountConstructors.mapsByRoot made)[slot.2.2]?.bind fun partialMap =>
      partialMap.openKey key).isSome = true ↔ _
  rw [find?_slotHeaders stored, Option.bind_some, laws.mapsByRoot]
  generalize maps.reverse.find? (fun details => keptRoot account details =
    storageMapRoot contents) = firstDetails at paired ⊢
  generalize made.reverse.find? (fun map => map.root = storageMapRoot contents) =
    firstMap at paired ⊢
  cases paired with
  | none => exact ⟨fun absent => (nomatch absent), fun ⟨_, absent, _⟩ => (nomatch absent)⟩
  | @some details map keeps =>
    rw [Option.bind_some]
    unfold PartialStorageMap.openKey
    rw [keeps.tracked]
    constructor
    · intro opened
      refine ⟨details, rfl, ?_⟩
      by_contra missing
      rw [if_neg missing] at opened
      cases opened
    · rintro ⟨_, ⟨⟩, covered⟩
      rw [if_pos covered]
      rfl

omit [WitnessLibrary] [ForeignAccountConstructors] in
theorem HonestDetails.requestedMap
    (about : HonestDetails account (accountDetailRequest requirements.toList) message maps)
    {slotName : StorageSlotName} {keys : List StorageMapKey}
    (required : requirements[slotName]? = some keys) :
    ∃ contents : ExtTreeMap StorageMapKey Word,
      account.storage[slotName]? = some (.map contents) := by
  obtain ⟨order, reordered, answered⟩ := about.maps
  have asked := reordered.mem_iff.mpr (mem_mapRequests_iff.mpr ⟨keys, required, rfl⟩ :
    (⟨slotName, _⟩ : StorageMapDetailRequest) ∈
      (accountDetailRequest requirements.toList).storageMaps)
  obtain ⟨details, _, answers⟩ := exists_of_forall₂_left answered asked
  exact answers.stored

theorem HonestDetails.exact_receivedInputs_iff (collisionFree : CollisionFree)
    (laws : PartialAccountLaws)
    (about : HonestDetails account (accountDetailRequest requirements.toList) message maps)
    {made : List PartialStorageMap} (kept : List.Forall₂ (Keeps account) maps made) :
    Exact requirements (receivedInputs account made) ↔
      account.vaultRoot = assetVaultRoot ∅ ∧ KeepsRequested account requirements maps := by
  constructor
  · intro exact_
    refine ⟨congrArg AccountHeader.vaultRoot (collisionFree exact_.commitment).symm, ?_⟩
    intro slotName keys contents required stored key requested
    exact (openKey_receivedInputs laws kept stored key).mp
      (exact_.opens slotName keys required key requested)
  · rintro ⟨noAssets, keeps⟩
    constructor
    · show AccountHeader.toCommitment ⟨account.id, account.nonce, assetVaultRoot ∅, _, _⟩ =
        AccountHeader.toCommitment ⟨account.id, account.nonce, account.vaultRoot, _, _⟩
      rw [noAssets]
      rfl
    · intro slotName keys required key requested
      obtain ⟨contents, stored⟩ := about.requestedMap required
      exact (openKey_receivedInputs laws kept stored key).mpr
        (keeps slotName keys contents required stored key requested)

end Fetched

section Node

variable {account : Account} {answers : ProofAnswers}
  {foreignAccountCode : Except StoreError (Option Word)}
  {requirements : ExtTreeMap StorageSlotName (List StorageMapKey)} {stateAt : AccountStateAt}

/-- What is fetched without being refused is exact only if nothing is lost. -/
theorem nothingLost_of_fetchesExactly (collisionFree : CollisionFree) (laws : PartialAccountLaws)
    (isPublic : ProtocolLibrary.isPrivate account.id = false) (honest : HonestNode account answers)
    (exactly : FetchesExactly foreignAccountCode answers account.id requirements stateAt) :
    NothingLost foreignAccountCode answers account requirements stateAt := by
  intro known response message header slots maps code answered present headers accepted
  have truthful := honest _ _ rfl answered
  obtain ⟨_, _, again, about⟩ := truthful.details _ (accountProofRequest_details isPublic _ stateAt)
  cases present.symm.trans again
  cases headers.symm.trans about.headers
  obtain ⟨made, kept, inputsMade⟩ := about.ofProof_eq_ok_iff laws
  obtain ⟨blockNum, proofMade⟩ := (truthful.exists_getAccountProof_iff isPublic present about).mpr
    ⟨⟨accepted.code, accepted.vault⟩, rfl⟩
  refine (about.exact_receivedInputs_iff collisionFree laws kept).mp (exactly _ ?_)
  unfold fetchPublicAccountInputs
  rw [code, answered]
  exact bind_eq_ok.mpr ⟨known, rfl, bind_eq_ok.mpr ⟨_, mapFailure_eq_ok.mpr proofMade,
    fallible_eq_ok.mpr (mapError_eq_ok.mpr
      ((inputsMade _).mpr ⟨⟨accepted.nonce, accepted.roots⟩, rfl⟩))⟩⟩

theorem fetchesExactly_of_nothingLost (collisionFree : CollisionFree) (laws : PartialAccountLaws)
    (isPublic : ProtocolLibrary.isPrivate account.id = false) (honest : HonestNode account answers)
    (nothingLost : NothingLost foreignAccountCode answers account requirements stateAt) :
    FetchesExactly foreignAccountCode answers account.id requirements stateAt := by
  intro inputs fetched
  unfold fetchPublicAccountInputs at fetched
  obtain ⟨known, code, fetched⟩ := bind_eq_ok.mp fetched
  obtain ⟨⟨blockNum, proof⟩, proofMade, inputsMade⟩ := bind_eq_ok.mp fetched
  have code := mapError_eq_ok.mp (fallible_eq_ok.mp code)
  have proofMade := mapFailure_eq_ok.mp proofMade
  have inputsMade := mapError_eq_ok.mp (fallible_eq_ok.mp inputsMade)
  cases answered : answers (accountProofRequest account.id requirements.toList stateAt) with
  | error reason =>
    rw [answered] at proofMade
    cases proofMade
  | ok response =>
    rw [answered] at proofMade
    have truthful := honest _ _ rfl answered
    obtain ⟨message, maps, present, about⟩ :=
      truthful.details _ (accountProofRequest_details isPublic _ stateAt)
    obtain ⟨⟨codeKnown, vault⟩, rfl⟩ :=
      (truthful.exists_getAccountProof_iff isPublic present about).mp ⟨blockNum, proofMade⟩
    obtain ⟨made, kept, exactly⟩ := about.ofProof_eq_ok_iff laws
    obtain ⟨⟨nonce, roots⟩, rfl⟩ := (exactly inputs).mp inputsMade
    exact (about.exact_receivedInputs_iff collisionFree laws kept).mpr
      (nothingLost known response message _ _ maps code answered present about.headers
        ⟨nonce, codeKnown, vault, roots⟩)

end Node

/-- Fetching the inputs of a public account from an honest node fails or gives exact ones exactly
when its vault is empty and no requested map is displaced, unless the answer is refused. -/
theorem fetchesExactly_iff (collisionFree : CollisionFree) (laws : PartialAccountLaws)
    {account : Account} {answers : ProofAnswers}
    (isPublic : ProtocolLibrary.isPrivate account.id = false) (honest : HonestNode account answers)
    (foreignAccountCode : Except StoreError (Option Word))
    (requirements : ExtTreeMap StorageSlotName (List StorageMapKey)) (stateAt : AccountStateAt) :
    FetchesExactly foreignAccountCode answers account.id requirements stateAt ↔
      NothingLost foreignAccountCode answers account requirements stateAt :=
  ⟨nothingLost_of_fetchesExactly collisionFree laws isPublic honest,
    fetchesExactly_of_nothingLost collisionFree laws isPublic honest⟩

end ForeignInputs

end Inputs

/-! ### A foreign account with an asset -/

namespace ForeignInputs.Sample

open scoped MidenClient.Sample

/-- Openings that are not looked at. -/
scoped instance witnessLibrary : WitnessLibrary where
  openTree root key := ⟨root, fun other => if other = key then some 0 else none⟩
  openTree_opens _ _ := ⟨rfl, (congrArg Option.isSome (if_pos rfl)).trans Option.isSome_some⟩
  assetOfWords _ _ := .error "asset"
  checkAssetWitness _ := .ok ()

/-- A library that reads codes. -/
scoped instance conversionLibrary : ConversionLibrary :=
  { FaultyNode.conversionLibrary with
    accountCode := fun bytes => .ok bytes.length
    accountWitness := fun id stateCommitment _ => .ok ⟨id, stateCommitment⟩ }

/-- The root that witnesses have in common. -/
def commonRoot (witnesses : List StorageMapWitness) : Word :=
  (witnesses.head?.map fun witness => witness.proof.root).getD 0

scoped instance accountConstructors : ForeignAccountConstructors where
  storageMap entries := .ok (ExtTreeMap.ofList entries)
  assetVault assets := .ok (ExtTreeMap.ofList (assets.map fun asset => (asset.vaultKey, asset)))
  accountStorage slots := .ok (ExtTreeMap.ofList slots)
  checkAccount _ := .ok ()
  partialMap witnesses :=
    if witnesses.all fun witness => witness.proof.root = commonRoot witnesses then
      .ok ⟨commonRoot witnesses, fun key => witnesses.any fun witness =>
        (witness.proof.get (ProtocolLibrary.mapKeyHash key)).isSome⟩
    else .error "conflicting roots"
  checkPartialAccount header _ slots maps :=
    if header.nonce ≠ 0 ∧ ∀ map ∈ maps, ∃ slot ∈ slots, slot.2 = (.map, map.root) then .ok ()
    else .error "storage map root not found"
  mapsByRoot maps := maps.foldl (fun kept map => kept.insert map.root map) ∅

theorem laws : PartialAccountLaws where
  assetVault := rfl
  storageMap contents entries complete := by
    refine ⟨_, rfl, congrArg storageMapRoot (ExtTreeMap.ext_getElem? fun key => ?_)⟩
    refine Option.ext fun value => ?_
    have keys : (entries.map Prod.fst).Nodup := by
      refine ((complete.map Prod.fst).nodup_iff).mpr ?_
      rw [ExtTreeMap.map_fst_toList_eq_keys]
      exact ExtTreeMap.nodup_keys
    rw [OrderedMap.getElem?_ofList_eq_some_iff entries keys, complete.mem_iff,
      ExtTreeMap.mem_toList_iff_getElem?_eq_some]
  partialMap witnesses root some_ roots := by
    obtain ⟨first, rest, rfl⟩ := List.exists_cons_of_ne_nil some_
    have common : commonRoot (first :: rest) = root := roots first List.mem_cons_self
    refine ⟨_, if_pos (List.all_eq_true.mpr fun witness listed => decide_eq_true ?_), common,
      fun key => rfl⟩
    rw [common]
    exact roots witness listed
  checkPartialAccount header code slots maps := by
    have same : (∀ map ∈ maps, ∃ slotName,
      ((slotName, .map, map.root) : StorageSlotHeader) ∈ slots) ↔
        ∀ map ∈ maps, ∃ slot ∈ slots, slot.2 = (StorageSlotType.map, map.root) := by
      refine forall₂_congr fun map _ => ⟨?_, ?_⟩
      · rintro ⟨slotName, listed⟩
        exact ⟨_, listed, rfl⟩
      · rintro ⟨⟨slotName, _⟩, listed, rfl⟩
        exact ⟨slotName, listed⟩
    rw [same]
    show (if _ then _ else _ : Except String Unit) = _ ↔ _
    split
    · rename_i holds
      exact ⟨fun _ => holds, fun _ => rfl⟩
    · rename_i fails
      exact ⟨fun same => (nomatch same), fun holds => absurd holds fails⟩
  mapsByRoot maps root := by
    induction maps using List.reverseRecOn with
    | nil => exact ExtTreeMap.getElem?_empty
    | append_singleton others last inductionHypothesis =>
      show (List.foldl _ ∅ (others ++ [last]))[root]? = _
      rw [List.foldl_concat, ExtTreeMap.getElem?_insert, List.reverse_concat, List.find?_cons]
      by_cases same : last.root = root
      · rw [if_pos (Std.compare_eq_iff_eq.mpr same), decide_eq_true same]
      · rw [if_neg (mt Std.compare_eq_iff_eq.mp same), decide_eq_false same]
        exact inductionHypothesis

def entries : ExtTreeMap StorageMapKey Word :=
  (∅ : ExtTreeMap StorageMapKey Word).insert 6 8

/-- A public account with an asset and a map. -/
def account : Account where
  id := 2
  vault := (∅ : ExtTreeMap AssetVaultKey Asset).insert (.fungible 9) (.fungible ⟨9, 5⟩)
  storage := (∅ : ExtTreeMap StorageSlotName StorageSlotContent).insert 3 (.map entries)
  codeCommitment := 1
  nonce := 1
  seed := none

/-- One key of the map is requested. -/
def requirements : ExtTreeMap StorageSlotName (List StorageMapKey) :=
  (∅ : ExtTreeMap StorageSlotName (List StorageMapKey)).insert 3 [6]

def word (number : UInt64) : Proto.Digest := ⟨number, 0, 0, 0⟩

def header : Proto.AccountHeader :=
  ⟨some ⟨[2]⟩, 1, some (word 24), some (word 19), some (word 1)⟩

/-- The opening of the requested key. -/
def opening : Proto.SmtOpening :=
  ⟨some (some (.single ⟨some (word 6), some (word 8)⟩)), some ⟨0, [word 15]⟩⟩

def message : Proto.AccountDetails where
  header := some header
  storageDetails := some ⟨some ⟨[⟨"map", 1, some (word 15)⟩]⟩,
    [⟨"map", false, some (.entriesWithProofs [some opening])⟩]⟩
  code := some [0]
  vaultDetails := some ⟨false, []⟩

def response : Proto.AccountResponse :=
  ⟨some 5, some ⟨some ⟨[2]⟩, some ⟨1589070930391980294, 24, 0, 0⟩, some ⟨0, []⟩⟩, some message⟩

/-- A node that answers this request only. -/
def answers : ProofAnswers := fun request =>
  if request = accountProofRequest 2 requirements.toList .chainTip then .ok response
  else .error (.rpcError (.requestError "not found"))

def receivedMaps : List ReceivedMapDetails :=
  [⟨3, false, .entriesWithProofs [⟨[15], .single (6, 8)⟩]⟩]

theorem detailsHeader_message :
    detailsHeader message = .ok (account.toHeader, slotHeaders account, receivedMaps) := by
  have slots : storageHeader ⟨[⟨"map", 1, some (word 15)⟩]⟩ = .ok (slotHeaders account) := by
    refine bind_eq_ok.mpr ⟨[(3, .map, 15)], rfl, ?_⟩
    rw [List.mergeSort_singleton]
    rfl
  refine bind_eq_ok.mpr ⟨account.toHeader, rfl, bind_eq_ok.mpr ⟨_, rfl, ?_⟩⟩
  refine bind_eq_ok.mpr ⟨(slotHeaders account, receivedMaps), ?_, rfl⟩
  exact bind_eq_ok.mpr ⟨_, rfl, bind_eq_ok.mpr ⟨slotHeaders account, slots,
    bind_eq_ok.mpr ⟨receivedMaps, rfl, rfl⟩⟩⟩

theorem opensKey : OpensKey entries ⟨[15], .single (6, 8)⟩ 6 := by
  constructor
  · rfl
  · rfl

theorem honestDetails :
    HonestDetails account (accountDetailRequest requirements.toList) message receivedMaps where
  headers := detailsHeader_message
  maps := ⟨[⟨3, .mapKeys [6]⟩], List.Perm.refl _,
    .cons (.mapKeys rfl (.cons opensKey .nil)) .nil⟩
  code bytes received := by
    cases received
    rfl
  knownCode absent := (nomatch absent)
  vault _ vault received := by
    cases received
    rfl

theorem honestNode : HonestNode account answers := by
  intro request response _ answered
  unfold answers at answered
  split at answered
  · rename_i same
    cases answered
    rw [same]
    constructor
    · exact ⟨_, rfl, rfl⟩
    · intro asked requested
      cases requested
      exact ⟨message, receivedMaps, rfl, honestDetails⟩
    · exact Option.some_ne_none _
  · cases answered

theorem fetchesExactly_iff_account :
    (CollisionFree ∧ PartialAccountLaws ∧ ProtocolLibrary.isPrivate account.id = false ∧
      HonestNode account answers) ∧
    (FetchesExactly (.ok none) answers account.id requirements .chainTip ↔
      NothingLost (.ok none) answers account requirements .chainTip) :=
  ⟨⟨MidenClient.Sample.collisionFree, laws, rfl, honestNode⟩,
    fetchesExactly_iff MidenClient.Sample.collisionFree laws rfl honestNode (.ok none)
      requirements .chainTip⟩

theorem accepted : Accepted account none message receivedMaps where
  nonce := Nat.one_ne_zero
  code absent := (nomatch absent)
  vault := Option.some_ne_none _
  roots details listed := by
    rw [List.mem_singleton.mp listed]
    exact ⟨3, entries, rfl, rfl⟩

/-- The asset was not requested, so the fetched account is another one than the chain has. -/
theorem not_fetchesExactly_account :
    HonestNode account answers ∧
      ¬FetchesExactly (.ok none) answers account.id requirements .chainTip := by
  refine ⟨honestNode, fun exactly => ?_⟩
  have nothingLost := nothingLost_of_fetchesExactly MidenClient.Sample.collisionFree laws rfl
    honestNode exactly
  have answered : answers (accountProofRequest account.id requirements.toList .chainTip) =
      .ok response := if_pos rfl
  obtain ⟨noAssets, _⟩ := nothingLost none response message _ _ receivedMaps rfl answered rfl
    detailsHeader_message accepted
  have different : account.vaultRoot ≠ assetVaultRoot ∅ := by decide
  exact different noAssets

end ForeignInputs.Sample

end MidenClient
