/-
This file says when the note tags of accounts are those derived from their addresses.

The tags match in every state of a run exactly when no call takes an address away from another
account. A call that does leaves the tag behind, since it only touches the tag of the account it
names: an address is put over its row, or its row is deleted, whatever account the row is for.
-/

import MidenClient.Account.Addresses

namespace MidenClient

open Std (ExtTreeMap)
open Fallible

namespace AddressTables

/-! ### Rows after a write -/

theorem putAddress_getElem? (tables : AddressTables) (address other : Address)
    (accountId : AccountId) : (tables.putAddress address accountId).addresses[other]? =
      if address = other then some accountId else tables.addresses[other]? := by
  unfold putAddress
  simp only [ExtTreeMap.getElem?_insert, Std.compare_eq_iff_eq]

theorem mem_addNoteTagTx (tables : AddressTables) (record other : NoteTagRecord) :
    other ∈ (tables.addNoteTagTx record).noteTags ↔ other = record ∨ other ∈ tables.noteTags := by
  rw [addNoteTagTx, List.mem_append, List.mem_singleton, or_comm]

theorem mem_addNoteTag (tables : AddressTables) (record other : NoteTagRecord) :
    other ∈ (tables.addNoteTag record).2.noteTags ↔ other = record ∨ other ∈ tables.noteTags := by
  unfold addNoteTag
  split
  · rename_i tracked
    refine ⟨Or.inr, fun either => either.elim (fun same => same ▸ tracked) id⟩
  · exact mem_addNoteTagTx tables record other

theorem addNoteTag_frame (tables : AddressTables) (record : NoteTagRecord) :
    (tables.addNoteTag record).2.accounts = tables.accounts ∧
      (tables.addNoteTag record).2.addresses = tables.addresses := by
  unfold addNoteTag
  split <;> exact ⟨rfl, rfl⟩

variable [AddressLibrary]

/-! ### The invariant -/

/-- For every account, the tags it is the source of are those derived from its addresses. -/
def TagsMatch (tables : AddressTables) : Prop :=
  ∀ accountId tag, NoteTagRecord.withAccountSource tag accountId ∈ tables.noteTags ↔
    ∃ address : Address, tables.addresses[address]? = some accountId ∧
      AddressLibrary.toNoteTag address = tag

/-- An address is registered for no other account. -/
def FreeFor (tables : AddressTables) (address : Address) (accountId : AccountId) : Prop :=
  ∀ owner, tables.addresses[address]? = some owner → owner = accountId

/-- The tables match, the addresses of an account have different tags, and they are for tracked
accounts. -/
structure Matched (tables : AddressTables) : Prop where
  tags : tables.TagsMatch
  apart : ∀ (first second : Address) accountId, tables.addresses[first]? = some accountId →
    tables.addresses[second]? = some accountId →
    AddressLibrary.toNoteTag first = AddressLibrary.toNoteTag second → first = second
  tracked : ∀ (address : Address) accountId, tables.addresses[address]? = some accountId →
    tables.accounts[accountId]? ≠ none

theorem matched_empty : empty.Matched where
  tags accountId tag := by
    refine ⟨fun member => absurd member List.not_mem_nil, fun ⟨address, found, _⟩ => ?_⟩
    rw [empty, ExtTreeMap.getElem?_empty] at found
    cases found
  apart first second accountId found := by
    rw [empty, ExtTreeMap.getElem?_empty] at found
    cases found
  tracked address accountId found := by
    rw [empty, ExtTreeMap.getElem?_empty] at found
    cases found

/-! ### Registering an address -/

/-- What registering an address does to the tables. -/
structure Registers (tables next : AddressTables) (address : Address) (accountId : AccountId) :
    Prop where
  noteTags : ∀ record, record ∈ next.noteTags ↔
    record = tagRecord address accountId ∨ record ∈ tables.noteTags
  addresses : ∀ other : Address, next.addresses[other]? =
    if address = other then some accountId else tables.addresses[other]?
  accounts : ∀ other : AccountId, tables.accounts[other]? ≠ none → next.accounts[other]? ≠ none
  owner : next.accounts[accountId]? ≠ none

theorem insertAddress_registers {kind : StoreKind} {tables next : AddressTables}
    {address : Address} {accountId : AccountId} (tracked : tables.accounts[accountId]? ≠ none)
    (inserted : tables.insertAddress kind address accountId = .ok next) :
    Registers tables next address accountId := by
  have written : next = (tables.addNoteTagTx (tagRecord address accountId)).putAddress address
      accountId := by
    unfold insertAddress addNoteTag at inserted
    split at inserted
    · exact (Except.ok.inj inserted).symm
    · split at inserted
      · rename_i added
        split at added
        · cases added
        · cases added
          exact (Except.ok.inj inserted).symm
      · cases inserted
  subst written
  exact ⟨mem_addNoteTagTx tables _, fun other => putAddress_getElem? _ _ _ _, fun _ known => known,
    tracked⟩

theorem insertAccount_registers (kind : StoreKind) (tables : AddressTables) (account : Account)
    (address : Address) :
    Registers tables ((tables.addNoteTag (tagRecord address account.id)).2.insertAccount kind
      account
      address) address account.id := by
  obtain ⟨accounts, addresses⟩ := tables.addNoteTag_frame (tagRecord address account.id)
  have stored : ∀ other : AccountId,
      ((tables.addNoteTag (tagRecord address account.id)).2.insertAccount kind account
        address).accounts[other]? =
      if account.id = other then some ⟨account.nonce, false⟩ else tables.accounts[other]? := by
    intro other
    cases kind
    all_goals
      change ((tables.addNoteTag _).2.accounts.insert account.id ⟨account.nonce, false⟩)[other]? = _
      rw [accounts]
      simp only [ExtTreeMap.getElem?_insert, Std.compare_eq_iff_eq]
  refine ⟨fun record => ?_, fun other => ?_, fun other known => ?_, ?_⟩
  · cases kind with
    | sqlite =>
      change record ∈ (addNoteTagTx _ _).noteTags ↔ _
      rw [mem_addNoteTagTx]
      change record = _ ∨ record ∈ (tables.addNoteTag _).2.noteTags ↔ _
      rw [mem_addNoteTag, or_self_left]
    | idxdb =>
      change record ∈ (tables.addNoteTag _).2.noteTags ↔ _
      rw [mem_addNoteTag]
  · rw [← addresses]
    cases kind <;> exact putAddress_getElem? _ _ _ _
  · rw [stored]
    split
    · exact Option.some_ne_none _
    · exact known
  · rw [stored, if_pos rfl]
    exact Option.some_ne_none _

namespace Registers

variable {tables next : AddressTables} {address : Address} {accountId : AccountId}
  (registers : Registers tables next address accountId)

include registers

/-- A new tag for an address that is free, or was registered for the account already. -/
theorem matched (matched : tables.Matched) (new : tagRecord address accountId ∉ tables.noteTags)
    (free : tables.FreeFor address accountId) : next.Matched where
  tags owner tag := by
    rw [registers.noteTags, matched.tags]
    constructor
    · rintro (same | ⟨other, found, derived⟩)
      · cases same
        exact ⟨address, by rw [registers.addresses, if_pos rfl], rfl⟩
      · refine ⟨other, ?_, derived⟩
        rw [registers.addresses]
        split
        · rename_i same
          rw [free owner (same ▸ found)]
        · exact found
    · rintro ⟨other, found, derived⟩
      rw [registers.addresses] at found
      split at found
      · rename_i same
        cases found
        left
        rw [tagRecord, same, derived]
      · exact Or.inr ⟨other, found, derived⟩
  apart first second owner foundFirst foundSecond same := by
    -- No other address of the account has the new tag.
    have alone : ∀ other : Address, tables.addresses[other]? = some accountId →
        AddressLibrary.toNoteTag other ≠ AddressLibrary.toNoteTag address :=
        fun other found derived =>
      new ((matched.tags accountId _).mpr ⟨other, found, derived⟩)
    rw [registers.addresses] at foundFirst foundSecond
    split at foundFirst
    · rename_i isFirst
      cases foundFirst
      split at foundSecond
      · rename_i isSecond
        exact isFirst.symm.trans isSecond
      · exact absurd (isFirst.symm ▸ same).symm (alone second foundSecond)
    · split at foundSecond
      · rename_i isSecond
        cases foundSecond
        exact absurd (isSecond.symm ▸ same) (alone first foundFirst)
      · exact matched.apart first second owner foundFirst foundSecond same
  tracked other owner found := by
    rw [registers.addresses] at found
    split at found
    · cases found
      exact registers.owner
    · exact registers.accounts owner (matched.tracked other owner found)

/-- When the address was another account's, that account is left with its tag. -/
theorem free_of_tagsMatch (matched : tables.Matched) (match_ : next.TagsMatch) :
    tables.FreeFor address accountId := by
  intro owner found
  by_contra different
  have tagged := (matched.tags owner (AddressLibrary.toNoteTag address)).mpr ⟨address, found, rfl⟩
  obtain ⟨other, foundOther, derived⟩ :=
    (match_ owner (AddressLibrary.toNoteTag address)).mp
    ((registers.noteTags _).mpr (Or.inr tagged))
  rw [registers.addresses] at foundOther
  split at foundOther
  · exact different (Option.some.inj foundOther).symm
  · rename_i notItself
    exact notItself (matched.apart _ _ owner found foundOther derived.symm)

end Registers

/-! ### Removing an address -/

theorem mem_storeRemoveAddress (tables : AddressTables) (address : Address) (accountId : AccountId)
    (record : NoteTagRecord) :
    record ∈ (tables.storeRemoveAddress address accountId).noteTags ↔
      record ∈ tables.noteTags ∧ record ≠ tagRecord address accountId := by
  change record ∈ tables.noteTags.filter _ ↔ _
  rw [List.mem_filter, decide_eq_true_iff]

theorem storeRemoveAddress_getElem? (tables : AddressTables) (address other : Address)
    (accountId : AccountId) :
    (tables.storeRemoveAddress address accountId).addresses[other]? =
      if address = other then none else tables.addresses[other]? := by
  change (tables.addresses.erase address)[other]? = _
  simp only [ExtTreeMap.getElem?_erase, Std.compare_eq_iff_eq]

/-- An address that is not registered shares its tag with no address of the account. -/
def UntaggedFor (tables : AddressTables) (address : Address) (accountId : AccountId) : Prop :=
  tables.addresses[address]? = none → ∀ other : Address,
    tables.addresses[other]? = some accountId →
      AddressLibrary.toNoteTag other ≠ AddressLibrary.toNoteTag address

theorem storeRemoveAddress_matched {tables : AddressTables} (matched : tables.Matched)
    {address : Address} {accountId : AccountId} (free : tables.FreeFor address accountId)
    (untagged : tables.UntaggedFor address accountId) :
    (tables.storeRemoveAddress address accountId).Matched where
  tags owner tag := by
    rw [mem_storeRemoveAddress, matched.tags]
    constructor
    · rintro ⟨⟨other, found, derived⟩, different⟩
      refine ⟨other, ?_, derived⟩
      rw [storeRemoveAddress_getElem?, if_neg ?_, found]
      rintro rfl
      rw [free owner found, ← derived] at different
      exact different rfl
    · rintro ⟨other, found, derived⟩
      rw [storeRemoveAddress_getElem?] at found
      split at found
      · cases found
      · rename_i notItself
        refine ⟨⟨other, found, derived⟩, fun same => ?_⟩
        cases same
        cases registered : tables.addresses[address]? with
        | none => exact untagged registered other found derived
        | some holder =>
          cases free holder registered
          exact notItself (matched.apart _ _ _ registered found derived.symm)
  apart first second owner foundFirst foundSecond same := by
    rw [storeRemoveAddress_getElem?] at foundFirst foundSecond
    split at foundFirst
    · cases foundFirst
    · split at foundSecond
      · cases foundSecond
      · exact matched.apart first second owner foundFirst foundSecond same
  tracked other owner found := by
    rw [storeRemoveAddress_getElem?] at found
    split at found
    · cases found
    · exact matched.tracked other owner found

/-- When the address was another account's, that account keeps its tag; when it was no account's,
the named account loses a tag that it needs. -/
theorem free_of_storeRemoveAddress {tables : AddressTables} (matched : tables.Matched)
    {address : Address} {accountId : AccountId}
    (tagsMatch : (tables.storeRemoveAddress address accountId).TagsMatch) :
    tables.FreeFor address accountId ∧ tables.UntaggedFor address accountId := by
  constructor
  · intro owner found
    by_contra different
    have tagged := (matched.tags owner (AddressLibrary.toNoteTag address)).mpr ⟨address, found, rfl⟩
    have kept := (mem_storeRemoveAddress tables address accountId _).mpr
      ⟨tagged, fun same => different
        (NoteTagSource.account.inj (congrArg NoteTagRecord.source same))⟩
    obtain ⟨other, foundOther, derived⟩ := (tagsMatch owner _).mp kept
    rw [storeRemoveAddress_getElem?] at foundOther
    split at foundOther
    · cases foundOther
    · rename_i notItself
      exact notItself (matched.apart _ _ owner found foundOther derived.symm)
  · intro absent other found derived
    have still : (tables.storeRemoveAddress address accountId).addresses[other]? =
        some accountId := by
      rw [storeRemoveAddress_getElem?, if_neg ?_, found]
      rintro rfl
      rw [absent] at found
      cases found
    have tagged := (tagsMatch accountId _).mpr ⟨other, still, derived⟩
    exact ((mem_storeRemoveAddress tables address accountId _).mp tagged).2 rfl

/-! ### Runs -/

variable [ProtocolLibrary]

/-- The checks of `add_account` for an account that is not tracked. -/
def AdmitsAccount (tables : AddressTables) (node : AddressNode) (account : Account) : Prop :=
  checkSeed account = .ok () ∧ tables.accounts[account.id]? = none ∧
    checkAccountLimit node tables = .ok () ∧ checkNoteTagLimit node tables = .ok ()

/-- No call that goes through takes an address from another account, and none removes an address
that is not registered but shares its tag with an address of the account. -/
def LeavesOthersAddresses (tables : AddressTables) : AddressCall → Prop
  | .addAccount node account _ => tables.AdmitsAccount node account →
      tables.FreeFor (AddressLibrary.ofAccount account.id) account.id
  | .addAddress node address accountId => checkAddress node tables address accountId = .ok () →
      tables.FreeFor address accountId
  | .removeAddress address accountId =>
      tables.FreeFor address accountId ∧ tables.UntaggedFor address accountId

omit [ProtocolLibrary] in
/-- An account that is not tracked has no addresses, and hence no tags. -/
theorem Matched.tagRecord_notMem {tables : AddressTables} (matched : tables.Matched)
    {accountId : AccountId} (untracked : tables.accounts[accountId]? = none) (address : Address) :
    tagRecord address accountId ∉ tables.noteTags := by
  intro tagged
  obtain ⟨other, found, -⟩ := (matched.tags accountId _).mp tagged
  exact matched.tracked other accountId found untracked

theorem addAccount_of_admits {kind : StoreKind} {tables : AddressTables} {node : AddressNode}
    {account : Account} {overwrite : Bool} (admits : tables.AdmitsAccount node account) :
    tables.addAccount kind node account overwrite =
      .ok ((tables.addNoteTag
          (tagRecord (AddressLibrary.ofAccount account.id) account.id)).2.insertAccount
        kind account (AddressLibrary.ofAccount account.id)) := by
  obtain ⟨seed, untracked, accountLimit, tagLimit⟩ := admits
  unfold addAccount
  rw [seed, untracked]
  change (checkAccountLimit node tables >>= fun _ => _) = _
  rw [accountLimit]
  change (checkNoteTagLimit node tables >>= fun _ => _) = _
  rw [tagLimit]
  rfl

/-- Otherwise an account is tracked already, and all that changes is its state. -/
theorem addAccount_of_not_admits {kind : StoreKind} {tables next : AddressTables}
    {node : AddressNode} {account : Account} {overwrite : Bool}
    (refused : ¬tables.AdmitsAccount node account)
    (added : tables.addAccount kind node account overwrite = .ok next) :
    next = tables.putAccount account := by
  obtain ⟨⟨⟩, seed, added⟩ := bind_eq_ok.mp added
  split at added
  · rename_i untracked
    obtain ⟨⟨⟩, accountLimit, added⟩ := bind_eq_ok.mp added
    obtain ⟨⟨⟩, tagLimit, -⟩ := bind_eq_ok.mp added
    exact absurd ⟨seed, untracked, accountLimit, tagLimit⟩ refused
  · obtain ⟨⟨⟩, -, added⟩ := bind_eq_ok.mp added
    exact (Except.ok.inj added).symm

omit [ProtocolLibrary] in
/-- An address that passes the checks has a tag that is new for its account. -/
theorem checkAddress_eq_ok {node : AddressNode} {tables : AddressTables} {address : Address}
    {accountId : AccountId} (checked : checkAddress node tables address accountId = .ok ()) :
    tagRecord address accountId ∉ tables.noteTags ∧ tables.accounts[accountId]? ≠ none := by
  obtain ⟨networkId, -, checked⟩ := bind_eq_ok.mp checked
  dsimp only at checked
  split at checked
  · cases checked
  · split at checked
    · cases checked
    · rename_i tracked known
      split at checked
      · cases checked
      · rename_i new
        exact ⟨new, by rw [known]; exact nofun⟩

omit [ProtocolLibrary] in
theorem insertAddress_of_new (kind : StoreKind) {tables : AddressTables} {address : Address}
    {accountId : AccountId} (new : tagRecord address accountId ∉ tables.noteTags) :
    ∃ next, tables.insertAddress kind address accountId = .ok next := by
  cases kind with
  | sqlite => exact ⟨_, rfl⟩
  | idxdb =>
    unfold insertAddress addNoteTag
    rw [if_neg new]
    exact ⟨_, rfl⟩

/-- A call that goes through registers an address with a new tag, removes an address, or leaves the
tags and the addresses alone. -/
theorem perform_cases (kind : StoreKind) {tables : AddressTables} (matched : tables.Matched)
    (call : AddressCall) :
    (∃ address accountId, Registers tables (tables.perform kind call) address accountId ∧
      tagRecord address accountId ∉ tables.noteTags ∧
      (tables.LeavesOthersAddresses call ↔ tables.FreeFor address accountId)) ∨
    (∃ address accountId, call = .removeAddress address accountId) ∨
    (tables.LeavesOthersAddresses call ∧
      (tables.perform kind call).noteTags = tables.noteTags ∧
      (tables.perform kind call).addresses = tables.addresses ∧
      ∀ other : AccountId, tables.accounts[other]? ≠ none →
        (tables.perform kind call).accounts[other]? ≠ none) := by
  cases call with
  | removeAddress address accountId => exact Or.inr (Or.inl ⟨address, accountId, rfl⟩)
  | addAccount node account overwrite =>
    by_cases admits : tables.AdmitsAccount node account
    · left
      refine ⟨_, account.id, ?_, matched.tagRecord_notMem admits.2.1 _, forall_prop_of_true admits⟩
      rw [perform, call, addAccount_of_admits admits]
      exact insertAccount_registers kind tables account _
    · refine Or.inr (Or.inr ⟨fun admitted => absurd admitted admits, ?_⟩)
      rw [perform]
      split
      · rename_i next added
        rw [addAccount_of_not_admits admits added]
        refine ⟨rfl, rfl, fun other known => ?_⟩
        change (tables.accounts.insert account.id _)[other]? ≠ none
        rw [ExtTreeMap.getElem?_insert]
        split
        · exact nofun
        · exact known
      · exact ⟨rfl, rfl, fun _ known => known⟩
  | addAddress node address accountId =>
    cases checked : checkAddress node tables address accountId with
    | error reason =>
      refine Or.inr (Or.inr ⟨fun passed => (nomatch checked.symm.trans passed), ?_⟩)
      have failed : tables.call kind (.addAddress node address accountId) = .error reason := by
        rw [call, addAddress, checked]
        rfl
      rw [perform, failed]
      exact ⟨rfl, rfl, fun _ known => known⟩
    | ok _ =>
      obtain ⟨new, tracked⟩ := checkAddress_eq_ok checked
      left
      refine ⟨address, accountId, ?_, new, forall_prop_of_true checked⟩
      obtain ⟨next, inserted⟩ := insertAddress_of_new kind new
      have added : tables.call kind (.addAddress node address accountId) = .ok next := by
        rw [call, addAddress, checked]
        exact inserted
      rw [perform, added]
      exact insertAddress_registers tracked inserted

/-- A call keeps the tags matched exactly when it meets the condition. -/
theorem perform_tagsMatch_iff (kind : StoreKind) (tables : AddressTables) (call : AddressCall)
    (matched : tables.Matched) :
    (tables.perform kind call).TagsMatch ↔ tables.LeavesOthersAddresses call := by
  rcases perform_cases kind matched call with ⟨address, accountId, registers, new, free⟩ |
    ⟨address, accountId, rfl⟩ | ⟨leaves, noteTags, addresses, -⟩
  · rw [free]
    exact ⟨registers.free_of_tagsMatch matched,
      fun isFree => (registers.matched matched new isFree).tags⟩
  · exact ⟨free_of_storeRemoveAddress matched, fun both =>
      (storeRemoveAddress_matched matched both.1 both.2).tags⟩
  · refine ⟨fun _ => leaves, fun _ accountId tag => ?_⟩
    rw [noteTags, addresses]
    exact matched.tags accountId tag

theorem perform_matched (kind : StoreKind) (tables : AddressTables) (call : AddressCall)
    (matched : tables.Matched) (leaves : tables.LeavesOthersAddresses call) :
    (tables.perform kind call).Matched := by
  rcases perform_cases kind matched call with ⟨address, accountId, registers, new, free⟩ |
    ⟨address, accountId, rfl⟩ | ⟨-, noteTags, addresses, accounts⟩
  · exact registers.matched matched new (free.mp leaves)
  · exact storeRemoveAddress_matched matched leaves.1 leaves.2
  · refine ⟨fun accountId tag => ?_, fun first second owner => ?_, fun address owner found => ?_⟩
    · rw [noteTags, addresses]
      exact matched.tags accountId tag
    · rw [addresses]
      exact matched.apart first second owner
    · rw [addresses] at found
      exact accounts owner (matched.tracked address owner found)

/-- In both stores, the tags of every account are those of its addresses throughout a run exactly
when every call of the run meets the condition. -/
theorem run_tagsMatch_iff (kind : StoreKind) (calls : List AddressCall) :
    (∀ reached, reached <+: calls → (reached.foldl (perform kind) empty).TagsMatch) ↔
      Run.Conforms (perform kind) LeavesOthersAddresses empty calls :=
  Run.forall_prefix_iff_conforms (fun _ matched => matched.tags)
    (fun tables call matched => perform_tagsMatch_iff kind tables call matched)
    (fun tables call matched leaves => perform_matched kind tables call matched leaves)
    matched_empty

end AddressTables

/-! ### An address taken from another account -/

namespace Sample

open AddressTables

/-- Addresses of an account have its number, and derive one tag in pairs. -/
scoped instance addressLibrary : AddressLibrary where
  ofAccount accountId := 10 * accountId
  toNoteTag address := address / 2
  encode networkId address := networkId ++ toString address

def addressNode : AddressNode where
  networkId := .ok "mtst"
  rpcLimits := .ok (100, 100)
  accountCommitment _ := .ok 0

def walletOf (accountId : AccountId) : Account :=
  ⟨accountId, ∅, ∅, 0, 1, none⟩

/-- Two accounts, and the address of the first one is added to the second. -/
def sharedAddress : List AddressCall :=
  [.addAccount addressNode (walletOf 1) false, .addAccount addressNode (walletOf 2) false,
    .addAddress addressNode 10 2]

/-- The first account loses its address and keeps the tag, in both stores. -/
theorem not_run_tagsMatch_shared :
    ¬(sharedAddress.foldl (perform .sqlite) empty).TagsMatch ∧
      ¬(sharedAddress.foldl (perform .idxdb) empty).TagsMatch := by
  refine ⟨fun tagsMatch => ?_, fun tagsMatch => ?_⟩
  · obtain ⟨address, found, -⟩ := (tagsMatch 1 5).mp (by decide +kernel)
    have moved : ∀ entry ∈ (sharedAddress.foldl (perform .sqlite) empty).addresses.toList,
        entry.2 ≠ 1 := by decide +kernel
    exact moved _ (ExtTreeMap.mem_toList_iff_getElem?_eq_some.mpr found) rfl
  · obtain ⟨address, found, -⟩ := (tagsMatch 1 5).mp (by decide +kernel)
    have moved : ∀ entry ∈ (sharedAddress.foldl (perform .idxdb) empty).addresses.toList,
        entry.2 ≠ 1 := by decide +kernel
    exact moved _ (ExtTreeMap.mem_toList_iff_getElem?_eq_some.mpr found) rfl

end Sample

end MidenClient
