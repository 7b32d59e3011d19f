/-
This file says what an event can do to the calls on keystores, and what is known of the calls under
way when no instance changes an outdated copy of an index.

Every event makes one of a few moves, and all that is said about runs is proved for the moves. A
history records the changes in their order. As long as they are in step, a call under way holds the
index that all changes on its directory have led to, and takes its text of that.
-/

import MidenClient.Library.ListEntries
import MidenClient.Library.Run
import MidenClient.Keystore.FsKeystore

namespace MidenClient

open ListEntries

/-- A change that a call has made to the index of its instance. -/
structure KeyChange where
  call : ℕ
  store : ℕ
  keysDirectory : DirectoryPath
  operation : KeyOperation
  deriving DecidableEq

/-- The keystores, and the changes made to their indices so far. -/
structure KeyHistory where
  state : KeyStores
  changes : List KeyChange

namespace KeyStores

/-! ### Calls under way -/

/-- The call has changed the index of its instance, and has still to rename the file. -/
def PendingAt (state : KeyStores) (call : ℕ) (record : KeyCall) (store : FilesystemKeyStore) :
    Prop :=
  state.calls[call]? = some record ∧ record.phase.pending = true ∧
    state.stores[record.store]? = some store

/-- The change that a call has made. -/
def changedCall (state : KeyStores) (call : ℕ) : Option KeyChange :=
  match state.calls[call]? with
  | none => none
  | some record =>
    match state.stores[record.store]? with
    | none => none
    | some store =>
      if record.phase.changed then
        some ⟨call, record.store, store.keysDirectory, record.operation⟩
      else none

/-- A call has failed. -/
def Failed (state : KeyStores) : Prop :=
  ∃ (call : ℕ) (record : KeyCall) (error : KeyStoreError),
    state.calls[call]? = some record ∧ record.phase = .returned (.error error)

section Phases

variable {state : KeyStores} {call other : ℕ} {record later : KeyCall}
  {store held : FilesystemKeyStore} {phase : KeyCallPhase}

theorem calls_setPhase_self (found : state.calls[call]? = some record) :
    (state.setPhase call phase).calls[call]? = some { record with phase := phase } := by
  unfold setPhase
  dsimp only
  rw [List.getElem?_modify_eq, found]
  rfl

theorem calls_setPhase_of_ne (differs : other ≠ call) :
    (state.setPhase call phase).calls[other]? = state.calls[other]? := by
  unfold setPhase
  dsimp only
  rw [List.getElem?_modify]
  simp only [if_neg (Ne.symm differs), id_map']

/-- One call moves on, and the others stay where they are. -/
theorem pendingAt_setPhase (found : state.calls[call]? = some record)
    (present : state.stores[record.store]? = some store) :
    (state.setPhase call phase).PendingAt other later held ↔
      (other ≠ call ∧ state.PendingAt other later held) ∨
        (other = call ∧ later = { record with phase := phase } ∧ held = store ∧
          phase.pending = true) := by
  unfold PendingAt
  by_cases same : other = call
  · subst same
    rw [calls_setPhase_self found]
    constructor
    · rintro ⟨moved, waits, opened⟩
      obtain rfl := Option.some.inj moved
      exact .inr ⟨rfl, rfl, Option.some.inj (opened.symm.trans present), waits⟩
    · rintro (⟨differs, -⟩ | ⟨-, rfl, rfl, waits⟩)
      · exact absurd rfl differs
      · exact ⟨rfl, waits, present⟩
  · rw [calls_setPhase_of_ne same]
    constructor
    · exact fun waits => .inl ⟨same, waits⟩
    · rintro (⟨-, waits⟩ | ⟨equal, -⟩)
      · exact waits
      · exact absurd equal same

/-- One call changes its instance and moves on. -/
theorem pendingAt_setPhase_changed (found : state.calls[call]? = some record)
    (present : state.stores[record.store]? = some store)
    (change : FilesystemKeyStore → FilesystemKeyStore) :
    ({ state with stores := state.stores.modify record.store change }.setPhase call
        phase).PendingAt other later held ↔
      (other ≠ call ∧ state.calls[other]? = some later ∧ later.phase.pending = true ∧
          (state.stores.modify record.store change)[later.store]? = some held) ∨
        (other = call ∧ later = { record with phase := phase } ∧ held = change store ∧
          phase.pending = true) := by
  refine pendingAt_setPhase ?_ ?_
  · exact found
  · exact getElem?_modify_of_some present change

theorem changedCall_setPhase (found : state.calls[call]? = some record)
    (same : phase.changed = record.phase.changed) (other : ℕ) :
    (state.setPhase call phase).changedCall other = state.changedCall other := by
  unfold changedCall
  by_cases equal : other = call
  · subst equal
    rw [calls_setPhase_self found, found]
    dsimp only
    rw [same]
    rfl
  · rw [calls_setPhase_of_ne equal]
    rfl

theorem failed_setPhase (found : state.calls[call]? = some record)
    (working : ∀ result, record.phase ≠ .returned result) (failed : state.Failed) :
    (state.setPhase call phase).Failed := by
  obtain ⟨other, broken, error, listed, ended⟩ := failed
  refine ⟨other, broken, error, ?_, ended⟩
  rw [calls_setPhase_of_ne, listed]
  rintro rfl
  rw [found] at listed
  obtain rfl := Option.some.inj listed
  exact working _ ended

end Phases

/-! ### What an event can do -/

variable [formats : KeyFormats]

/-- The change that an event makes to an index. -/
def change? (state : KeyStores) : KeyEvent → Option KeyChange
  | .advance call _ =>
    match state.calls[call]? with
    | none => none
    | some record =>
      match state.stores[record.store]? with
      | none => none
      | some store =>
        match record.phase with
        | .updateIndex =>
          if state.isLocked record.store then none
          else some ⟨call, record.store, store.keysDirectory, record.operation⟩
        | _ => none
  | _ => none

/-- Every call was made on an instance that is open. -/
def Known (state : KeyStores) : Prop :=
  ∀ (call : ℕ) (record : KeyCall), state.calls[call]? = some record →
    record.store < state.stores.length

omit formats in
theorem known_setPhase {state : KeyStores} {call : ℕ} {phase : KeyCallPhase}
    (known : state.Known) : (state.setPhase call phase).Known := by
  intro other record listed
  by_cases same : other = call
  · subst same
    cases found : state.calls[other]? with
    | none =>
      unfold setPhase at listed
      dsimp only at listed
      rw [List.getElem?_modify_eq, found] at listed
      contradiction
    | some before =>
      rw [calls_setPhase_self found] at listed
      obtain rfl := Option.some.inj listed
      exact known other before found
  · rw [calls_setPhase_of_ne same] at listed
    exact known other record listed

/-- Everything an event can do to the calls that are under way and to the files. -/
inductive Moves (tempDirectory : DirectoryPath) (state : KeyStores) :
    Option KeyChange → KeyStores → Prop
  | quiet {next : KeyStores} (known : next.Known) (files : next.files = state.files)
      (pending : ∀ call record store,
        next.PendingAt call record store ↔ state.PendingAt call record store)
      (changed : ∀ call, next.changedCall call = state.changedCall call)
      (failed : state.Failed → next.Failed) : Moves tempDirectory state none next
  | updated {call : ℕ} {record : KeyCall} {store : FilesystemKeyStore}
      (found : state.calls[call]? = some record) (phase : record.phase = .updateIndex)
      (present : state.stores[record.store]? = some store)
      (free : state.isLocked record.store = false) :
      Moves tempDirectory state
        (some ⟨call, record.store, store.keysDirectory, record.operation⟩)
        ({ state with
          stores := state.stores.modify record.store fun store =>
            { store with index := record.operation.change store.index } }.setPhase call .saveIndex)
  | saved {call : ℕ} {record : KeyCall} {store : FilesystemKeyStore}
      (found : state.calls[call]? = some record) (phase : record.phase = .saveIndex)
      (present : state.stores[record.store]? = some store) :
      Moves tempDirectory state none
        (state.setPhase call (.createTemp (formats.toStringPretty store.index)))
  | created {call : ℕ} {record : KeyCall} {store : FilesystemKeyStore} {contents : List UInt8}
      (found : state.calls[call]? = some record) (phase : record.phase = .createTemp contents)
      (present : state.stores[record.store]? = some store) :
      Moves tempDirectory state none
        ({ state with files := (state.files.create tempDirectory).1 }.setPhase call
          (.writeTemp contents (state.files.create tempDirectory).2 0))
  | wrote {call : ℕ} {record : KeyCall} {store : FilesystemKeyStore} {contents : List UInt8}
      {file : Inode} {written : ℕ} (bytes : ℕ) (found : state.calls[call]? = some record)
      (phase : record.phase = .writeTemp contents file written)
      (present : state.stores[record.store]? = some store) :
      Moves tempDirectory state none (state.writeTemp call contents file written bytes)
  | synced {call : ℕ} {record : KeyCall} {store : FilesystemKeyStore} {contents : List UInt8}
      {file : Inode} (found : state.calls[call]? = some record)
      (phase : record.phase = .syncTemp contents file)
      (present : state.stores[record.store]? = some store) :
      Moves tempDirectory state none (state.setPhase call (.renameTemp contents file))
  | renamed {call : ℕ} {record : KeyCall} {store : FilesystemKeyStore} {contents : List UInt8}
      {file : Inode} (found : state.calls[call]? = some record)
      (phase : record.phase = .renameTemp contents file)
      (present : state.stores[record.store]? = some store) :
      Moves tempDirectory state none
        (state.renameTemp tempDirectory call record.operation store.keysDirectory)

theorem quiet_append_store {state : KeyStores} (known : state.Known) (tempDirectory : DirectoryPath)
    (opened : FilesystemKeyStore) :
    Moves tempDirectory state none { state with stores := state.stores ++ [opened] } := by
  refine .quiet (fun call record found => ?_) rfl (fun call record store => ?_)
    (fun call => ?_) id
  · rw [List.length_append]
    exact Nat.lt_add_right _ (known call record found)
  · unfold PendingAt
    refine and_congr_right fun found => and_congr_right fun _ => ?_
    rw [List.getElem?_append_left (known call record found)]
  · unfold changedCall
    dsimp only
    cases found : state.calls[call]? with
    | none => rfl
    | some record =>
      dsimp only
      rw [List.getElem?_append_left (known call record found)]

/-- A call that has just been made has not changed anything. -/
theorem quiet_append_call {state : KeyStores} (known : state.Known)
    (tempDirectory : DirectoryPath) (record : KeyCall)
    (opened : record.store < state.stores.length) (fresh : record.phase.changed = false)
    (idle : record.phase.pending = false) :
    Moves tempDirectory state none { state with calls := state.calls ++ [record] } := by
  have ahead : ∀ call : ℕ, call ≠ state.calls.length →
      (state.calls ++ [record])[call]? = state.calls[call]? := by
    intro call differs
    rcases Nat.lt_or_gt_of_ne differs with listed | beyond
    · exact List.getElem?_append_left listed
    · rw [List.getElem?_eq_none (Nat.le_of_lt beyond), List.getElem?_eq_none]
      rw [List.length_append, List.length_singleton]
      exact beyond
  have missing : state.calls[state.calls.length]? = none := List.getElem?_eq_none (Nat.le_refl _)
  refine .quiet (fun call other listed => ?_) rfl (fun call other store => ?_)
    (fun call => ?_) ?_
  · dsimp only at listed
    by_cases last : call = state.calls.length
    · subst last
      rw [List.getElem?_concat_length] at listed
      obtain rfl := Option.some.inj listed
      exact opened
    · rw [ahead call last] at listed
      exact known call other listed
  · unfold PendingAt
    dsimp only
    by_cases last : call = state.calls.length
    · subst last
      rw [List.getElem?_concat_length, missing]
      constructor
      · rintro ⟨same, waits, -⟩
        obtain rfl := Option.some.inj same
        rw [idle] at waits
        contradiction
      · rintro ⟨absent, -⟩
        contradiction
    · rw [ahead call last]
  · unfold changedCall
    dsimp only
    by_cases last : call = state.calls.length
    · subst last
      rw [List.getElem?_concat_length, missing]
      dsimp only
      rw [fresh]
      split <;> rfl
    · rw [ahead call last]
  · rintro ⟨call, failed, error, listed, ended⟩
    refine ⟨call, failed, error, ?_, ended⟩
    dsimp only
    rw [ahead call (List.getElem?_eq_some_iff.mp listed).1.ne]
    exact listed

/-- Only the files of the keys, and the phase of a call outside of the saving, change. -/
theorem quiet_setPhase {state : KeyStores} (tempDirectory : DirectoryPath)
    (keyFiles : DirectoryPath → String → Option PublicKeyCommitment) {call : ℕ} {record : KeyCall}
    {store : FilesystemKeyStore} {phase : KeyCallPhase} (known : state.Known)
    (found : state.calls[call]? = some record)
    (present : state.stores[record.store]? = some store)
    (same : phase.changed = record.phase.changed) (before : record.phase.pending = false)
    (later : phase.pending = false) (working : ∀ result, record.phase ≠ .returned result) :
    Moves tempDirectory state none ({ state with keyFiles := keyFiles }.setPhase call phase) := by
  have foundAfter : { state with keyFiles := keyFiles }.calls[call]? = some record := found
  refine .quiet (known_setPhase known) rfl (fun other moved held => ?_)
    (changedCall_setPhase foundAfter same)
    (failed_setPhase foundAfter working)
  rw [pendingAt_setPhase foundAfter present]
  constructor
  · rintro (⟨-, waits⟩ | ⟨-, -, -, waits⟩)
    · exact waits
    · rw [later] at waits
      contradiction
  · refine fun waits => .inl ⟨?_, waits⟩
    rintro rfl
    obtain rfl := Option.some.inj (found.symm.trans waits.1)
    rw [waits.2.1] at before
    contradiction

/-- An event makes one of the moves. -/
theorem perform_moves {state : KeyStores} (known : state.Known) (tempDirectory : DirectoryPath)
    (event : KeyEvent) :
    Moves tempDirectory state (state.change? event) (state.perform tempDirectory event) := by
  have still : Moves tempDirectory state none state :=
    .quiet known rfl (fun _ _ _ => Iff.rfl) (fun _ => rfl) id
  cases event with
  | new keysDirectory =>
    show Moves tempDirectory state none (state.openStore keysDirectory)
    unfold openStore
    split
    · exact quiet_append_store known tempDirectory _
    · exact still
  | clone store =>
    show Moves tempDirectory state none (state.cloneStore store)
    unfold cloneStore
    split
    · exact quiet_append_store known tempDirectory _
    · exact still
  | call store operation =>
    show Moves tempDirectory state none (state.startCall store operation)
    unfold startCall
    split
    · next opened =>
      cases operation <;> exact quiet_append_call known tempDirectory _ opened rfl rfl
    · exact still
  | advance call bytes =>
    show Moves tempDirectory state (state.change? (.advance call bytes))
      (state.advance tempDirectory call bytes)
    unfold change? advance
    dsimp only
    cases found : state.calls[call]? with
    | none => exact still
    | some record =>
      dsimp only
      cases present : state.stores[record.store]? with
      | none => exact still
      | some store =>
        dsimp only
        cases phase : record.phase with
        | writeKeyFile =>
          dsimp only
          unfold addKeyWithoutAccount
          split <;>
            exact quiet_setPhase tempDirectory _ known found present (by rw [phase]; rfl)
              (by rw [phase]; rfl) rfl fun result ended => nomatch phase.symm.trans ended
        | updateIndex =>
          dsimp only
          unfold updateIndex
          cases free : state.isLocked record.store with
          | true => exact still
          | false => exact .updated found phase present free
        | saveIndex => exact .saved found phase present
        | createTemp contents => exact .created found phase present
        | writeTemp contents file written => exact .wrote bytes found phase present
        | syncTemp contents file => exact .synced found phase present
        | renameTemp contents file => exact .renamed found phase present
        | removeKeyFile =>
          dsimp only
          unfold removeKeyFile
          split <;>
            exact quiet_setPhase tempDirectory _ known found present (by rw [phase]; rfl)
              (by rw [phase]; rfl) rfl fun result ended => nomatch phase.symm.trans ended
        | returned result => exact still

end KeyStores

/-! ### The order of the changes -/

namespace KeyHistory

variable [formats : KeyFormats]

open KeyStores

def perform (tempDirectory : DirectoryPath) (history : KeyHistory) (event : KeyEvent) :
    KeyHistory where
  state := history.state.perform tempDirectory event
  changes := history.changes ++ (history.state.change? event).toList

/-- The index of a directory after the changes made on it. -/
def indexAfter (initial : DirectoryPath → KeyIndex) (changes : List KeyChange)
    (keysDirectory : DirectoryPath) : KeyIndex :=
  (changes.filter fun change => change.keysDirectory = keysDirectory).foldl
    (fun index change => change.operation.change index) (initial keysDirectory)

/-- Every change is recorded once, with its call. -/
structure Bookkept (history : KeyHistory) : Prop where
  known : history.state.Known
  listed : ∀ change, change ∈ history.changes ↔
    history.state.changedCall change.call = some change
  once : (history.changes.map KeyChange.call).Nodup

omit formats in
/-- A call that changes an index has made its change. -/
theorem changedCall_updated {state : KeyStores} {call : ℕ} {record : KeyCall}
    {store : FilesystemKeyStore} (found : state.calls[call]? = some record)
    (present : state.stores[record.store]? = some store)
    (change : FilesystemKeyStore → FilesystemKeyStore)
    (sameDirectory : ∀ store, (change store).keysDirectory = store.keysDirectory) (other : ℕ) :
    ({ state with stores := state.stores.modify record.store change }.setPhase call
        .saveIndex).changedCall other =
      if other = call then
        some ⟨call, record.store, store.keysDirectory, record.operation⟩
      else state.changedCall other := by
  have foundAfter : { state with
      stores := state.stores.modify record.store change }.calls[call]? = some record := found
  unfold changedCall
  by_cases same : other = call
  · subst same
    rw [if_pos rfl, calls_setPhase_self foundAfter]
    show (match (state.stores.modify record.store change)[record.store]? with
      | none => none
      | some held => _) = _
    rw [getElem?_modify_of_some present]
    dsimp only
    rw [sameDirectory]
    rfl
  · rw [if_neg same, calls_setPhase_of_ne same]
    dsimp only
    cases listed : state.calls[other]? with
    | none => rfl
    | some earlier =>
      dsimp only
      show (match (state.stores.modify record.store change)[earlier.store]? with
        | none => none
        | some held => _) = _
      by_cases target : record.store = earlier.store
      · rw [← target, getElem?_modify_of_some present, present]
        dsimp only
        rw [sameDirectory]
      · rw [List.getElem?_modify_ne _ _ target]

theorem Bookkept.perform {history : KeyHistory} (bookkept : history.Bookkept)
    (tempDirectory : DirectoryPath) (event : KeyEvent) :
    (history.perform tempDirectory event).Bookkept := by
  obtain ⟨state, changes⟩ := history
  obtain ⟨known, listed, once⟩ := bookkept
  have moves := perform_moves known tempDirectory event
  unfold KeyHistory.perform
  dsimp only at known listed once moves ⊢
  generalize state.change? event = made at moves ⊢
  generalize state.perform tempDirectory event = next at moves ⊢
  have kept : ∀ {next : KeyStores}, next.Known →
      (∀ call, next.changedCall call = state.changedCall call) →
        Bookkept ⟨next, changes ++ (none : Option KeyChange).toList⟩ := by
    intro next known same
    refine ⟨known, fun change => ?_, ?_⟩
    · dsimp only
      rw [Option.toList_none, List.append_nil, same]
      exact listed change
    · dsimp only
      rw [Option.toList_none, List.append_nil]
      exact once
  cases moves with
  | quiet known files pending changed failed => exact kept known changed
  | @updated call record store found phase present free =>
    have before : state.changedCall call = none := by
      unfold changedCall
      rw [found]
      dsimp only
      rw [present]
      dsimp only
      rw [phase]
      rfl
    have changed := changedCall_updated found present
      (fun store => { store with index := record.operation.change store.index }) fun _ => rfl
    refine ⟨known_setPhase fun other found earlier => ?_, fun change => ?_, ?_⟩
    · dsimp only
      rw [List.length_modify]
      exact known other found earlier
    · dsimp only
      rw [changed, Option.toList_some, List.mem_append, List.mem_singleton, listed]
      by_cases same : change.call = call
      · rw [if_pos same, same, before]
        constructor
        · rintro (absent | rfl)
          · contradiction
          · rfl
        · exact fun equal => .inr (Option.some.inj equal).symm
      · rw [if_neg same]
        constructor
        · rintro (earlier | rfl)
          · exact earlier
          · exact absurd rfl same
        · exact .inl
    · dsimp only
      rw [Option.toList_some, List.map_append, List.map_singleton]
      refine List.Nodup.append once (List.nodup_singleton _) ?_
      rw [List.disjoint_singleton]
      intro already
      obtain ⟨change, member, same⟩ := List.mem_map.mp already
      have recorded := (listed change).mp member
      rw [same, before] at recorded
      contradiction
  | saved found phase present =>
    exact kept (known_setPhase known) (changedCall_setPhase found (by rw [phase]; rfl))
  | created found phase present =>
    exact kept (known_setPhase known) (changedCall_setPhase found (by rw [phase]; rfl))
  | wrote bytes found phase present =>
    unfold writeTemp
    dsimp only
    refine kept (known_setPhase known) (changedCall_setPhase found ?_)
    rw [phase]
    split <;> rfl
  | synced found phase present =>
    exact kept (known_setPhase known) (changedCall_setPhase found (by rw [phase]; rfl))
  | @renamed call record store contents file found phase present =>
    unfold renameTemp
    split
    · refine kept (known_setPhase known) (changedCall_setPhase found ?_)
      rw [phase]
      cases record.operation <;> rfl
    · exact kept (known_setPhase known) (changedCall_setPhase found (by rw [phase]; rfl))

/-! ### Copies that are up to date -/

/-- An index may be changed when it is what the changes on its directory have led to, and no other
instance is saving an index of the directory. The temporary directory may be the directory of
a keystore as long as no one else uses it: its index file is the temporary file of the others. -/
structure InStep (tempDirectory : DirectoryPath) (initial : DirectoryPath → KeyIndex)
    (history : KeyHistory) (change : KeyChange) : Prop where
  current : ∀ store, history.state.stores[change.store]? = some store →
    store.index = indexAfter initial history.changes change.keysDirectory
  alone : ∀ call record store, history.state.PendingAt call record store →
    store.keysDirectory = change.keysDirectory → record.store = change.store
  apart : ∀ call record store, history.state.PendingAt call record store →
    (store.keysDirectory = tempDirectory ↔ change.keysDirectory = tempDirectory)
  unshared : change.keysDirectory ≠ tempDirectory →
    indexAfter initial history.changes tempDirectory = KeyIndex.new

/-- What holds of the calls under way when every change has been in step. -/
structure Ordered (tempDirectory : DirectoryPath) (initial : DirectoryPath → KeyIndex)
    (history : KeyHistory) : Prop where
  current : ∀ call record store, history.state.PendingAt call record store →
    store.index = indexAfter initial history.changes store.keysDirectory
  contents : ∀ call record store text, history.state.PendingAt call record store →
    record.phase.contents? = some text → text = formats.toStringPretty store.index
  alone : ∀ call record store other later held, history.state.PendingAt call record store →
    history.state.PendingAt other later held → store.keysDirectory = held.keysDirectory →
      record.store = later.store
  apart : ∀ call record store other later held, history.state.PendingAt call record store →
    history.state.PendingAt other later held →
      (store.keysDirectory = tempDirectory ↔ held.keysDirectory = tempDirectory)
  unshared : ∀ call record store, history.state.PendingAt call record store →
    store.keysDirectory ≠ tempDirectory →
      indexAfter initial history.changes tempDirectory = KeyIndex.new

variable {tempDirectory : DirectoryPath} {initial : DirectoryPath → KeyIndex}

theorem indexAfter_append (changes : List KeyChange) (change : KeyChange)
    (keysDirectory : DirectoryPath) :
    indexAfter initial (changes ++ [change]) keysDirectory =
      if change.keysDirectory = keysDirectory then
        change.operation.change (indexAfter initial changes keysDirectory)
      else indexAfter initial changes keysDirectory := by
  unfold indexAfter
  rw [List.filter_append, List.foldl_append, List.filter_singleton]
  by_cases same : change.keysDirectory = keysDirectory
  · rw [if_pos same, decide_eq_true same]
    rfl
  · rw [if_neg same, decide_eq_false same]
    rfl

/-- What is known of calls under way remains, when they were under way before and take only the
index of their own instance. -/
theorem Ordered.of_pending {state next : KeyStores} {changes : List KeyChange}
    (ordered : Ordered tempDirectory initial ⟨state, changes⟩)
    (origin : ∀ call record store, next.PendingAt call record store →
      ∃ earlier, state.PendingAt call earlier store ∧ record.store = earlier.store ∧
        ∀ text, record.phase.contents? = some text →
          earlier.phase.contents? = some text ∨ text = formats.toStringPretty store.index) :
    Ordered tempDirectory initial ⟨next, changes⟩ := by
  refine ⟨?_, ?_, ?_, ?_, ?_⟩
  · intro call record store waits
    obtain ⟨earlier, before, -⟩ := origin call record store waits
    exact ordered.current call earlier store before
  · intro call record store text waits taken
    obtain ⟨earlier, before, -, texts⟩ := origin call record store waits
    exact (texts text taken).elim (ordered.contents call earlier store text before) id
  · intro call record store other later held waits also same
    obtain ⟨earlier, before, own, -⟩ := origin call record store waits
    obtain ⟨sooner, beside, theirs, -⟩ := origin other later held also
    rw [own, theirs]
    exact ordered.alone call earlier store other sooner held before beside same
  · intro call record store other later held waits also
    obtain ⟨earlier, before, -⟩ := origin call record store waits
    obtain ⟨sooner, beside, -⟩ := origin other later held also
    exact ordered.apart call earlier store other sooner held before beside
  · intro call record store waits
    obtain ⟨earlier, before, -⟩ := origin call record store waits
    exact ordered.unshared call earlier store before

omit formats in
/-- The calls under way after a call has changed an index: they hold the changed index if they are
calls on the same instance. -/
theorem pendingAt_updated {state : KeyStores} {call : ℕ} {record : KeyCall}
    {store : FilesystemKeyStore} (found : state.calls[call]? = some record)
    (present : state.stores[record.store]? = some store)
    (free : state.isLocked record.store = false)
    {change : FilesystemKeyStore → FilesystemKeyStore} {other : ℕ} {later : KeyCall}
    {held : FilesystemKeyStore} (waits : ({ state with
      stores := state.stores.modify record.store change }.setPhase call
        .saveIndex).PendingAt other later held) :
    (later.store = record.store ∧ held = change store ∧ later.phase.contents? = none ∧
        (other = call ∨ state.PendingAt other later store)) ∨
      (later.store ≠ record.store ∧ state.PendingAt other later held) := by
  rcases (pendingAt_setPhase_changed found present change).mp waits with
    ⟨-, listed, pending, there⟩ | ⟨rfl, rfl, rfl, -⟩
  · by_cases same : later.store = record.store
    · rw [same, getElem?_modify_of_some present] at there
      refine .inl ⟨same, (Option.some.inj there).symm, ?_, .inr ⟨listed, pending, ?_⟩⟩
      · have unlocked := (List.any_eq_false.mp free) later (List.mem_of_getElem? listed)
        rw [decide_eq_true same, Bool.true_and, KeyCallPhase.holdsLock] at unlocked
        exact Option.not_isSome_iff_eq_none.mp unlocked
      · rw [same]
        exact present
    · refine .inr ⟨same, listed, pending, ?_⟩
      rw [← there, List.getElem?_modify_ne _ _ (Ne.symm same)]
  · exact .inl ⟨rfl, rfl, rfl, .inl rfl⟩

/-- A change that is in step keeps what is known of the calls under way. -/
theorem Ordered.updated {state : KeyStores} {changes : List KeyChange}
    (ordered : Ordered tempDirectory initial ⟨state, changes⟩) {call : ℕ} {record : KeyCall}
    {store : FilesystemKeyStore} (found : state.calls[call]? = some record)
    (present : state.stores[record.store]? = some store)
    (free : state.isLocked record.store = false)
    (inStep : InStep tempDirectory initial ⟨state, changes⟩
      ⟨call, record.store, store.keysDirectory, record.operation⟩) :
    Ordered tempDirectory initial ⟨{ state with
      stores := state.stores.modify record.store fun store =>
        { store with index := record.operation.change store.index } }.setPhase call .saveIndex,
      changes ++ [⟨call, record.store, store.keysDirectory, record.operation⟩]⟩ := by
  have origin := fun {other : ℕ} {later : KeyCall} {held : FilesystemKeyStore} =>
    @pendingAt_updated state call record store found present free
      (fun store => { store with index := record.operation.change store.index }) other later held
  have elsewhere : ∀ {other : ℕ} {later : KeyCall} {held : FilesystemKeyStore},
      later.store ≠ record.store → state.PendingAt other later held →
        store.keysDirectory ≠ held.keysDirectory := fun differs waits same =>
    differs (inStep.alone _ _ _ waits same.symm)
  refine ⟨?_, ?_, ?_, ?_, ?_⟩
  · intro other later held waits
    dsimp only at waits ⊢
    rw [indexAfter_append]
    rcases origin waits with ⟨-, rfl, -, -⟩ | ⟨differs, before⟩
    · rw [if_pos rfl, ← inStep.current store present]
    · rw [if_neg (elsewhere differs before)]
      exact ordered.current other later held before
  · intro other later held text waits taken
    rcases origin waits with ⟨-, -, untaken, -⟩ | ⟨-, before⟩
    · rw [untaken] at taken
      contradiction
    · exact ordered.contents other later held text before taken
  · intro other later held another latest kept waits also same
    rcases origin waits with ⟨own, rfl, -, -⟩ | ⟨differs, before⟩
    · rcases origin also with ⟨theirs, -⟩ | ⟨apart, beside⟩
      · rw [own, theirs]
      · exact absurd same (elsewhere apart beside)
    · rcases origin also with ⟨-, rfl, -, -⟩ | ⟨-, beside⟩
      · exact absurd same.symm (elsewhere differs before)
      · exact ordered.alone other later held another latest kept before beside same
  · intro other later held another latest kept waits also
    rcases origin waits with ⟨-, rfl, -, -⟩ | ⟨-, before⟩
    · rcases origin also with ⟨-, rfl, -, -⟩ | ⟨-, beside⟩
      · exact Iff.rfl
      · exact (inStep.apart another latest kept beside).symm
    · rcases origin also with ⟨-, rfl, -, -⟩ | ⟨-, beside⟩
      · exact inStep.apart other later held before
      · exact ordered.apart other later held another latest kept before beside
  · intro other later held waits apart
    dsimp only at waits ⊢
    rw [indexAfter_append]
    rcases origin waits with ⟨-, rfl, -, -⟩ | ⟨-, before⟩
    · rw [if_neg apart]
      exact inStep.unshared apart
    · rw [if_neg fun same => apart ((inStep.apart other later held before).mpr same)]
      exact ordered.unshared other later held before apart

/-- A call that moves on within the saving was under way before. -/
theorem origin_setPhase {state : KeyStores} (files : IndexFiles) {call : ℕ} {record : KeyCall}
    {store : FilesystemKeyStore} {phase : KeyCallPhase}
    (found : state.calls[call]? = some record)
    (present : state.stores[record.store]? = some store) (before : record.phase.pending = true)
    (texts : ∀ text, phase.contents? = some text →
      record.phase.contents? = some text ∨ text = formats.toStringPretty store.index)
    (other : ℕ) (later : KeyCall) (held : FilesystemKeyStore)
    (waits : ({ state with files := files }.setPhase call phase).PendingAt other later held) :
    ∃ earlier, state.PendingAt other earlier held ∧ later.store = earlier.store ∧
      ∀ text, later.phase.contents? = some text →
        earlier.phase.contents? = some text ∨ text = formats.toStringPretty held.index := by
  have foundAfter : { state with files := files }.calls[call]? = some record := found
  rcases (pendingAt_setPhase foundAfter present).mp waits with ⟨-, waited⟩ | ⟨rfl, rfl, rfl, -⟩
  · exact ⟨later, waited, rfl, fun _ => .inl⟩
  · exact ⟨record, ⟨found, before, present⟩, rfl, texts⟩

theorem Ordered.move {state next : KeyStores} {changes : List KeyChange}
    {made : Option KeyChange} (ordered : Ordered tempDirectory initial ⟨state, changes⟩)
    (moves : Moves tempDirectory state made next)
    (inStep : ∀ change, made = some change →
      InStep tempDirectory initial ⟨state, changes⟩ change) :
    Ordered tempDirectory initial ⟨next, changes ++ made.toList⟩ := by
  cases moves with
  | quiet known files pending changed failed =>
    rw [Option.toList_none, List.append_nil]
    exact ordered.of_pending fun call record store waits =>
      ⟨record, (pending call record store).mp waits, rfl, fun _ => .inl⟩
  | updated found phase present free =>
    exact ordered.updated found present free (inStep _ rfl)
  | saved found phase present =>
    rw [Option.toList_none, List.append_nil]
    exact ordered.of_pending (origin_setPhase state.files found present (by rw [phase]; rfl)
      fun text taken => .inr (Option.some.inj taken).symm)
  | created found phase present =>
    rw [Option.toList_none, List.append_nil]
    exact ordered.of_pending (origin_setPhase _ found present (by rw [phase]; rfl)
      fun text taken => .inl (by rw [phase]; exact taken))
  | wrote bytes found phase present =>
    rw [Option.toList_none, List.append_nil]
    unfold writeTemp
    refine ordered.of_pending (origin_setPhase _ found present (by rw [phase]; rfl)
      fun text taken => .inl ?_)
    rw [phase]
    split at taken <;> exact taken
  | synced found phase present =>
    rw [Option.toList_none, List.append_nil]
    exact ordered.of_pending (origin_setPhase state.files found present (by rw [phase]; rfl)
      fun text taken => .inl (by rw [phase]; exact taken))
  | @renamed call record store contents file found phase present =>
    rw [Option.toList_none, List.append_nil]
    unfold renameTemp
    split
    · refine ordered.of_pending (origin_setPhase _ found present (by rw [phase]; rfl) ?_)
      cases record.operation <;> exact fun text taken => nomatch taken
    · exact ordered.of_pending (origin_setPhase state.files found present (by rw [phase]; rfl)
        fun text taken => nomatch taken)

end KeyHistory

end MidenClient
