/-
This file proves when the calls on keystores leave every index file as if they had been made one
after the other.

All calls write the same temporary file. When every call succeeds, each renaming has found a file
to rename, and so no two calls to directories of their own were between creating and renaming it
at once: the second to rename would have found nothing. Every file is then put in place as its call
wrote it. What a call writes is the index of its own instance, and that is the index of the
directory as long as no instance changes an outdated copy. An instance and its clone do that
without fail.
-/

import MidenClient.Keystore.KeyCalls

namespace MidenClient

open Std (ExtTreeMap ExtTreeSet)

namespace KeyHistory

open KeyStores

variable [formats : KeyFormats] {tempDirectory : DirectoryPath}
  {initial : DirectoryPath → KeyIndex}

/-! ### Saving to the temporary file -/

/-- A call has the temporary file open, or is to rename it: how much of which text it has
written. -/
def Saves (state : KeyStores) (call : ℕ) (store : FilesystemKeyStore) (file : Inode) (count : ℕ)
    (text : List UInt8) : Prop :=
  ∃ record, state.PendingAt call record store ∧ record.phase.temporary? = some (file, count) ∧
    record.phase.contents? = some text

/-- Two calls to directories of their own use the temporary file at once, or the file of one is
gone, or a call has failed. -/
inductive Collides (tempDirectory : DirectoryPath) (state : KeyStores) : Prop
  | failed (failed : state.Failed)
  | twice {call other : ℕ} {store held : FilesystemKeyStore} {file later : Inode}
      {count reached : ℕ} {text contents : List UInt8}
      (one : Saves state call store file count text)
      (two : Saves state other held later reached contents) (differs : other ≠ call)
      (own : store.keysDirectory ≠ tempDirectory) (theirs : held.keysDirectory ≠ tempDirectory)
  | missing {call : ℕ} {store : FilesystemKeyStore} {file : Inode} {count : ℕ}
      {text : List UInt8} (saves : Saves state call store file count text)
      (own : store.keysDirectory ≠ tempDirectory)
      (gone : state.files.entries tempDirectory = none)

section Saving

variable {state : KeyStores} {call other : ℕ} {record : KeyCall} {store held : FilesystemKeyStore}
  {phase : KeyCallPhase} {file : Inode} {count : ℕ} {text : List UInt8}

omit formats in
theorem pending_of_contents (taken : phase.contents? = some text) : phase.pending = true := by
  cases phase <;> first | rfl | contradiction

omit formats in
theorem saves_setPhase (files : IndexFiles) (found : state.calls[call]? = some record)
    (present : state.stores[record.store]? = some store) :
    Saves ({ state with files := files }.setPhase call phase) other held file count text ↔
      (other ≠ call ∧ Saves state other held file count text) ∨
        (other = call ∧ held = store ∧ phase.temporary? = some (file, count) ∧
          phase.contents? = some text) := by
  have foundAfter : { state with files := files }.calls[call]? = some record := found
  unfold Saves
  constructor
  · rintro ⟨later, waits, opened, taken⟩
    rcases (pendingAt_setPhase foundAfter present).mp waits with
      ⟨differs, waited⟩ | ⟨same, rfl, rfl, -⟩
    · exact .inl ⟨differs, later, waited, opened, taken⟩
    · exact .inr ⟨same, rfl, opened, taken⟩
  · rintro (⟨differs, later, waited, opened, taken⟩ | ⟨rfl, rfl, opened, taken⟩)
    · exact ⟨later, (pendingAt_setPhase foundAfter present).mpr (.inl ⟨differs, waited⟩), opened,
        taken⟩
    · exact ⟨_, (pendingAt_setPhase foundAfter present).mpr
        (.inr ⟨rfl, rfl, rfl, pending_of_contents taken⟩), opened, taken⟩

omit formats in
/-- A call whose phase says so does not save. -/
theorem Saves.ne (saves : Saves state other held file count text)
    (found : state.calls[call]? = some record) (idle : record.phase.temporary? = none) :
    other ≠ call := by
  rintro rfl
  obtain ⟨later, ⟨listed, -⟩, opened, -⟩ := saves
  obtain rfl := Option.some.inj (found.symm.trans listed)
  rw [idle] at opened
  contradiction

omit formats in
theorem saves_setPhase_same (found : state.calls[call]? = some record)
    (present : state.stores[record.store]? = some store)
    (same : ∀ file count text,
      (phase.temporary? = some (file, count) ∧ phase.contents? = some text) ↔
        record.phase.temporary? = some (file, count) ∧ record.phase.contents? = some text) :
    Saves (state.setPhase call phase) other held file count text ↔
      Saves state other held file count text := by
  rw [show state.setPhase call phase = { state with files := state.files }.setPhase call phase
    from rfl, saves_setPhase state.files found present]
  constructor
  · rintro (⟨-, saves⟩ | ⟨rfl, rfl, saving⟩)
    · exact saves
    · obtain ⟨opened, taken⟩ := (same file count text).mp saving
      exact ⟨record, ⟨found, pending_of_contents taken, present⟩, opened, taken⟩
  · intro saves
    by_cases equal : other = call
    · subst equal
      obtain ⟨later, ⟨listed, -, there⟩, saving⟩ := saves
      obtain rfl := Option.some.inj (found.symm.trans listed)
      exact .inr ⟨rfl, Option.some.inj (there.symm.trans present),
        (same file count text).mpr saving⟩
    · exact .inl ⟨equal, saves⟩

omit formats in
/-- A change leaves the calls on other instances as they are. -/
theorem pendingAt_updated_of_ne (found : state.calls[call]? = some record)
    (present : state.stores[record.store]? = some store)
    (change : FilesystemKeyStore → FilesystemKeyStore) {later : KeyCall}
    (waits : state.PendingAt other later held) (differs : later.store ≠ record.store) :
    ({ state with stores := state.stores.modify record.store change }.setPhase call
      .saveIndex).PendingAt other later held := by
  refine (pendingAt_setPhase_changed found present change).mpr
    (.inl ⟨?_, waits.1, waits.2.1, ?_⟩)
  · rintro rfl
    obtain rfl := Option.some.inj (found.symm.trans waits.1)
    exact differs rfl
  · rw [List.getElem?_modify_ne _ _ (Ne.symm differs)]
    exact waits.2.2

omit formats in
/-- A change concerns no call that saves, as these lock their instances. -/
theorem saves_updated (found : state.calls[call]? = some record)
    (present : state.stores[record.store]? = some store)
    (free : state.isLocked record.store = false)
    (change : FilesystemKeyStore → FilesystemKeyStore) :
    Saves ({ state with
        stores := state.stores.modify record.store change }.setPhase call .saveIndex) other held
        file count text ↔ Saves state other held file count text := by
  constructor
  · rintro ⟨later, waits, opened, taken⟩
    rcases pendingAt_updated found present free waits with ⟨-, -, untaken, -⟩ | ⟨-, before⟩
    · rw [untaken] at taken
      contradiction
    · exact ⟨later, before, opened, taken⟩
  · rintro ⟨later, waits, opened, taken⟩
    refine ⟨later, pendingAt_updated_of_ne found present change waits ?_, opened, taken⟩
    intro same
    have unlocked := (List.any_eq_false.mp free) later (List.mem_of_getElem? waits.1)
    rw [decide_eq_true same, Bool.true_and, KeyCallPhase.holdsLock, taken] at unlocked
    exact unlocked rfl

end Saving

/-- The text that a call writes is the index of its directory. -/
theorem Ordered.text {state : KeyStores} {changes : List KeyChange}
    (ordered : Ordered tempDirectory initial ⟨state, changes⟩) {call : ℕ}
    {store : FilesystemKeyStore} {file : Inode} {count : ℕ} {text : List UInt8}
    (saves : Saves state call store file count text) :
    text = formats.toStringPretty (indexAfter initial changes store.keysDirectory) := by
  obtain ⟨record, waits, -, taken⟩ := saves
  rw [ordered.contents call record store text waits taken,
    ordered.current call record store waits]

omit formats in
/-- A collision lasts as long as the calls keep saving and no file is created. -/
theorem Collides.of_saves {state next : KeyStores} (collides : Collides tempDirectory state)
    (failed : state.Failed → next.Failed)
    (saves : ∀ {call : ℕ} {store : FilesystemKeyStore} {file : Inode} {count : ℕ}
      {text : List UInt8}, Saves state call store file count text →
        ∃ file count text, Saves next call store file count text)
    (entry : next.files.entries tempDirectory = state.files.entries tempDirectory) :
    Collides tempDirectory next := by
  cases collides with
  | failed broken => exact .failed (failed broken)
  | twice one two differs own theirs =>
    obtain ⟨_, _, _, one⟩ := saves one
    obtain ⟨_, _, _, two⟩ := saves two
    exact .twice one two differs own theirs
  | missing one own gone =>
    obtain ⟨_, _, _, one⟩ := saves one
    exact .missing one own (entry.trans gone)

omit formats in
/-- A call that moves on within the saving keeps the others saving. -/
theorem saves_of_setPhase {state : KeyStores} (files : IndexFiles) {call : ℕ} {record : KeyCall}
    {store : FilesystemKeyStore} {phase : KeyCallPhase}
    (found : state.calls[call]? = some record)
    (present : state.stores[record.store]? = some store)
    (still : record.phase.temporary? = none ∨
      ∃ file count text, phase.temporary? = some (file, count) ∧ phase.contents? = some text)
    {other : ℕ} {held : FilesystemKeyStore} {file : Inode} {count : ℕ} {text : List UInt8}
    (saves : Saves state other held file count text) :
    ∃ file count text,
      Saves ({ state with files := files }.setPhase call phase) other held file count text := by
  by_cases same : other = call
  · subst same
    rcases still with idle | ⟨file, count, text, opened, taken⟩
    · exact absurd rfl (saves.ne found idle)
    · refine ⟨file, count, text, (saves_setPhase files found present).mpr
        (.inr ⟨rfl, ?_, opened, taken⟩)⟩
      obtain ⟨later, ⟨listed, -, there⟩, -⟩ := saves
      obtain rfl := Option.some.inj (found.symm.trans listed)
      exact Option.some.inj (there.symm.trans present)
  · exact ⟨file, count, text, (saves_setPhase files found present).mpr (.inl ⟨same, saves⟩)⟩

omit formats in
theorem failed_setPhase_error {state : KeyStores} {call : ℕ} {record : KeyCall}
    (found : state.calls[call]? = some record) (error : KeyStoreError) :
    (state.setPhase call (.returned (.error error))).Failed :=
  ⟨call, _, error, calls_setPhase_self found, rfl⟩

/-- The second of two calls to directories of their own finds no file to rename. -/
theorem Collides.move {state next : KeyStores} {changes : List KeyChange}
    {made : Option KeyChange} (ordered : Ordered tempDirectory initial ⟨state, changes⟩)
    (moves : Moves tempDirectory state made next) (collides : Collides tempDirectory state) :
    Collides tempDirectory next := by
  cases moves with
  | quiet known files pending changed failed =>
    refine collides.of_saves failed (fun {call store file count text} saves => ?_) (by rw [files])
    obtain ⟨record, waits, opened, taken⟩ := saves
    exact ⟨file, count, text, record, (pending call record store).mpr waits, opened, taken⟩
  | @updated call record store found phase present free =>
    refine collides.of_saves (fun failed => ?_) (fun saves =>
      ⟨_, _, _, (saves_updated found present free _).mpr saves⟩) rfl
    exact failed_setPhase found (fun result ended => nomatch phase.symm.trans ended) failed
  | saved found phase present =>
    exact collides.of_saves
      (failed_setPhase found fun result ended => nomatch phase.symm.trans ended)
      (saves_of_setPhase state.files found present (.inl (by rw [phase]; rfl))) rfl
  | @created call record store contents found phase present =>
    have idle : record.phase.temporary? = none := by
      rw [phase]
      rfl
    cases collides with
    | failed broken =>
      exact .failed (failed_setPhase found
        (fun result ended => nomatch phase.symm.trans ended) broken)
    | twice one two differs own theirs =>
      exact .twice ((saves_setPhase _ found present).mpr (.inl ⟨one.ne found idle, one⟩))
        ((saves_setPhase _ found present).mpr (.inl ⟨two.ne found idle, two⟩)) differs own theirs
    | missing one own gone =>
      obtain ⟨earlier, waits, -⟩ := id one
      have apart := ordered.apart _ earlier _ call record store waits
        ⟨found, by rw [phase]; rfl, present⟩
      exact .twice ((saves_setPhase _ found present).mpr (.inr ⟨rfl, rfl, rfl, rfl⟩))
        ((saves_setPhase _ found present).mpr (.inl ⟨one.ne found idle, one⟩))
        (one.ne found idle) (fun equal => own (apart.mpr equal)) own
  | wrote bytes found phase present =>
    unfold writeTemp
    refine collides.of_saves
      (failed_setPhase found fun result ended => nomatch phase.symm.trans ended)
      (saves_of_setPhase _ found present (.inr ?_)) rfl
    split <;> exact ⟨_, _, _, rfl, rfl⟩
  | synced found phase present =>
    exact collides.of_saves
      (failed_setPhase found fun result ended => nomatch phase.symm.trans ended)
      (saves_of_setPhase state.files found present (.inr ⟨_, _, _, rfl, rfl⟩)) rfl
  | @renamed call record store contents file found phase present =>
    have waits : state.PendingAt call record store := ⟨found, by rw [phase]; rfl, present⟩
    unfold renameTemp
    cases entry : state.files.entries tempDirectory with
    | none =>
      rw [IndexFiles.rename_eq_none entry]
      exact .failed (failed_setPhase_error found _)
    | some temporary =>
      cases collides with
      | failed broken =>
        refine .failed ?_
        split <;> exact failed_setPhase found
          (fun result ended => nomatch phase.symm.trans ended) broken
      | @twice first second held kept _ _ _ _ _ _ one two differs own theirs =>
        obtain ⟨earlier, before, -⟩ := id one
        have apart : store.keysDirectory ≠ tempDirectory := fun equal =>
          own ((ordered.apart _ earlier _ call record store before waits).mpr equal)
        rw [IndexFiles.rename_eq_some entry (Ne.symm apart)]
        have gone : Function.update (Function.update state.files.entries store.keysDirectory
            (some temporary)) tempDirectory none tempDirectory = none := Function.update_self ..
        by_cases same : first = call
        · exact .missing ((saves_setPhase _ found present).mpr
            (.inl ⟨fun equal => differs (equal.trans same.symm), two⟩)) theirs gone
        · exact .missing ((saves_setPhase _ found present).mpr (.inl ⟨same, one⟩)) own gone
      | missing one own gone =>
        rw [entry] at gone
        contradiction

/-! ### What the files hold -/

/-- What holds of the files as long as no calls collide. -/
structure Sound (tempDirectory : DirectoryPath) (initial : DirectoryPath → KeyIndex)
    (history : KeyHistory) : Prop where
  proper : history.state.files.Proper
  opened : ∀ call store file count text, Saves history.state call store file count text →
    history.state.files.entries tempDirectory = some file ∧ count ≤ text.length
  written : ∀ call store file count text, Saves history.state call store file count text →
    (history.state.files.contents file).length ≤ text.length ∧
      (history.state.files.contents file = text ∨
        ∃ other held reached, Saves history.state other held file reached text ∧
          IndexFiles.Agrees (history.state.files.contents file) text reached)
  settled : ∀ keysDirectory, (∀ call record store, history.state.PendingAt call record store →
      store.keysDirectory ≠ keysDirectory ∧ keysDirectory ≠ tempDirectory) →
    KeyIndex.readFromFile history.state.files keysDirectory =
      .ok (indexAfter initial history.changes keysDirectory)

/-- Calls that save at once and do not collide are the same or are all on the temporary
directory. -/
theorem Ordered.same_text {state : KeyStores} {changes : List KeyChange}
    (ordered : Ordered tempDirectory initial ⟨state, changes⟩)
    (clear : ¬Collides tempDirectory state) {call other : ℕ} {store held : FilesystemKeyStore}
    {file later : Inode} {count reached : ℕ} {text contents : List UInt8}
    (one : Saves state call store file count text)
    (two : Saves state other held later reached contents) : contents = text := by
  rw [ordered.text one, ordered.text two]
  obtain ⟨earlier, waits, -⟩ := id one
  obtain ⟨latest, also, -⟩ := id two
  have apart := ordered.apart call earlier store other latest held waits also
  by_cases shared : store.keysDirectory = tempDirectory
  · rw [shared, apart.mp shared]
  · by_cases same : other = call
    · subst same
      obtain rfl := Option.some.inj (waits.1.symm.trans also.1)
      rw [Option.some.inj (waits.2.2.symm.trans also.2.2)]
    · exact absurd (.twice one two same shared fun equal => shared (apart.mpr equal)) clear

theorem readFromFile_congr {files later : IndexFiles} {keysDirectory : DirectoryPath}
    (same : later.read keysDirectory = files.read keysDirectory) :
    KeyIndex.readFromFile later keysDirectory = KeyIndex.readFromFile files keysDirectory := by
  unfold KeyIndex.readFromFile
  rw [same]

omit formats in
/-- The calls under way stay so as long as the call that moves on does. -/
theorem pending_of_setPhase {state : KeyStores} (files : IndexFiles) {call : ℕ}
    {record : KeyCall} {store : FilesystemKeyStore} {phase : KeyCallPhase}
    (found : state.calls[call]? = some record)
    (present : state.stores[record.store]? = some store) (later : phase.pending = true)
    {other : ℕ} {waiting : KeyCall} {held : FilesystemKeyStore}
    (waits : state.PendingAt other waiting held) :
    ∃ record, ({ state with files := files }.setPhase call phase).PendingAt other record held := by
  have foundAfter : { state with files := files }.calls[call]? = some record := found
  by_cases same : other = call
  · subst same
    obtain rfl := Option.some.inj (found.symm.trans waits.1)
    obtain rfl := Option.some.inj (present.symm.trans waits.2.2)
    exact ⟨_, (pendingAt_setPhase foundAfter present).mpr (.inr ⟨rfl, rfl, rfl, later⟩)⟩
  · exact ⟨waiting, (pendingAt_setPhase foundAfter present).mpr (.inl ⟨same, waits⟩)⟩

/-- A step that leaves the files, and what is saved, as they are. -/
theorem Sound.of_saves {state next : KeyStores} {changes : List KeyChange}
    (sound : Sound tempDirectory initial ⟨state, changes⟩) (files : next.files = state.files)
    (saves : ∀ call store file count text,
      Saves next call store file count text ↔ Saves state call store file count text)
    (pending : ∀ {call record store}, state.PendingAt call record store →
      ∃ record, next.PendingAt call record store) :
    Sound tempDirectory initial ⟨next, changes⟩ := by
  refine ⟨?_, ?_, ?_, ?_⟩
  · dsimp only
    rw [files]
    exact sound.proper
  · intro call store file count text saving
    dsimp only at saving ⊢
    rw [files]
    exact sound.opened call store file count text ((saves ..).mp saving)
  · intro call store file count text saving
    dsimp only at saving ⊢
    rw [files]
    refine (sound.written call store file count text ((saves ..).mp saving)).imp_right
      (Or.imp_right ?_)
    rintro ⟨other, held, reached, also, agrees⟩
    exact ⟨other, held, reached, (saves ..).mpr also, agrees⟩
  · intro keysDirectory clear
    dsimp only at clear ⊢
    rw [files]
    refine sound.settled keysDirectory fun call record store waits => ?_
    obtain ⟨later, still⟩ := pending waits
    exact clear call later store still

theorem Sound.created {state : KeyStores} {changes : List KeyChange}
    (sound : Sound tempDirectory initial ⟨state, changes⟩)
    {call : ℕ} {record : KeyCall} {store : FilesystemKeyStore} {contents : List UInt8}
    (found : state.calls[call]? = some record)
    (present : state.stores[record.store]? = some store)
    (ordered : Ordered tempDirectory initial ⟨{ state with
      files := (state.files.create tempDirectory).1 }.setPhase call
        (.writeTemp contents (state.files.create tempDirectory).2 0), changes⟩)
    (clear : ¬Collides tempDirectory ({ state with
      files := (state.files.create tempDirectory).1 }.setPhase call
        (.writeTemp contents (state.files.create tempDirectory).2 0))) :
    Sound tempDirectory initial ⟨{ state with
      files := (state.files.create tempDirectory).1 }.setPhase call
        (.writeTemp contents (state.files.create tempDirectory).2 0), changes⟩ := by
  have mine : Saves ({ state with
      files := (state.files.create tempDirectory).1 }.setPhase call
        (.writeTemp contents (state.files.create tempDirectory).2 0)) call store
        (state.files.create tempDirectory).2 0 contents :=
    (saves_setPhase _ found present).mpr (.inr ⟨rfl, rfl, rfl, rfl⟩)
  have opened : ∀ other held file count text, Saves ({ state with
      files := (state.files.create tempDirectory).1 }.setPhase call
        (.writeTemp contents (state.files.create tempDirectory).2 0)) other held file count text →
        (state.files.create tempDirectory).2 = file ∧ count ≤ text.length := by
    intro other held file count text saves
    rcases (saves_setPhase _ found present).mp saves with ⟨-, before⟩ | ⟨-, -, own, -⟩
    · obtain ⟨entry, within⟩ := sound.opened other held file count text before
      exact ⟨IndexFiles.create_of_entry entry, within⟩
    · cases own
      exact ⟨rfl, Nat.zero_le _⟩
  refine ⟨sound.proper.create tempDirectory, ?_, ?_, ?_⟩
  · intro other held file count text saves
    obtain ⟨rfl, within⟩ := opened other held file count text saves
    exact ⟨IndexFiles.entries_create_self, within⟩
  · intro other held file count text saves
    obtain ⟨rfl, -⟩ := opened other held file count text saves
    obtain rfl := ordered.same_text clear mine saves
    have emptied : (state.files.create tempDirectory).1.contents
        (state.files.create tempDirectory).2 = [] := IndexFiles.contents_create_self
    refine ⟨?_, .inr ⟨call, store, 0, mine, fun place early => absurd early (Nat.not_lt_zero _)⟩⟩
    show ((state.files.create tempDirectory).1.contents
      (state.files.create tempDirectory).2).length ≤ _
    rw [emptied]
    exact Nat.zero_le _
  · intro keysDirectory free
    obtain ⟨writing, waits, -⟩ := id mine
    refine (readFromFile_congr (sound.proper.read_create (free call writing store waits).2)).trans
      (sound.settled keysDirectory fun other record held before => ?_)
    obtain ⟨later, still⟩ := pending_of_setPhase (state.files.create tempDirectory).1 found present
      (show (KeyCallPhase.writeTemp contents (state.files.create tempDirectory).2 0).pending = true
        from rfl) before
    exact free other later held still

theorem Sound.wrote {state : KeyStores} {changes : List KeyChange}
    (ordered : Ordered tempDirectory initial ⟨state, changes⟩)
    (sound : Sound tempDirectory initial ⟨state, changes⟩)
    (clear : ¬Collides tempDirectory state)
    {call : ℕ} {record : KeyCall} {store : FilesystemKeyStore} {contents : List UInt8}
    {file : Inode} {written : ℕ} (bytes : ℕ) (found : state.calls[call]? = some record)
    (phase : record.phase = .writeTemp contents file written)
    (present : state.stores[record.store]? = some store) :
    Sound tempDirectory initial
      ⟨state.writeTemp call contents file written bytes, changes⟩ := by
  have mine : Saves state call store file written contents :=
    ⟨record, ⟨found, by rw [phase]; rfl, present⟩, by rw [phase]; rfl, by rw [phase]; rfl⟩
  obtain ⟨entry, within⟩ := sound.opened call store file written contents mine
  unfold writeTemp
  dsimp only
  have piece : ((contents.drop written).take (bytes + 1)).length ≤ contents.length - written := by
    rw [List.length_take, List.length_drop]
    exact Nat.min_le_right ..
  generalize chunkEq : (contents.drop written).take (bytes + 1) = chunk at piece ⊢
  obtain ⟨moved, movedEq, temporary, taken⟩ : ∃ moved : KeyCallPhase,
      (if written + chunk.length < contents.length then
        KeyCallPhase.writeTemp contents file (written + chunk.length)
      else .syncTemp contents file) = moved ∧
        moved.temporary? = some (file, written + chunk.length) ∧
          moved.contents? = some contents := by
    refine ⟨_, rfl, ?_⟩
    split
    · exact ⟨rfl, rfl⟩
    · next whole =>
      have all : written + chunk.length = contents.length := by omega
      rw [all]
      exact ⟨rfl, rfl⟩
  rw [movedEq]
  have origin : ∀ {other held later count text}, Saves ({ state with
      files := state.files.writeAt file written chunk }.setPhase call moved) other held later
        count text → ∃ earlier, Saves state other held later earlier text ∧
          count ≤ text.length := by
    intro other held later count text saves
    rcases (saves_setPhase _ found present).mp saves with ⟨-, before⟩ | ⟨rfl, rfl, own, same⟩
    · exact ⟨count, before, (sound.opened other held later count text before).2⟩
    · rw [temporary] at own
      rw [taken] at same
      cases own
      cases same
      exact ⟨written, mine, by omega⟩
  refine ⟨⟨sound.proper.separate, sound.proper.allocated⟩, ?_, ?_, ?_⟩
  · intro other held later count text saves
    obtain ⟨earlier, before, short⟩ := origin saves
    exact ⟨(sound.opened other held later earlier text before).1, short⟩
  · intro other held later count text saves
    obtain ⟨earlier, before, short⟩ := origin saves
    obtain rfl := ordered.same_text clear mine before
    obtain rfl := Option.some.inj (entry.symm.trans
      (sound.opened other held later earlier text before).1)
    have updated : ({ state with files := state.files.writeAt file written chunk }.setPhase call
        moved).files.contents file =
          IndexFiles.splice (state.files.contents file) written chunk := Function.update_self ..
    obtain ⟨small, held⟩ := sound.written other held file earlier text before
    dsimp only at small held ⊢
    have size : (IndexFiles.splice (state.files.contents file) written chunk).length ≤
        text.length := by
      rw [IndexFiles.length_splice]
      omega
    rw [updated]
    refine ⟨size, ?_⟩
    rcases held with whole | ⟨owner, owned, reached, owns, agrees⟩
    · have agreed : IndexFiles.Agrees (state.files.contents file) text text.length := by
        rw [whole]
        exact fun _ _ => rfl
      exact .inl ((agreed.splice (Nat.le_refl _) chunkEq.symm fun place early => .inl early).eq
        size)
    · have inside := (sound.opened owner owned file reached text owns).2
      refine .inr ?_
      by_cases same : owner = call
      · subst same
        obtain ⟨earliest, ⟨listed, -⟩, own, -⟩ := owns
        obtain rfl := Option.some.inj (found.symm.trans listed)
        rw [phase] at own
        obtain rfl := (Prod.mk.inj (Option.some.inj own)).2
        refine ⟨owner, store, written + chunk.length, (saves_setPhase _ found present).mpr
          (.inr ⟨rfl, rfl, temporary, taken⟩),
          agrees.splice inside chunkEq.symm fun place early => ?_⟩
        omega
      · exact ⟨owner, owned, reached, (saves_setPhase _ found present).mpr (.inl ⟨same, owns⟩),
          agrees.splice inside chunkEq.symm fun place early => .inl early⟩
  · intro keysDirectory free
    have waits : ({ state with files := state.files.writeAt file written chunk }.setPhase call
        moved).PendingAt call { record with phase := moved } store :=
      (pendingAt_setPhase found present).mpr
        (.inr ⟨rfl, rfl, rfl, pending_of_contents taken⟩)
    refine (readFromFile_congr (sound.proper.read_writeAt entry
      (free call _ store waits).2 written chunk)).trans
        (sound.settled keysDirectory fun other record held before => ?_)
    obtain ⟨later, still⟩ := pending_of_setPhase (state.files.writeAt file written chunk) found
      present (pending_of_contents taken) before
    exact free other later held still

/-- A call that is ready to rename has its whole text in the file, unless another call has the file
open. -/
theorem Sound.whole {state : KeyStores} {changes : List KeyChange}
    (sound : Sound tempDirectory initial ⟨state, changes⟩)
    {call : ℕ} {record : KeyCall} {store : FilesystemKeyStore} {contents : List UInt8}
    {file : Inode} (found : state.calls[call]? = some record)
    (phase : record.phase = .renameTemp contents file)
    (present : state.stores[record.store]? = some store) :
    state.files.contents file = contents ∨
      ∃ other held reached, other ≠ call ∧ Saves state other held file reached contents ∧
        IndexFiles.Agrees (state.files.contents file) contents reached := by
  have mine : Saves state call store file contents.length contents :=
    ⟨record, ⟨found, by rw [phase]; rfl, present⟩, by rw [phase]; rfl, by rw [phase]; rfl⟩
  obtain ⟨short, whole | ⟨other, held, reached, owns, agrees⟩⟩ :=
    sound.written call store file contents.length contents mine
  · exact .inl whole
  · by_cases same : other = call
    · subst same
      obtain ⟨later, ⟨listed, -⟩, own, -⟩ := owns
      obtain rfl := Option.some.inj (found.symm.trans listed)
      rw [phase] at own
      obtain rfl := (Prod.mk.inj (Option.some.inj own)).2
      exact .inl (agrees.eq short)
    · exact .inr ⟨other, held, reached, same, owns, agrees⟩

/-- A file that holds the text of an index is read as that index. -/
theorem readFromFile_of_text (roundTrip : formats.RoundTrip) {files : IndexFiles}
    {keysDirectory : DirectoryPath} {file : Inode} {index : KeyIndex}
    (entry : files.entries keysDirectory = some file)
    (held : files.contents file = formats.toStringPretty index) :
    KeyIndex.readFromFile files keysDirectory = .ok index := by
  unfold KeyIndex.readFromFile IndexFiles.read
  rw [entry, Option.map_some, held]
  dsimp only
  rw [roundTrip]
  rfl

theorem readFromFile_of_missing {files : IndexFiles} {keysDirectory : DirectoryPath}
    (missing : files.entries keysDirectory = none) :
    KeyIndex.readFromFile files keysDirectory = .ok KeyIndex.new := by
  unfold KeyIndex.readFromFile IndexFiles.read
  rw [missing]
  rfl

/-- The last step of a saving puts the text in place. -/
theorem Sound.renamed (roundTrip : formats.RoundTrip) {state : KeyStores}
    {changes : List KeyChange} (ordered : Ordered tempDirectory initial ⟨state, changes⟩)
    (sound : Sound tempDirectory initial ⟨state, changes⟩)
    (clear : ¬Collides tempDirectory state)
    {call : ℕ} {record : KeyCall} {store : FilesystemKeyStore} {contents : List UInt8}
    {file : Inode} (found : state.calls[call]? = some record)
    (phase : record.phase = .renameTemp contents file)
    (present : state.stores[record.store]? = some store) :
    Sound tempDirectory initial
      ⟨state.renameTemp tempDirectory call record.operation store.keysDirectory, changes⟩ := by
  have waits : state.PendingAt call record store := ⟨found, by rw [phase]; rfl, present⟩
  have mine : Saves state call store file contents.length contents :=
    ⟨record, waits, by rw [phase]; rfl, by rw [phase]; rfl⟩
  have entry := (sound.opened call store file _ contents mine).1
  have own := ordered.text mine
  have whole := sound.whole found phase present
  unfold renameTemp
  obtain ⟨moved, movedEq, idle⟩ : ∃ moved : KeyCallPhase,
      record.operation.afterSaving = moved ∧ moved.pending = false := by
    refine ⟨_, rfl, ?_⟩
    cases record.operation <;> rfl
  rw [movedEq]
  have unopened : ∀ file count, moved.temporary? ≠ some (file, count) := by
    intro file count opened
    cases moved <;> contradiction
  have origin : ∀ (files : IndexFiles) {other held later count text}, Saves ({ state with
      files := files }.setPhase call moved) other held later count text →
        other ≠ call ∧ Saves state other held later count text := by
    intro files other held later count text saves
    rcases (saves_setPhase files found present).mp saves with before | ⟨-, -, own, -⟩
    · exact before
    · exact absurd own (unopened _ _)
  have stays : ∀ (files : IndexFiles) {other waiting held}, other ≠ call →
      state.PendingAt other waiting held → ({ state with
        files := files }.setPhase call moved).PendingAt other waiting held := fun files _ _ _
        differs before => (pendingAt_setPhase found present).mpr (.inl ⟨differs, before⟩)
  by_cases shared : store.keysDirectory = tempDirectory
  · rw [shared, IndexFiles.rename_self entry]
    refine ⟨sound.proper, ?_, ?_, ?_⟩
    · intro other held later count text saves
      exact sound.opened other held later count text (origin _ saves).2
    · intro other held later count text saves
      obtain ⟨differs, before⟩ := origin _ saves
      obtain rfl := ordered.same_text clear mine before
      obtain rfl := Option.some.inj (entry.symm.trans
        (sound.opened other held later count text before).1)
      obtain ⟨short, settled⟩ := sound.written other held file count text before
      refine ⟨short, whole.imp_right ?_⟩
      rintro ⟨another, kept, reached, apart, owns, agrees⟩
      exact ⟨another, kept, reached, (saves_setPhase state.files found present).mpr
        (.inl ⟨apart, owns⟩), agrees⟩
    · intro keysDirectory free
      dsimp only at free ⊢
      by_cases source : keysDirectory = tempDirectory
      · subst source
        rw [shared] at own
        refine readFromFile_of_text roundTrip entry ?_
        rcases whole with whole | ⟨other, held, reached, differs, ⟨later, before, -⟩, -⟩
        · rw [← own]
          exact whole
        · exact absurd rfl (free other later held (stays _ differs before)).2
      · refine sound.settled keysDirectory fun other waiting held before => ?_
        by_cases same : other = call
        · subst same
          obtain rfl := Option.some.inj (found.symm.trans before.1)
          obtain rfl := Option.some.inj (present.symm.trans before.2.2)
          rw [shared]
          exact ⟨Ne.symm source, source⟩
        · exact free other waiting held (stays _ same before)
  · rw [IndexFiles.rename_eq_some entry (Ne.symm shared)]
    have alone : ∀ {other held later count text},
        ¬(other ≠ call ∧ Saves state other held later count text) := by
      rintro other held later count text ⟨differs, saves⟩
      obtain ⟨earlier, before, -⟩ := id saves
      exact clear (.twice mine saves differs shared fun equal =>
        shared ((ordered.apart _ _ _ _ _ _ before waits).mp equal))
    refine ⟨sound.proper.rename entry, ?_, ?_, ?_⟩
    · intro other held later count text saves
      exact absurd (origin _ saves) alone
    · intro other held later count text saves
      exact absurd (origin _ saves) alone
    · intro keysDirectory free
      dsimp only at free ⊢
      by_cases target : keysDirectory = store.keysDirectory
      · subst target
        refine readFromFile_of_text roundTrip ((Function.update_of_ne shared ..).trans
          (Function.update_self ..)) ?_
        rcases whole with whole | ⟨other, held, reached, differs, owns, -⟩
        · rw [← own]
          exact whole
        · exact absurd ⟨differs, owns⟩ alone
      · by_cases source : keysDirectory = tempDirectory
        · subst source
          rw [ordered.unshared call record store waits shared]
          exact readFromFile_of_missing (Function.update_self ..)
        · refine (readFromFile_congr ?_).trans
            (sound.settled keysDirectory fun other waiting held before => ?_)
          · exact congrArg (Option.map state.files.contents)
              ((Function.update_of_ne source ..).trans (Function.update_of_ne target ..))
          · by_cases same : other = call
            · subst same
              obtain rfl := Option.some.inj (found.symm.trans before.1)
              obtain rfl := Option.some.inj (present.symm.trans before.2.2)
              exact ⟨Ne.symm target, source⟩
            · exact free other waiting held (stays _ same before)

theorem Sound.updated {state : KeyStores} {changes : List KeyChange}
    (sound : Sound tempDirectory initial ⟨state, changes⟩)
    {call : ℕ} {record : KeyCall} {store : FilesystemKeyStore}
    (found : state.calls[call]? = some record)
    (present : state.stores[record.store]? = some store)
    (free : state.isLocked record.store = false) :
    Sound tempDirectory initial ⟨{ state with
      stores := state.stores.modify record.store fun store =>
        { store with index := record.operation.change store.index } }.setPhase call .saveIndex,
      changes ++ [⟨call, record.store, store.keysDirectory, record.operation⟩]⟩ := by
  refine ⟨sound.proper, ?_, ?_, ?_⟩
  · intro other held file count text saves
    exact sound.opened other held file count text ((saves_updated found present free _).mp saves)
  · intro other held file count text saves
    refine (sound.written other held file count text
      ((saves_updated found present free _).mp saves)).imp_right (Or.imp_right ?_)
    rintro ⟨another, kept, reached, also, agrees⟩
    exact ⟨another, kept, reached, (saves_updated found present free _).mpr also, agrees⟩
  · intro keysDirectory clear
    dsimp only at clear ⊢
    have mine := clear call { record with phase := .saveIndex }
      { store with index := record.operation.change store.index }
      ((pendingAt_setPhase_changed found present _).mpr (.inr ⟨rfl, rfl, rfl, rfl⟩))
    rw [indexAfter_append, if_neg mine.1]
    refine sound.settled keysDirectory fun other later held waits => ?_
    by_cases same : later.store = record.store
    · have there := waits.2.2
      rw [same, present] at there
      obtain rfl := Option.some.inj there
      exact mine
    · exact clear other later held (pendingAt_updated_of_ne found present _ waits same)

theorem Sound.move (roundTrip : formats.RoundTrip) {state next : KeyStores}
    {changes : List KeyChange} {made : Option KeyChange}
    (ordered : Ordered tempDirectory initial ⟨state, changes⟩)
    (sound : Sound tempDirectory initial ⟨state, changes⟩)
    (clear : ¬Collides tempDirectory state) (moves : Moves tempDirectory state made next)
    (later : ¬Collides tempDirectory next) :
    Sound tempDirectory initial ⟨next, changes ++ made.toList⟩ := by
  cases moves with
  | quiet known files pending changed failed =>
    rw [Option.toList_none, List.append_nil]
    refine sound.of_saves files (fun call store file count text => ?_)
      fun {call record store} waits => ⟨record, (pending call record store).mpr waits⟩
    exact exists_congr fun record => and_congr_left fun _ => pending call record store
  | updated found phase present free => exact sound.updated found present free
  | @saved call record store found phase present =>
    rw [Option.toList_none, List.append_nil]
    refine sound.of_saves rfl (fun other held file count text => ?_)
      (pending_of_setPhase state.files found present rfl)
    refine saves_setPhase_same found present fun _ _ _ => ?_
    rw [phase]
    constructor <;> rintro ⟨opened, -⟩ <;> contradiction
  | created found phase present =>
    rw [Option.toList_none, List.append_nil]
    refine Sound.created sound found present (ordered.of_pending
      (origin_setPhase _ found present (by rw [phase]; rfl)
        fun text taken => .inl (by rw [phase]; exact taken))) later
  | wrote bytes found phase present =>
    rw [Option.toList_none, List.append_nil]
    exact Sound.wrote ordered sound clear bytes found phase present
  | @synced call record store contents file found phase present =>
    rw [Option.toList_none, List.append_nil]
    refine sound.of_saves rfl (fun other held file count text => ?_)
      (pending_of_setPhase state.files found present rfl)
    exact saves_setPhase_same found present (fun _ _ _ => by rw [phase]; exact Iff.rfl)
  | renamed found phase present =>
    rw [Option.toList_none, List.append_nil]
    exact Sound.renamed roundTrip ordered sound clear found phase present

/-! ### Whole runs -/

theorem state_foldl (events : List KeyEvent) (history : KeyHistory) :
    (events.foldl (perform tempDirectory) history).state =
      events.foldl (KeyStores.perform tempDirectory) history.state := by
  induction events generalizing history with
  | nil => rfl
  | cons event rest inductionHypothesis =>
    rw [List.foldl_cons, List.foldl_cons, inductionHypothesis]
    rfl

/-- What every step of a run in step keeps. -/
structure Kept (tempDirectory : DirectoryPath) (initial : DirectoryPath → KeyIndex)
    (history : KeyHistory) : Prop where
  bookkept : history.Bookkept
  ordered : Ordered tempDirectory initial history
  sound : Collides tempDirectory history.state ∨ Sound tempDirectory initial history

/-- An event is in step when the change it makes is. -/
def EventInStep (tempDirectory : DirectoryPath) (initial : DirectoryPath → KeyIndex)
    (history : KeyHistory) (event : KeyEvent) : Prop :=
  ∀ change, history.state.change? event = some change →
    InStep tempDirectory initial history change

theorem Kept.perform (roundTrip : formats.RoundTrip) (history : KeyHistory) (event : KeyEvent)
    (kept : Kept tempDirectory initial history)
    (inStep : EventInStep tempDirectory initial history event) :
    Kept tempDirectory initial (history.perform tempDirectory event) := by
  obtain ⟨state, changes⟩ := history
  obtain ⟨bookkept, ordered, sound⟩ := kept
  have moves := perform_moves bookkept.known tempDirectory event
  refine ⟨bookkept.perform tempDirectory event, ordered.move moves inStep, ?_⟩
  by_cases clear : Collides tempDirectory state
  · exact .inl (clear.move ordered moves)
  · by_cases later : Collides tempDirectory (state.perform tempDirectory event)
    · exact .inl later
    · exact .inr (Sound.move roundTrip ordered (sound.resolve_left clear) clear moves later)

theorem Kept.start {start : KeyStores} (begins : start.IsStart initial) :
    Kept tempDirectory initial ⟨start, []⟩ := by
  have none : ∀ {call : ℕ}, start.calls[call]? = none := by
    intro call
    rw [begins.noCalls]
    rfl
  have idle : ∀ {call : ℕ} {record : KeyCall} {store : FilesystemKeyStore},
      ¬start.PendingAt call record store := by
    rintro call record store ⟨found, -⟩
    rw [none] at found
    contradiction
  have unsaved : ∀ {call : ℕ} {store : FilesystemKeyStore} {file : Inode} {count : ℕ}
      {text : List UInt8}, ¬Saves start call store file count text :=
    fun ⟨_, waits, _⟩ => idle waits
  refine ⟨⟨fun call record found => ?_, fun change => ?_, List.nodup_nil⟩, ⟨?_, ?_, ?_, ?_, ?_⟩,
    .inr ⟨begins.proper, ?_, ?_, fun keysDirectory _ => begins.readable keysDirectory⟩⟩
  · rw [none] at found
    contradiction
  · refine ⟨fun absent => absurd absent List.not_mem_nil, fun made => ?_⟩
    unfold changedCall at made
    rw [none] at made
    contradiction
  · exact fun _ _ _ waits => absurd waits idle
  · exact fun _ _ _ _ waits => absurd waits idle
  · exact fun _ _ _ _ _ _ waits => absurd waits idle
  · exact fun _ _ _ _ _ _ waits => absurd waits idle
  · exact fun _ _ _ waits => absurd waits idle
  · exact fun _ _ _ _ _ saves => absurd saves unsaved
  · exact fun _ _ _ _ _ saves => absurd saves unsaved

/-- When all calls have returned without an error, the files hold what the calls made on their
directories lead to, in the order in which they changed the indices. -/
theorem Kept.serialized {history : KeyHistory} (kept : Kept tempDirectory initial history)
    (returned : history.state.AllReturned) : Serialized initial history.state := by
  obtain ⟨state, changes⟩ := history
  obtain ⟨⟨known, listed, once⟩, ordered, sound⟩ := kept
  dsimp only at known listed once sound returned ⊢
  have ended : ∀ {call : ℕ} {record : KeyCall}, state.calls[call]? = some record →
      record.phase = .returned (.ok ()) := fun found => returned _ (List.mem_of_getElem? found)
  have idle : ∀ {call : ℕ} {record : KeyCall} {store : FilesystemKeyStore},
      ¬state.PendingAt call record store := by
    rintro call record store ⟨found, waits, -⟩
    rw [ended found] at waits
    contradiction
  have clear : ¬Collides tempDirectory state := by
    rintro (⟨call, record, error, found, failed⟩ | ⟨⟨_, waits, -⟩, -⟩ | ⟨⟨_, waits, -⟩, -⟩)
    · rw [ended found] at failed
      cases failed
    · exact idle waits
    · exact idle waits
  have sound := sound.resolve_left clear
  intro keysDirectory
  refine ⟨(changes.filter fun change => change.keysDirectory = keysDirectory).map
    fun change => (change.call, change.operation), ?_, fun entry => ?_, ?_⟩
  · rw [List.map_map]
    exact once.sublist (List.filter_sublist.map _)
  · obtain ⟨call, operation⟩ := entry
    simp only [List.mem_map, List.mem_filter, decide_eq_true_eq, Prod.mk.injEq]
    constructor
    · rintro ⟨⟨_, place, directory, _⟩, ⟨member, here⟩, rfl, rfl⟩
      have made := (listed _).mp member
      unfold changedCall at made
      split at made
      · contradiction
      · next record found =>
        split at made
        · contradiction
        · next store present =>
          rw [ended found] at made
          cases made
          refine ⟨record, found, rfl, ?_⟩
          unfold directory?
          rw [present, ← here]
          rfl
    · rintro ⟨record, found, rfl, there⟩
      obtain ⟨store, present, rfl⟩ := Option.map_eq_some_iff.mp there
      refine ⟨⟨call, record.store, store.keysDirectory, record.operation⟩, ⟨(listed _).mpr ?_, rfl⟩,
        rfl, rfl⟩
      unfold changedCall
      dsimp only at found ⊢
      rw [found]
      dsimp only
      rw [present]
      dsimp only
      rw [ended found]
      rfl
  · rw [List.foldl_map]
    exact sound.settled keysDirectory fun _ _ _ waits => absurd waits idle

/-- As long as every change is made in step, the index files hold what the calls lead to whenever
all calls have returned without an error. -/
theorem serialized_of_inStep (roundTrip : formats.RoundTrip) (tempDirectory : DirectoryPath)
    (initial : DirectoryPath → KeyIndex) (start : KeyStores) (begins : start.IsStart initial)
    (events : List KeyEvent)
    (inStep : Run.Conforms (KeyHistory.perform tempDirectory)
      (EventInStep tempDirectory initial) ⟨start, []⟩ events) :
    ∀ reached, reached <+: events →
      (reached.foldl (KeyStores.perform tempDirectory) start).AllReturned →
        Serialized initial (reached.foldl (KeyStores.perform tempDirectory) start) := by
  intro reached earlier returned
  have kept : Kept tempDirectory initial
      (reached.foldl (KeyHistory.perform tempDirectory) ⟨start, []⟩) :=
    Run.prefix_invariant (Kept.perform roundTrip) (Kept.start begins) inStep earlier
  rw [← state_foldl reached ⟨start, []⟩] at returned ⊢
  exact kept.serialized returned

end KeyHistory

namespace Sample

/-! ### A text for every index -/

/-- No text begins another. -/
def PrefixFree {α : Type} (encode : α → List UInt8) : Prop :=
  ∀ first second rest other, encode first ++ rest = encode second ++ other →
    first = second ∧ rest = other

def encodeList {α : Type} (encode : α → List UInt8) : List α → List UInt8
  | [] => [0]
  | item :: rest => 1 :: (encode item ++ encodeList encode rest)

theorem encodeList_prefixFree {α : Type} {encode : α → List UInt8} (free : PrefixFree encode) :
    PrefixFree (encodeList encode) := by
  intro first
  induction first with
  | nil =>
    intro second rest other same
    cases second with
    | nil => exact ⟨rfl, (List.cons.inj same).2⟩
    | cons item items => exact absurd (List.cons.inj same).1 (by decide)
  | cons item items inductionHypothesis =>
    intro second rest other same
    cases second with
    | nil => exact absurd (List.cons.inj same).1 (by decide)
    | cons later others =>
      have same : encode item ++ encodeList encode items ++ rest =
          encode later ++ encodeList encode others ++ other := (List.cons.inj same).2
      rw [List.append_assoc, List.append_assoc] at same
      obtain ⟨rfl, remaining⟩ := free _ _ _ _ same
      obtain ⟨rfl, ended⟩ := inductionHypothesis _ _ _ remaining
      exact ⟨rfl, ended⟩

def encodeNat (number : ℕ) : List UInt8 :=
  encodeList (fun _ : Unit => []) (List.replicate number ())

theorem encodeNat_prefixFree : PrefixFree encodeNat := by
  intro first second rest other same
  have free : PrefixFree fun _ : Unit => [] := fun _ _ _ _ same => ⟨rfl, same⟩
  obtain ⟨equal, same⟩ := encodeList_prefixFree free _ _ _ _ same
  have lengths := congrArg List.length equal
  rw [List.length_replicate, List.length_replicate] at lengths
  exact ⟨lengths, same⟩

def encodeString (text : String) : List UInt8 :=
  encodeList (fun letter : Char => encodeNat letter.toNat) text.toList

theorem encodeString_prefixFree : PrefixFree encodeString := by
  intro first second rest other same
  obtain ⟨equal, same⟩ := encodeList_prefixFree (fun _ _ _ _ same => by
    obtain ⟨equal, same⟩ := encodeNat_prefixFree _ _ _ _ same
    exact ⟨Char.toNat_inj.mp equal, same⟩) _ _ _ _ same
  exact ⟨String.toList_inj.mp equal, same⟩

/-- The entries of an index. -/
def listing (index : KeyIndex) : ℕ × List (String × List String) :=
  (index.version, index.mappings.toList.map fun entry => (entry.1, entry.2.toList))

theorem listing_injective : Function.Injective listing := by
  intro first second same
  obtain ⟨version, entries⟩ := Prod.mk.inj same
  have injective : Function.Injective fun entry : String × ExtTreeSet String =>
      (entry.1, entry.2.toList) := by
    intro one two equal
    obtain ⟨name, keys⟩ := Prod.mk.inj equal
    exact Prod.ext name (ExtTreeSet.toList_inj.mp keys)
  have mappings := ExtTreeMap.toList_inj.mp (injective.list_map entries)
  obtain ⟨_, _⟩ := first
  obtain ⟨_, _⟩ := second
  exact congrArg₂ KeyIndex.mk version mappings

def encodeListing (entries : ℕ × List (String × List String)) : List UInt8 :=
  encodeNat entries.1 ++ encodeList (fun entry : String × List String =>
    encodeString entry.1 ++ encodeList encodeString entry.2) entries.2

theorem encodeListing_injective : Function.Injective encodeListing := by
  intro first second same
  obtain ⟨version, same⟩ := encodeNat_prefixFree _ _ _ _ same
  have free : PrefixFree fun entry : String × List String =>
      encodeString entry.1 ++ encodeList encodeString entry.2 := by
    intro one two rest other same
    rw [List.append_assoc, List.append_assoc] at same
    obtain ⟨name, same⟩ := encodeString_prefixFree _ _ _ _ same
    obtain ⟨keys, same⟩ := encodeList_prefixFree encodeString_prefixFree _ _ _ _ same
    exact ⟨Prod.ext name keys, same⟩
  obtain ⟨entries, -⟩ := encodeList_prefixFree free first.2 second.2 [] []
    (congrArg (· ++ []) same)
  exact Prod.ext version entries

/-- The characters of a text, all of which are single bytes. -/
def asciiBytes (text : String) : List UInt8 :=
  text.toList.map fun letter => UInt8.ofNat letter.toNat

/-- The text of an index with a single key. -/
def singleKeyText (account key : String) : List UInt8 :=
  asciiBytes ("\x7b\n  \"version\": 1,\n  \"mappings\": \x7b\n    \"" ++ account ++
    "\": [\n      \"" ++ key ++ "\"\n    ]\n  \x7d\n\x7d")

/-- The text of an index: as it is written, for the two indices used below, and another text of
its own for every other index. -/
def textOf (entries : ℕ × List (String × List String)) : List UInt8 :=
  if entries = (1, [("0x1", ["0xa"])]) then singleKeyText "0x1" "0xa"
  else if entries = (1, [("0x2", ["0xb"])]) then singleKeyText "0x2" "0xb"
  else encodeListing entries

theorem textOf_injective : Function.Injective textOf := by
  have coded : ∀ entries, (encodeListing entries).head? = some 0 ∨
      (encodeListing entries).head? = some 1 := by
    rintro ⟨version, entries⟩
    cases version with
    | zero => exact .inl rfl
    | succ version => exact .inr rfl
  have apart : ∀ entries, encodeListing entries ≠ singleKeyText "0x1" "0xa" ∧
      encodeListing entries ≠ singleKeyText "0x2" "0xb" := by
    intro entries
    constructor <;> intro same <;> rcases coded entries with head | head <;>
      rw [same] at head <;> revert head <;> decide +kernel
  intro first second same
  unfold textOf at same
  split at same
  · next one =>
    split at same
    · next two => exact one.trans two.symm
    · split at same
      · exact absurd same (by decide +kernel)
      · exact absurd same.symm (apart second).1
  · split at same
    · next one =>
      split at same
      · exact absurd same (by decide +kernel)
      · split at same
        · next two => exact one.trans two.symm
        · exact absurd same.symm (apart second).2
    · split at same
      · exact absurd same (apart first).1
      · split at same
        · exact absurd same (apart first).2
        · exact encodeListing_injective same

/-! ### Two instances on one directory -/

open Classical in
noncomputable instance formats : KeyFormats where
  toStringPretty index := textOf (listing index)
  fromStr text :=
    if known : ∃ index, textOf (listing index) = text then .ok known.choose
    else .error "expected value"
  accountToHex accountId := "0x" ++ String.ofList (Nat.toDigits 16 accountId)
  wordToHex word := "0x" ++ String.ofList (Nat.toDigits 16 word)
  hashPubKey word := String.ofList (Nat.toDigits 10 word)
  notFound := "Os \x7b code: 2, kind: NotFound, message: \"No such file or directory\" \x7d"

theorem formats_roundTrip : formats.RoundTrip := by
  intro index
  have known : ∃ other, textOf (listing other) = textOf (listing index) := ⟨index, rfl⟩
  exact (dif_pos known).trans
    (congrArg Except.ok (listing_injective (textOf_injective known.choose_spec)))

/-- No file is there yet. -/
def noKeyStores : KeyStores := ⟨⟨fun _ => none, fun _ => [], 0⟩, fun _ _ => none, [], []⟩

theorem noKeyStores_isStart : noKeyStores.IsStart fun _ => KeyIndex.new where
  noStores := rfl
  noCalls := rfl
  proper := ⟨fun _ _ _ absent => (nomatch absent), fun _ _ absent => (nomatch absent)⟩
  readable _ := rfl

/-- A call takes all its steps. -/
def wholeCall (call : ℕ) : List KeyEvent :=
  List.replicate 7 (.advance call 200)

/-- An instance and its clone add a key each. -/
def clonedCalls : List KeyEvent :=
  [.new "keys", .clone 0, .call 0 (.addKey 1 10)] ++ wholeCall 0 ++ [.call 1 (.addKey 2 11)] ++
    wholeCall 1

noncomputable def clonedEnd : KeyStores := clonedCalls.foldl (KeyStores.perform "tmp") noKeyStores

/-- The file holds the key of the second call only. -/
theorem not_serialized :
    ¬∀ (formats : KeyFormats), formats.RoundTrip → ∀ (tempDirectory : DirectoryPath)
      (initial : DirectoryPath → KeyIndex) (start : KeyStores), start.IsStart initial →
        ∀ events : List KeyEvent,
          (events.foldl (KeyStores.perform tempDirectory) start).AllReturned →
            (events.foldl (KeyStores.perform tempDirectory) start).Serialized initial := by
  intro claimed
  have returned : clonedEnd.AllReturned := by
    unfold KeyStores.AllReturned
    decide +kernel
  obtain ⟨order, distinct, members, found⟩ := claimed formats formats_roundTrip "tmp"
    (fun _ => KeyIndex.new) noKeyStores noKeyStores_isStart clonedCalls returned "keys"
  have read : KeyIndex.readFromFile clonedEnd.files "keys" =
    .ok (KeyIndex.new.addMapping 2 11) := by
    have entry : clonedEnd.files.entries "keys" = some 1 := by decide +kernel
    have held : clonedEnd.files.contents 1 =
      formats.toStringPretty (KeyIndex.new.addMapping 2 11) :=
      by decide +kernel
    exact KeyHistory.readFromFile_of_text formats_roundTrip entry held
  have both : order.Perm [(0, .addKey 1 10), (1, .addKey 2 11)] := by
    refine (List.perm_ext_iff_of_nodup distinct.of_map (by decide)).mpr fun entry => ?_
    have calls : clonedEnd.calls = [⟨0, .addKey 1 10, .returned (.ok ())⟩,
        ⟨1, .addKey 2 11, .returned (.ok ())⟩] := by decide +kernel
    have directories : ∀ record ∈ clonedEnd.calls, clonedEnd.directory? record = some "keys" := by
      decide +kernel
    rw [members, List.mem_pair]
    constructor
    · obtain ⟨call, operation⟩ := entry
      rintro ⟨record, found, rfl, -⟩
      have listed : clonedEnd.calls[call]? = some record := found
      rw [calls] at listed
      match call, listed with
      | 0, listed =>
        obtain rfl := Option.some.inj listed
        exact .inl rfl
      | 1, listed =>
        obtain rfl := Option.some.inj listed
        exact .inr rfl
    · rintro (rfl | rfl)
      · exact ⟨_, congrArg (·[0]?) calls, rfl, directories _ (by rw [calls]; decide)⟩
      · exact ⟨_, congrArg (·[1]?) calls, rfl, directories _ (by rw [calls]; decide)⟩
  have outcome := congrArg (fun index : KeyIndex => index.mappings.contains "0x1")
    (Except.ok.inj (read.symm.trans found))
  have kept : ¬(KeyIndex.new.addMapping 2 11).mappings.contains "0x1" := by decide +kernel
  refine kept (outcome.trans ?_)
  rcases List.perm_pair.mp both with rfl | rfl <;> decide +kernel

/-! ### One instance after the other -/

theorem eventInStep_of_none {history : KeyHistory} {event : KeyEvent}
    (unchanged : history.state.change? event = none) :
    KeyHistory.EventInStep "tmp" (fun _ => KeyIndex.new) history event := by
  intro change made
  rw [unchanged] at made
  contradiction

/-- A change is in step when the index is up to date, no other call is under way, and nothing has
been changed in the temporary directory. -/
theorem eventInStep_of_idle {history : KeyHistory} {event : KeyEvent} {change : KeyChange}
    (made : history.state.change? event = some change)
    (current : (history.state.stores[change.store]?).map FilesystemKeyStore.index =
      some (KeyHistory.indexAfter (fun _ => KeyIndex.new) history.changes change.keysDirectory))
    (idle : ∀ record ∈ history.state.calls, record.phase.pending = false)
    (unshared : KeyHistory.indexAfter (fun _ => KeyIndex.new) history.changes "tmp" =
      KeyIndex.new) :
    KeyHistory.EventInStep "tmp" (fun _ => KeyIndex.new) history event := by
  intro other same
  obtain rfl := Option.some.inj (made.symm.trans same)
  have none_waits : ∀ call record store, ¬history.state.PendingAt call record store := by
    intro call record store waits
    have waiting := idle record (List.mem_of_getElem? waits.1)
    rw [waits.2.1] at waiting
    contradiction
  refine ⟨fun store present => ?_, fun call record store waits => ?_,
    fun call record store waits => ?_, fun _ => unshared⟩
  · rw [present, Option.map_some, Option.some_inj] at current
    exact current
  · exact absurd waits (none_waits call record store)
  · exact absurd waits (none_waits call record store)

/-- An instance adds a key. -/
def firstCall : List KeyEvent :=
  [.new "keys", .call 0 (.addKey 1 10)] ++ wholeCall 0

/-- Then it is cloned, and the clone adds a key too, whose text is longer. -/
def cloneCall : List KeyEvent :=
  [.clone 0, .call 1 (.addKey 2 11)] ++ List.replicate 8 (.advance 1 1000)

theorem firstCall_inStep :
    Run.Conforms (KeyHistory.perform "tmp") (KeyHistory.EventInStep "tmp" fun _ => KeyIndex.new)
      ⟨noKeyStores, []⟩ firstCall := by
  refine ⟨eventInStep_of_none (by decide +kernel), eventInStep_of_none (by decide +kernel),
    eventInStep_of_none (by decide +kernel),
    @eventInStep_of_idle _ _ ⟨0, 0, "keys", .addKey 1 10⟩ (by decide +kernel) rfl
      (by decide +kernel) rfl,
    eventInStep_of_none (by decide +kernel), eventInStep_of_none (by decide +kernel),
    eventInStep_of_none (by decide +kernel), eventInStep_of_none (by decide +kernel),
    eventInStep_of_none (by decide +kernel), trivial⟩

theorem cloneCall_inStep :
    Run.Conforms (KeyHistory.perform "tmp") (KeyHistory.EventInStep "tmp" fun _ => KeyIndex.new)
      (firstCall.foldl (KeyHistory.perform "tmp") ⟨noKeyStores, []⟩) cloneCall := by
  refine ⟨eventInStep_of_none (by decide +kernel), eventInStep_of_none (by decide +kernel),
    eventInStep_of_none (by decide +kernel),
    @eventInStep_of_idle _ _ ⟨1, 1, "keys", .addKey 2 11⟩ (by decide +kernel) rfl
      (by decide +kernel) rfl,
    eventInStep_of_none (by decide +kernel), eventInStep_of_none (by decide +kernel),
    eventInStep_of_none (by decide +kernel), eventInStep_of_none (by decide +kernel),
    eventInStep_of_none (by decide +kernel), eventInStep_of_none (by decide +kernel), trivial⟩

/-- Both instances put their keys in the file. -/
theorem serialized_cloneCall :
    ((firstCall ++ cloneCall).foldl (KeyStores.perform "tmp") noKeyStores).Serialized
      fun _ => KeyIndex.new :=
  KeyHistory.serialized_of_inStep formats_roundTrip "tmp" (fun _ => KeyIndex.new) noKeyStores
    noKeyStores_isStart (firstCall ++ cloneCall)
    (Run.conforms_append.mpr ⟨firstCall_inStep, cloneCall_inStep⟩) (firstCall ++ cloneCall)
    (List.prefix_refl _) (by
      unfold KeyStores.AllReturned
      decide +kernel)

end Sample

end MidenClient
