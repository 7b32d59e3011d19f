/-
This file says what a sparse Merkle tree of the protocol library is to the stores: a root
stands for its leaves and is determined by them, and inserting a batch sets leaves.

The stores only ever see roots. A result that depends on what two roots have in common
takes the leaves as a parameter and this law as a hypothesis. The library at the end,
which keeps the leaves in the root, satisfies it.
-/

import Mathlib.Logic.Encodable.Basic
import Mathlib.Logic.Equiv.List
import MidenClient.Library.OrderedMap
import MidenClient.Store.SmtForest

namespace MidenClient

open Std (ExtTreeMap)

/-! ### Leaves of trees -/

/-- The leaves after some of them are set. -/
def setLeaves (leaves : Word → Word) (entries : List (Word × Word)) : Word → Word :=
  entries.foldl (fun leaves entry => Function.update leaves entry.1 entry.2) leaves

theorem setLeaves_of_notMem {entries : List (Word × Word)} {key : Word}
    (absent : key ∉ entries.map Prod.fst) (leaves : Word → Word) :
    setLeaves leaves entries key = leaves key := by
  induction entries generalizing leaves with
  | nil => rfl
  | cons entry rest inductionHypothesis =>
    rw [List.map_cons, List.mem_cons, not_or] at absent
    refine (inductionHypothesis absent.2 _).trans ?_
    exact Function.update_of_ne absent.1 _ _

/-- A leaf that is set does not depend on what it was. -/
theorem setLeaves_of_mem {entries : List (Word × Word)} {key : Word}
    (present : key ∈ entries.map Prod.fst) (first second : Word → Word) :
    setLeaves first entries key = setLeaves second entries key := by
  induction entries generalizing first second with
  | nil => cases present
  | cons entry rest inductionHypothesis =>
    by_cases later : key ∈ rest.map Prod.fst
    · exact inductionHypothesis later _ _
    · have here : key = entry.1 := (List.mem_cons.mp present).resolve_right later
      refine (setLeaves_of_notMem later _).trans (Eq.trans ?_ (setLeaves_of_notMem later _).symm)
      dsimp only
      rw [here, Function.update_self, Function.update_self]

/-- Setting leaves forgets what they were, and nothing else. -/
theorem setLeaves_eq_iff {first second : Word → Word} {entries : List (Word × Word)} :
    setLeaves first entries = setLeaves second entries ↔
      ∀ key, key ∉ entries.map Prod.fst → first key = second key := by
  constructor
  · intro same key absent
    rw [← setLeaves_of_notMem absent first, same, setLeaves_of_notMem absent]
  · intro agree
    funext key
    by_cases present : key ∈ entries.map Prod.fst
    · exact setLeaves_of_mem present first second
    · rw [setLeaves_of_notMem present, setLeaves_of_notMem present]
      exact agree key present

/-- With distinct keys every entry is what its leaf is set to. -/
theorem setLeaves_of_entry {entries : List (Word × Word)} {key value : Word}
    (distinct : (entries.map Prod.fst).Nodup) (member : (key, value) ∈ entries)
    (leaves : Word → Word) : setLeaves leaves entries key = value := by
  induction entries generalizing leaves with
  | nil => cases member
  | cons first rest inductionHypothesis =>
    rw [List.map_cons, List.nodup_cons] at distinct
    rcases List.mem_cons.mp member with same | later
    · rw [← same] at distinct ⊢
      refine (setLeaves_of_notMem distinct.1 _).trans ?_
      exact Function.update_self _ _ _
    · exact inductionHypothesis distinct.2 later _

section Library

variable [ProtocolLibrary]

/-- The roots of the trees that can be built. -/
inductive SmtTree : Word → Prop where
  | empty : SmtTree ProtocolLibrary.emptySmtRoot
  | batchInsert {root : Word} (entries : List (Word × Word)) (tree : SmtTree root) :
      SmtTree (ProtocolLibrary.smtBatchInsert root entries)

/-- What the trees of the protocol library are: a root is determined by the leaves it stands for,
the empty tree has only empty leaves, and inserting a batch sets its leaves. -/
structure SmtLaw (leaves : Word → Word → Word) : Prop where
  collisionFree : ∀ first second, SmtTree first → SmtTree second →
    leaves first = leaves second → first = second
  empty : leaves ProtocolLibrary.emptySmtRoot = fun _ => emptyWord
  batchInsert : ∀ root entries, SmtTree root →
    leaves (ProtocolLibrary.smtBatchInsert root entries) = setLeaves (leaves root) entries

/-- Inserting nothing into the empty tree leaves it empty. -/
theorem SmtLaw.batchInsert_nil {leaves : Word → Word → Word} (law : SmtLaw leaves) :
    ProtocolLibrary.smtBatchInsert ProtocolLibrary.emptySmtRoot [] =
      ProtocolLibrary.emptySmtRoot :=
  law.collisionFree _ _ (.batchInsert _ .empty) .empty (law.batchInsert _ _ .empty)

/-- The root after some leaves are set, which is the old one when there are none. -/
def updatedRoot (root : Word) (entries : List (Word × Word)) : Word :=
  if entries.isEmpty then root else ProtocolLibrary.smtBatchInsert root entries

theorem SmtTree.updatedRoot {root : Word} (tree : SmtTree root) (entries : List (Word × Word)) :
    SmtTree (updatedRoot root entries) := by
  unfold MidenClient.updatedRoot
  split
  · exact tree
  · exact tree.batchInsert entries

theorem SmtLaw.updatedRoot {leaves : Word → Word → Word} (law : SmtLaw leaves) {root : Word}
    (tree : SmtTree root) (entries : List (Word × Word)) :
    leaves (updatedRoot root entries) = setLeaves (leaves root) entries := by
  unfold MidenClient.updatedRoot
  split
  · rename_i nothing
    rw [List.isEmpty_iff.mp nothing]
    rfl
  · exact law.batchInsert root entries tree

/-! ### Trees of maps -/

/-- The tree of a storage map has the values of its keys, and nothing else. -/
theorem SmtLaw.leaves_storageMapRoot {leaves : Word → Word → Word} (law : SmtLaw leaves)
    (hashes : Function.Injective ProtocolLibrary.mapKeyHash)
    (entries : ExtTreeMap StorageMapKey Word) :
    (∀ key, leaves (storageMapRoot entries) (ProtocolLibrary.mapKeyHash key) =
      entries[key]?.getD emptyWord) ∧
      ∀ word, (∀ key, ProtocolLibrary.mapKeyHash key ≠ word) →
        leaves (storageMapRoot entries) word = emptyWord := by
  let set := entries.toList.map fun entry => (ProtocolLibrary.mapKeyHash entry.1, entry.2)
  have tree : leaves (storageMapRoot entries) = setLeaves (fun _ => emptyWord) set := by
    rw [← law.empty]
    exact law.batchInsert _ _ .empty
  have keys : set.map Prod.fst = entries.keys.map ProtocolLibrary.mapKeyHash := by
    rw [List.map_map, ← ExtTreeMap.map_fst_toList_eq_keys, List.map_map]
    rfl
  rw [tree]
  constructor
  · intro key
    cases found : entries[key]? with
    | none =>
      refine setLeaves_of_notMem ?_ _
      rw [keys]
      intro listed
      obtain ⟨other, present, same⟩ := List.mem_map.mp listed
      rw [hashes same, ExtTreeMap.mem_keys, ← ExtTreeMap.isSome_getElem?_iff_mem, found] at present
      cases present
    | some value =>
      refine setLeaves_of_entry ?_ ?_ _
      · rw [keys]
        exact ExtTreeMap.nodup_keys.map hashes
      · refine List.mem_map.mpr ⟨(key, value), ?_, rfl⟩
        exact ExtTreeMap.mem_toList_iff_getElem?_eq_some.mpr found
  · intro word unhashed
    refine setLeaves_of_notMem ?_ _
    rw [keys]
    intro listed
    obtain ⟨key, -, same⟩ := List.mem_map.mp listed
    exact unhashed key same

/-- An absent entry and an empty one make no difference to the root. -/
theorem SmtLaw.storageMapRoot_congr {leaves : Word → Word → Word} (law : SmtLaw leaves)
    (hashes : Function.Injective ProtocolLibrary.mapKeyHash)
    {first second : ExtTreeMap StorageMapKey Word}
    (same : ∀ key : StorageMapKey, first[key]?.getD emptyWord = second[key]?.getD emptyWord) :
    storageMapRoot first = storageMapRoot second := by
  refine law.collisionFree _ _ (.batchInsert _ .empty) (.batchInsert _ .empty) ?_
  funext word
  by_cases hashed : ∃ key, ProtocolLibrary.mapKeyHash key = word
  · obtain ⟨key, rfl⟩ := hashed
    exact ((law.leaves_storageMapRoot hashes first).1 key).trans
      ((same key).trans ((law.leaves_storageMapRoot hashes second).1 key).symm)
  · have unhashed := not_exists.mp hashed
    exact ((law.leaves_storageMapRoot hashes first).2 word unhashed).trans
      ((law.leaves_storageMapRoot hashes second).2 word unhashed).symm

end Library

/-! ### A library of trees -/

namespace Trees

/-- Sets one leaf; empty leaves are left out. -/
def setLeaf (tree : ExtTreeMap Word Word) (leaf : Word × Word) : ExtTreeMap Word Word :=
  if leaf.2 = emptyWord then tree.erase leaf.1 else tree.insert leaf.1 leaf.2

/-- The root that keeps the leaves of a tree. -/
def treeRoot (tree : ExtTreeMap Word Word) : Word :=
  Encodable.encode tree.toList

def treeOf (root : Word) : ExtTreeMap Word Word :=
  ExtTreeMap.ofList ((Encodable.decode root : Option (List (Word × Word))).getD [])

def leaves (root key : Word) : Word :=
  (treeOf root)[key]?.getD emptyWord

/-- The sample library with roots that keep their leaves. -/
scoped instance library : ProtocolLibrary where
  accountCommitment := Sample.library.accountCommitment
  storageCommitment := Sample.library.storageCommitment
  isPrivate := Sample.library.isPrivate
  maxFungibleAmount := Sample.library.maxFungibleAmount
  emptySmtRoot := treeRoot ∅
  smtBatchInsert root entries := treeRoot (entries.foldl setLeaf (treeOf root))
  vaultKeyWord := Sample.library.vaultKeyWord
  assetValueWord := Sample.library.assetValueWord
  mapKeyHash := Sample.library.mapKeyHash

theorem vaultKeyWord_injective : Function.Injective library.vaultKeyWord := by
  intro first second same
  cases first with
  | fungible faucetId =>
    cases second with
    | fungible other =>
      have doubled : 2 * faucetId = 2 * other := same
      rw [Nat.eq_of_mul_eq_mul_left (by decide) doubled]
    | nonFungible asset =>
      have parity : (2 * faucetId : ℕ) = 2 * asset + 1 := same
      exact absurd parity (by simp only [AccountId, Word] at *; omega)
  | nonFungible asset =>
    cases second with
    | fungible other =>
      have parity : (2 * asset + 1 : ℕ) = 2 * other := same
      exact absurd parity (by simp only [AccountId, Word] at *; omega)
    | nonFungible other =>
      have doubled : 2 * asset + 1 = 2 * other + 1 := same
      rw [Nat.eq_of_mul_eq_mul_left (by decide) (Nat.succ.inj doubled)]

@[simp]
theorem treeOf_treeRoot (tree : ExtTreeMap Word Word) : treeOf (treeRoot tree) = tree := by
  have distinct : (tree.toList.map Prod.fst).Nodup := by
    rw [ExtTreeMap.map_fst_toList_eq_keys]
    exact ExtTreeMap.nodup_keys
  unfold treeOf treeRoot
  rw [Encodable.encodek, Option.getD_some]
  refine ExtTreeMap.ext_getElem? fun key => Option.ext fun value => ?_
  rw [OrderedMap.getElem?_ofList_eq_some_iff _ distinct,
    ExtTreeMap.mem_toList_iff_getElem?_eq_some]

/-- The leaf of a tree at a key. -/
def leafOf (tree : ExtTreeMap Word Word) (key : Word) : Word :=
  tree[key]?.getD emptyWord

theorem leafOf_setLeaf (tree : ExtTreeMap Word Word) (leaf : Word × Word) :
    leafOf (setLeaf tree leaf) = Function.update (leafOf tree) leaf.1 leaf.2 := by
  funext key
  unfold leafOf setLeaf
  by_cases same : key = leaf.1
  · rw [same, Function.update_self]
    split
    · rename_i empty
      rw [ExtTreeMap.getElem?_erase_self, empty]
      rfl
    · rw [ExtTreeMap.getElem?_insert_self]
      rfl
  · have different : ¬ compare leaf.1 key = .eq := by
      rw [Std.compare_eq_iff_eq]
      exact fun equal => same equal.symm
    rw [Function.update_of_ne same]
    split
    · rw [ExtTreeMap.getElem?_erase, if_neg different]
    · rw [ExtTreeMap.getElem?_insert, if_neg different]

theorem leafOf_foldl (tree : ExtTreeMap Word Word) (entries : List (Word × Word)) :
    leafOf (entries.foldl setLeaf tree) = setLeaves (leafOf tree) entries := by
  unfold setLeaves
  induction entries generalizing tree with
  | nil => rfl
  | cons leaf rest inductionHypothesis =>
    rw [List.foldl_cons, List.foldl_cons, inductionHypothesis, leafOf_setLeaf]

/-- The tree has no empty leaf. -/
def Full (tree : ExtTreeMap Word Word) : Prop :=
  ∀ key : Word, tree[key]? ≠ some emptyWord

theorem full_foldl {tree : ExtTreeMap Word Word} (full : Full tree)
    (entries : List (Word × Word)) : Full (entries.foldl setLeaf tree) := by
  refine List.foldlRecOn (motive := Full) entries setLeaf full ?_
  intro before fullBefore leaf _ key
  unfold setLeaf
  split
  · rw [ExtTreeMap.getElem?_erase]
    split
    · exact (Option.some_ne_none _).symm
    · exact fullBefore key
  · rename_i notEmpty
    rw [ExtTreeMap.getElem?_insert]
    split
    · exact fun same => notEmpty (Option.some.inj same)
    · exact fullBefore key

theorem exists_full {root : Word} (tree : SmtTree root) :
    ∃ kept, Full kept ∧ root = treeRoot kept := by
  induction tree with
  | empty => exact ⟨∅, fun key => by simp, rfl⟩
  | batchInsert entries _ inductionHypothesis =>
    obtain ⟨kept, full, rfl⟩ := inductionHypothesis
    refine ⟨_, full_foldl full entries, ?_⟩
    show treeRoot (entries.foldl setLeaf (treeOf (treeRoot kept))) = _
    rw [treeOf_treeRoot]

theorem smtLaw : SmtLaw leaves where
  collisionFree first second treeFirst treeSecond same := by
    obtain ⟨one, fullOne, rfl⟩ := exists_full treeFirst
    obtain ⟨two, fullTwo, rfl⟩ := exists_full treeSecond
    refine congrArg treeRoot (ExtTreeMap.ext_getElem? fun key => ?_)
    have leaf : one[key]?.getD emptyWord = two[key]?.getD emptyWord := by
      have here := congrFun same key
      unfold leaves at here
      rwa [treeOf_treeRoot, treeOf_treeRoot] at here
    have oneFull := fullOne key
    have twoFull := fullTwo key
    rcases foundOne : one[key]? with _ | first <;> rcases foundTwo : two[key]? with _ | second <;>
      simp_all
  empty := by
    funext key
    show (treeOf (treeRoot ∅))[key]?.getD emptyWord = emptyWord
    rw [treeOf_treeRoot, ExtTreeMap.getElem?_empty]
    rfl
  batchInsert root entries _ := by
    funext key
    show (treeOf (treeRoot (entries.foldl setLeaf (treeOf root))))[key]?.getD emptyWord = _
    rw [treeOf_treeRoot]
    exact congrFun (leafOf_foldl (treeOf root) entries) key

end Trees

end MidenClient
