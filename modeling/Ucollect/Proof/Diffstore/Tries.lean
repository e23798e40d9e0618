import Ucollect.Construction.Diffstore.Tries
import Ucollect.Proof.Diffstore.Bookkeeping
import Ucollect.Proof.Trie.Marks

/-
This file proves that the trie of a store is its set of addresses as long as no address ends inside an
edge of the trie.
-/

namespace Ucollect.Diffstore
open Library Core List Option

/-- The trie marks the addresses of the store among the keys that it got. -/
structure TrieStore.Refines (concrete : TrieStore) (store : Store) (keys : List Bytes) : Prop where
  epoch : concrete.epoch = store.epoch
  version : concrete.version = store.version
  added : concrete.added = store.added
  deleted : concrete.deleted = store.deleted
  trie : concrete.trie.Represents (marks keys store.trie)
  inside : ∀ address ∈ store.trie, address ∈ keys

/-- These are the changes that the diff describes. -/
def Diff.changes (diff : Diff) : List (Change Bytes) :=
  (diffChanges diff.body.length diff.body).getD []

/-- A full diff empties the trie, if an address is active. -/
def Diff.kept (diff : Diff) (set : Finset Bytes) (keys : List Bytes) : List Bytes :=
  if diff.full = true ∧ set ≠ ∅ then [] else keys

instance (diff : Diff) (store : Store) : Decidable (diff.Refused store) :=
  inferInstanceAs (Decidable (_ ∧ _))

/-- These are the keys of the trie after the diff. -/
def Diff.laid (diff : Diff) (store : Store) (keys : List Bytes) : List Bytes :=
  if diff.Refused store then keys else diff.kept store.trie keys ++ diff.changes.map Change.key

/-- A failed check fails in both, and they give the same answer and call the same hooks. -/
def TrieStore.Follows (keys : List Bytes) (result : Option (TrieStore × Action × List Hook))
    (expected : Option (Store × Action × List Hook)) : Prop :=
  match result with
  | none => expected = none
  | some (next, answer) => ∃ after, expected = some (after, answer) ∧ next.Refines after keys

namespace TrieStore
open List Option

/-- The changes of a list are made one after another. -/
def changeAll (store : TrieStore) : List (Change Bytes) → Option (TrieStore × List Hook)
  | [] => some (store, [])
  | change :: changes =>
    (store.change change.key change.add).bind fun (store, first) =>
      (store.changeAll changes).map fun (store, hooks) => (store, first ++ hooks)

variable {concrete next : TrieStore} {store : Store} {keys : List Bytes} {address : Bytes}
  {diff : Diff} {hooks : List Hook} {action : Action}

theorem applyLoop_eq (fuel : Nat) (body : Bytes) (store : TrieStore) :
    applyLoop fuel body store = (diffChanges fuel body).bind store.changeAll := by
  induction fuel generalizing body store with
  | zero => cases body <;> rfl
  | succ fuel ih =>
    cases body with
    | nil => rfl
    | cons flags body =>
      rw [applyLoop, diffChanges]
      dsimp only
      split
      · rfl
      · simp only [ih]
        cases diffChanges fuel (body.drop (flags &&& sizeMask).toNat) with
        | none => simp
        | some changes => rfl

namespace Refines
open List Option

theorem init : TrieStore.init.Refines .init [] :=
  ⟨rfl, rfl, rfl, rfl, trieAlloc_marks,
        fun _ member => absurd member (Finset.notMem_empty _)⟩

section

variable (refines : concrete.Refines store keys)
include refines

/-- A lookup reads the set, and it only moves the nodes of the trie. -/
theorem find (key : Bytes) :
    ∃ trie, trieLookup concrete.trie key =
        .ok (trie, if key ∈ store.trie then some () else none) ∧
      ({ concrete with trie } : TrieStore).Refines store keys := by
  obtain ⟨trie, looked, represents⟩ := refines.trie.find refines.inside key
  exact ⟨trie, looked, { refines with trie := represents }⟩

theorem action_eq (epoch version : Nat) :
    concrete.action epoch version = diffAddrStoreAction store epoch version := by
  rw [TrieStore.action, diffAddrStoreAction, refines.epoch, refines.version, refines.added,
    refines.deleted]

theorem change (uncut : address ≠ [] → ¬ CutsEdge keys address) (add : Bool) :
    ∃ next, concrete.change address add = some (next, (store.change address add).2) ∧
      next.Refines (store.change address add).1 (keys ++ [address]) := by
  obtain ⟨after, slot, indexed, data, between, stores⟩ := refines.trie.mark refines.inside uncut
  have written := stores add
  have inside : ∀ other ∈ store.trie, other ∈ keys ++ [address] := fun other member =>
    mem_append_left _ (refines.inside other member)
  rw [TrieStore.change, indexed, Store.change]
  simp only [data]
  cases add with
  | true =>
    by_cases known : address ∈ store.trie
    · simp only [if_true, if_pos known]
      exact ⟨_, rfl, { refines with trie := between, inside }⟩
    · simp only [if_true, if_neg known]
      refine ⟨_, rfl, { refines with
        added := congrArg Nat.succ refines.added, trie := written, inside := ?_ }⟩
      intro other member
      rcases Finset.mem_insert.mp member with rfl | old
      · simp
      · exact inside other old
  | false =>
    by_cases known : address ∈ store.trie
    · simp only [Bool.false_eq_true, if_false, if_pos known]
      exact ⟨_, rfl, { refines with
        deleted := congrArg Nat.succ refines.deleted
        trie := written
        inside := fun other member => inside other (Finset.mem_of_mem_erase member) }⟩
    · simp only [Bool.false_eq_true, if_false, if_neg known]
      exact ⟨_, rfl, { refines with trie := between, inside }⟩

theorem changeAll {changes : List (Change Bytes)} (uncut : Uncut keys (changes.map Change.key)) :
    ∃ next, concrete.changeAll changes = some (next, (store.changeAll changes).2) ∧
      next.Refines (store.changeAll changes).1 (keys ++ changes.map Change.key) := by
  induction changes generalizing concrete store keys with
  | nil => exact ⟨concrete, rfl, by rwa [map_nil, append_nil]⟩
  | cons change changes ih =>
    obtain ⟨middle, first, kept⟩ := refines.change uncut.1 change.add
    obtain ⟨next, rest, last⟩ := ih kept uncut.2
    rw [append_assoc] at last
    refine ⟨next, ?_, last⟩
    rw [TrieStore.changeAll, first, bind_some]
    simp only [rest, map_some]
    rfl

/-- The counters tell whether the trie is replaced. -/
theorem reset (balanced : store.Balanced) (diff : Diff) :
    (if diff.full then concrete.reset else concrete).Refines
      (if diff.full then store.reset else store) (diff.kept store.trie keys) := by
  rw [Diff.kept]
  cases full : diff.full with
  | false => simpa using refines
  | true =>
    have active : store.added ≠ store.deleted ↔ store.trie ≠ ∅ := by
      rw [Store.Balanced] at balanced
      rw [Ne, Ne, ← Finset.card_eq_zero]
      omega
    simp only [if_true, true_and, TrieStore.reset, Store.reset, refines.added, refines.deleted,
      active]
    split
    · exact ⟨refines.epoch, refines.version, rfl, rfl, trieAlloc_marks,
        fun _ member => absurd member (Finset.notMem_empty _)⟩
    · exact refines

/-- The store answers a diff as its set does, and it goes on with the set after the diff. -/
theorem receive (balanced : store.Balanced)
    (uncut : ¬diff.Refused store →
      Uncut (diff.kept store.trie keys) (diff.changes.map Change.key)) :
    Follows (diff.laid store keys) (concrete.receive diff)
      (diffAddrStoreApply store diff.full diff.epoch diff.fromVersion diff.toVersion diff.body) := by
  simp only [TrieStore.receive, diffAddrStoreApply, refines.epoch, refines.version]
  split
  · next differs =>
      have laid : diff.laid store keys = keys := if_pos ⟨differs.2, .inl differs.1⟩
      exact ⟨store, rfl, laid.symm ▸ refines⟩
  split
  · next differs =>
      have laid : diff.laid store keys = keys := if_pos ⟨differs.2, .inr differs.1⟩
      exact ⟨store, rfl, laid.symm ▸ refines⟩
  · next epoch version =>
      have accepted : ¬diff.Refused store := by
        rintro ⟨partial', other | other⟩
        · exact epoch ⟨other, partial'⟩
        · exact version ⟨other, partial'⟩
      have cuts := uncut accepted
      have begun := refines.reset balanced diff
      rw [TrieStore.applyLoop_eq, Diffstore.applyLoop_eq]
      rw [Diff.laid, if_neg accepted]
      rw [Diff.changes] at cuts ⊢
      generalize diffChanges diff.body.length diff.body = read at cuts ⊢
      cases read with
      | none => rfl
      | some changes =>
        obtain ⟨next, changed, last⟩ := begun.changeAll cuts
        rw [getD_some] at changed
        rw [bind_some, changed]
        exact ⟨_, rfl, ⟨rfl, rfl, last.added, last.deleted, last.trie, last.inside⟩⟩

/-- Addresses of one length are never prefixes of each other. -/
theorem receive_alike {size : Nat} (balanced : store.Balanced)
    (known : ∀ key ∈ keys, key.length = size)
    (alike : ∀ change ∈ diff.changes, change.key.length = size) :
    Follows (diff.laid store keys) (concrete.receive diff)
        (diffAddrStoreApply store diff.full diff.epoch diff.fromVersion diff.toVersion diff.body) ∧
      ∀ key ∈ diff.laid store keys, key.length = size := by
  have all : ∀ key ∈ diff.kept store.trie keys ++ diff.changes.map Change.key,
      key.length = size := by
    intro key member
    rw [mem_append, Diff.kept, List.mem_map] at member
    rcases member with old | ⟨change, inside, rfl⟩
    · split at old
      · cases old
      · exact known key old
    · exact alike change inside
  refine ⟨refines.receive balanced fun _ => uncut_of_length all, ?_⟩
  rw [Diff.laid]
  split
  · exact known
  · exact all

end

end Refines

/-- The diffs come one after another, and the hooks are called in this order. -/
def receiveAll (store : TrieStore) : List Diff → Option (TrieStore × List Hook)
  | [] => some (store, [])
  | diff :: diffs =>
    (store.receive diff).bind fun (store, _, first) =>
      (store.receiveAll diffs).map fun (store, rest) => (store, first ++ rest)

/-- With addresses of one length the set of the store is what its trie finds, after any diffs. -/
theorem Refines.receiveAll {size : Nat} (refines : concrete.Refines store keys)
    (balanced : store.Balanced) (known : ∀ key ∈ keys, key.length = size) (diffs : List Diff)
    (formed : ∀ diff ∈ diffs, WellFormed diff.body)
    (alike : ∀ diff ∈ diffs, ∀ change ∈ diff.changes, change.key.length = size) :
    ∃ next after hooks laid, concrete.receiveAll diffs = some (next, hooks) ∧
      store.receiveAll diffs = some (after, hooks) ∧ next.Refines after laid := by
  induction diffs generalizing concrete store keys with
  | nil => exact ⟨concrete, store, [], keys, rfl, rfl, refines⟩
  | cons diff diffs ih =>
    obtain ⟨wellFormed, formed⟩ := forall_mem_cons.mp formed
    obtain ⟨one, alike⟩ := forall_mem_cons.mp alike
    obtain ⟨middle, first, received, kept, -⟩ := receive_kept balanced wellFormed
    obtain ⟨follows, sizes⟩ := refines.receive_alike balanced known one
    rw [Store.receive, map_eq_some_iff] at received
    obtain ⟨⟨other, action, hooks⟩, expected, same⟩ := received
    cases same
    rw [expected] at follows
    cases applied : concrete.receive diff with
    | none =>
      rw [applied] at follows
      cases follows
    | some result =>
      obtain ⟨next, answer⟩ := result
      rw [applied] at follows
      obtain ⟨after, same, stands⟩ := follows
      cases same
      obtain ⟨last, end', rest, laid, ran, received, whole⟩ := ih stands kept sizes formed alike
      refine ⟨last, end', first ++ rest, laid, ?_, ?_, whole⟩
      · simp [TrieStore.receiveAll, applied, ran]
      · simp [Store.receiveAll, Store.receive, expected, received]

end TrieStore

end Ucollect.Diffstore
