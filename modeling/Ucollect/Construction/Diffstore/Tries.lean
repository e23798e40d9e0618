import Ucollect.Construction.Core.Trie
import Ucollect.Construction.Diffstore.Store

/-
This file models libs/diffstore/diff_store.c with the trie of core/trie.c.
-/

namespace Ucollect.Diffstore
open Library Core

/-- This is `struct diff_addr_store`, and a deleted address keeps its node without a mark. -/
structure TrieStore where
  epoch : Nat
  version : Nat
  trie : Trie Unit
  added : Nat
  deleted : Nat

namespace TrieStore

/-- This is `diff_addr_store_init`. -/
def init : TrieStore := ⟨0, 0, trieAlloc Unit, 0, 0⟩

/-- This is `diff_addr_store_action`. -/
def action (store : TrieStore) (epoch version : Nat) : Action :=
  if epoch = store.epoch ∧ version = store.version then .noAction
  else
    let active := store.added - store.deleted
    if active * 10 < store.deleted ∧ 100 < store.deleted then .configReload
    else if epoch ≠ store.epoch then .full
    else .incremental store.version

/-- The trie indexes every address of a diff, and a failed assertion of the trie is nothing. -/
def change (store : TrieStore) (address : Bytes) (add : Bool) : Option (TrieStore × List Hook) :=
  match trieIndex store.trie address with
  | .error _ => none
  | .ok (_, none) => none
  | .ok (trie, some slot) =>
    some (match add, trie.memory.data slot with
      | true, none =>
        ({ store with trie := trie.store slot (some ()), added := store.added + 1 },
          [.add address])
      | false, some _ =>
        ({ store with trie := trie.store slot none, deleted := store.deleted + 1 },
          [.remove address])
      | _, _ => ({ store with trie }, []))

/-- The loop fails a check when an address is cut off. -/
def applyLoop : Nat → Bytes → TrieStore → Option (TrieStore × List Hook)
  | _, [], store => some (store, [])
  | 0, _ :: _, _ => none
  | fuel + 1, flags :: diff, store =>
    let addrLen := (flags &&& sizeMask).toNat
    if diff.length < addrLen then none
    else
      (store.change (diff.take addrLen) (flags &&& addMask != 0)).bind fun (store, first) =>
        (applyLoop fuel (diff.drop addrLen) store).map fun (store, hooks) => (store, first ++ hooks)

/-- A full update allocates a new trie, unless no address is active. -/
def reset (store : TrieStore) : TrieStore :=
  if store.added ≠ store.deleted then
    { store with trie := trieAlloc Unit, deleted := store.added }
  else store

/-- This is `diff_addr_store_apply`. -/
def receive (store : TrieStore) (diff : Diff) : Option (TrieStore × Action × List Hook) :=
  if diff.epoch ≠ store.epoch ∧ diff.full = false then some (store, .full, [])
  else if diff.fromVersion ≠ store.version ∧ diff.full = false then
    some (store, .incremental store.version, [])
  else
    (applyLoop diff.body.length diff.body (if diff.full then store.reset else store)).map
      fun (store, hooks) =>
        ({ store with epoch := diff.epoch, version := diff.toVersion }, .noAction,
          if diff.full then .replaceStart :: hooks ++ [.replaceEnd] else hooks)

end TrieStore

end Ucollect.Diffstore
