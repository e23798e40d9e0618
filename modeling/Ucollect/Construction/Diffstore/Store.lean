import Ucollect.Library.Bytes
import Ucollect.Library.Changes
import Mathlib.Data.Finset.Card

/-
This file models libs/diffstore/diff_store.c.
-/

namespace Ucollect.Diffstore
open Library

/-- The user of the store is called before each change. -/
inductive Hook where
  | replaceStart
  | add (address : Bytes)
  | remove (address : Bytes)
  | replaceEnd
  deriving DecidableEq, Repr

/-- This is `struct diff_addr_store`, and the trie is the set of the keys with a mark. -/
structure Store where
  epoch : Nat
  version : Nat
  trie : Finset Bytes
  added : Nat
  deleted : Nat
  deriving DecidableEq

/-- This is `diff_addr_store_init`. -/
def Store.init : Store := ⟨0, 0, ∅, 0, 0⟩

/-- An incremental update starts at the version of the store. -/
inductive Action where
  | incremental (origVersion : Nat)
  | full
  | configReload
  | noAction
  deriving DecidableEq, Repr

def diffAddrStoreAction (store : Store) (epoch version : Nat) : Action :=
  if epoch = store.epoch ∧ version = store.version then .noAction
  else
    let active := store.added - store.deleted
    if active * 10 < store.deleted ∧ 100 < store.deleted then .configReload
    else if epoch ≠ store.epoch then .full
    else .incremental store.version

def sizeMask : UInt8 := 16 + 8 + 4 + 2
def addMask : UInt8 := 1

/-- A change that the store has already is only reported. -/
def Store.change (store : Store) (address : Bytes) (add : Bool) : Store × List Hook :=
  if add then
    if address ∈ store.trie then (store, [])
    else ({ store with trie := insert address store.trie, added := store.added + 1 }, [.add address])
  else
    if address ∈ store.trie then
      ({ store with trie := store.trie.erase address, deleted := store.deleted + 1 },
        [.remove address])
    else (store, [])

/-- The loop fails a check when an address is cut off. -/
def applyLoop : Nat → Bytes → Store → Option (Store × List Hook)
  | _, [], store => some (store, [])
  | 0, _ :: _, _ => none
  | fuel + 1, flags :: diff, store =>
    let addrLen := (flags &&& sizeMask).toNat
    if diff.length < addrLen then none
    else
      let changed := store.change (diff.take addrLen) (flags &&& addMask != 0)
      (applyLoop fuel (diff.drop addrLen) changed.1).map fun (store, hooks) =>
        (store, changed.2 ++ hooks)

/-- A full update empties the store first. -/
def Store.reset (store : Store) : Store :=
  if store.added ≠ store.deleted then { store with trie := ∅, deleted := store.added } else store

/-- The result of a failed check is nothing. -/
def diffAddrStoreApply (store : Store) (full : Bool) (epoch fromVersion toVersion : Nat)
    (diff : Bytes) : Option (Store × Action × List Hook) :=
  if epoch ≠ store.epoch ∧ full = false then some (store, .full, [])
  else if fromVersion ≠ store.version ∧ full = false then
    some (store, .incremental store.version, [])
  else
    (applyLoop diff.length diff (if full then store.reset else store)).map fun (store, hooks) =>
      ({ store with epoch, version := toVersion }, .noAction,
        if full then .replaceStart :: hooks ++ [.replaceEnd] else hooks)

/-- The parameters of one call of `diff_addr_store_apply`. -/
structure Diff where
  full : Bool
  epoch : Nat
  fromVersion : Nat
  toVersion : Nat
  body : Bytes
  deriving DecidableEq, Repr

def Store.receive (store : Store) (diff : Diff) : Option (Store × List Hook) :=
  (diffAddrStoreApply store diff.full diff.epoch diff.fromVersion diff.toVersion diff.body).map
    fun (store, _, hooks) => (store, hooks)

/-- This copies the store to a new one, and only the addresses with a mark are taken. -/
def diffAddrStoreCp (source : Store) : Store :=
  ⟨source.epoch, source.version, source.trie, source.trie.card, 0⟩

end Ucollect.Diffstore
