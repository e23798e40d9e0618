import Mathlib.Data.List.Basic

/-
This file models the compressed trie of core/trie.c.
-/

namespace Ucollect.Core

abbrev Key := List UInt8

/-- A node holds its address, its part of the key, its mark, and the list of its children. -/
inductive TrieNode where
  | mk (address : Nat) (key : Key) (active : Bool) (children : List TrieNode)

def TrieNode.address : TrieNode → Nat
  | .mk address _ _ _ => address

def TrieNode.key : TrieNode → Key
  | .mk _ key _ _ => key

def TrieNode.active : TrieNode → Bool
  | .mk _ _ active _ => active

def TrieNode.children : TrieNode → List TrieNode
  | .mk _ _ _ children => children

/-- The memory pool hands out addresses in order and stores the `data` pointer of each node. -/
structure TrieMemory (V : Type) where
  next : Nat
  data : Nat → Option V
  activeCount : Nat

/-- The root is embedded in the trie itself. -/
structure Trie (V : Type) where
  root : TrieNode
  memory : TrieMemory V
  maxKeyLen : Nat

/-- The only assertion of the trie states that a child has a non-empty key. -/
inductive TrieAbort where
  | childKeySize
  deriving DecidableEq, Repr

/-- An index run returns the changed node and the address of the slot, if there is one. -/
structure TrieIndexed (V : Type) where
  node : TrieNode
  memory : TrieMemory V
  slot : Option Nat

/-- The new trie has an inactive root with an empty key at address zero. -/
def trieAlloc (V : Type) : Trie V where
  root := .mk 0 [] false []
  memory := ⟨1, fun _ => none, 0⟩
  maxKeyLen := 0

def trieSize {V : Type} (trie : Trie V) : Nat := trie.memory.activeCount

/-- The callback receives the key, its length, and the data. -/
structure TrieVisit (V : Type) where
  key : Key
  keySize : Nat
  data : Option V
  deriving DecidableEq, Repr

/-- `keybuf` holds the bytes below `keypos`. -/
def visitNode {V : Type} (memory : TrieMemory V) (keybuf : Key) (address : Nat) (active : Bool) :
    List (TrieVisit V) :=
  if active then [⟨keybuf, keybuf.length, memory.data address⟩] else []

mutual

def walkNode {V : Type} (memory : TrieMemory V) (keybuf : Key) : TrieNode → List (TrieVisit V)
  | .mk address key active children =>
    visitNode memory (keybuf ++ key) address active ++
      walkChildren memory (keybuf ++ key) children

def walkChildren {V : Type} (memory : TrieMemory V) (keybuf : Key) : List TrieNode → List (TrieVisit V)
  | [] => []
  | child :: rest => walkNode memory keybuf child ++ walkChildren memory keybuf rest

end

/-- The walk lists the calls of the callback in their order. -/
def trieWalk {V : Type} (trie : Trie V) : List (TrieVisit V) :=
  walkNode trie.memory [] trie.root

/-- This is the length of the longest common prefix. -/
def lcp : Key → Key → Nat
  | a :: first, b :: second => if a = b then lcp first second + 1 else 0
  | _, _ => 0

/-- The allocation clears the `data` pointer of the new node and counts the node as active. -/
def TrieMemory.newNode {V : Type} (memory : TrieMemory V) : TrieMemory V where
  next := memory.next + 1
  data := Function.update memory.data memory.next none
  activeCount := memory.activeCount + 1

/-- A split copies the node to a new address and clears the `data` pointer of the old one. -/
def TrieMemory.moveNode {V : Type} (memory : TrieMemory V) (address : Nat) : TrieMemory V where
  next := memory.next + 1
  data := Function.update (Function.update memory.data memory.next (memory.data address))
    address none
  activeCount := memory.activeCount

def TrieMemory.activate {V : Type} (memory : TrieMemory V) : TrieMemory V :=
  { memory with activeCount := memory.activeCount + 1 }

/-- The new node becomes the last child of its parent. -/
def trieNewNode {V : Type} (memory : TrieMemory V) (address : Nat) (parentKey : Key)
    (active : Bool) (children : List TrieNode) (key : Key) (insertNew : Bool) : TrieIndexed V :=
  if insertNew then
    ⟨.mk address parentKey active (children ++ [.mk memory.next key true []]),
      memory.newNode, some memory.next⟩
  else
    ⟨.mk address parentKey active children, memory, none⟩

mutual

def trieIndexInternal {V : Type} (memory : TrieMemory V) (insertNew : Bool) :
    TrieNode → Key → Except TrieAbort (TrieIndexed V)
  | .mk address nodeKey active children, key =>
    let common := lcp key nodeKey
    if common = nodeKey.length then
      match key.drop common with
      | [] =>
        if !active && insertNew then
          .ok ⟨.mk address nodeKey true children, memory.activate, some address⟩
        else
          .ok ⟨.mk address nodeKey active children, memory, some address⟩
      | byte :: rest =>
        match descend memory insertNew [] children byte rest with
        | .error abort => .error abort
        | .ok (some (found, others)) =>
          .ok ⟨.mk address nodeKey active (found.node :: others), found.memory, found.slot⟩
        | .ok none =>
          .ok (trieNewNode memory address nodeKey active children (byte :: rest) insertNew)
    else if insertNew then
      let moved := TrieNode.mk memory.next (nodeKey.drop common) active children
      .ok (trieNewNode (memory.moveNode address) address (nodeKey.take common) false [moved]
        (key.drop common) insertNew)
    else
      .ok ⟨.mk address nodeKey active children, memory, none⟩

/-- The loop over the children returns the indexed child and the other children in their order. -/
def descend {V : Type} (memory : TrieMemory V) (insertNew : Bool) (before : List TrieNode) :
    List TrieNode → UInt8 → Key → Except TrieAbort (Option (TrieIndexed V × List TrieNode))
  | [], _, _ => .ok none
  | child :: after, byte, rest =>
    match child.key with
    | [] => .error .childKeySize
    | first :: _ =>
      if first = byte then
        match trieIndexInternal memory insertNew child (byte :: rest) with
        | .error abort => .error abort
        | .ok found => .ok (some (found, before ++ after))
      else
        descend memory insertNew (before ++ [child]) after byte rest

end

def trieIndex {V : Type} (trie : Trie V) (key : Key) : Except TrieAbort (Trie V × Option Nat) :=
  match trieIndexInternal trie.memory true trie.root key with
  | .error abort => .error abort
  | .ok found => .ok (⟨found.node, found.memory, max trie.maxKeyLen key.length⟩, found.slot)

/-- A lookup changes the order of the children, but it reads only the found slot. -/
def trieLookup {V : Type} (trie : Trie V) (key : Key) : Except TrieAbort (Trie V × Option V) :=
  match trieIndexInternal trie.memory false trie.root key with
  | .error abort => .error abort
  | .ok found =>
    .ok (⟨found.node, found.memory, trie.maxKeyLen⟩,
      match found.slot with
      | some slot => found.memory.data slot
      | none => none)

/-- The caller stores a value through the slot. -/
def Trie.store {V : Type} (trie : Trie V) (slot : Nat) (value : Option V) : Trie V :=
  { trie with memory := { trie.memory with data := Function.update trie.memory.data slot value } }

end Ucollect.Core
