import Ucollect.Library.Chains

/-
This file models the functions that core/link_list.h generates for a list with both links and a
count.
-/

namespace Ucollect.LinkList
open Library

/-- The links of all nodes in the memory, and the structure of one list. -/
structure State (N : Type) where
  links : N → Link N
  head : Option N
  tail : Option N
  count : Nat

variable {N : Type} [DecidableEq N]

/-- This list is empty, and the nodes have not been touched yet. -/
def State.empty (links : N → Link N) : State N := ⟨links, none, none, 0⟩

namespace State

variable (list : State N) (node : N)

def setNext (next : Option N) : State N :=
  { list with links := Function.update list.links node { list.links node with next } }

def setPrev (prev : Option N) : State N :=
  { list with links := Function.update list.links node { list.links node with prev } }

def setPrevOf (target prev : Option N) : State N :=
  match target with
  | some target => list.setPrev target prev
  | none => list

/-- The next node is read from the node `after`, or it is the head of the list. -/
def insertAfter (after : Option N) : State N :=
  let list :=
    match after with
    | some after =>
      let list := list.setPrev node (some after)
      let list := list.setPrevOf (list.links after).next (some node)
      let list := list.setNext node (list.links after).next
      list.setNext after (some node)
    | none =>
      let list := list.setPrev node none
      let list := list.setPrevOf list.head (some node)
      let list := list.setNext node list.head
      { list with head := some node }
  let list := if list.tail = after then { list with tail := some node } else list
  { list with count := list.count + 1 }

/-- The pool gives a node that is not used elsewhere. -/
def appendPool (new : N) : State N := list.insertAfter new list.tail

def remove : State N :=
  let list :=
    match (list.links node).next with
    | some next => list.setPrev next (list.links node).prev
    | none => { list with tail := (list.links node).prev }
  let list :=
    match (list.links node).prev with
    | some prev => list.setNext prev (list.links node).next
    | none => { list with head := (list.links node).next }
  let list := (list.setNext node none).setPrev node none
  { list with count := list.count - 1 }

/-- The loop visits these nodes, if it ends in the given number of rounds. -/
def lfor (rounds : Nat) : Option (List N) := walk list.links rounds list.head

end State

inductive Operation (N : Type) where
  | insertAfter (node : N) (after : Option N)
  | appendPool (new : N)
  | remove (node : N)

def State.step (list : State N) : Operation N → State N
  | .insertAfter node after => list.insertAfter node after
  | .appendPool new => list.appendPool new
  | .remove node => list.remove node

def State.run (list : State N) (operations : List (Operation N)) : State N :=
  operations.foldl State.step list

end Ucollect.LinkList
