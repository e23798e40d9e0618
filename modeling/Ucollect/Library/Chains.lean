import Mathlib.Data.List.Basic

/-
This file contains chains of nodes that know their two neighbours.
-/

namespace Ucollect.Library
open List Option

structure Link (N : Type) where
  next : Option N
  prev : Option N
  deriving DecidableEq, Repr

variable {N : Type} {links others : N → Link N} {before after : Option N} {front back nodes : List N}

/-- The nodes follow each other between a node before them and a node after them. -/
def Chain (links : N → Link N) : Option N → List N → Option N → Prop
  | _, [], _ => True
  | before, node :: rest, after =>
    links node = ⟨rest.head?.or after, before⟩ ∧ Chain links (some node) rest after

theorem chain_append (links : N → Link N) (before : Option N) (front back : List N) (after : Option N) :
    Chain links before (front ++ back) after ↔
      Chain links before front (back.head?.or after) ∧
        Chain links (front.getLast?.or before) back after := by
  induction front generalizing before with
  | nil => exact ⟨fun rest => ⟨trivial, rest⟩, And.right⟩
  | cons node rest ih =>
    have last : (node :: rest).getLast?.or before = rest.getLast?.or (some node) := by
      rw [List.getLast?_cons]
      cases rest.getLast? <;> rfl
    rw [cons_append, Chain, Chain, ih, List.head?_append, Option.or_assoc, last, and_assoc]

section

variable (chain : Chain links before nodes after)
include chain

/-- A chain depends on the links of its nodes only. -/
theorem Chain.congr (same : ∀ node ∈ nodes, others node = links node) :
    Chain others before nodes after := by
  induction nodes generalizing before with
  | nil => trivial
  | cons node rest ih =>
    rw [forall_mem_cons] at same
    exact ⟨same.1.trans chain.1, ih chain.2 same.2⟩

/-- A chain gets another node before it when its first node learns of it. -/
theorem Chain.setBefore (distinct : nodes.Nodup) {node : Option N}
    (first : ∀ head ∈ nodes.head?, others head = ⟨(links head).next, node⟩)
    (same : ∀ other ∈ nodes, some other ≠ nodes.head? → others other = links other) :
    Chain others node nodes after := by
  cases nodes with
  | nil => trivial
  | cons head rest =>
    have linked := first head rfl
    rw [chain.1] at linked
    refine ⟨linked, chain.2.congr fun other member => ?_⟩
    apply same other (mem_cons_of_mem _ member)
    intro equal
    cases equal
    exact (nodup_cons.mp distinct).1 member

/-- A chain gets another node after it when its last node learns of it. -/
theorem Chain.setAfter (distinct : nodes.Nodup) {node : Option N}
    (final : ∀ last ∈ nodes.getLast?, others last = ⟨node, (links last).prev⟩)
    (same : ∀ other ∈ nodes, some other ≠ nodes.getLast? → others other = links other) :
    Chain others before nodes node := by
  rcases eq_nil_or_concat nodes with rfl | ⟨front, last, rfl⟩
  · trivial
  · rw [concat_eq_append] at *
    rw [chain_append] at chain ⊢
    have linked := final last (by rw [List.getLast?_append]; rfl)
    rw [chain.2.1] at linked
    refine ⟨chain.1.congr fun other member => ?_, linked, trivial⟩
    apply same other (mem_append_left _ member)
    intro equal
    rw [List.getLast?_append] at equal
    cases equal
    exact (nodup_append.mp distinct).2.2 _ member _ (mem_singleton_self _) rfl

end

/-- These nodes are seen on the way from a node, if the way ends in the given number of steps. -/
def walk (links : N → Link N) : Nat → Option N → Option (List N)
  | _, none => some []
  | 0, some _ => none
  | steps + 1, some node => (walk links steps (links node).next).map fun rest => node :: rest

theorem walk_chain (chain : Chain links before nodes none) {steps : Nat} (enough : nodes.length ≤ steps) :
    walk links steps nodes.head? = some nodes := by
  induction nodes generalizing before steps with
  | nil => cases steps <;> rfl
  | cons node rest ih =>
    cases steps with
    | zero => exact absurd enough (Nat.not_succ_le_zero _)
    | succ steps =>
      rw [List.head?_cons, walk, chain.1, or_none, ih chain.2 (Nat.le_of_succ_le_succ enough),
        map_some]

end Ucollect.Library
