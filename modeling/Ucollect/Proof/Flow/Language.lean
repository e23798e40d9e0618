import Ucollect.Construction.Flow.Filter

/-
This file contains the documented language of filters, its encoding and its meaning.
-/

namespace Ucollect.Flow
open Library Core List

/-- A differential filter comes with the content that it has at some time. -/
inductive FilterTree where
  | always
  | never
  | negation (child : FilterTree)
  | conjunction (children : List FilterTree)
  | disjunction (children : List FilterTree)
  | addresses (side : Side) (addresses : List Bytes)
  | ports (side : Side) (ports : List UInt16)
  | differential (side : Side) (name : Bytes) (content : List Bytes)
  | range (side : Side) (v6 : Bool) (netmask : Nat) (bytes : Bytes)

namespace FilterTree
open List

/-- The nodes of a tree are reached through the lists of children. -/
@[elab_as_elim] theorem tree_induction {motive : FilterTree → Prop} (always : motive .always)
    (never : motive .never) (negation : ∀ child, motive child → motive (.negation child))
    (conjunction : ∀ children, (∀ child ∈ children, motive child) → motive (.conjunction children))
    (disjunction : ∀ children, (∀ child ∈ children, motive child) → motive (.disjunction children))
    (addresses : ∀ side list, motive (.addresses side list))
    (ports : ∀ side list, motive (.ports side list))
    (differential : ∀ side name content, motive (.differential side name content))
    (range : ∀ side v6 netmask bytes, motive (.range side v6 netmask bytes)) :
    ∀ tree, motive tree := by
  intro tree
  refine @FilterTree.rec motive (fun children => ∀ child ∈ children, motive child) always never
    negation conjunction disjunction addresses ports differential range ?_ ?_ tree
  · exact fun _ impossible => absurd impossible not_mem_nil
  · exact fun _ _ first rest => forall_mem_cons.mpr ⟨first, rest⟩

def addressCode : Side → UInt8
  | .near => letter 'i'
  | .remote => letter 'I'

def portCode : Side → UInt8
  | .near => letter 'p'
  | .remote => letter 'P'

def differentialCode : Side → UInt8
  | .near => letter 'd'
  | .remote => letter 'D'

def rangeCode : Side → UInt8
  | .near => letter 'r'
  | .remote => letter 'R'

mutual

/-- The tree is written in preorder. -/
def encode : FilterTree → Bytes
  | .always => [letter 'T']
  | .never => [letter 'F']
  | .negation child => letter '!' :: child.encode
  | .conjunction children => letter '&' :: (word32 children.length ++ encodeAll children)
  | .disjunction children => letter '|' :: (word32 children.length ++ encodeAll children)
  | .addresses side list => addressCode side :: (word32 list.length ++
      list.flatMap fun address => address.length.toUInt8 :: address)
  | .ports side list => portCode side :: (word16 list.length ++
      list.flatMap fun port => word16 port.toNat)
  | .differential side name _ => differentialCode side :: (word32 name.length ++ name)
  | .range side v6 netmask bytes =>
    rangeCode side :: (if v6 then 6 else 4) :: netmask.toUInt8 :: bytes

def encodeAll : List FilterTree → Bytes
  | [] => []
  | child :: children => child.encode ++ encodeAll children

end

/-- The bits of an address are in the order of the network. -/
def bits (bytes : Bytes) : List Bool :=
  bytes.flatMap fun byte => (List.range 8).map fun position => byte.toNat.testBit (7 - position)

section Value

variable (packet : Packet)

/-- A leaf asks about one endpoint of the packet. -/
def atEndpoint {A : Type} (side : Side) (ends : Ends A) (holds : A → Bool) : Bool :=
  (side.endpoint packet.direction ends).elim false holds

mutual

/-- This is the documented truth value. -/
def value : FilterTree → Bool
  | .always => true
  | .never => false
  | .negation child => !child.value
  | .conjunction children => allValues children
  | .disjunction children => anyValue children
  | .addresses side list => atEndpoint packet side packet.addresses list.contains
  | .ports side list => atEndpoint packet side packet.ports list.contains
  | .differential side _ content =>
    atEndpoint packet side ⟨(packet.addresses.src, packet.ports.src),
      (packet.addresses.dst, packet.ports.dst)⟩ fun (address, port) =>
        content.contains address || content.contains (address ++ word16 port.toNat)
  | .range side v6 netmask bytes =>
    atEndpoint packet side packet.addresses fun address =>
      packet.ipProtocol == (if v6 then 6 else 4) &&
        (bits address).take netmask == (bits bytes).take netmask

def allValues : List FilterTree → Bool
  | [] => true
  | child :: children => child.value && allValues children

def anyValue : List FilterTree → Bool
  | [] => false
  | child :: children => child.value || anyValue children

end

end Value

section Everywhere

variable (property : FilterTree → Prop)

mutual

/-- The property holds for the tree and for each tree inside. -/
def Everywhere : FilterTree → Prop
  | .negation child => property (.negation child) ∧ child.Everywhere
  | .conjunction children => property (.conjunction children) ∧ EverywhereAll children
  | .disjunction children => property (.disjunction children) ∧ EverywhereAll children
  | .always => property .always
  | .never => property .never
  | .addresses side list => property (.addresses side list)
  | .ports side list => property (.ports side list)
  | .differential side name content => property (.differential side name content)
  | .range side v6 netmask bytes => property (.range side v6 netmask bytes)

def EverywhereAll : List FilterTree → Prop
  | [] => True
  | child :: children => child.Everywhere ∧ EverywhereAll children

end

theorem everywhereAll_iff (children : List FilterTree) :
    EverywhereAll property children ↔ ∀ child ∈ children, child.Everywhere property := by
  induction children with
  | nil => simp [EverywhereAll]
  | cons child children ih => rw [EverywhereAll, ih, forall_mem_cons]

variable {property}

theorem Everywhere.here {tree : FilterTree} (everywhere : tree.Everywhere property) :
    property tree := by
  cases tree with
  | negation child => exact everywhere.1
  | conjunction children => exact everywhere.1
  | disjunction children => exact everywhere.1
  | always => exact everywhere
  | never => exact everywhere
  | addresses side list => exact everywhere
  | ports side list => exact everywhere
  | differential side name content => exact everywhere
  | range side v6 netmask bytes => exact everywhere

/-- What follows from two properties of a tree holds for each tree inside. -/
theorem Everywhere.derive {second derived : FilterTree → Prop}
    (derives : ∀ tree : FilterTree, tree.Everywhere property → tree.Everywhere second → derived tree)
    {tree : FilterTree} (everywhere : tree.Everywhere property)
    (everywhereSecond : tree.Everywhere second) : tree.Everywhere derived := by
  induction tree using tree_induction with
  | negation child ih =>
    exact ⟨derives _ everywhere everywhereSecond,
      ih everywhere.2 everywhereSecond.2⟩
  | conjunction children ih =>
    have subs := (everywhereAll_iff property children).mp everywhere.2
    have secondSubs := (everywhereAll_iff second children).mp everywhereSecond.2
    refine ⟨derives _ everywhere everywhereSecond, (everywhereAll_iff derived children).mpr ?_⟩
    intro child member
    exact ih child member (subs child member) (secondSubs child member)
  | disjunction children ih =>
    have subs := (everywhereAll_iff property children).mp everywhere.2
    have secondSubs := (everywhereAll_iff second children).mp everywhereSecond.2
    refine ⟨derives _ everywhere everywhereSecond, (everywhereAll_iff derived children).mpr ?_⟩
    intro child member
    exact ih child member (subs child member) (secondSubs child member)
  | always => exact derives _ everywhere everywhereSecond
  | never => exact derives _ everywhere everywhereSecond
  | addresses side list => exact derives _ everywhere everywhereSecond
  | ports side list => exact derives _ everywhere everywhereSecond
  | differential side name content => exact derives _ everywhere everywhereSecond
  | range side v6 netmask bytes => exact derives _ everywhere everywhereSecond

end Everywhere

/-- The counts and sizes of a node fit into their fields. -/
def LegalNode : FilterTree → Prop
  | .conjunction children => children.length < 2 ^ 32
  | .disjunction children => children.length < 2 ^ 32
  | .addresses _ list =>
    list.length < 2 ^ 32 ∧ ∀ address ∈ list, address.length = 4 ∨ address.length = 16
  | .ports _ list => list.length < 2 ^ 16
  | .differential _ name _ => name.length < 2 ^ 32
  | .range _ v6 netmask bytes =>
    0 < netmask ∧ netmask ≤ (if v6 then 128 else 32) ∧ bytes.length = (netmask + 7) / 8
  | _ => True

/-- Every node of the tree is as the documentation wants it. -/
def Legal (tree : FilterTree) : Prop := tree.Everywhere LegalNode

mutual

/-- These are the contents of the differential filters in preorder. -/
def contents : FilterTree → List (List Bytes)
  | .negation child => child.contents
  | .conjunction children => allContents children
  | .disjunction children => allContents children
  | .differential _ _ content => [content]
  | _ => []

def allContents : List FilterTree → List (List Bytes)
  | [] => []
  | child :: children => child.contents ++ allContents children

end

/-- The differential filters of a parsed tree are filled with these contents. -/
def stores (tree : FilterTree) : Stores := fun store => tree.contents[store]?.getD []

mutual

def depth : FilterTree → Nat
  | .negation child => child.depth + 1
  | .conjunction children => allDepth children + 1
  | .disjunction children => allDepth children + 1
  | _ => 1

def allDepth : List FilterTree → Nat
  | [] => 0
  | child :: children => max child.depth (allDepth children)

end

theorem allDepth_le_length {children : List FilterTree}
    (small : ∀ child ∈ children, child.depth ≤ child.encode.length) :
    allDepth children ≤ (encodeAll children).length := by
  induction children with
  | nil => rfl
  | cons child children ih =>
    rw [forall_mem_cons] at small
    rw [allDepth, encodeAll, length_append]
    have rest := ih small.2
    omega

/-- Each level of a tree has a byte of its own. -/
theorem depth_le_length (tree : FilterTree) : tree.depth ≤ tree.encode.length := by
  induction tree using tree_induction with
  | negation child ih => exact Nat.succ_le_succ ih
  | conjunction children ih =>
    have subs := allDepth_le_length ih
    rw [depth, encode, length_cons, length_append]
    omega
  | disjunction children ih =>
    have subs := allDepth_le_length ih
    rw [depth, encode, length_cons, length_append]
    omega
  | always => rfl
  | never => rfl
  | addresses side list => exact Nat.succ_le_succ (Nat.zero_le _)
  | ports side list => exact Nat.succ_le_succ (Nat.zero_le _)
  | differential side name content => exact Nat.succ_le_succ (Nat.zero_le _)
  | range side v6 netmask bytes => exact Nat.succ_le_succ (Nat.zero_le _)

theorem depth_pos (tree : FilterTree) : 0 < tree.depth := by
  cases tree <;> exact Nat.succ_pos _

theorem succ_of_depth {tree : FilterTree} {fuel : Nat} (enough : tree.depth ≤ fuel) :
    ∃ less, fuel = less + 1 :=
  Nat.exists_eq_add_one.mpr (lt_of_lt_of_le tree.depth_pos enough)

end FilterTree

end Ucollect.Flow
