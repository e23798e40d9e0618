import Mathlib.Tactic
import Ucollect.Construction.Core.Trie

namespace Ucollect.Core
open List Function

/-- A position names the key of a node from the given node down, its slot, and its mark. -/
structure Position where
  key : Key
  address : Nat
  active : Bool

def Position.under (above : Key) (position : Position) : Position :=
  { position with key := above ++ position.key }

@[simp] theorem Position.under_key (above : Key) (position : Position) :
    (position.under above).key = above ++ position.key := rfl

@[simp] theorem Position.under_address (above : Key) (position : Position) :
    (position.under above).address = position.address := rfl

@[simp] theorem Position.under_active (above : Key) (position : Position) :
    (position.under above).active = position.active := rfl

theorem Position.under_append (above below : Key) :
    Position.under (above ++ below) = Position.under above ∘ Position.under below := by
  funext position
  simp [Position.under]

mutual

/-- The positions of a node include the inactive ones. -/
def TrieNode.positions : TrieNode → List Position
  | .mk address key active children =>
    ⟨key, address, active⟩ :: (forestPositions children).map (Position.under key)

def forestPositions : List TrieNode → List Position
  | [] => []
  | child :: rest => child.positions ++ forestPositions rest

end

theorem forestPositions_append (first second : List TrieNode) :
    forestPositions (first ++ second) = forestPositions first ++ forestPositions second := by
  induction first with
  | nil => rfl
  | cons child rest ih => simp [forestPositions, ih]

variable {position : Position}

theorem mem_forestPositions {children : List TrieNode} :
    position ∈ forestPositions children ↔ ∃ child ∈ children, position ∈ child.positions := by
  induction children with
  | nil => simp [forestPositions]
  | cons child rest ih => simp [forestPositions, ih]

/-- Moving one child to the front only reorders the positions. -/
theorem forestPositions_front (before after : List TrieNode) (child : TrieNode) :
    (forestPositions (child :: (before ++ after))).Perm
      (forestPositions (before ++ child :: after)) := by
  simp only [forestPositions, forestPositions_append]
  rw [← append_assoc, ← append_assoc]
  exact Perm.append_right _ perm_append_comm

def TrieNode.addresses (node : TrieNode) : List Nat := node.positions.map Position.address

/-- Only active positions are keys of the trie. -/
def TrieNode.actives (node : TrieNode) : List Position :=
  node.positions.filter Position.active

def TrieNode.keys (node : TrieNode) : List Key := node.actives.map Position.key

variable {node : TrieNode}

theorem mem_keys {key : Key} :
    key ∈ node.keys ↔ ∃ position ∈ node.positions, position.active = true ∧ position.key = key := by
  simp [TrieNode.keys, TrieNode.actives, and_assoc]

/-- Every position extends the key of its node. -/
theorem TrieNode.key_isPrefix (member : position ∈ node.positions) : node.key <+: position.key := by
  obtain ⟨address, key, active, children⟩ := node
  simp only [TrieNode.positions, mem_cons, List.mem_map] at member
  rcases member with rfl | ⟨inner, _, rfl⟩
  · exact prefix_refl _
  · exact prefix_append _ _

/-- A child has a non-empty key, its own first byte, and an active position. -/
inductive TrieNode.WellFormed : TrieNode → Prop where
  | mk {address : Nat} {key : Key} {active : Bool} {children : List TrieNode}
      (labelled : ∀ child ∈ children, child.key ≠ [])
      (distinct : children.Pairwise fun first second => first.key.head? ≠ second.key.head?)
      (used : ∀ child ∈ children, child.keys ≠ [])
      (below : ∀ child ∈ children, child.WellFormed) :
      TrieNode.WellFormed (.mk address key active children)

/-- A position below a labelled child starts with the first byte of the child. -/
theorem TrieNode.key_head (labelled : node.key ≠ []) (member : position ∈ node.positions) :
    position.key.head? = node.key.head? := by
  obtain ⟨tail, same⟩ := TrieNode.key_isPrefix member
  rw [← same, List.head?_append_of_ne_nil _ labelled]

/-- The first byte of a key decides the child that holds it. -/
theorem WellFormed.sibling {before after : List TrieNode} {child : TrieNode}
    (distinct : (before ++ child :: after).Pairwise fun first second =>
      first.key.head? ≠ second.key.head?)
    {other : TrieNode} (member : other ∈ before ++ after) :
    other.key.head? ≠ child.key.head? := by
  rw [pairwise_append] at distinct
  obtain ⟨_, right, across⟩ := distinct
  rcases mem_append.mp member with early | late
  · exact across other early child (by simp)
  · exact fun same => (pairwise_cons.mp right).1 other late same.symm

/-- The common prefix splits both keys before their first different byte. -/
theorem lcp_spec (first second : Key) :
    ∃ common left right, first = common ++ left ∧ second = common ++ right ∧
      lcp first second = common.length ∧ (right = [] ∨ left.head? ≠ right.head?) := by
  induction first generalizing second with
  | nil =>
    refine ⟨[], [], second, rfl, rfl, by cases second <;> rfl, ?_⟩
    cases second <;> simp
  | cons a first ih =>
    cases second with
    | nil => exact ⟨[], a :: first, [], rfl, rfl, rfl, Or.inl rfl⟩
    | cons b second =>
      by_cases same : a = b
      · subst same
        obtain ⟨common, left, right, eqLeft, eqRight, length, differ⟩ := ih second
        exact ⟨a :: common, left, right, by simp [eqLeft], by simp [eqRight],
          by simp [lcp, length], differ⟩
      · exact ⟨[], a :: first, b :: second, rfl, rfl, by simp [lcp, same],
          Or.inr (by simpa using same)⟩

mutual

/-- The walk visits exactly the active positions. -/
theorem walkNode_positions {V : Type} (memory : TrieMemory V) (keybuf : Key) (node : TrieNode) :
    walkNode memory keybuf node = (node.actives.map fun position =>
      ⟨keybuf ++ position.key, (keybuf ++ position.key).length,
        memory.data position.address⟩) := by
  obtain ⟨address, key, active, children⟩ := node
  rw [walkNode, walkChildren_positions memory (keybuf ++ key) children]
  cases active <;>
    simp [visitNode, TrieNode.actives, TrieNode.positions, List.filter_map, comp_def]

theorem walkChildren_positions {V : Type} (memory : TrieMemory V) (keybuf : Key)
    (children : List TrieNode) :
    walkChildren memory keybuf children =
      (((forestPositions children).filter Position.active).map fun position =>
        ⟨keybuf ++ position.key, (keybuf ++ position.key).length,
          memory.data position.address⟩) := by
  cases children with
  | nil => rfl
  | cons child rest =>
    rw [walkChildren, walkNode_positions memory keybuf child,
      walkChildren_positions memory keybuf rest]
    simp [forestPositions, TrieNode.actives]

end

end Ucollect.Core

namespace Ucollect.Core
open List Function

/-- An index run finds a slot, finds none, creates one, or cuts an edge at the end of the key. -/
inductive IndexKind where
  | known
  | absent
  | created
  | cut
  deriving DecidableEq, Repr

/-- This relation lists everything that one index run can do. -/
inductive Indexes {V : Type} (memory : TrieMemory V) (insertNew : Bool) :
    TrieNode → Key → TrieIndexed V → IndexKind → Prop where
  | hit {address : Nat} {key : Key} {active : Bool} {children : List TrieNode}
      (old : active = true ∨ insertNew = false) :
      Indexes memory insertNew (.mk address key active children) key
        ⟨.mk address key active children, memory, some address⟩ .known
  | activate {address : Nat} {key : Key} {children : List TrieNode}
      (new : insertNew = true) :
      Indexes memory insertNew (.mk address key false children) key
        ⟨.mk address key true children, memory.activate, some address⟩ .created
  | append {address : Nat} {key rest : Key} {byte : UInt8} {active : Bool}
      {children : List TrieNode} (new : insertNew = true)
      (missing : ∀ child ∈ children, child.key.head? ≠ some byte) :
      Indexes memory insertNew (.mk address key active children) (key ++ byte :: rest)
        ⟨.mk address key active (children ++ [.mk memory.next (byte :: rest) true []]),
          memory.newNode, some memory.next⟩ .created
  | missing {address : Nat} {key rest : Key} {byte : UInt8} {active : Bool}
      {children : List TrieNode} (old : insertNew = false)
      (missing : ∀ child ∈ children, child.key.head? ≠ some byte) :
      Indexes memory insertNew (.mk address key active children) (key ++ byte :: rest)
        ⟨.mk address key active children, memory, none⟩ .absent
  | split {address : Nat} {common above rest : Key} {byte : UInt8} {active : Bool}
      {children : List TrieNode} (new : insertNew = true) (inside : above ≠ [])
      (differ : above.head? ≠ some byte) :
      Indexes memory insertNew (.mk address (common ++ above) active children)
        (common ++ byte :: rest)
        ⟨.mk address common false [.mk memory.next above active children,
            .mk (memory.next + 1) (byte :: rest) true []],
          (memory.moveNode address).newNode, some (memory.next + 1)⟩ .created
  | cut {address : Nat} {common above : Key} {active : Bool}
      {children : List TrieNode} (new : insertNew = true) (inside : above ≠ []) :
      Indexes memory insertNew (.mk address (common ++ above) active children) common
        ⟨.mk address common false [.mk memory.next above active children,
            .mk (memory.next + 1) [] true []],
          (memory.moveNode address).newNode, some (memory.next + 1)⟩ .cut
  | differ {address : Nat} {common above below : Key} {active : Bool}
      {children : List TrieNode} (old : insertNew = false) (inside : above ≠ [])
      (differ : below.head? ≠ above.head?) :
      Indexes memory insertNew (.mk address (common ++ above) active children)
        (common ++ below)
        ⟨.mk address (common ++ above) active children, memory, none⟩ .absent
  | descend {address : Nat} {key rest : Key} {byte : UInt8} {active : Bool}
      {before after : List TrieNode} {child : TrieNode} {found : TrieIndexed V}
      {kind : IndexKind} (first : child.key.head? = some byte)
      (inner : Indexes memory insertNew child (byte :: rest) found kind) :
      Indexes memory insertNew (.mk address key active (before ++ child :: after))
        (key ++ byte :: rest)
        ⟨.mk address key active (found.node :: (before ++ after)), found.memory, found.slot⟩ kind

/-- A well-formed node admits one index run for each key. -/
def Admits {V : Type} (memory : TrieMemory V) (insertNew : Bool) (node : TrieNode) : Prop :=
  ∀ key, ∃ found kind, trieIndexInternal memory insertNew node key = .ok found ∧
    Indexes memory insertNew node key found kind

/-- The loop over the children stops at the only child with the first byte. -/
theorem descend_spec {V : Type} (memory : TrieMemory V) (insertNew : Bool)
    (before children : List TrieNode) (byte : UInt8) (rest : Key)
    (labelled : ∀ child ∈ children, child.key ≠ [])
    (admits : ∀ child ∈ children, Admits memory insertNew child) :
    (descend memory insertNew before children byte rest = .ok none ∧
      ∀ child ∈ children, child.key.head? ≠ some byte) ∨
    ∃ skipped child after found kind, children = skipped ++ child :: after ∧
      child.key.head? = some byte ∧
      Indexes memory insertNew child (byte :: rest) found kind ∧
      descend memory insertNew before children byte rest =
        .ok (some (found, before ++ skipped ++ after)) := by
  induction children generalizing before with
  | nil => exact Or.inl ⟨rfl, by simp⟩
  | cons child after ih =>
    obtain ⟨first, tail, label⟩ : ∃ first tail, child.key = first :: tail :=
      exists_cons_of_ne_nil (labelled child (by simp))
    by_cases same : first = byte
    · subst same
      obtain ⟨found, kind, run, inner⟩ := admits child (by simp) (first :: rest)
      refine Or.inr ⟨[], child, after, found, kind, rfl, by simp [label], inner, ?_⟩
      simp [descend, label, run]
    · rcases ih (before ++ [child]) (fun c member => labelled c (by simp [member]))
        (fun c member => admits c (by simp [member])) with ⟨run, missing⟩ |
        ⟨skipped, chosen, later, found, kind, eq, head, inner, run⟩
      · refine Or.inl ⟨by simp [descend, label, same, run], ?_⟩
        intro c member
        rcases mem_cons.mp member with rfl | member
        · simpa [label] using same
        · exact missing c member
      · refine Or.inr ⟨child :: skipped, chosen, later, found, kind, by simp [eq], head, inner, ?_⟩
        simp [descend, label, same, run]

/-- No assertion fails in a well-formed node. -/
theorem TrieNode.WellFormed.admits {V : Type} {node : TrieNode} (wellFormed : node.WellFormed)
    (memory : TrieMemory V) (insertNew : Bool) : Admits memory insertNew node := by
  induction wellFormed with
  | @mk address label active children labelled distinct used below ih =>
    intro key
    obtain ⟨common, left, right, eqKey, eqLabel, length, separate⟩ := lcp_spec key label
    subst eqKey eqLabel
    by_cases whole : right = []
    · subst whole
      simp only [append_nil] at length ⊢
      cases left with
      | nil =>
        simp only [append_nil] at length ⊢
        by_cases fresh : active = false ∧ insertNew = true
        · obtain ⟨rfl, rfl⟩ := fresh
          exact ⟨_, _, by simp [trieIndexInternal, length], .activate rfl⟩
        · have old : active = true ∨ insertNew = false := by
            cases active <;> cases insertNew <;> simp_all
          refine ⟨_, _, ?_, .hit old⟩
          rcases old with rfl | rfl <;> simp [trieIndexInternal, length]
      | cons byte rest =>
        rcases descend_spec memory insertNew [] children byte rest labelled ih with
          ⟨run, missing⟩ | ⟨skipped, child, after, found, kind, eq, head, inner, run⟩
        · cases insertNew with
          | true =>
            exact ⟨_, _, by simp [trieIndexInternal, length, run, trieNewNode],
              .append rfl missing⟩
          | false =>
            exact ⟨_, _, by simp [trieIndexInternal, length, run, trieNewNode],
              .missing rfl missing⟩
        · subst eq
          exact ⟨_, _, by simp [trieIndexInternal, length, run], .descend head inner⟩
    · have differ : left.head? ≠ right.head? := separate.resolve_left whole
      have partly : lcp (common ++ left) (common ++ right) ≠ (common ++ right).length := by
        have positive := length_pos_iff.mpr whole
        rw [length, length_append]
        omega
      cases insertNew with
      | false =>
        exact ⟨_, _, by rw [trieIndexInternal, if_neg partly]; rfl, .differ rfl whole differ⟩
      | true =>
        cases left with
        | nil =>
          refine ⟨_, _, ?_, by simpa using Indexes.cut rfl whole⟩
          rw [trieIndexInternal, if_neg partly]
          simp only [append_nil] at length
          simp [length, trieNewNode, TrieMemory.moveNode]
        | cons byte rest =>
          refine ⟨_, _, ?_, .split rfl whole (fun same => differ (by simp [same]))⟩
          rw [trieIndexInternal, if_neg partly]
          simp [length, trieNewNode, TrieMemory.moveNode]

end Ucollect.Core
