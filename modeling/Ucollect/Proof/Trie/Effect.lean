import Ucollect.Proof.Trie.Shape

namespace Ucollect.Core
open List Function
variable {V : Type}

/-- The entries pair each active key with the value in its slot. -/
def entriesOf (memory : TrieMemory V) (positions : List Position) : List (Key × Option V) :=
  (positions.filter Position.active).map fun position =>
    (position.key, memory.data position.address)

@[simp] theorem entriesOf_nil (memory : TrieMemory V) : entriesOf memory [] = [] := rfl

theorem entriesOf_cons (memory : TrieMemory V) (position : Position) (rest : List Position) :
    entriesOf memory (position :: rest) =
      (if position.active then [(position.key, memory.data position.address)] else []) ++
        entriesOf memory rest := by
  cases active : position.active <;> simp [entriesOf, active]

theorem entriesOf_append (memory : TrieMemory V) (first second : List Position) :
    entriesOf memory (first ++ second) = entriesOf memory first ++ entriesOf memory second := by
  simp [entriesOf]

theorem entriesOf_under (memory : TrieMemory V) (above : Key) (positions : List Position) :
    entriesOf memory (positions.map (Position.under above)) =
      (entriesOf memory positions).map fun entry => (above ++ entry.1, entry.2) := by
  simp [entriesOf, List.filter_map, comp_def]

variable {first second : List Position}

theorem entriesOf_perm (memory : TrieMemory V) (same : first.Perm second) :
    (entriesOf memory first).Perm (entriesOf memory second) :=
  (same.filter _).map _

variable {memory : TrieMemory V} {positions : List Position}

/-- The entries depend only on the slots of their positions. -/
theorem entriesOf_congr {other : TrieMemory V}
    (same : ∀ position ∈ positions, memory.data position.address = other.data position.address) :
    entriesOf memory positions = entriesOf other positions := by
  apply map_congr_left
  intro position member
  rw [same position (mem_filter.mp member).1]

theorem mem_entriesOf {key : Key} {value : Option V} : (key, value) ∈ entriesOf memory positions ↔
      ∃ position ∈ positions, position.active = true ∧ position.key = key ∧
        memory.data position.address = value := by
  simp [entriesOf, and_assoc]

theorem entriesOf_keys (memory : TrieMemory V) (node : TrieNode) :
    (entriesOf memory node.positions).map Prod.fst = node.keys := by
  simp [entriesOf, TrieNode.keys, TrieNode.actives, comp_def]

/-- The slots are distinct and allocated, and an inactive node holds no data. -/
structure Sound (memory : TrieMemory V) (positions : List Position) : Prop where
  distinct : (positions.map Position.address).Nodup
  allocated : ∀ position ∈ positions, position.address < memory.next
  inactive : ∀ position ∈ positions, position.active = false →
    memory.data position.address = none

theorem Sound.perm (sound : Sound memory first) (same : first.Perm second) :
    Sound memory second where
  distinct := (same.map Position.address).nodup_iff.mp sound.distinct
  allocated position member := sound.allocated position (same.mem_iff.mpr member)
  inactive position member := sound.inactive position (same.mem_iff.mpr member)

theorem Sound.sublist (sound : Sound memory second) (sub : first.Sublist second) :
    Sound memory first where
  distinct := sound.distinct.sublist (sub.map Position.address)
  allocated position member := sound.allocated position (sub.subset member)
  inactive position member := sound.inactive position (sub.subset member)

theorem sound_under {above : Key} :
    Sound memory (positions.map (Position.under above)) ↔ Sound memory positions := by
  constructor
  · intro sound
    refine ⟨by simpa [comp_def] using sound.distinct, ?_, ?_⟩
    · intro position member
      exact sound.allocated (position.under above) (List.mem_map_of_mem member)
    · intro position member
      exact sound.inactive (position.under above) (List.mem_map_of_mem member)
  · intro sound
    refine ⟨by simpa [comp_def] using sound.distinct, ?_, ?_⟩ <;>
      simp only [List.mem_map, forall_exists_index, and_imp, forall_apply_eq_imp_iff₂,
        Position.under_address, Position.under_active]
    · exact sound.allocated
    · exact sound.inactive

/-- The positions below a descent are the positions of the child and of the other children. -/
theorem descend_positions (address : Nat) (key : Key) (active : Bool)
    (before after : List TrieNode) (child : TrieNode) :
    (TrieNode.mk address key active (before ++ child :: after)).positions.Perm
      (⟨key, address, active⟩ :: (child.positions ++
        forestPositions (before ++ after)).map (Position.under key)) := by
  apply List.Perm.cons
  apply List.Perm.map
  exact (forestPositions_front before after child).symm

/-- An index run keeps all addresses and takes the next ones of the pool. -/
theorem Indexes.addresses {memory : TrieMemory V} {insertNew : Bool} {node : TrieNode}
    {key : Key} {found : TrieIndexed V} {kind : IndexKind}
    (run : Indexes memory insertNew node key found kind) :
    memory.next ≤ found.memory.next ∧ found.node.addresses.Perm
      (node.addresses ++ List.range' memory.next (found.memory.next - memory.next)) := by
  induction run with
  | hit | activate | missing | differ =>
    simp [TrieNode.addresses, TrieNode.positions, TrieMemory.activate]
  | append new missing =>
    simp [TrieNode.addresses, TrieNode.positions, TrieMemory.newNode, forestPositions_append,
      forestPositions, comp_def]
  | split | cut =>
    simp only [TrieNode.addresses, TrieNode.positions, TrieMemory.newNode, TrieMemory.moveNode,
      forestPositions, map_nil, append_nil, map_append, map_cons,
      List.map_map, comp_def, Position.under_address, cons_append]
    refine ⟨by omega, List.Perm.cons _ ?_⟩
    rw [show ∀ n, n + 1 + 1 - n = 2 by omega]
    simp only [List.range'_succ, List.range'_zero]
    exact perm_middle.symm.trans (by simp)
  | @descend address key rest byte active before after child found kind first inner ih =>
    obtain ⟨grows, same⟩ := ih
    refine ⟨grows, ?_⟩
    have old := (descend_positions address key active before after child).map Position.address
    refine List.Perm.trans ?_ (old.symm.append_right _)
    simp only [TrieNode.addresses, TrieNode.positions, forestPositions, map_append, map_cons,
      List.map_map, comp_def, Position.under_address,
      cons_append] at same ⊢
    apply List.Perm.cons
    refine (same.append_right _).trans ?_
    rw [append_assoc, append_assoc]
    exact Perm.append_left _ perm_append_comm

variable {insertNew : Bool} {node : TrieNode} {found : TrieIndexed V} {kind : IndexKind}

section

variable {key : Key} (run : Indexes memory insertNew node key found kind)
include run

/-- An index run changes no allocated slot outside its node. -/
theorem Indexes.frame {address : Nat} (allocated : address < memory.next)
    (outside : address ∉ node.addresses) :
    found.memory.data address = memory.data address := by
  induction run with
  | hit | activate | missing | differ => rfl
  | append => exact update_of_ne (by omega) _ _
  | split | cut =>
    have other : address ≠ _ := fun same => outside (by
      simp only [TrieNode.addresses, TrieNode.positions, map_cons, mem_cons]
      exact Or.inl same)
    simp only [TrieMemory.newNode, TrieMemory.moveNode]
    rw [update_of_ne (by omega), update_of_ne other, update_of_ne (by omega)]
  | @descend holder label rest byte active before after child found kind first inner ih =>
    apply ih
    intro member
    apply outside
    have old := (descend_positions holder label active before after child).map Position.address
    apply old.mem_iff.mpr
    simp only [map_cons, List.map_map, map_append, mem_cons, mem_append]
    exact Or.inr (Or.inl (by simpa [comp_def, TrieNode.addresses] using member))

/-- Every created node counts as active. -/
theorem Indexes.count :
    found.memory.activeCount =
      memory.activeCount + (if kind = .created ∨ kind = .cut then 1 else 0) := by
  induction run with
  | hit | missing | differ => simp
  | activate | append | split | cut =>
    simp [TrieMemory.activate, TrieMemory.newNode, TrieMemory.moveNode]
  | descend first inner ih => exact ih

/-- A run that creates nothing only reorders the children. -/
theorem Indexes.unchanged (nothing : kind = .known ∨ kind = .absent) :
    found.memory = memory ∧ found.node.positions.Perm node.positions := by
  induction run with
  | hit | missing | differ => exact ⟨rfl, List.Perm.refl _⟩
  | activate | append | split | cut => simp at nothing
  | @descend address key rest byte active before after child found kind first inner ih =>
    obtain ⟨memorySame, same⟩ := ih nothing
    refine ⟨memorySame, List.Perm.trans ?_ (descend_positions ..).symm⟩
    exact List.Perm.cons _ ((same.append_right _).map _)

/-- The found slot belongs to the key. -/
theorem Indexes.slot_position (present : kind ≠ .absent) :
    ∃ position ∈ found.node.positions, found.slot = some position.address ∧
      position.key = key ∧ (insertNew = true → position.active = true) := by
  induction run with
  | @hit address key active children old =>
    refine ⟨⟨key, address, active⟩, by simp [TrieNode.positions], rfl, rfl, ?_⟩
    rintro rfl
    simpa using old
  | @activate address key children new =>
    exact ⟨⟨key, address, true⟩, by simp [TrieNode.positions], rfl, rfl, fun _ => rfl⟩
  | @append address key rest byte active children new missing =>
    refine ⟨⟨key ++ byte :: rest, memory.next, true⟩, ?_, rfl, rfl, fun _ => rfl⟩
    simp [TrieNode.positions, forestPositions_append, forestPositions, Position.under]
  | @split address common above rest byte active children new inside differ =>
    refine ⟨⟨common ++ byte :: rest, memory.next + 1, true⟩, ?_, rfl, rfl, fun _ => rfl⟩
    simp [TrieNode.positions, forestPositions, Position.under]
  | @cut address common above active children new inside =>
    refine ⟨⟨common, memory.next + 1, true⟩, ?_, rfl, rfl, fun _ => rfl⟩
    simp [TrieNode.positions, forestPositions, Position.under]
  | missing | differ => exact absurd rfl present
  | @descend address key rest byte active before after child found kind first inner ih =>
    obtain ⟨position, member, slot, same, marked⟩ := ih present
    refine ⟨position.under key, ?_, slot, by simp [same], marked⟩
    refine mem_cons_of_mem _ (List.mem_map_of_mem ?_)
    exact mem_append_left _ member

/-- An absent run returns a null slot. -/
theorem Indexes.slot_absent (absent : kind = .absent) : insertNew = false ∧ found.slot = none := by
  induction run with
  | hit | activate | append | split | cut => simp at absent
  | missing old | differ old => exact ⟨old, rfl⟩
  | descend first inner ih => exact ih absent

end

end Ucollect.Core

namespace Ucollect.Core
open List Function
variable {V : Type}

variable {memory : TrieMemory V}

/-- The new slot is the only new entry. -/
theorem newNode_entries {positions : List Position}
    (allocated : ∀ position ∈ positions, position.address < memory.next) :
    entriesOf memory.newNode positions = entriesOf memory positions := by
  apply entriesOf_congr
  intro position member
  exact update_of_ne (by have := allocated position member; omega) _ _

theorem newNode_inactive {position : Position} (allocated : position.address < memory.next) :
    memory.newNode.data position.address = memory.data position.address :=
  update_of_ne (by omega) _ _

variable {address : Nat}

/-- A moved node keeps its value at its new address. -/
theorem moveNode_moved (memory : TrieMemory V) (allocated : address < memory.next) :
    (memory.moveNode address).data memory.next = memory.data address := by
  simp only [TrieMemory.moveNode]
  rw [update_of_ne (by omega), update_self]

theorem moveNode_cleared (memory : TrieMemory V) (address : Nat) :
    (memory.moveNode address).data address = none := update_self ..

theorem moveNode_other (memory : TrieMemory V) {other : Nat} (different : other ≠ address)
    (allocated : other < memory.next) :
    (memory.moveNode address).data other = memory.data other := by
  simp only [TrieMemory.moveNode]
  rw [update_of_ne different, update_of_ne (by omega)]

variable {active : Bool}

/-- A split at any position moves the old entries and adds the new one. -/
theorem split_effect {common above : Key} {children : List TrieNode} (below : Key)
    (sound : Sound memory (TrieNode.mk address (common ++ above) active children).positions) :
    let result := TrieNode.mk address common false
      [.mk memory.next above active children, .mk (memory.next + 1) below true []]
    let after := (memory.moveNode address).newNode
    (entriesOf after result.positions).Perm ((common ++ below, none) ::
        entriesOf memory (TrieNode.mk address (common ++ above) active children).positions) ∧
      ∀ position ∈ result.positions, position.active = false →
        after.data position.address = none := by
  have here : address < memory.next := sound.allocated ⟨common ++ above, address, active⟩ (by
    simp [TrieNode.positions])
  have old : ∀ position ∈ forestPositions children,
      position.address < memory.next ∧ position.address ≠ address := by
    intro position member
    have below := List.mem_map_of_mem (f := Position.under (common ++ above)) member
    refine ⟨sound.allocated (position.under _) (mem_cons_of_mem _ below), ?_⟩
    have distinct := sound.distinct
    simp only [TrieNode.positions, map_cons, nodup_cons, List.map_map] at distinct
    intro same
    exact distinct.1 (List.mem_map.mpr ⟨position, member, same⟩)
  have kept : ∀ position ∈ forestPositions children,
      (memory.moveNode address).newNode.data position.address = memory.data position.address := by
    intro position member
    obtain ⟨allocated, different⟩ := old position member
    rw [newNode_inactive (by simp [TrieMemory.moveNode]; omega),
      moveNode_other memory different allocated]
  have moved : (memory.moveNode address).newNode.data memory.next = memory.data address := by
    rw [TrieMemory.newNode]
    simp only
    rw [update_of_ne (by simp [TrieMemory.moveNode]), moveNode_moved memory here]
  have cleared : (memory.moveNode address).newNode.data address = none := by
    rw [TrieMemory.newNode]
    simp only
    rw [update_of_ne (by simp [TrieMemory.moveNode]; omega), moveNode_cleared]
  have fresh : (memory.moveNode address).newNode.data (memory.next + 1) = none := by
    simp [TrieMemory.newNode, TrieMemory.moveNode]
  constructor
  · simp only [TrieNode.positions, forestPositions, map_append, map_cons, map_nil, append_nil,
      List.map_map, ← Position.under_append, entriesOf_cons, entriesOf_append,
      entriesOf_under, entriesOf_nil, entriesOf_congr kept, Position.under_active,
      Position.under_key, Position.under_address, moved, fresh, Bool.false_eq_true, if_false,
      if_true, nil_append]
    exact perm_append_comm.trans (List.Perm.refl _)
  · intro position member inactive
    simp only [TrieNode.positions, forestPositions, map_append, map_cons, map_nil, append_nil,
      mem_cons, mem_append, List.mem_map] at member
    rcases member with rfl | (rfl | ⟨inner, ⟨deep, member, rfl⟩, rfl⟩) | rfl | none
    · exact cleared
    · rw [Position.under_address, moved]
      exact sound.inactive ⟨common ++ above, address, active⟩ (by simp [TrieNode.positions])
        (by simpa using inactive)
    · rw [Position.under_address, Position.under_address, kept deep member]
      exact sound.inactive (deep.under (common ++ above))
        (mem_cons_of_mem _ (List.mem_map_of_mem member)) (by simpa using inactive)
    · simp at inactive
    · simp at none

variable {insertNew : Bool} {found : TrieIndexed V} {kind : IndexKind}

/-- The other children of a descent keep their slots. -/
theorem Indexes.siblings {label key : Key} {before after : List TrieNode} {child : TrieNode}
    (sound : Sound memory (TrieNode.mk address label active (before ++ child :: after)).positions)
    (inner : Indexes memory insertNew child key found kind) :
    found.memory.data address = memory.data address ∧
      ∀ position ∈ forestPositions (before ++ after),
        found.memory.data position.address = memory.data position.address := by
  have whole := sound.perm (descend_positions address label active before after child)
  have distinct := whole.distinct
  simp only [map_append, map_cons, List.map_map, comp_def, Position.under_address, nodup_cons,
    mem_append, not_or] at distinct
  obtain ⟨⟨own, _⟩, distinct⟩ := distinct
  rw [nodup_append] at distinct
  constructor
  · exact inner.frame (whole.allocated ⟨label, address, active⟩ (by simp)) own
  · intro position member
    apply inner.frame
    · exact whole.allocated (position.under label)
        (mem_cons_of_mem _ (List.mem_map_of_mem (mem_append_right _ member)))
    · intro inside
      exact distinct.2.2 _ inside _ (List.mem_map_of_mem member) rfl

/-- The sound positions of a node include those of each child. -/
theorem Sound.child {label : Key} {before after : List TrieNode} {child : TrieNode}
    (sound : Sound memory (TrieNode.mk address label active (before ++ child :: after)).positions) :
    Sound memory child.positions := by
  have whole := sound.perm (descend_positions address label active before after child)
  have below := whole.sublist (sublist_cons_self _ _)
  exact (sound_under.mp below).sublist (sublist_append_left _ _)

/-- A created key adds one entry with a null value. -/
theorem Indexes.created_entries {node : TrieNode} {key : Key}
    (run : Indexes memory insertNew node key found kind) (created : kind = .created ∨ kind = .cut)
    (sound : Sound memory node.positions) :
    (entriesOf found.memory found.node.positions).Perm
      ((key, none) :: entriesOf memory node.positions) := by
  induction run with
  | hit | missing | differ => simp at created
  | @activate address key children new =>
    have empty : memory.data address = none :=
      sound.inactive ⟨key, address, false⟩ (by simp [TrieNode.positions]) rfl
    change (entriesOf memory (TrieNode.mk address key true children).positions).Perm _
    simp [TrieNode.positions, entriesOf_cons, empty]
  | @append address key rest byte active children new missing =>
    have old := newNode_entries sound.allocated
    have fresh : memory.newNode.data memory.next = none := update_self ..
    simp only [TrieNode.positions, forestPositions_append, forestPositions, map_append, map_cons,
      map_nil, append_nil] at old ⊢
    rw [← cons_append, entriesOf_append, old]
    refine perm_append_comm.trans ?_
    simp [entriesOf_cons, fresh, Position.under]
  | split => exact (split_effect _ sound).1
  | cut => simpa using (split_effect [] sound).1
  | @descend address label rest byte active before after child found kind first inner ih =>
    obtain ⟨own, others⟩ := inner.siblings sound
    have deeper := (ih created sound.child).map fun entry => (label ++ entry.1, entry.2)
    refine List.Perm.trans ?_
      ((entriesOf_perm memory (descend_positions ..)).symm.cons _)
    simp only [TrieNode.positions, forestPositions, map_append, entriesOf_cons, entriesOf_append,
      entriesOf_under, entriesOf_congr others, own, map_cons] at deeper ⊢
    refine (Perm.append_left _ (deeper.append_right _)).trans ?_
    simp only [cons_append]
    exact perm_middle

/-- Every index run keeps the inactive slots null. -/
theorem Indexes.inactive {node : TrieNode} {key : Key}
    (run : Indexes memory insertNew node key found kind) (sound : Sound memory node.positions) :
    ∀ position ∈ found.node.positions, position.active = false →
      found.memory.data position.address = none := by
  induction run with
  | hit | missing | differ => exact sound.inactive
  | @activate address key children new =>
    intro position member inactive
    rcases mem_cons.mp member with rfl | member
    · simp at inactive
    · exact sound.inactive position (mem_cons_of_mem _ member) inactive
  | @append address key rest byte active children new missing =>
    intro position member inactive
    simp only [TrieNode.positions, forestPositions_append, forestPositions, map_append, map_cons,
      map_nil, append_nil, ← cons_append] at member
    rcases mem_append.mp member with member | member
    · rw [newNode_inactive (sound.allocated position member)]
      exact sound.inactive position member inactive
    · rw [mem_singleton.mp member] at inactive
      simp at inactive
  | split => exact (split_effect _ sound).2
  | cut => exact (split_effect [] sound).2
  | @descend address label rest byte active before after child found kind first inner ih =>
    obtain ⟨own, others⟩ := inner.siblings sound
    have whole := sound.perm (descend_positions address label active before after child)
    intro position member inactive
    simp only [TrieNode.positions, forestPositions, mem_cons, List.mem_map, mem_append] at member
    rcases member with rfl | ⟨deep, member | member, rfl⟩
    · rw [own]
      exact whole.inactive _ (by simp) inactive
    · exact ih sound.child deep member inactive
    · rw [Position.under_address, others deep member]
      refine whole.inactive (deep.under label) (mem_cons_of_mem _ ?_) inactive
      exact List.mem_map_of_mem (mem_append_right _ member)

end Ucollect.Core
