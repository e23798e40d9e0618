import Ucollect.Proof.Trie.Effect

namespace Ucollect.Core
open List Function
variable {V : Type}

/-- The well-formedness of a node depends only on its children. -/
theorem TrieNode.WellFormed.relabel {address other : Nat} {key label : Key}
    {active mark : Bool} {children : List TrieNode}
    (wellFormed : (TrieNode.mk address key active children).WellFormed) :
    (TrieNode.mk other label mark children).WellFormed := by
  cases wellFormed with
  | mk labelled distinct used below => exact .mk labelled distinct used below

/-- The next byte selects the child of each position. -/
theorem WellFormed.position_child {address : Nat} {label : Key} {active : Bool}
    {before after : List TrieNode} {child : TrieNode} {byte : UInt8}
    (wellFormed : (TrieNode.mk address label active (before ++ child :: after)).WellFormed)
    (first : child.key.head? = some byte) {position : Position}
    (member : position ∈ (TrieNode.mk address label active (before ++ child :: after)).positions)
    {tail : Key} (same : position.key = label ++ byte :: tail) :
    ∃ inner ∈ child.positions, position = inner.under label ∧ inner.key = byte :: tail := by
  cases wellFormed with
  | mk labelled distinct used below =>
    have split := (descend_positions address label active before after child).mem_iff.mp member
    simp only [mem_cons, List.mem_map, mem_append] at split
    rcases split with rfl | ⟨inner, deep | deep, rfl⟩
    · simp at same
    · exact ⟨inner, deep, rfl, by simpa using same⟩
    · obtain ⟨other, chosen, deep⟩ := mem_forestPositions.mp deep
      have different := WellFormed.sibling distinct chosen
      have head := TrieNode.key_head (labelled other (by
        rcases mem_append.mp chosen with early | late <;> simp [*])) deep
      have start : inner.key = byte :: tail := by simpa using same
      rw [start, List.head?_cons] at head
      exact absurd (head.symm.trans first.symm) different

/-- The children of a well-formed node have pairwise different keys. -/
theorem forest_keys_nodup {children : List TrieNode}
    (labelled : ∀ child ∈ children, child.key ≠ [])
    (distinct : children.Pairwise fun first second => first.key.head? ≠ second.key.head?)
    (inner : ∀ child ∈ children, (child.positions.map Position.key).Nodup) :
    ((forestPositions children).map Position.key).Nodup := by
  induction children with
  | nil => simp [forestPositions]
  | cons child rest ih =>
    obtain ⟨apart, distinct⟩ := pairwise_cons.mp distinct
    rw [forestPositions, map_append, nodup_append]
    refine ⟨inner child (by simp), ih (fun c member => labelled c (by simp [member])) distinct
      (fun c member => inner c (by simp [member])), ?_⟩
    intro key left other right same
    obtain ⟨position, member, rfl⟩ := List.mem_map.mp left
    obtain ⟨position', member', rfl⟩ := List.mem_map.mp right
    obtain ⟨chosen, deep, member'⟩ := mem_forestPositions.mp member'
    have head := TrieNode.key_head (labelled child (by simp)) member
    have head' := TrieNode.key_head (labelled chosen (by simp [deep])) member'
    exact apart chosen deep (by rw [← head, ← head', same])

variable {node : TrieNode}

/-- A well-formed node has one position for each key. -/
theorem TrieNode.WellFormed.keys_nodup (wellFormed : node.WellFormed) :
    (node.positions.map Position.key).Nodup := by
  induction wellFormed with
  | @mk address label active children labelled distinct used below ih =>
    have inner := forest_keys_nodup labelled distinct ih
    simp only [TrieNode.positions, map_cons, List.map_map, nodup_cons]
    constructor
    · intro member
      obtain ⟨position, member, same⟩ := List.mem_map.mp member
      obtain ⟨child, chosen, deep⟩ := mem_forestPositions.mp member
      obtain ⟨tail, split⟩ := TrieNode.key_isPrefix deep
      have empty : position.key = [] := by simpa using same
      rw [empty] at split
      exact labelled child chosen (append_eq_nil_iff.mp split).1
    · have shifted := inner.map (append_right_injective label)
      simpa [comp_def] using shifted

variable {memory : TrieMemory V} {insertNew : Bool} {found : TrieIndexed V} {kind : IndexKind}

section

variable {key : Key} (run : Indexes memory insertNew node key found kind)
include run

/-- A key that is not known has no active position, and an absent one has no position. -/
theorem Indexes.new_key (wellFormed : node.WellFormed) (unknown : kind ≠ .known) :
    ∀ position ∈ node.positions, (position.active = true ∨ kind = .absent) →
      position.key ≠ key := by
  induction run with
  | hit => exact absurd rfl unknown
  | @activate address key children new =>
    intro position member active same
    have distinct := wellFormed.keys_nodup
    simp only [TrieNode.positions, map_cons, nodup_cons] at distinct
    rcases mem_cons.mp member with rfl | member
    · simp at active
    · exact distinct.1 (List.mem_map.mpr ⟨position, member, same⟩)
  | @append address label rest byte active children new missing
  | @missing address label rest byte active children old missing =>
    intro position member _ same
    cases wellFormed with
    | mk labelled distinct used below =>
      simp only [TrieNode.positions, mem_cons, List.mem_map] at member
      rcases member with rfl | ⟨inner, deep, rfl⟩
      · simp at same
      · obtain ⟨child, chosen, deep⟩ := mem_forestPositions.mp deep
        have head := TrieNode.key_head (labelled child chosen) deep
        have start : inner.key = byte :: rest := by simpa using same
        rw [start, List.head?_cons] at head
        exact missing child chosen head.symm
  | @split address common above rest byte active children new inside differ =>
    intro position member _ same
    obtain ⟨tail, split⟩ := TrieNode.key_isPrefix member
    rw [same] at split
    have cancel : above ++ tail = byte :: rest := by
      simpa [TrieNode.key, append_assoc] using split
    have head := congrArg List.head? cancel
    rw [List.head?_append_of_ne_nil _ inside] at head
    exact differ head
  | @cut address common above active children new inside =>
    intro position member _ same
    obtain ⟨tail, split⟩ := TrieNode.key_isPrefix member
    rw [same] at split
    have cancel : above ++ tail = [] := by
      simpa [TrieNode.key, append_assoc] using split
    exact inside (append_eq_nil_iff.mp cancel).1
  | @differ address common above below active children old inside differ =>
    intro position member _ same
    obtain ⟨tail, split⟩ := TrieNode.key_isPrefix member
    rw [same] at split
    have cancel : above ++ tail = below := by
      simpa [TrieNode.key, append_assoc] using split
    rw [← cancel, List.head?_append_of_ne_nil _ inside] at differ
    exact differ rfl
  | @descend address label rest byte active before after child found kind first inner ih =>
    intro position member active same
    obtain ⟨deep, inside, rfl, key⟩ :=
      WellFormed.position_child wellFormed first member same
    cases wellFormed with
    | mk labelled distinct used below =>
      exact ih (below child (by simp)) unknown deep inside active key

/-- A run that enters a labelled node by its first byte keeps that byte. -/
theorem Indexes.key_head (enters : node.key ≠ [] → key.head? = node.key.head?) :
    found.node.key.head? = node.key.head? := by
  cases run with
  | hit | activate | append | missing | differ | descend => rfl
  | @split address common above rest byte active children new inside differ =>
    cases common with
    | nil => exact absurd (enters inside).symm differ
    | cons first rest => rfl
  | @cut address _ above active children new inside =>
    cases key with
    | nil => exact absurd (enters (by simpa [TrieNode.key] using inside)) (by
        obtain ⟨first, tail, eq⟩ := exists_cons_of_ne_nil inside
        simp [TrieNode.key, eq])
    | cons first rest => rfl

/-- Only an insertion creates a node. -/
theorem Indexes.inserts (created : kind = .created ∨ kind = .cut) : insertNew = true := by
  induction run with
  | hit | missing | differ => simp at created
  | activate new | append new | split new | cut new => exact new
  | descend first inner ih => exact ih created

end

/-- The root has no label to cut, so the empty key cuts nothing. -/
theorem Indexes.cut_ne_nil {key : Key} (run : Indexes memory insertNew node key found .cut)
    (root : node.key = []) : key ≠ [] := by
  cases run with
  | cut new inside => exact absurd root (by simp [TrieNode.key, inside])
  | descend => simp

/-- An index run never empties a node. -/
theorem Indexes.keys_ne_nil {key : Key} (run : Indexes memory insertNew node key found kind)
    (used : node.keys ≠ []) :
    found.node.keys ≠ [] := by
  by_cases nothing : kind = .known ∨ kind = .absent
  · have same := ((run.unchanged nothing).2.filter Position.active).map Position.key
    intro empty
    exact used ((same.symm.trans (by
      change found.node.keys.Perm []
      rw [empty])).eq_nil)
  · have created : kind = .created ∨ kind = .cut := by cases kind <;> simp_all
    obtain ⟨position, member, _, same, active⟩ :=
      run.slot_position (by rintro rfl; simp at created)
    exact ne_nil_of_mem (mem_keys.mpr ⟨position, member, active (run.inserts created), same⟩)

/-- A node keeps its keys when only its label gets a longer prefix. -/
theorem keys_relabel (address other : Nat) (above label : Key) (active : Bool)
    (children : List TrieNode) :
    (TrieNode.mk address (above ++ label) active children).keys =
      (TrieNode.mk other label active children).keys.map (above ++ ·) := by
  cases active <;>
    simp [TrieNode.keys, TrieNode.actives, TrieNode.positions, List.filter_map, comp_def]

/-- Every index run that cuts no edge keeps the node well-formed. -/
theorem Indexes.wellFormed {key : Key} (run : Indexes memory insertNew node key found kind)
    (uncut : kind ≠ .cut) (wellFormed : node.WellFormed) (used : node.key ≠ [] → node.keys ≠ []) :
    found.node.WellFormed := by
  induction run with
  | hit | missing | differ => exact wellFormed
  | activate => exact wellFormed.relabel
  | @append address label rest byte active children new missing =>
    cases wellFormed with
    | mk labelled distinct used below =>
      refine .mk ?_ ?_ ?_ ?_
      · intro child member
        rcases mem_append.mp member with member | member
        · exact labelled child member
        · rw [mem_singleton.mp member]
          simp [TrieNode.key]
      · rw [pairwise_append]
        refine ⟨distinct, pairwise_singleton _ _, ?_⟩
        intro child member other last
        rw [mem_singleton.mp last]
        exact missing child member
      · intro child member
        rcases mem_append.mp member with member | member
        · exact used child member
        · rw [mem_singleton.mp member]
          simp [TrieNode.keys, TrieNode.actives, TrieNode.positions, forestPositions]
      · intro child member
        rcases mem_append.mp member with member | member
        · exact below child member
        · rw [mem_singleton.mp member]
          exact .mk (by simp) List.Pairwise.nil (by simp) (by simp)
  | @split address common above rest byte active children new inside differ =>
    have moved : (TrieNode.mk memory.next above active children).keys ≠ [] := by
      have nonempty := used (by simp [TrieNode.key, inside])
      rw [keys_relabel address memory.next] at nonempty
      simpa using nonempty
    refine .mk ?_ ?_ ?_ ?_
    · simp [TrieNode.key, inside]
    · simpa [TrieNode.key] using differ
    · intro child member
      rcases mem_cons.mp member with rfl | member
      · exact moved
      · rw [mem_singleton.mp member]
        simp [TrieNode.keys, TrieNode.actives, TrieNode.positions, forestPositions]
    · intro child member
      rcases mem_cons.mp member with rfl | member
      · exact wellFormed.relabel
      · rw [mem_singleton.mp member]
        exact .mk (by simp) List.Pairwise.nil (by simp) (by simp)
  | cut => exact absurd rfl uncut
  | @descend address label rest byte active before after child found kind first inner ih =>
    cases wellFormed with
    | mk labelled distinct used below =>
      have chosen : child ∈ before ++ child :: after := by simp
      have others : ∀ other ∈ before ++ after, other ∈ before ++ child :: after := by
        intro other member
        rcases mem_append.mp member with early | late <;> simp [*]
      have head := inner.key_head (fun _ => by rw [first, List.head?_cons])
      refine .mk ?_ ?_ ?_ ?_
      · intro other member
        rcases mem_cons.mp member with rfl | member
        · intro empty
          rw [empty, first] at head
          simp at head
        · exact labelled other (others other member)
      · refine pairwise_cons.mpr ⟨?_, distinct.sublist ?_⟩
        · intro other member same
          exact WellFormed.sibling distinct member (same.symm.trans head)
        · exact Sublist.append_left (sublist_cons_self _ _) _
      · intro other member
        rcases mem_cons.mp member with rfl | member
        · exact inner.keys_ne_nil (used child chosen)
        · exact used other (others other member)
      · intro other member
        rcases mem_cons.mp member with rfl | member
        · exact ih uncut (below child chosen) (fun _ => used child chosen)
        · exact below other (others other member)

/-- A key cuts an edge when it is new and every longer key continues it with the same byte. -/
def CutsEdge (keys : List Key) (key : Key) : Prop :=
  key ∉ keys ∧ ∃ byte, (∃ longer ∈ keys, key ++ [byte] <+: longer) ∧
    ∀ longer ∈ keys, key <+: longer → key ++ [byte] <+: longer

/-- A key that no other key continues cuts no edge. -/
theorem not_cutsEdge_of_prefix {keys : List Key} {key : Key}
    (apart : ∀ longer ∈ keys, key <+: longer → longer = key) : ¬ CutsEdge keys key := by
  rintro ⟨absent, byte, ⟨longer, member, continued⟩, -⟩
  have same := apart longer member ((prefix_append key [byte]).trans continued)
  exact absent (same ▸ member)

theorem not_cutsEdge_of_length {keys : List Key} {key : Key}
    (alike : ∀ longer ∈ keys, longer.length = key.length) : ¬ CutsEdge keys key :=
  not_cutsEdge_of_prefix fun longer member continued =>
    (continued.eq_of_length (alike longer member).symm).symm

/-- The faulty branch of the split is taken only for a key that cuts an edge. -/
theorem Indexes.cutsEdge {key : Key} (run : Indexes memory insertNew node key found kind)
    (cut : kind = .cut) (wellFormed : node.WellFormed) (used : node.key ≠ [] → node.keys ≠ []) :
    CutsEdge node.keys key := by
  induction run with
  | hit | activate | append | missing | split | differ => simp at cut
  | @cut address common above active children new inside =>
    obtain ⟨byte, rest, eq⟩ := exists_cons_of_ne_nil inside
    have extends_ : ∀ longer ∈ (TrieNode.mk address (common ++ above) active children).keys,
        common ++ [byte] <+: longer := by
      intro longer member
      obtain ⟨position, deep, _, rfl⟩ := mem_keys.mp member
      obtain ⟨tail, split⟩ := TrieNode.key_isPrefix deep
      exact ⟨rest ++ tail, by rw [← split]; simp [TrieNode.key, eq]⟩
    obtain ⟨longer, member⟩ := exists_mem_of_ne_nil _ (used (by simp [TrieNode.key, inside]))
    refine ⟨?_, byte, ⟨longer, member, extends_ longer member⟩, fun k inK _ => extends_ k inK⟩
    intro known
    have short := (extends_ common known).length_le
    simp at short
  | @descend address label rest byte active before after child found kind first inner ih =>
    have whole := wellFormed
    cases wellFormed with
    | mk labelled distinct usedBelow below =>
      have chosen : child ∈ before ++ child :: after := by simp
      obtain ⟨new, next, ⟨longer, member, extended⟩, all⟩ :=
        ih cut (below child chosen) (fun _ => usedBelow child chosen)
      have back : ∀ tail, label ++ byte :: tail ∈
          (TrieNode.mk address label active (before ++ child :: after)).keys →
          byte :: tail ∈ child.keys := by
        intro tail known
        obtain ⟨position, deep, marked, same⟩ := mem_keys.mp known
        obtain ⟨inside, member, rfl, key⟩ :=
          WellFormed.position_child whole first deep same
        exact mem_keys.mpr ⟨inside, member, marked, key⟩
      refine ⟨fun known => new (back rest known), next, ⟨label ++ longer, ?_, ?_⟩, ?_⟩
      · obtain ⟨position, deep, marked, rfl⟩ := mem_keys.mp member
        refine mem_keys.mpr ⟨position.under label, ?_, marked, rfl⟩
        refine mem_cons_of_mem _ (List.mem_map_of_mem ?_)
        exact mem_forestPositions.mpr ⟨child, chosen, deep⟩
      · rw [append_assoc]
        exact (prefix_append_right_inj label).mpr extended
      · rintro other known ⟨tail, rfl⟩
        have deep : byte :: (rest ++ tail) ∈ child.keys :=
          back (rest ++ tail) (by simpa using known)
        have further := all _ deep ⟨tail, by simp⟩
        rw [append_assoc, append_assoc]
        exact (prefix_append_right_inj label).mpr (by simpa using further)

end Ucollect.Core
