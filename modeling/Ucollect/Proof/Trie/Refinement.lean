import Ucollect.Proof.Trie.Keys

namespace Ucollect.Core
open List Option Function
variable {V : Type}

/-- A client of the trie indexes a key and stores a value, or it looks a key up. -/
inductive TrieOp (V : Type) where
  | index (key : Key) (value : Option V)
  | lookup (key : Key)

def TrieOp.run (trie : Trie V) : TrieOp V → Except TrieAbort (Trie V)
  | .index key value =>
    match trieIndex trie key with
    | .error abort => .error abort
    | .ok (next, some slot) => .ok (next.store slot value)
    | .ok (next, none) => .ok next
  | .lookup key =>
    match trieLookup trie key with
    | .error abort => .error abort
    | .ok (next, _) => .ok next

def runOps (trie : Trie V) (ops : List (TrieOp V)) : Except TrieAbort (Trie V) :=
  ops.foldlM TrieOp.run trie

/-- The finite map has no value for a key that was never indexed. -/
abbrev FiniteMap (V : Type) := Key → Option (Option V)

def TrieOp.apply (map : FiniteMap V) : TrieOp V → FiniteMap V
  | .index key value => update map key (some value)
  | .lookup _ => map

def applyOps (ops : List (TrieOp V)) : FiniteMap V := ops.foldl TrieOp.apply fun _ => none

def TrieOp.indexed : TrieOp V → List Key
  | .index key _ => [key]
  | .lookup _ => []

def indexedKeys (ops : List (TrieOp V)) : List Key := ops.flatMap TrieOp.indexed

/-- The slot of a key is the address of its active node. -/
def Trie.slotOf (trie : Trie V) (key : Key) : Option Nat :=
  (trie.root.actives.find? fun position => position.key = key).map Position.address

/-- After the operations the trie answers like the finite map. -/
def RefinesMap (ops : List (TrieOp V)) : Prop :=
  ∃ trie, runOps (trieAlloc V) ops = .ok trie ∧
    (∀ key, ∃ next, trieLookup trie key = .ok (next, (applyOps ops key).join)) ∧
    (∀ key ∈ indexedKeys ops, ∃ next slot, trieIndex trie key = .ok (next, some slot) ∧
      trie.slotOf key = some slot ∧ ∀ other, next.slotOf other = trie.slotOf other) ∧
    trieSize trie = (indexedKeys ops).toFinset.card ∧
    (∀ visit, visit ∈ trieWalk trie ↔
      visit.keySize = visit.key.length ∧ applyOps ops visit.key = some visit.data) ∧
    ((trieWalk trie).map TrieVisit.key).Nodup

/-- No index operation uses a non-empty key that cuts an edge between the earlier keys. -/
def CutsNoEdge (ops : List (TrieOp V)) : Prop :=
  ∀ done key value rest, ops = done ++ .index key value :: rest → key ≠ [] →
    ¬ CutsEdge (indexedKeys done) key

/-- The trie holds exactly the entries of the map. -/
structure Trie.Represents (trie : Trie V) (map : FiniteMap V) : Prop where
  rootKey : trie.root.key = []
  wellFormed : trie.root.WellFormed
  sound : Sound trie.memory trie.root.positions
  counted : trie.memory.activeCount = trie.root.keys.length
  entries : ∀ key value, (key, value) ∈ entriesOf trie.memory trie.root.positions ↔
    map key = some value

theorem trieAlloc_represents : (trieAlloc V).Represents fun _ => none where
  rootKey := rfl
  wellFormed := .mk (by simp) List.Pairwise.nil (by simp) (by simp)
  sound := by
    refine ⟨?_, ?_, ?_⟩ <;> simp [trieAlloc, TrieNode.positions, forestPositions]
  counted := by
    simp [trieAlloc, TrieNode.keys, TrieNode.actives, TrieNode.positions, forestPositions]
  entries key value := by
    simp [trieAlloc, entriesOf, TrieNode.positions, forestPositions]

variable {trie : Trie V} {map : FiniteMap V}

section

variable (represents : trie.Represents map)
include represents

theorem Trie.Represents.mem_keys_iff (key : Key) :
    key ∈ trie.root.keys ↔ (map key).isSome = true := by
  rw [← entriesOf_keys trie.memory, isSome_iff_exists]
  constructor
  · intro member
    obtain ⟨⟨_, value⟩, inside, rfl⟩ := List.mem_map.mp member
    exact ⟨value, (represents.entries _ value).mp inside⟩
  · rintro ⟨value, same⟩
    exact List.mem_map.mpr ⟨(key, value), (represents.entries key value).mpr same, rfl⟩

theorem Trie.Represents.keys_nodup : trie.root.keys.Nodup :=
  represents.wellFormed.keys_nodup.sublist (filter_sublist.map _)

/-- Two active positions with one key are the same position. -/
theorem Trie.Represents.position_unique {first second : Position}
    (left : first ∈ trie.root.positions) (right : second ∈ trie.root.positions)
    (same : first.key = second.key) : first = second :=
  inj_on_of_nodup_map represents.wellFormed.keys_nodup left right same

theorem Trie.Represents.slotOf_iff (key : Key) (slot : Nat) :
    trie.slotOf key = some slot ↔ ∃ position ∈ trie.root.positions,
      position.active = true ∧ position.key = key ∧ position.address = slot := by
  simp only [Trie.slotOf, map_eq_some_iff]
  constructor
  · rintro ⟨position, found, rfl⟩
    have member := mem_filter.mp (mem_of_find?_eq_some found)
    exact ⟨position, member.1, member.2, by simpa using List.find?_some found, rfl⟩
  · rintro ⟨position, member, active, rfl, rfl⟩
    have inside : position ∈ trie.root.actives := mem_filter.mpr ⟨member, active⟩
    cases found : trie.root.actives.find? fun other => other.key = position.key with
    | none => exact absurd (List.find?_eq_none.mp found position inside) (by simp)
    | some other =>
      have member' := (mem_filter.mp (mem_of_find?_eq_some found)).1
      have same : other.key = position.key := by simpa using List.find?_some found
      exact ⟨other, rfl, by rw [represents.position_unique member' member same]⟩

/-- A run that creates nothing keeps the represented map. -/
theorem Trie.Represents.unchanged {insertNew : Bool} {key : Key} {found : TrieIndexed V}
    {kind : IndexKind} (run : Indexes trie.memory insertNew trie.root key found kind)
    (nothing : kind = .known ∨ kind = .absent) (limit : Nat) :
    Trie.Represents ⟨found.node, found.memory, limit⟩ map := by
  obtain ⟨memory, same⟩ := run.unchanged nothing
  have enters : trie.root.key ≠ [] → trie.root.keys ≠ [] := fun labelled =>
    absurd represents.rootKey labelled
  have head := run.key_head fun labelled => absurd represents.rootKey labelled
  refine ⟨?_, ?_, ?_, ?_, ?_⟩
  · rw [represents.rootKey] at head
    exact List.head?_eq_none_iff.mp head
  · exact run.wellFormed (by rintro rfl; simp at nothing) represents.wellFormed enters
  · rw [memory]
    exact represents.sound.perm same.symm
  · have length := ((same.filter Position.active).map Position.key).length_eq
    rw [memory, represents.counted]
    exact length.symm
  · intro other value
    rw [memory, ← represents.entries]
    exact (entriesOf_perm trie.memory same).mem_iff

/-- A created key represents the map with a null value for it. -/
theorem Trie.Represents.created {insertNew : Bool} {key : Key} {found : TrieIndexed V}
    (run : Indexes trie.memory insertNew trie.root key found .created) (limit : Nat) :
    Trie.Represents ⟨found.node, found.memory, limit⟩ (update map key (some none)) := by
  have enters : trie.root.key ≠ [] → trie.root.keys ≠ [] := fun labelled =>
    absurd represents.rootKey labelled
  have head := run.key_head fun labelled => absurd represents.rootKey labelled
  have grown := run.created_entries (Or.inl rfl) represents.sound
  obtain ⟨grows, addresses⟩ := run.addresses
  have fresh : key ∉ trie.root.keys := by
    intro known
    obtain ⟨position, member, active, same⟩ := mem_keys.mp known
    exact run.new_key represents.wellFormed (by simp) position member (Or.inl active) same
  refine ⟨?_, ?_, ⟨?_, ?_, run.inactive represents.sound⟩, ?_, ?_⟩
  · rw [represents.rootKey] at head
    exact List.head?_eq_none_iff.mp head
  · exact run.wellFormed (by simp) represents.wellFormed enters
  · refine addresses.nodup_iff.mpr (nodup_append.mpr ⟨represents.sound.distinct,
      nodup_range', ?_⟩)
    intro address old other new same
    obtain ⟨position, member, rfl⟩ := List.mem_map.mp old
    have := represents.sound.allocated position member
    have := (mem_range'_1.mp new).1
    omega
  · intro position member
    have inside := addresses.mem_iff.mp (List.mem_map_of_mem member)
    rcases mem_append.mp inside with old | new
    · obtain ⟨other, member', same⟩ := List.mem_map.mp old
      have allocated := represents.sound.allocated other member'
      rw [same] at allocated
      exact lt_of_lt_of_le allocated grows
    · have := (mem_range'_1.mp new).2
      simp only
      omega
  · have length := grown.length_eq
    rw [run.count, represents.counted, ← entriesOf_keys trie.memory, ← entriesOf_keys found.memory,
      length_map, length_map, length]
    simp
  · intro other value
    rw [grown.mem_iff, mem_cons, Prod.mk.injEq]
    by_cases same : other = key
    · subst same
      rw [update_self]
      constructor
      · rintro (⟨_, rfl⟩ | old)
        · rfl
        · rw [← entriesOf_keys trie.memory] at fresh
          exact absurd (List.mem_map_of_mem old) fresh
      · intro eq
        exact Or.inl ⟨rfl, (Option.some.inj eq).symm⟩
    · rw [update_of_ne same, ← represents.entries]
      simp [same]

/-- A store through the slot of a key updates only this key. -/
theorem Trie.Represents.store {position : Position} (member : position ∈ trie.root.positions)
    (active : position.active = true) (value : Option V) :
    (trie.store position.address value).Represents
      (update map position.key (some value)) := by
  have elsewhere : ∀ other ∈ trie.root.positions, other.key ≠ position.key →
      (trie.store position.address value).memory.data other.address =
        trie.memory.data other.address := by
    intro other inside different
    refine update_of_ne (fun same => different ?_) _ _
    rw [inj_on_of_nodup_map represents.sound.distinct inside member same]
  refine ⟨represents.rootKey, represents.wellFormed,
    ⟨represents.sound.distinct, represents.sound.allocated, ?_⟩, represents.counted, ?_⟩
  · intro other inside inactive
    rw [elsewhere other inside (fun same => by
      rw [represents.position_unique inside member same, active] at inactive
      simp at inactive)]
    exact represents.sound.inactive other inside inactive
  · intro key result
    rw [mem_entriesOf]
    by_cases same : key = position.key
    · subst same
      rw [update_self]
      constructor
      · rintro ⟨other, inside, _, eq, rfl⟩
        rw [represents.position_unique inside member eq]
        simp [Trie.store]
      · intro eq
        exact ⟨position, member, active, rfl, by simpa [Trie.store] using Option.some.inj eq⟩
    · rw [update_of_ne same, ← represents.entries, mem_entriesOf]
      constructor
      · rintro ⟨other, inside, marked, rfl, eq⟩
        exact ⟨other, inside, marked, rfl, by rw [← eq, elsewhere other inside same]⟩
      · rintro ⟨other, inside, marked, rfl, eq⟩
        exact ⟨other, inside, marked, rfl, by rw [elsewhere other inside same, eq]⟩

/-- A lookup returns the stored value and keeps the represented map. -/
theorem Trie.Represents.lookup (key : Key) :
    ∃ next, trieLookup trie key = .ok (next, (map key).join) ∧ next.Represents map := by
  obtain ⟨found, kind, eq, run⟩ := represents.wellFormed.admits trie.memory false key
  have nothing : kind = .known ∨ kind = .absent := by
    by_contra other
    have created : kind = .created ∨ kind = .cut := by cases kind <;> simp_all
    simpa using run.inserts created
  have kept := represents.unchanged run nothing trie.maxKeyLen
  refine ⟨_, ?_, kept⟩
  rw [trieLookup, eq]
  obtain ⟨memory, same⟩ := run.unchanged nothing
  rcases nothing with rfl | rfl
  · obtain ⟨position, member, slot, rfl, _⟩ := run.slot_position (by simp)
    have member' := same.mem_iff.mp member
    simp only [slot, memory]
    congr 2
    cases active : position.active with
    | true =>
      have entry := (represents.entries position.key (trie.memory.data position.address)).mp
        (mem_entriesOf.mpr ⟨position, member', active, rfl, rfl⟩)
      rw [entry]
      rfl
    | false =>
      rw [represents.sound.inactive position member' active]
      cases stored : map position.key with
      | none => rfl
      | some value =>
        obtain ⟨other, inside, marked, eqKey, _⟩ :=
          mem_entriesOf.mp ((represents.entries position.key value).mpr stored)
        rw [represents.position_unique inside member' eqKey, active] at marked
        simp at marked
  · simp only [(run.slot_absent rfl).2]
    cases stored : map key with
    | none => rfl
    | some value =>
      obtain ⟨position, member, _, same, _⟩ :=
        mem_entriesOf.mp ((represents.entries key value).mpr stored)
      exact absurd same (run.new_key represents.wellFormed (by simp) position member (Or.inr rfl))

/-- Indexing a known key returns its slot and moves no slot. -/
theorem Trie.Represents.index_known {key : Key} (known : (map key).isSome = true) :
    ∃ next slot, trieIndex trie key = .ok (next, some slot) ∧ trie.slotOf key = some slot ∧
      (∀ other, next.slotOf other = trie.slotOf other) ∧ next.Represents map := by
  obtain ⟨found, kind, eq, run⟩ := represents.wellFormed.admits trie.memory true key
  have member := (represents.mem_keys_iff key).mpr known
  obtain ⟨position, inside, active, same⟩ := mem_keys.mp member
  have kindKnown : kind = .known := by
    by_contra other
    exact run.new_key represents.wellFormed other position inside (Or.inl active) same
  subst kindKnown
  have kept := represents.unchanged run (Or.inl rfl) (max trie.maxKeyLen key.length)
  obtain ⟨memory, perm⟩ := run.unchanged (Or.inl rfl)
  obtain ⟨chosen, deep, slot, label, marked⟩ := run.slot_position (by simp)
  refine ⟨_, chosen.address, by simp [trieIndex, eq, slot], ?_, ?_, kept⟩
  · exact (represents.slotOf_iff key _).mpr
      ⟨chosen, perm.mem_iff.mp deep, marked rfl, label, rfl⟩
  · intro other
    apply Option.ext
    intro address
    rw [kept.slotOf_iff, represents.slotOf_iff]
    simp only [perm.mem_iff]

/-- An index that cuts no edge returns a slot with the value of the key, and a store through this
slot updates the represented map. -/
theorem Trie.Represents.index_slot (key : Key) (uncut : key ≠ [] → ¬ CutsEdge trie.root.keys key) :
    ∃ next slot, trieIndex trie key = .ok (next, some slot) ∧
      next.memory.data slot = (map key).join ∧
      next.Represents (update map key (some (map key).join)) ∧
      ∀ value, (next.store slot value).Represents (update map key (some value)) := by
  obtain ⟨found, kind, eq, run⟩ := represents.wellFormed.admits trie.memory true key
  have enters : trie.root.key ≠ [] → trie.root.keys ≠ [] := fun labelled =>
    absurd represents.rootKey labelled
  have whole : kind ≠ .cut := by
    rintro rfl
    exact uncut (run.cut_ne_nil represents.rootKey)
      (run.cutsEdge rfl represents.wellFormed enters)
  have present : kind ≠ .absent := by
    rintro rfl
    simpa using (run.slot_absent rfl).1
  obtain ⟨position, member, slot, rfl, active⟩ := run.slot_position present
  have between : Trie.Represents
      ⟨found.node, found.memory, max trie.maxKeyLen position.key.length⟩
        (update map position.key (some (map position.key).join)) := by
    cases kind with
    | known =>
      have kept := represents.unchanged run (Or.inl rfl) (max trie.maxKeyLen position.key.length)
      have entry := (kept.entries position.key (found.memory.data position.address)).mp
        (mem_entriesOf.mpr ⟨position, member, active rfl, rfl, rfl⟩)
      rw [entry, join_some, ← entry, update_eq_self]
      exact kept
    | created =>
      have fresh : map position.key = none := by
        by_contra known
        have isSome := isSome_iff_ne_none.mpr known
        obtain ⟨other, inside, marked, same⟩ :=
          mem_keys.mp ((represents.mem_keys_iff position.key).mpr isSome)
        exact run.new_key represents.wellFormed (by simp) other inside (Or.inl marked) same
      rw [fresh]
      exact represents.created run _
    | absent => exact absurd rfl present
    | cut => exact absurd rfl whole
  have entry := (between.entries position.key (found.memory.data position.address)).mp
    (mem_entriesOf.mpr ⟨position, member, active rfl, rfl, rfl⟩)
  rw [update_self] at entry
  refine ⟨_, position.address, by simp [trieIndex, eq, slot], (Option.some.inj entry).symm,
    between, ?_⟩
  intro value
  have stored := between.store member (active rfl) value
  rwa [update_idem] at stored

/-- An index that cuts no edge followed by a store updates the represented map. -/
theorem Trie.Represents.index (key : Key) (value : Option V)
    (uncut : key ≠ [] → ¬ CutsEdge trie.root.keys key) :
    ∃ next, TrieOp.run trie (.index key value) = .ok next ∧
      next.Represents (update map key (some value)) := by
  obtain ⟨next, slot, indexed, -, -, stores⟩ := represents.index_slot key uncut
  exact ⟨_, by rw [TrieOp.run, indexed], stores value⟩

end

theorem applyOps_append (done : List (TrieOp V)) (op : TrieOp V) :
    applyOps (done ++ [op]) = op.apply (applyOps done) := by
  simp [applyOps]

theorem runOps_append (trie : Trie V) (done : List (TrieOp V)) (op : TrieOp V) :
    runOps trie (done ++ [op]) = (runOps trie done).bind fun next => op.run next := by
  simp only [runOps, foldlM_append, foldlM_cons, foldlM_nil, bind_pure]
  rfl

/-- The map has a value exactly for the indexed keys. -/
theorem applyOps_isSome (ops : List (TrieOp V)) (key : Key) :
    (applyOps ops key).isSome = true ↔ key ∈ indexedKeys ops := by
  induction ops using List.reverseRecOn with
  | nil => simp [applyOps, indexedKeys]
  | append_singleton done op ih =>
    rw [applyOps_append]
    cases op with
    | lookup other => simpa [TrieOp.apply, indexedKeys, TrieOp.indexed] using ih
    | index other value =>
      by_cases same : key = other
      · subst same
        simp [TrieOp.apply, indexedKeys, TrieOp.indexed]
      · rw [TrieOp.apply, update_of_ne same, ih]
        simp [indexedKeys, TrieOp.indexed, same]

theorem cutsEdge_congr {first second : List Key} (same : ∀ key, key ∈ first ↔ key ∈ second)
    (key : Key) : CutsEdge first key ↔ CutsEdge second key := by
  simp only [CutsEdge, same]

/-- Every run that cuts no edge represents its map. -/
theorem runOps_represents (ops : List (TrieOp V)) (uncut : CutsNoEdge ops) :
    ∃ trie, runOps (trieAlloc V) ops = .ok trie ∧ trie.Represents (applyOps ops) := by
  induction ops using List.reverseRecOn with
  | nil => exact ⟨trieAlloc V, rfl, trieAlloc_represents⟩
  | append_singleton done op ih =>
    obtain ⟨trie, run, represents⟩ := ih (fun before key value rest eq =>
      uncut before key value (rest ++ [op]) (by simp [eq]))
    rw [runOps_append, run, applyOps_append]
    change ∃ next, op.run trie = .ok next ∧ _
    cases op with
    | lookup key =>
      obtain ⟨next, eq, kept⟩ := represents.lookup key
      exact ⟨next, by rw [TrieOp.run, eq], kept⟩
    | index key value =>
      apply represents.index
      intro nonempty cuts
      refine uncut done key value [] rfl nonempty ((cutsEdge_congr ?_ key).mp cuts)
      intro other
      rw [represents.mem_keys_iff, applyOps_isSome]

theorem trieWalk_eq (trie : Trie V) : trieWalk trie = trie.root.actives.map fun position =>
    ⟨position.key, position.key.length, trie.memory.data position.address⟩ := by
  simpa [trieWalk] using walkNode_positions trie.memory [] trie.root

section

variable (represents : trie.Represents map)
include represents

/-- The walk visits each key of the map once and with its value. -/
theorem Trie.Represents.mem_walk (visit : TrieVisit V) :
    visit ∈ trieWalk trie ↔
      visit.keySize = visit.key.length ∧ map visit.key = some visit.data := by
  obtain ⟨key, size, data⟩ := visit
  rw [trieWalk_eq, ← represents.entries]
  simp only [List.mem_map, TrieVisit.mk.injEq, mem_entriesOf, TrieNode.actives, mem_filter]
  constructor
  · rintro ⟨position, ⟨member, active⟩, rfl, rfl, rfl⟩
    exact ⟨rfl, position, member, active, rfl, rfl⟩
  · rintro ⟨rfl, position, member, active, rfl, rfl⟩
    exact ⟨position, ⟨member, active⟩, rfl, rfl, rfl⟩

theorem Trie.Represents.walk_nodup : ((trieWalk trie).map TrieVisit.key).Nodup := by
  rw [trieWalk_eq, List.map_map]
  exact represents.keys_nodup

theorem Trie.Represents.length_walk : (trieWalk trie).length = trieSize trie := by
  rw [trieWalk_eq, length_map, trieSize, represents.counted, TrieNode.keys, length_map]

/-- The size is the number of keys with a value. -/
theorem Trie.Represents.size_eq {keys : Finset Key}
    (same : ∀ key, key ∈ keys ↔ (map key).isSome = true) : trieSize trie = keys.card := by
  rw [trieSize, represents.counted, ← toFinset_card_of_nodup represents.keys_nodup]
  congr 1
  ext key
  rw [List.mem_toFinset, represents.mem_keys_iff, same]

end

/-- The trie refines the finite map in every run that cuts no edge. -/
theorem trie_refines_map (ops : List (TrieOp V)) (uncut : CutsNoEdge ops) : RefinesMap ops := by
  obtain ⟨trie, run, represents⟩ := runOps_represents ops uncut
  refine ⟨trie, run, ?_, ?_, ?_, ?_, ?_⟩
  · intro key
    obtain ⟨next, eq, _⟩ := represents.lookup key
    exact ⟨next, eq⟩
  · intro key member
    obtain ⟨next, slot, eq, own, others, _⟩ :=
      represents.index_known ((applyOps_isSome ops key).mpr member)
    exact ⟨next, slot, eq, own, others⟩
  · apply represents.size_eq
    intro key
    rw [List.mem_toFinset, applyOps_isSome]
  · exact represents.mem_walk
  · exact represents.walk_nodup

/-- Three keys with a common prefix cut no edge. -/
theorem trie_refines_map_fork :
    CutsNoEdge [TrieOp.index [1, 2] (some 5), .index [1, 3] (some 6), .index [1] (some 7)] ∧
      RefinesMap [TrieOp.index [1, 2] (some 5), .index [1, 3] (some 6), .index [1] (some 7)] := by
  have uncut : CutsNoEdge
      [TrieOp.index [1, 2] (some 5), .index [1, 3] (some 6), .index [1] (some 7)] := by
    intro done key value rest eq nonempty cuts
    obtain ⟨_, byte, _, all⟩ := cuts
    match done, eq with
    | [], eq => simp_all [indexedKeys]
    | [_], eq =>
      simp only [cons_append, nil_append, List.cons.injEq, TrieOp.index.injEq] at eq
      obtain ⟨rfl, ⟨rfl, _⟩, _⟩ := eq
      simp_all [indexedKeys, TrieOp.indexed]
    | [_, _], eq =>
      simp only [cons_append, nil_append, List.cons.injEq, TrieOp.index.injEq] at eq
      obtain ⟨rfl, rfl, ⟨rfl, _⟩, _⟩ := eq
      have first := all [1, 2] (by simp [indexedKeys, TrieOp.indexed]) (by decide)
      have second := all [1, 3] (by simp [indexedKeys, TrieOp.indexed]) (by decide)
      simp_all
    | _ :: _ :: _ :: _, eq => simp at eq
  exact ⟨uncut, trie_refines_map _ uncut⟩

/-- A key that ends inside an edge loses its value. -/
theorem trie_loses_prefix_key :
    ¬ RefinesMap [TrieOp.index [97, 98] (some 1), .index [97] (some 2)] := by
  rintro ⟨trie, run, lookup, _⟩
  obtain ⟨next, eq⟩ := lookup [97]
  have value : (runOps (trieAlloc Nat)
      [TrieOp.index [97, 98] (some 1), .index [97] (some 2)]).bind
      (fun trie => (trieLookup trie [97]).map Prod.snd) = .ok none := rfl
  rw [run] at value
  change (trieLookup trie [97]).map Prod.snd = .ok none at value
  rw [eq] at value
  simp [Except.map, applyOps, TrieOp.apply] at value

end Ucollect.Core
