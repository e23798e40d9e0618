import Ucollect.Construction.Fwup.Plugin
import Ucollect.Proof.Diffstore.Changes

/-
This file proves what the commands for single addresses do with a set of the kernel.
-/

namespace Ucollect.Fwup
open Library Diffstore List Option Function

section Mirror

/-- An address with a port stands for two entries. -/
def Entry.served (entry : Entry) : List Entry :=
  match entry.service with
  | some (_, port) => [⟨entry.address, some (.tcp, port)⟩, ⟨entry.address, some (.udp, port)⟩]
  | none => [entry]

def SetType.entriesOf (type : SetType) (addr : Bytes) : List Entry :=
  ((type.addr2str addr).map Entry.served).getD []

/-- These are the entries that a set of the kernel should have. -/
def SetType.mirror (type : SetType) (trie : Finset Bytes) : Finset Entry :=
  trie.biUnion fun addr => (type.entriesOf addr).toFinset

variable {type : SetType} {addr other : Bytes} {entry : Entry} {trie : Finset Bytes}

theorem inet2str_injective {length : Nat} (first : inet2str length addr = some entry)
    {second : Entry} (found : inet2str length other = some second)
    (same : entry.address = second.address) : addr = other := by
  simp only [inet2str, ite_none_right_eq_some, Option.some.injEq] at first found
  rw [← first.2, ← found.2] at same
  exact same

theorem inetup2str_injective {length : Nat} (first : inetup2str length addr = some entry)
    {second : Entry} (found : inetup2str length other = some second)
    (same : entry.address = second.address)
    (samePort : entry.service.map Prod.snd = second.service.map Prod.snd) : addr = other := by
  simp only [inetup2str, ite_none_right_eq_some, Option.some.injEq] at first found
  rw [← first.2, ← found.2] at same samePort
  have ports : addr.drop length = other.drop length := Option.some.inj samePort
  rw [← take_append_drop length addr, ← take_append_drop length other, ports]
  exact congrArg (· ++ other.drop length) same

theorem served_shape {served : Entry} (member : served ∈ entry.served) :
    served.address = entry.address ∧
      served.service.map Prod.snd = entry.service.map Prod.snd := by
  rw [Entry.served] at member
  split at member
  · next protocol port found =>
      rw [found]
      rcases mem_cons.mp member with rfl | member
      · exact ⟨rfl, rfl⟩
      · rw [mem_singleton.mp member]
        exact ⟨rfl, rfl⟩
  · rw [mem_singleton.mp member]
    exact ⟨rfl, rfl⟩

theorem mem_entriesOf : entry ∈ type.entriesOf addr ↔
    ∃ text, type.addr2str addr = some text ∧ entry ∈ text.served := by
  rw [SetType.entriesOf]
  cases type.addr2str addr with
  | none => simp
  | some text => simp

/-- Two addresses have no entry in common. -/
theorem entriesOf_injective (first : entry ∈ type.entriesOf addr)
    (second : entry ∈ type.entriesOf other) : addr = other := by
  obtain ⟨text, found, member⟩ := mem_entriesOf.mp first
  obtain ⟨otherText, otherFound, otherMember⟩ := mem_entriesOf.mp second
  have address := (served_shape member).1.symm.trans (served_shape otherMember).1
  have port := (served_shape member).2.symm.trans (served_shape otherMember).2
  cases type with
  | ip => exact inet2str_injective found otherFound address
  | ip6 => exact inet2str_injective found otherFound address
  | net => exact inet2str_injective found otherFound address
  | net6 => exact inet2str_injective found otherFound address
  | ipPort => exact inetup2str_injective found otherFound address port
  | ip6Port => exact inetup2str_injective found otherFound address port

theorem mem_mirror : entry ∈ type.mirror trie ↔ ∃ addr ∈ trie, entry ∈ type.entriesOf addr := by
  rw [SetType.mirror, Finset.mem_biUnion]
  simp only [List.mem_toFinset]

theorem mirror_empty : type.mirror ∅ = ∅ := Finset.biUnion_empty

theorem mirror_mono {larger : Finset Bytes} (inside : trie ⊆ larger) :
    type.mirror trie ⊆ type.mirror larger :=
  Finset.biUnion_subset_biUnion_of_subset_left _ inside

theorem mirror_insert : type.mirror (insert addr trie) =
    type.mirror trie ∪ (type.entriesOf addr).toFinset := by
  rw [SetType.mirror, Finset.biUnion_insert, Finset.union_comm]
  rfl

theorem mirror_erase : type.mirror (trie.erase addr) =
    type.mirror trie \ (type.entriesOf addr).toFinset := by
  ext entry
  rw [Finset.mem_sdiff, mem_mirror, mem_mirror, List.mem_toFinset]
  constructor
  · rintro ⟨other, member, inside⟩
    obtain ⟨different, there⟩ := Finset.mem_erase.mp member
    exact ⟨⟨other, there, inside⟩, fun again => different (entriesOf_injective inside again)⟩
  · rintro ⟨⟨other, member, inside⟩, outside⟩
    have different : other ≠ addr := by
      rintro rfl
      exact outside inside
    exact ⟨other, Finset.mem_erase.mpr ⟨different, member⟩, inside⟩

end Mirror

section Commands

variable {ipset : Ipset} {kernel : Kernel} {name : Name} {kset : KernelSet} {entries : List Entry}

theorem run_adds (there : kernel name = some kset)
    (legal : ∀ entry ∈ entries, ipset.storable kset.desc kset.family entry = true)
    (room : (kset.entries ∪ entries.toFinset).card ≤ kset.maxSize) :
    runAll ipset.run kernel (entries.map (.add name)) =
      some (update kernel name
        (some { kset with entries := kset.entries ∪ entries.toFinset })) := by
  induction entries generalizing kernel kset with
  | nil =>
    rw [toFinset_nil, Finset.union_empty, ← there, update_eq_self]
    rfl
  | cons entry entries ih =>
    rw [forall_mem_cons] at legal
    have larger : insert entry kset.entries ∪ entries.toFinset =
        kset.entries ∪ (entry :: entries).toFinset := by
      rw [toFinset_cons, Finset.union_insert, Finset.insert_union]
    have free : entry ∈ kset.entries ∨ kset.entries.card < kset.maxSize := by
      by_cases known : entry ∈ kset.entries
      · exact .inl known
      · right
        have grown : insert entry kset.entries ⊆ kset.entries ∪ (entry :: entries).toFinset := by
          rw [← larger]
          exact Finset.subset_union_left
        have count := Finset.card_le_card grown
        rw [Finset.card_insert_of_notMem known] at count
        omega
    have rest := @ih
      (update kernel name (some { kset with entries := insert entry kset.entries }))
      { kset with entries := insert entry kset.entries } (update_self _ _ _) legal.2
      (by rw [larger]; exact room)
    rw [larger, update_idem] at rest
    rw [map_cons, runAll_cons, ipset.add_entry there legal.1 free, bind_some, rest]

theorem run_dels (there : kernel name = some kset)
    (legal : ∀ entry ∈ entries, ipset.storable kset.desc kset.family entry = true) :
    runAll ipset.run kernel (entries.map (.del name)) =
      some (update kernel name
        (some { kset with entries := kset.entries \ entries.toFinset })) := by
  induction entries generalizing kernel kset with
  | nil =>
    rw [toFinset_nil, Finset.sdiff_empty, ← there, update_eq_self]
    rfl
  | cons entry entries ih =>
    rw [forall_mem_cons] at legal
    have smaller : kset.entries.erase entry \ entries.toFinset =
        kset.entries \ (entry :: entries).toFinset := by
      ext found
      simp only [Finset.mem_sdiff, Finset.mem_erase, toFinset_cons, Finset.mem_insert]
      tauto
    have rest := @ih
      (update kernel name (some { kset with entries := kset.entries.erase entry }))
      { kset with entries := kset.entries.erase entry } (update_self _ _ _) legal.2
    rw [smaller, update_idem] at rest
    rw [map_cons, runAll_cons, ipset.del_entry there legal.1, bind_some, rest]

end Commands

section Names

variable {protocol name : Bytes}

/-- A suffix without the letter of the mark cannot complete it. -/
theorem chooseProtocol_rep (plain : chooseProtocol protocol name = none) :
    chooseProtocol protocol (name ++ repSuffix) = none := by
  fun_induction chooseProtocol protocol name with
  | case1 rest => cases plain
  | case2 byte rest other ih =>
    have tail := ih (map_eq_none_iff.mp plain)
    rw [cons_append, chooseProtocol, tail]
    · rfl
    · rintro more rfl same
      match rest, same with
      | [], same => cases same
      | [_], same => cases same
      | _ :: _ :: _, same =>
        simp only [cons_append, List.cons.injEq] at same
        exact other _ rfl (by rw [same.1, same.2.1])
  | case3 => rfl

end Names

section Hooks

/-- This is the set that the commands for addresses go to. -/
def IpSet.target (set : IpSet) : Name := set.tmpName.getD set.name

/-- The kernel can take the address, and the name does not hide the mark of the protocol. -/
def Ipset.Accepts (ipset : Ipset) (name : Name) (type : SetType) (addr : Bytes) : Prop :=
  chooseProtocol tcpText name = none ∧ (type.addr2str addr).isSome = true ∧
    ∀ entry ∈ type.entriesOf addr, ipset.storable type.desc type.family entry = true

/-- Every address has the length of the type, so none of them is the start of another one. An address
that is added is accepted, and there is room for it. -/
def Ipset.Fits (ipset : Ipset) (name : Name) (type : SetType) (maxSize : Nat) :
    Finset Bytes → List (Change Bytes) → Prop
  | _, [] => True
  | trie, change :: changes =>
    ((type.addr2str change.key).isSome = true ∧
      (change.add = true → ipset.Accepts name type change.key ∧
        (type.mirror (change.apply trie)).card ≤ maxSize)) ∧
    ipset.Fits name type maxSize (change.apply trie) changes

/-- The set of the kernel has the type and the content. -/
structure Shows (type : SetType) (trie : Finset Bytes) (kset : KernelSet) : Prop where
  desc : kset.desc = type.desc
  family : kset.family = type.family
  entries : kset.entries = type.mirror trie

variable {ipset : Ipset} {existing : Existing} {kernel : Kernel} {set : IpSet} {store : Store}
  {kset : KernelSet} {addr : Bytes}

theorem addrCmd_eq (plain : chooseProtocol tcpText set.target = none)
    (accepted : (set.type.addr2str addr).isSome = true) (cmd : Name → Entry → Command) :
    addrCmd set cmd addr = some ((set.type.entriesOf addr).map (cmd set.target)) := by
  obtain ⟨entry, found⟩ := isSome_iff_exists.mp accepted
  rw [IpSet.target] at plain
  simp only [addrCmd, found, map_some, plain, SetType.entriesOf, getD_some, Entry.served,
    IpSet.target]
  cases entry.service with
  | none => rfl
  | some service => rfl

theorem runHooks_cons {hook : Hook} {hooks : List Hook} {next last : IpSet}
    {begun ended : List Command} (first : runHook existing set hook = some (next, begun))
    (rest : runHooks existing next hooks = some (last, ended)) :
    runHooks existing set (hook :: hooks) = some (last, begun ++ ended) := by
  rw [runHooks, first]
  simp only [bind_eq_bind, bind_some, rest, Option.pure_def]

theorem runHooks_append {first second : List Hook} {next last : IpSet}
    {begun ended : List Command} (start : runHooks existing set first = some (next, begun))
    (rest : runHooks existing next second = some (last, ended)) :
    runHooks existing set (first ++ second) = some (last, begun ++ ended) := by
  induction first generalizing set begun with
  | nil =>
    obtain ⟨rfl, rfl⟩ := Prod.mk.inj (Option.some.inj start)
    exact rest
  | cons hook first ih =>
    rw [runHooks, bind_eq_bind, bind_eq_some_iff] at start
    obtain ⟨⟨middle, early⟩, hooked, start⟩ := start
    obtain ⟨⟨found, late⟩, ran, same⟩ := bind_eq_some_iff.mp start
    obtain ⟨rfl, rfl⟩ := Prod.mk.inj (Option.some.inj same)
    rw [cons_append, append_assoc]
    exact runHooks_cons hooked (ih ran)

/-- A change in the store is the same change in the kernel. -/
theorem run_change (there : kernel set.target = some kset)
    (showing : Shows set.type store.trie kset)
    (accepted : ∀ known ∈ store.trie, ipset.Accepts set.name set.type known)
    (plain : chooseProtocol tcpText set.name = none → chooseProtocol tcpText set.target = none)
    (change : Change Bytes)
    (fits : change.add = true → ipset.Accepts set.name set.type change.key ∧
      (set.type.mirror (change.apply store.trie)).card ≤ kset.maxSize) :
    ∃ commands, runHooks existing set (store.change change.key change.add).2 =
        some (set, commands) ∧
      runAll ipset.run kernel commands = some (update kernel set.target
        (some { kset with entries := set.type.mirror (change.apply store.trie) })) := by
  have unchanged : ∀ trie, trie = store.trie →
      some kernel = some (update kernel set.target
        (some { kset with entries := set.type.mirror trie })) := by
    rintro trie rfl
    rw [← showing.entries, ← there, update_eq_self]
  obtain ⟨key, add⟩ := change
  cases add with
  | true =>
    obtain ⟨⟨named, sized, legal⟩, room⟩ := fits rfl
    rw [← showing.desc, ← showing.family] at legal
    rw [Store.change, Change.apply, if_pos rfl, if_pos rfl] at *
    by_cases known : key ∈ store.trie
    · rw [if_pos known]
      exact ⟨[], rfl, unchanged _ (Finset.insert_eq_of_mem known)⟩
    · rw [if_neg known]
      refine ⟨(set.type.entriesOf key).map (.add set.target), ?_, ?_⟩
      · simp [runHooks, runHook, addItem, addrCmd_eq (plain named) sized]
      · rw [mirror_insert, ← showing.entries] at room ⊢
        exact run_adds there legal room
  | false =>
    rw [Store.change, Change.apply, if_neg Bool.false_ne_true, if_neg Bool.false_ne_true]
    by_cases known : key ∈ store.trie
    · obtain ⟨named, sized, legal⟩ := accepted key known
      rw [← showing.desc, ← showing.family] at legal
      rw [if_pos known]
      refine ⟨(set.type.entriesOf key).map (.del set.target), ?_, ?_⟩
      · simp [runHooks, runHook, removeItem, addrCmd_eq (plain named) sized]
      · rw [mirror_erase, ← showing.entries]
        exact run_dels there legal
    · rw [if_neg known]
      exact ⟨[], rfl, unchanged _ (Finset.erase_eq_of_notMem known)⟩

theorem accepts_apply {trie : Finset Bytes} {change : Change Bytes}
    (accepted : ∀ known ∈ trie, ipset.Accepts set.name set.type known)
    (legal : change.add = true → ipset.Accepts set.name set.type change.key) :
    ∀ known ∈ change.apply trie, ipset.Accepts set.name set.type known := by
  intro known member
  rw [mem_apply] at member
  split at member
  · next same => exact same ▸ legal member
  · exact accepted known member

theorem Ipset.Fits.accepts {trie : Finset Bytes} {changes : List (Change Bytes)} {maxSize : Nat}
    (fits : ipset.Fits set.name set.type maxSize trie changes)
    (accepted : ∀ known ∈ trie, ipset.Accepts set.name set.type known) :
    ∀ known ∈ applyChanges trie changes, ipset.Accepts set.name set.type known := by
  induction changes generalizing trie with
  | nil => exact accepted
  | cons change changes ih => exact ih fits.2 (accepts_apply accepted fun add => (fits.1.2 add).1)

/-- The changes of a diff reach the kernel one after another. -/
theorem run_changes {changes : List (Change Bytes)} (there : kernel set.target = some kset)
    (showing : Shows set.type store.trie kset)
    (accepted : ∀ known ∈ store.trie, ipset.Accepts set.name set.type known)
    (plain : chooseProtocol tcpText set.name = none → chooseProtocol tcpText set.target = none)
    (fits : ipset.Fits set.name set.type kset.maxSize store.trie changes) :
    ∃ commands, runHooks existing set (store.changeAll changes).2 = some (set, commands) ∧
      runAll ipset.run kernel commands = some (update kernel set.target
        (some { kset with entries := set.type.mirror (applyChanges store.trie changes) })) := by
  induction changes generalizing kernel store kset with
  | nil =>
    refine ⟨[], rfl, ?_⟩
    rw [applyChanges, foldl_nil, ← showing.entries, ← there, update_eq_self]
    rfl
  | cons change changes ih =>
    obtain ⟨first, hooked, ran⟩ := run_change there showing accepted plain change fits.1.2
    have trie := change_trie store change.key change.add
    obtain ⟨rest, hookedRest, ranRest⟩ := @ih
      (update kernel set.target
        (some { kset with entries := set.type.mirror (change.apply store.trie) }))
      (store.change change.key change.add).1
      { kset with entries := set.type.mirror (change.apply store.trie) }
      (update_self _ _ _)
      ⟨showing.desc, showing.family, by rw [trie]⟩
      (by rw [trie]; exact accepts_apply accepted fun add => (fits.1.2 add).1)
      (by rw [trie]; exact fits.2)
    refine ⟨first ++ rest, runHooks_append hooked hookedRest, runAll_trans ran ?_⟩
    rw [ranRest, update_idem, trie]
    rfl

end Hooks

end Ucollect.Fwup

/-
The array of the pointers is too small for any listing, so no listing stays inside its blocks.
-/

namespace Ucollect.Fwup
open Library Core MemPool List Option Function

variable {block : Nat} {text : Bytes} {pieces : List Bytes}

/-- The lines of a text. A text that ends in a line break has no line behind it. -/
def linesOf : Bytes → List Bytes
  | [] => []
  | byte :: rest =>
    if byte = lineBreak then [] :: linesOf rest
    else
      match linesOf rest with
      | [] => [[byte]]
      | first :: others => (byte :: first) :: others

/-- Every write is inside its block, and the strings are the lines of the output. -/
def ListsWell (machine : Machine) (pieces : List Bytes) : Prop :=
  (∀ write ∈ (listSets machine pieces).2, write.Inside) ∧
    (listSets machine pieces).1 = linesOf pieces.flatten

theorem inside_iff {write : BlockWrite} (some_ : 0 < write.size) :
    write.Inside ↔ write.start + write.size ≤ write.allocated := by
  constructor
  · intro inside
    have last := inside (write.start + write.size - 1) (by omega) (by omega)
    omega
  · intro fits index _ before
    omega

theorem length_splitListing_pos (text : Bytes) : 0 < (splitListing text).length := by
  induction text with
  | nil => exact Nat.one_pos
  | cons byte rest ih =>
    rw [splitListing]
    split
    · simp
    · split <;> simp

/-- The last pointer is written behind the end of the array. -/
theorem positionWrites_outside (machine : Machine) {count : Nat} (positive : 0 < count) :
    ∃ write ∈ positionWrites machine count, ¬ write.Inside := by
  have word : 1 < machine.word := by cases machine <;> decide
  refine ⟨_, List.mem_map.mpr ⟨count - 1, mem_range.mpr (by omega), rfl⟩, ?_⟩
  rw [inside_iff (Nat.zero_lt_of_lt word)]
  have ends : machine.word * (count - 1) + machine.word = machine.word * count := by
    rw [← Nat.mul_succ, Nat.succ_eq_add_one, Nat.sub_add_cancel positive]
  have long : 2 * count ≤ machine.word * count := Nat.mul_le_mul_right count word
  show ¬ machine.word * (count - 1) + machine.word ≤ count
  omega

/-- For no output of the command every write is inside its block. -/
theorem listing_never (machine : Machine) (pieces : List Bytes) : ¬ ListsWell machine pieces := by
  intro well
  obtain ⟨write, member, outside⟩ := positionWrites_outside machine
    (length_splitListing_pos (readListing firstBlock [] pieces).text)
  exact outside (well.1 write (by simp [listSets, member]))

/-- A kernel with one set, whose name is `a`. -/
theorem listing_one_set :
    Delivers firstBlock 0 [[97, 10]] ∧ ¬ ListsWell .wide [[97, 10]] := by
  refine ⟨by simp [Delivers, firstBlock], fun well => ?_⟩
  have outside := well.1 ⟨8, 8, 2⟩ (by decide) 8 (by decide) (by decide)
  exact absurd outside (by decide)

end Ucollect.Fwup
