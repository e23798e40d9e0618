import Ucollect.Proof.Flow.Text
import Ucollect.Proof.Flow.Meaning

/-
This file proves that the client builds the filter that the server has serialized.
-/

namespace Ucollect.Master
open Library Core Flow List Option

section Bits

open FilterTree

theorem bits_replicate (byte : UInt8) (bit : Bool) (count : Nat)
    (same : byteBits byte = List.replicate 8 bit) :
    bits (List.replicate count byte) = List.replicate (8 * count) bit := by
  induction count with
  | zero => rfl
  | succ count ih =>
    rw [replicate_succ, bits_cons, ih, same, ← replicate_add]
    congr 1
    omega

theorem byteBits_masked (byte : UInt8) {count : Nat} (positive : 0 < count) (few : count ≤ 8) :
    byteBits (byte &&& lastMask count) =
      (byteBits byte).take count ++ List.replicate (8 - count) false := by
  apply ext_getElem
  · simp only [length_byteBits, length_append, length_take, length_replicate]
    omega
  · intro position inside _
    have small : position < 8 := inside
    have bit := testBit_lastMask positive few (show 7 - position < 8 by omega)
    simp only [byteBits, getElem_map, getElem_range, UInt8.toNat_and, Nat.testBit_and, bit,
      getElem_append, length_take, length_map, length_range, getElem_take,
      getElem_replicate]
    by_cases front : position < count
    · simp [front, small, show 8 - count ≤ 7 - position by omega]
    · simp [front, show ¬8 - count ≤ 7 - position by omega]

theorem byteBits_lastMask {count : Nat} (positive : 0 < count) (few : count ≤ 8) :
    byteBits (lastMask count) = List.replicate count true ++ List.replicate (8 - count) false := by
  have masked := byteBits_masked 255 positive few
  have ones : byteBits 255 = List.replicate 8 true := by decide
  rw [show (255 : UInt8) &&& lastMask count = lastMask count from UInt8.neg_one_and, ones,
    take_replicate, Nat.min_eq_left few] at masked
  exact masked

variable {addrLen netmask : Nat} {bytes : Bytes}

/-- The mask has as many ones as the filter says. -/
theorem bits_prefixMask (positive : 0 < netmask) (few : netmask ≤ 8 * addrLen) :
    bits (prefixMask addrLen netmask) =
      List.replicate netmask true ++ List.replicate (8 * addrLen - netmask) false := by
  obtain ⟨full, count, rfl, some, few'⟩ : ∃ full count, netmask = 8 * full + count ∧ 0 < count ∧
      count ≤ 8 := ⟨(netmask - 1) / 8, (netmask - 1) % 8 + 1, by omega, by omega, by omega⟩
  rw [prefixMask_eq some few', bits_append, bits_cons, byteBits_lastMask some few',
    bits_replicate 255 true full (by decide), bits_replicate 0 false _ (by decide),
    append_assoc, ← replicate_add, ← append_assoc, ← replicate_add]
  congr 2
  omega

/-- The address has the bits of the prefix, and the others are zero. -/
theorem bits_prefixAddress (positive : 0 < netmask) (few : netmask ≤ 8 * addrLen)
    (size : bytes.length = addrLen) :
    bits (prefixAddress addrLen netmask (bytes.take ((netmask + 7) / 8))) =
      (bits bytes).take netmask ++ List.replicate (8 * addrLen - netmask) false := by
  obtain ⟨full, count, rfl, some, few'⟩ : ∃ full count, netmask = 8 * full + count ∧ 0 < count ∧
      count ≤ 8 := ⟨(netmask - 1) / 8, (netmask - 1) % 8 + 1, by omega, by omega, by omega⟩
  obtain ⟨front, byte, back, rfl, rfl⟩ : ∃ front byte back, bytes = front ++ byte :: back ∧
      front.length = full := split_position (by omega)
  have taken : (front ++ byte :: back).take ((8 * front.length + count + 7) / 8) =
      front ++ [byte] := by
    rw [show (8 * front.length + count + 7) / 8 = front.length + 1 by omega, take_length_add_append,
      take_succ_cons, take_zero]
  rw [taken, prefixAddress_eq some few', bits_append, bits_cons, byteBits_masked byte some few',
    take_bits front back byte few', bits_replicate 0 false _ (by decide), append_assoc,
    append_assoc, ← replicate_add]
  congr 3
  rw [length_append, length_cons] at size
  omega

end Bits

/-- The filter of the client has the same nodes as the filter of the server. An address is its bytes,
a trie is its list of keys, and a range is its bits with a mask. -/
inductive Same (inetPton : Family → Text → Option Bytes) : Filter → Flow.Filter → Prop
  | constant (value : Bool) : Same inetPton (.constant value) (.constant value)
  | negation {sub : Filter} {built : Flow.Filter} (same : Same inetPton sub built) :
      Same inetPton (.negation [sub]) (.negation built)
  | conjunction {subs : List Filter} {built : List Flow.Filter}
      (same : List.Forall₂ (Same inetPton) subs built) :
      Same inetPton (.conjunction subs) (.conjunction built)
  | disjunction {subs : List Filter} {built : List Flow.Filter}
      (same : List.Forall₂ (Same inetPton) subs built) :
      Same inetPton (.disjunction subs) (.disjunction built)
  | addresses (side : Side) {ips trie : List Bytes}
      (same : List.Forall₂ (fun ip key => (convert inetPton ip).map Prod.snd = some key) ips trie)
      (indexed : Indexed trie) : Same inetPton (.addresses side ips) (.address side trie)
  | ports (side : Side) {ports : List Int} {trie : List Bytes}
      (same : List.Forall₂ (fun port key => key.length = 2 ∧ (bigEndian key : Int) = port)
        ports trie)
      (indexed : Indexed trie) : Same inetPton (.ports side ports) (.port side trie)
  | differential (side : Side) (name : Bytes) (store : Nat) :
      Same inetPton (.differential side name) (.differential side name store)
  | range (side : Side) {addr bytes address mask : Bytes} {family : Family} {netmask : Nat}
      (known : convert inetPton addr = some (family, bytes))
      (ones : FilterTree.bits mask =
        List.replicate netmask true ++ List.replicate (8 * family.size - netmask) false)
      (bits : FilterTree.bits address = (FilterTree.bits bytes).take netmask ++
        List.replicate (8 * family.size - netmask) false) :
      Same inetPton (.range side addr netmask) (.range side (family = .inet6) address mask)

section Serializing

variable {inetPton : Family → Text → Option Bytes} {filter : Filter} {subs : List Filter}

/-- The message is the encoding of a tree, and the parser makes the same filter of it. -/
def Encodes (inetPton : Family → Text → Option Bytes) (filter : Filter) : Prop :=
  ∃ tree : FilterTree, filter.serialize inetPton = some tree.encode ∧ tree.Legal ∧
    ∀ store, Same inetPton filter (compile tree store)

theorem encodes_all (encodes : ∀ sub ∈ subs, Encodes inetPton sub) :
    ∃ trees : List FilterTree, serializeAll inetPton subs = some (FilterTree.encodeAll trees) ∧
      trees.length = subs.length ∧ (∀ tree ∈ trees, tree.Legal) ∧
      ∀ store, List.Forall₂ (Same inetPton) subs (compileAll trees store) := by
  induction subs with
  | nil => exact ⟨[], rfl, rfl, forall_mem_nil _, fun _ => .nil⟩
  | cons sub subs ih =>
    obtain ⟨here, others⟩ := forall_mem_cons.mp encodes
    obtain ⟨tree, written, legal, same⟩ := here
    obtain ⟨trees, rest, length, legals, alike⟩ := ih others
    refine ⟨tree :: trees, ?_, ?_, forall_mem_cons.mpr ⟨legal, legals⟩, ?_⟩
    · rw [serializeAll, written, rest]
      rfl
    · rw [length_cons, length_cons, length]
    · intro store
      exact .cons (same store) (alike _)

theorem packInt_length {length : Nat} (few : length < 2 ^ 32) :
    packInt length = some (word32 length) := by
  rw [packInt, if_pos ⟨by omega, by exact_mod_cast few⟩, Int.toNat_natCast]

theorem convert_size (sizes : ∀ family text bytes, inetPton family text = some bytes →
      bytes.length = family.size) {addr bytes : Bytes} {family : Family}
    (known : convert inetPton addr = some (family, bytes)) : bytes.length = family.size := by
  unfold convert at known
  split at known
  · next found =>
      cases known
      exact sizes _ _ _ found
  · obtain ⟨found, resolved, same⟩ := map_eq_some_iff.mp known
    cases same
    exact sizes _ _ _ resolved

/-- The addresses of a list are written one after another. -/
theorem mapM_encodeIp (sizes : ∀ family text bytes, inetPton family text = some bytes →
      bytes.length = family.size) {ips : List Bytes}
    (known : ∀ ip ∈ ips, (convert inetPton ip).isSome) :
    ∃ list : List Bytes, ips.mapM (encodeIp inetPton) =
        some (list.map fun address => address.length.toUInt8 :: address) ∧
      (∀ address ∈ list, address.length = 4 ∨ address.length = 16) ∧
      List.Forall₂ (fun ip key => (convert inetPton ip).map Prod.snd = some key) ips list := by
  induction ips with
  | nil => exact ⟨[], rfl, forall_mem_nil _, .nil⟩
  | cons ip ips ih =>
    obtain ⟨here, others⟩ := forall_mem_cons.mp known
    obtain ⟨list, written, legal, same⟩ := ih others
    obtain ⟨⟨family, bytes⟩, found⟩ := isSome_iff_exists.mp here
    have size := convert_size sizes found
    have first : encodeIp inetPton ip = some (bytes.length.toUInt8 :: bytes) := by
      rw [encodeIp, found, size]
      cases family <;> rfl
    refine ⟨bytes :: list, ?_, ?_, .cons ?_ same⟩
    · rw [mapM_cons, first, written]
      rfl
    · refine forall_mem_cons.mpr ⟨?_, legal⟩
      rw [size]
      cases family
      · exact Or.inl rfl
      · exact Or.inr rfl
    · rw [found]
      rfl

theorem mapM_packShort {list : List Int} (small : ∀ port ∈ list, 0 ≤ port ∧ port < 2 ^ 16) :
    list.mapM packShort = some ((list.map fun port => UInt16.ofNat port.toNat).map fun port =>
      word16 port.toNat) := by
  induction list with
  | nil => rfl
  | cons port list ih =>
    obtain ⟨here, others⟩ := forall_mem_cons.mp small
    have value : (UInt16.ofNat port.toNat).toNat = port.toNat := by
      rw [UInt16.toNat_ofNat', Nat.mod_eq_of_lt (by omega)]
    rw [mapM_cons, packShort, if_pos here, ih others]
    simp only [map_cons, value]
    rfl

/-- The ports of the client are the numbers of the server. -/
theorem forall₂_ports {list : List Int} (small : ∀ port ∈ list, 0 ≤ port ∧ port < 2 ^ 16) :
    List.Forall₂ (fun port key => key.length = 2 ∧ (bigEndian key : Int) = port) list
      ((list.map fun port => UInt16.ofNat port.toNat).map fun port => word16 port.toNat) := by
  induction list with
  | nil => exact .nil
  | cons port list ih =>
    obtain ⟨here, others⟩ := forall_mem_cons.mp small
    refine .cons ⟨rfl, ?_⟩ (ih others)
    have bound : port.toNat < 2 ^ 16 := by omega
    change (bigEndian (word16 (UInt16.ofNat port.toNat).toNat) : Int) = port
    rw [UInt16.toNat_ofNat', Nat.mod_eq_of_lt bound, bigEndian_word16 bound]
    omega

theorem keys_eq {ips list : List Bytes}
    (same : List.Forall₂ (fun ip key => (convert inetPton ip).map Prod.snd = some key) ips list) :
    Filter.keys inetPton ips = list := by
  induction same with
  | nil => rfl
  | @cons ip key ips list head rest ih =>
    rw [Filter.keys, filterMap_cons, head]
    exact congrArg (key :: ·) ih

theorem Filter.Legal.encodes (sizes : ∀ family text bytes, inetPton family text = some bytes →
      bytes.length = family.size) (legal : filter.Legal inetPton) : Encodes inetPton filter := by
  induction legal with
  | constant value =>
    cases value
    · exact ⟨.never, rfl, trivial, fun _ => .constant false⟩
    · exact ⟨.always, rfl, trivial, fun _ => .constant true⟩
  | negation legal ih =>
    obtain ⟨tree, written, legal, same⟩ := ih
    refine ⟨.negation tree, ?_, ⟨trivial, legal⟩, fun store => .negation (same store)⟩
    rw [Filter.serialize, written]
    rfl
  | conjunction legal few ih =>
    obtain ⟨trees, written, length, legals, same⟩ := encodes_all ih
    refine ⟨.conjunction trees, ?_, ⟨?_, (FilterTree.everywhereAll_iff _ _).mpr legals⟩,
      fun store => .conjunction (same store)⟩
    · rw [Filter.serialize, packInt_length few, written, FilterTree.encode, length]
      rfl
    · exact lt_of_eq_of_lt length few
  | disjunction legal few ih =>
    obtain ⟨trees, written, length, legals, same⟩ := encodes_all ih
    refine ⟨.disjunction trees, ?_, ⟨?_, (FilterTree.everywhereAll_iff _ _).mpr legals⟩,
      fun store => .disjunction (same store)⟩
    · rw [Filter.serialize, packInt_length few, written, FilterTree.encode, length]
      rfl
    · exact lt_of_eq_of_lt length few
  | addresses side few known uncut =>
    obtain ⟨list, written, legal, same⟩ := mapM_encodeIp sizes fun ip member =>
      (known ip member).2
    have length := same.length_eq
    have indexed : Indexed list := indexed_of_uncut (keys_eq same ▸ uncut)
    refine ⟨.addresses side list, ?_, ⟨length ▸ few, legal⟩,
      fun store => .addresses side same indexed⟩
    rw [Filter.serialize, packInt_length few, written, FilterTree.encode, ← length, flatMap_def]
    cases side <;> rfl
  | @ports side list few small =>
    refine ⟨.ports side (list.map fun port => UInt16.ofNat port.toNat), ?_, ?_,
      fun store => .ports side (forall₂_ports small) (indexed_of_uncut ?_)⟩
    · have count : packShort list.length = some (word16 list.length) := by
        rw [packShort, if_pos ⟨by omega, by exact_mod_cast few⟩, Int.toNat_natCast]
      rw [Filter.serialize, serializePorts, count, mapM_packShort small, FilterTree.encode,
        length_map, flatMap_def]
      cases side <;> rfl
    · rw [FilterTree.Legal, FilterTree.Everywhere, FilterTree.LegalNode, length_map]
      exact few
    · exact @uncut_of_length _ _ 2 (by simp [word16])
  | @differential side name plain zero few =>
    refine ⟨.differential side name [], ?_, few, fun store => ?_⟩
    · rw [Filter.serialize, packInt_length few]
      cases side <;> rfl
    · have whole : cString name = name := by
        rw [cString, takeWhile_eq_self_iff]
        intro byte member
        exact decide_eq_true fun same => zero (same ▸ member)
      rw [compile, whole]
      exact .differential side name store
  | @range side addr bytes family mask free known positive within =>
    lift mask to Nat using le_trans (by decide) positive
    have size := convert_size sizes known
    have few : mask ≤ 8 * family.size := by exact_mod_cast within
    have some' : 0 < mask := by omega
    have byte : mask < 256 := by cases family <;> simp only [Family.size] at few <;> omega
    have width : (if (family = .inet6 : Bool) then 16 else 4) = family.size := by
      cases family <;> rfl
    refine ⟨.range side (family = .inet6) mask (bytes.take ((mask + 7) / 8)), ?_, ?_, ?_⟩
    · rw [Filter.serialize, serializeRange, known]
      simp only [bind_eq_bind, bind_some]
      rw [if_pos ⟨by omega, by exact_mod_cast byte⟩, Int.toNat_natCast, FilterTree.encode]
      cases side <;> cases family <;> rfl
    · refine ⟨some', ?_, ?_⟩
      · cases family <;> exact few
      · rw [length_take, size]
        omega
    · intro store
      rw [compile, width]
      exact .range side known (bits_prefixMask some' few) (bits_prefixAddress some' few size)

end Serializing

section Agreement

variable (inetPton : Family → Text → Option Bytes) (filter : Filter)

/-- The server reads the filter from its text and leaves nothing. -/
def TextAgrees : Prop := parseText filter.str = some (filter, [])

/-- The client makes the same filter of the message and leaves nothing. -/
def WireAgrees : Prop :=
  ∃ wire built nextStore, filter.serialize inetPton = some wire ∧
    parseOne wire.length wire 0 = some ⟨built, [], nextStore⟩ ∧ filterParse wire = some built ∧
    Same inetPton filter built

end Agreement

/-- The text and the message of a filter both stand for the filter. -/
theorem filters_agree (inetPton : Family → Text → Option Bytes) (filter : Filter)
    (sizes : ∀ family text bytes, inetPton family text = some bytes → bytes.length = family.size)
    (empty : ∀ family, inetPton family [] = none) (legal : filter.Legal inetPton) :
    TextAgrees filter ∧ WireAgrees inetPton filter := by
  refine ⟨legal.parseText_str empty, ?_⟩
  obtain ⟨tree, written, sound, same⟩ := legal.encodes sizes
  have parsed := reads_tree tree sound tree.encode.length [] 0 (FilterTree.depth_le_length tree)
  rw [append_nil] at parsed
  exact ⟨tree.encode, compile tree 0, _, written, parsed, filterParse_encode sound, same 0⟩

/-- These are some addresses that the system knows. -/
def sampleTable : List (Family × Text × Bytes) :=
  [(.inet, "10.0.0.0".toList, [10, 0, 0, 0]), (.inet, "32.1.13.184".toList, [32, 1, 13, 184]),
    (.inet6, "2001:db8::1".toList, [32, 1, 13, 184, 0, 0, 0, 0, 0, 0, 0, 0, 0, 0, 0, 1]),
    (.inet6, "2001:db8:ff00::1".toList, [32, 1, 13, 184, 255, 0, 0, 0, 0, 0, 0, 0, 0, 0, 0, 1])]

def sampleAddresses (family : Family) (text : Text) : Option Bytes :=
  (sampleTable.find? fun entry => entry.1 = family ∧ entry.2.1 = text).map fun entry => entry.2.2

def near (addresses : List String) : Filter :=
  .addresses .near (addresses.map fun address => address.toList.map letter)

/-- A filter with nested lists, an empty one among them. -/
def sampleFilter : Filter :=
  .disjunction [.negation [.conjunction []], .ports .near [80, 443],
    near ["32.1.13.184", "2001:db8::1", "2001:db8:ff00::1"], .differential .remote [letter 'x'],
    .range .near ("10.0.0.0".toList.map letter) 12, .constant true]

theorem filters_agree_sample :
    TextAgrees sampleFilter ∧ WireAgrees sampleAddresses sampleFilter := by
  refine filters_agree sampleAddresses sampleFilter ?_ ?_ ?_
  · intro family text bytes found
    obtain ⟨entry, place, rfl⟩ := map_eq_some_iff.mp found
    have sizes : ∀ entry ∈ sampleTable, entry.2.2.length = entry.1.size := by decide
    have same : entry.1 = family ∧ entry.2.1 = text := by simpa using List.find?_some place
    rw [sizes entry (mem_of_find?_eq_some place), same.1]
  · intro family
    cases family <;> rfl
  · refine .disjunction ?_ (by decide)
    simp only [forall_mem_cons]
    refine ⟨.negation (.conjunction (forall_mem_nil _) (by decide)), ?_, ?_, ?_, ?_,
      .constant true, forall_mem_nil _⟩
    · exact .ports .near (by decide) (by decide)
    · refine .addresses .near (by decide) ?_ ⟨fun _ => ?_, fun _ => ?_, fun _ => ?_, trivial⟩
      · unfold Free
        decide +kernel
      all_goals
        apply not_cutsEdge_of_prefix
        decide +kernel
    · refine .differential .remote ⟨by decide, ?_⟩ (by decide) (by decide)
      unfold Free
      decide +kernel
    · refine .range .near ?_ (show convert sampleAddresses _ = some (.inet, [10, 0, 0, 0]) from rfl)
        (by decide) (by decide)
      unfold Free
      decide +kernel

/-- An address ends inside the edge of another one, and the trie stops at the third one. -/
theorem sampleKeys_not_indexed : ¬Indexed
    [[32, 1, 13, 184, 0, 0, 0, 0, 0, 0, 0, 0, 0, 0, 0, 1], [32, 1, 13, 184],
      [32, 1, 13, 184, 255, 0, 0, 0, 0, 0, 0, 0, 0, 0, 0, 1]] := by
  rintro ⟨trie, ran, -⟩
  cases ran

/-- A name without characters is not read back, a zero byte cuts a name off, too many subs are not
serialized, and an address that is a prefix stops the trie. -/
theorem filters_agree_not :
    ¬TextAgrees (.differential .near []) ∧
    ¬WireAgrees sampleAddresses (.differential .near [letter 'x', 0]) ∧
    ¬WireAgrees sampleAddresses (.conjunction (List.replicate (2 ^ 32) (.constant true))) ∧
    ¬WireAgrees sampleAddresses (near ["2001:db8::1", "32.1.13.184", "2001:db8:ff00::1"]) := by
  refine ⟨?_, ?_, ?_, ?_⟩
  · intro agrees
    have none' : parseText (Filter.differential .near []).str = none := rfl
    rw [TextAgrees, none'] at agrees
    cases agrees
  · rintro ⟨wire, built, nextStore, written, _, parsed, same⟩
    have message : (Filter.differential .near [letter 'x', 0]).serialize sampleAddresses =
        some [letter 'd', 0, 0, 0, 2, letter 'x', 0] := rfl
    have cut' : filterParse [letter 'd', 0, 0, 0, 2, letter 'x', 0] =
        some (.differential .near [letter 'x'] 0) := rfl
    rw [message, Option.some.injEq] at written
    rw [← written, cut', Option.some.injEq] at parsed
    rw [← parsed] at same
    cases same
  · rintro ⟨wire, built, nextStore, written, _⟩
    have large : packInt ((List.replicate (2 ^ 32) (Filter.constant true)).length : Nat) = none := by
      rw [length_replicate]
      decide +kernel
    rw [Filter.serialize, large] at written
    cases written
  · rintro ⟨wire, built, nextStore, written, _, parsed, same⟩
    cases same with
    | @addresses _ ips list same indexed =>
      have known := keys_eq same
      have keys : Filter.keys sampleAddresses (["2001:db8::1", "32.1.13.184",
          "2001:db8:ff00::1"].map fun address => address.toList.map letter) =
            [[32, 1, 13, 184, 0, 0, 0, 0, 0, 0, 0, 0, 0, 0, 0, 1], [32, 1, 13, 184],
              [32, 1, 13, 184, 255, 0, 0, 0, 0, 0, 0, 0, 0, 0, 0, 1]] := by decide +kernel
      exact sampleKeys_not_indexed (keys.symm.trans known ▸ indexed)

end Ucollect.Master
