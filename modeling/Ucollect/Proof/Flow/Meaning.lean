import Ucollect.Proof.Flow.Ranges
import Ucollect.Proof.Uplink.Format

/-
This file proves when a parsed filter means what its tree says.
-/

namespace Ucollect.Flow
open Library Core FilterTree List Option

section Parsing

mutual

/-- The parser makes this filter, and its first store is the given one. -/
def compile : FilterTree → Nat → Filter
  | .always, _ => .constant true
  | .never, _ => .constant false
  | .negation child, store => .negation (compile child store)
  | .conjunction children, store => .conjunction (compileAll children store)
  | .disjunction children, store => .disjunction (compileAll children store)
  | .addresses side list, _ => .address side list
  | .ports side list, _ => .port side (list.map fun port => word16 port.toNat)
  | .differential side name _, store => .differential side (cString name) store
  | .range side v6 netmask bytes, _ =>
    .range side v6 (prefixAddress (if v6 then 16 else 4) netmask bytes)
      (prefixMask (if v6 then 16 else 4) netmask)

/-- The children with the stores that they own. -/
def compileAll : List FilterTree → Nat → List Filter
  | [], _ => []
  | child :: children, store =>
    compile child store :: compileAll children (store + child.contents.length)

end

/-- The parser reads the tree and leaves what follows it. -/
def Reads (tree : FilterTree) : Prop :=
  ∀ fuel rest store, tree.depth ≤ fuel →
    parseOne fuel (tree.encode ++ rest) store =
      some ⟨compile tree store, rest, store + tree.contents.length⟩

variable {fuel : Nat} {input : Bytes} {store : Nat}

theorem parseOne_addresses (side : Side) :
    parseOne (fuel + 1) (addressCode side :: input) store =
      leaf (parseAddressMatch side input) store := by
  cases side <;> rfl

theorem parseOne_ports (side : Side) :
    parseOne (fuel + 1) (portCode side :: input) store =
      leaf (parsePortMatch side input) store := by
  cases side <;> rfl

theorem parseOne_differential (side : Side) :
    parseOne (fuel + 1) (differentialCode side :: input) store =
      parseDifferential side input store := by
  cases side <;> rfl

theorem parseOne_range (side : Side) :
    parseOne (fuel + 1) (rangeCode side :: input) store = leaf (parseRange side input) store := by
  cases side <;> rfl

theorem parseAddresses_encode (list : List Bytes) (rest : Bytes)
    (short : ∀ address ∈ list, address.length < 2 ^ 8) :
    parseAddresses list.length
        (list.flatMap (fun address => address.length.toUInt8 :: address) ++ rest) =
      some (list, rest) := by
  induction list with
  | nil => rfl
  | cons address list ih =>
    rw [forall_mem_cons] at short
    have small : address.length.toUInt8.toNat = address.length := by
      rw [Nat.toUInt8_eq, UInt8.toNat_ofNat', Nat.mod_eq_of_lt short.1]
    simp only [flatMap_cons, cons_append, append_assoc, length_cons, parseAddresses, parseByte,
      bind_some, small, cut_append _ rfl,
      ih short.2, map_some]

/-- The lengths of addresses are small. -/
theorem legal_short {list : List Bytes} (legal : ∀ address ∈ list, address.length = 4 ∨ address.length = 16) :
    ∀ address ∈ list, address.length < 2 ^ 8 := by
  intro address member
  rcases legal address member with four | sixteen <;> omega

theorem parsePorts_encode (list : List UInt16) (rest : Bytes) :
    parsePorts list.length (list.flatMap (fun port => word16 port.toNat) ++ rest) =
      some (list.map fun port => word16 port.toNat, rest) := by
  induction list with
  | nil => rfl
  | cons port list ih =>
    have size : (word16 port.toNat).length = 2 := rfl
    simp only [flatMap_cons, append_assoc, length_cons, parsePorts, cut_append _ size, bind_some,
      ih, map_some, map_cons]

theorem parseRange_encode (side : Side) (v6 : Bool) {netmask : Nat} {bytes : Bytes} (rest : Bytes)
    (some' : 0 < netmask) (few : netmask ≤ if v6 then 128 else 32)
    (size : bytes.length = (netmask + 7) / 8) :
    parseRange side ((if v6 then 6 else 4) :: netmask.toUInt8 :: (bytes ++ rest)) =
      some (compile (.range side v6 netmask bytes) store, rest) := by
  have bound : netmask < 256 := by
    cases v6
    · exact lt_of_le_of_lt few (by decide)
    · exact lt_of_le_of_lt few (by decide)
  have small : netmask.toUInt8.toNat = netmask := by
    rw [Nat.toUInt8_eq, UInt8.toNat_ofNat', Nat.mod_eq_of_lt bound]
  have nonzero : netmask.toUInt8 ≠ 0 := by
    intro zero
    rw [zero] at small
    exact absurd small.symm (Nat.pos_iff_ne_zero.mp some')
  have enough : ¬ ((if v6 then 6 else 4) :: netmask.toUInt8 :: (bytes ++ rest)).length < 2 := by
    simp only [length_cons]
    omega
  have family : (((if v6 then 6 else 4) : UInt8) == 6) = v6 := by
    cases v6 <;> rfl
  have fits : ¬ (if v6 then 16 else 4) < (netmask + 7) / 8 := by
    cases v6
    · simp only [Bool.false_eq_true, if_false] at few ⊢
      omega
    · simp only [if_true] at few ⊢
      omega
  rw [parseRange, if_neg enough]
  simp only [parseByte, bind_some, family, small, if_neg fits, cut_append rest size, if_neg nonzero,
    compile]

/-- The children are read one after another. -/
theorem parseSubs_encode {children : List FilterTree} (reads : ∀ child ∈ children, Reads child)
    (rest : Bytes) (enough : allDepth children ≤ fuel) :
    parseSubs (parseOne fuel) children.length (encodeAll children ++ rest) store =
      some ⟨compileAll children store, rest, store + (allContents children).length⟩ := by
  induction children generalizing store with
  | nil => rfl
  | cons child children ih =>
    rw [forall_mem_cons] at reads
    rw [allDepth] at enough
    have first := reads.1 fuel (encodeAll children ++ rest) store
      (le_trans (Nat.le_max_left _ _) enough)
    have others := @ih (store + child.contents.length) reads.2
      (le_trans (Nat.le_max_right _ _) enough)
    rw [encodeAll, append_assoc, length_cons, parseSubs, first, bind_some, others, map_some,
      compileAll, allContents, length_append, Nat.add_assoc]

/-- Every legal tree reads back as its compiled form. -/
theorem reads_tree (tree : FilterTree) (legal : tree.Legal) : Reads tree := by
  induction tree using tree_induction with
  | always =>
    intro fuel rest store enough
    obtain ⟨fuel, rfl⟩ := succ_of_depth enough
    rfl
  | never =>
    intro fuel rest store enough
    obtain ⟨fuel, rfl⟩ := succ_of_depth enough
    rfl
  | negation child ih =>
    intro fuel rest store enough
    obtain ⟨fuel, rfl⟩ := succ_of_depth enough
    have sub := ih legal.2 fuel rest store (Nat.le_of_succ_le_succ enough)
    change (parseOne fuel (child.encode ++ rest) store).map _ = _
    rw [sub]
    rfl
  | conjunction children ih =>
    intro fuel rest store enough
    obtain ⟨fuel, rfl⟩ := succ_of_depth enough
    have every := (everywhereAll_iff LegalNode children).mp legal.2
    have subs := @parseSubs_encode fuel store children
      (fun child member => ih child member (every child member)) rest
      (Nat.le_of_succ_le_succ enough)
    change parseManySubs (parseOne fuel) .conjunction
      (word32 children.length ++ encodeAll children ++ rest) store = _
    rw [parseManySubs, append_assoc, readWord32_append _ legal.1]
    simp only [bind_some, subs, map_some]
    rfl
  | disjunction children ih =>
    intro fuel rest store enough
    obtain ⟨fuel, rfl⟩ := succ_of_depth enough
    have every := (everywhereAll_iff LegalNode children).mp legal.2
    have subs := @parseSubs_encode fuel store children
      (fun child member => ih child member (every child member)) rest
      (Nat.le_of_succ_le_succ enough)
    change parseManySubs (parseOne fuel) .disjunction
      (word32 children.length ++ encodeAll children ++ rest) store = _
    rw [parseManySubs, append_assoc, readWord32_append _ legal.1]
    simp only [bind_some, subs, map_some]
    rfl
  | addresses side list =>
    intro fuel rest store enough
    obtain ⟨fuel, rfl⟩ := succ_of_depth enough
    rw [encode, cons_append, parseOne_addresses, parseAddressMatch, append_assoc,
      readWord32_append _ legal.1]
    simp only [bind_some, parseAddresses_encode list rest (legal_short legal.2), map_some]
    rfl
  | ports side list =>
    intro fuel rest store enough
    obtain ⟨fuel, rfl⟩ := succ_of_depth enough
    have size : (word16 list.length).length = 2 := rfl
    rw [encode, cons_append, parseOne_ports, parsePortMatch, append_assoc, cut_append _ size]
    simp only [bind_some, bigEndian_word16 legal, parsePorts_encode list rest, map_some]
    rfl
  | differential side name content =>
    intro fuel rest store enough
    obtain ⟨fuel, rfl⟩ := succ_of_depth enough
    have parsed := uplinkParseString_append rest legal
    rw [encode, cons_append, parseOne_differential, parseDifferential]
    change ((uplinkParseString (renderString name ++ rest)).map _) = _
    rw [parsed]
    rfl
  | range side v6 netmask bytes =>
    intro fuel rest store enough
    obtain ⟨fuel, rfl⟩ := succ_of_depth enough
    have parsed := @parseRange_encode store side v6 netmask bytes rest legal.1 legal.2.1
      legal.2.2
    rw [encode, cons_append, parseOne_range, cons_append, cons_append, parsed]
    rfl

end Parsing

section Evaluation

variable {order : ByteOrder} {packet : Packet}

/-- Two ports with the same bytes are one. -/
theorem word16_injective {first second : UInt16}
    (same : word16 first.toNat = word16 second.toNat) : first = second := by
  apply UInt16.toNat_inj.mp
  rw [← bigEndian_word16 first.toNat_lt, ← bigEndian_word16 second.toNat_lt, same]

/-- This number is looked up in a list of ports. -/
def ByteOrder.seen (order : ByteOrder) (port : UInt16) : UInt16 :=
  match order with
  | .little => swap port
  | .big => port

theorem bytes_eq_seen (port : UInt16) : order.bytes port = word16 (order.seen port).toNat := by
  cases order with
  | little => exact reverse_word16 port
  | big => rfl

theorem contains_ports (list : List UInt16) (port : UInt16) :
    (list.map fun port => word16 port.toNat).contains (order.bytes port) =
      list.contains (order.seen port) := by
  rw [bytes_eq_seen, Bool.eq_iff_iff, contains_iff_mem, contains_iff_mem, List.mem_map]
  constructor
  · rintro ⟨other, member, same⟩
    exact word16_injective same ▸ member
  · intro member
    exact ⟨_, member, rfl⟩

/-- A list of ports has each port in both orders of its bytes. -/
def SwapClosed (list : List UInt16) : Prop := ∀ port ∈ list, swap port ∈ list

def ClosedNode : FilterTree → Prop
  | .ports _ list => SwapClosed list
  | _ => True

theorem contains_seen {list : List UInt16} (sound : order = .big ∨ SwapClosed list)
    (port : UInt16) : list.contains (order.seen port) = list.contains port := by
  cases order with
  | big => rfl
  | little =>
    have closed := sound.resolve_left (by decide)
    rw [ByteOrder.seen, Bool.eq_iff_iff, contains_iff_mem, contains_iff_mem]
    constructor
    · intro member
      exact swap_swap port ▸ closed _ member
    · exact closed port

theorem endpoint_eq_some {A : Type} (known : packet.direction ≠ .unknown) (side : Side)
    (ends : Ends A) : ∃ value, side.endpoint packet.direction ends = some value := by
  cases side <;> cases direction : packet.direction
  all_goals first
    | exact ⟨_, rfl⟩
    | exact absurd direction known

/-- The contents stand in the memory from the store on. -/
def Holds (heap : Stores) (store : Nat) (contents : List (List Bytes)) : Prop :=
  ∀ index content, contents[index]? = some content → heap (store + index) = content

theorem holds_append {heap : Stores} {store : Nat} {first second : List (List Bytes)}
    (holds : Holds heap store (first ++ second)) :
    Holds heap store first ∧ Holds heap (store + first.length) second := by
  constructor
  · intro index content found
    apply holds index content
    rw [List.getElem?_append_left (List.getElem?_eq_some_iff.mp found).1, found]
  · intro index content found
    rw [Nat.add_assoc]
    apply holds (first.length + index) content
    rw [List.getElem?_append_right (Nat.le_add_right _ _), Nat.add_sub_cancel_left, found]

/-- The filter has the value of its tree in a memory with the contents of the tree. -/
def Evaluates (order : ByteOrder) (packet : Packet) (tree : FilterTree) : Prop :=
  ∀ heap store, Holds heap store tree.contents →
    (compile tree store).apply order heap packet = some (tree.value packet)

/-- A conjunction means that all its children hold. -/
theorem applyAnd_compileAll {children : List FilterTree}
    (evaluates : ∀ child ∈ children, Evaluates order packet child) (heap : Stores) (store : Nat)
    (holds : Holds heap store (allContents children)) :
    applyAnd order heap packet (compileAll children store) = some (allValues packet children) := by
  induction children generalizing store with
  | nil => rfl
  | cons child children ih =>
    rw [forall_mem_cons] at evaluates
    obtain ⟨here, rest⟩ := holds_append holds
    rw [compileAll, applyAnd, evaluates.1 heap store here, bind_some, ih evaluates.2 _ rest,
      allValues]
    cases child.value packet <;> rfl

/-- A disjunction means that one of them does. -/
theorem applyOr_compileAll {children : List FilterTree}
    (evaluates : ∀ child ∈ children, Evaluates order packet child) (heap : Stores) (store : Nat)
    (holds : Holds heap store (allContents children)) :
    applyOr order heap packet (compileAll children store) = some (anyValue packet children) := by
  induction children generalizing store with
  | nil => rfl
  | cons child children ih =>
    rw [forall_mem_cons] at evaluates
    obtain ⟨here, rest⟩ := holds_append holds
    rw [compileAll, applyOr, evaluates.1 heap store here, bind_some, ih evaluates.2 _ rest,
      anyValue]
    cases child.value packet <;> rfl

theorem endpoint_length {packet : Packet} {side : Side} {address : Bytes} {v6 : Bool}
    (found : side.endpoint packet.direction packet.addresses = some address)
    (version : packet.ipProtocol = if v6 then 6 else 4) :
    address.length = if v6 then 16 else 4 := by
  have either : address = packet.addresses.src ∨ address = packet.addresses.dst := by
    cases side <;> cases direction : packet.direction <;> rw [direction] at found <;> cases found
    all_goals first
      | exact .inl rfl
      | exact .inr rfl
  cases v6 with
  | true =>
    rcases packet.family with ⟨four, _⟩ | ⟨_, src, dst⟩
    · rw [four] at version
      cases version
    · rcases either with rfl | rfl
      · exact src
      · exact dst
  | false =>
    rcases packet.family with ⟨_, src, dst⟩ | ⟨six, _⟩
    · rcases either with rfl | rfl
      · exact src
      · exact dst
    · rw [six] at version
      cases version

/-- A legal tree is evaluated as it means. -/
theorem evaluates_tree (known : packet.direction ≠ .unknown) (tree : FilterTree)
    (legal : tree.Legal) (sound : order = .big ∨ tree.Everywhere ClosedNode) :
    Evaluates order packet tree := by
  induction tree using tree_induction with
  | always => exact fun _ _ _ => rfl
  | never => exact fun _ _ _ => rfl
  | negation child ih =>
    intro heap store holds
    have sub := ih legal.2 (sound.imp_right And.right) heap store holds
    change ((compile child store).apply order heap packet).map _ = _
    rw [sub]
    rfl
  | conjunction children ih =>
    intro heap store holds
    have every := (everywhereAll_iff LegalNode children).mp legal.2
    apply applyAnd_compileAll (fun child member => ?_) heap store holds
    exact ih child member (every child member)
      (sound.imp_right fun closed => (everywhereAll_iff ClosedNode children).mp closed.2 child member)
  | disjunction children ih =>
    intro heap store holds
    have every := (everywhereAll_iff LegalNode children).mp legal.2
    apply applyOr_compileAll (fun child member => ?_) heap store holds
    exact ih child member (every child member)
      (sound.imp_right fun closed => (everywhereAll_iff ClosedNode children).mp closed.2 child member)
  | addresses side list =>
    intro heap store holds
    obtain ⟨address, found⟩ := endpoint_eq_some known side packet.addresses
    simp only [compile, Filter.apply, filterAddress, value, atEndpoint, found, map_some, elim_some]
  | ports side list =>
    intro heap store holds
    obtain ⟨port, found⟩ := endpoint_eq_some known side packet.ports
    simp only [compile, Filter.apply, filterPort, value, atEndpoint, found, map_some, elim_some,
      contains_ports, contains_seen sound]
  | differential side name content =>
    intro heap store holds
    have filled : heap store = content := holds 0 content rfl
    change some (filterDifferential order heap packet side store) = _
    cases side <;> cases direction : packet.direction
    all_goals first
      | exact absurd direction known
      | simp only [filterDifferential, value, atEndpoint, Side.endpoint, direction, filled,
          bytes_htons, elim_some]
  | range side v6 netmask bytes =>
    intro heap store holds
    obtain ⟨address, found⟩ := endpoint_eq_some known side packet.addresses
    simp only [compile, Filter.apply, filterRange, value, atEndpoint, found, elim_some]
    by_cases version : packet.ipProtocol = if v6 then 6 else 4
    · have length := endpoint_length found version
      have few : netmask ≤ 8 * (if v6 then 16 else 4) := by
        have bound := legal.2.1
        cases v6 <;> exact bound
      rw [matchesMasked_eq length legal.1 few legal.2.2]
    · have other : (packet.ipProtocol == if v6 then 6 else 4) = false := by simpa using version
      rw [other, Bool.false_and, Bool.false_and]

end Evaluation

variable {tree : FilterTree}

/-- A legal filter is accepted. -/
theorem filterParse_encode (legal : tree.Legal) :
    filterParse tree.encode = some (compile tree 0) := by
  have parsed := reads_tree tree legal tree.encode.length [] 0 (depth_le_length tree)
  have some' := le_trans (depth_pos tree) (depth_le_length tree)
  rw [append_nil] at parsed
  unfold filterParse
  split
  · next empty =>
      rw [empty] at some'
      cases some'
  · rw [parsed]
    rfl

theorem holds_stores (tree : FilterTree) : Holds tree.stores 0 tree.contents := by
  intro index content found
  rw [Nat.zero_add, stores, found]
  rfl

/-- The parsed encoding of the tree has the documented value on each packet. -/
def Meaning (order : ByteOrder) (tree : FilterTree) : Prop :=
  ∀ packet : Packet, packet.direction ≠ .unknown → ∃ filter, filterParse tree.encode = some filter ∧
    filter.apply order tree.stores packet = some (tree.value packet)

/-- This packet has the same port at both ends. -/
def probe (port : UInt16) : Packet where
  ipProtocol := 4
  appProtocol := letter 'T'
  direction := .outgoing
  addresses := ⟨[10, 0, 0, 1], [10, 0, 0, 2]⟩
  ports := ⟨port, port⟩
  length := 40
  tcpFlags := 0
  family := .inl ⟨rfl, rfl, rfl⟩

theorem endpoint_probe (side : Side) (port : UInt16) :
    side.endpoint (probe port).direction (probe port).ports = some port := by
  cases side <;> rfl

/-- A tree whose ports survive the byte order has its meaning. -/
theorem meaning_of_sound {order : ByteOrder} (legal : tree.Legal)
    (sound : order = .big ∨ tree.Everywhere ClosedNode) : Meaning order tree := by
  intro packet known
  exact ⟨_, filterParse_encode legal,
    evaluates_tree known tree legal sound tree.stores 0 (holds_stores tree)⟩

/-- A list of ports that keeps its meaning on a little endian host is closed. -/
theorem swapClosed_of_meaning {side : Side} {list : List UInt16}
    (legal : (FilterTree.ports side list).Legal) (meaning : Meaning .little (.ports side list)) :
    SwapClosed list := by
  intro port member
  obtain ⟨filter, parsed, applied⟩ := meaning (probe (swap port)) nofun
  rw [filterParse_encode legal] at parsed
  cases parsed
  simp only [compile, Filter.apply, filterPort, value, atEndpoint, endpoint_probe, map_some,
    elim_some, contains_ports, ByteOrder.seen, swap_swap, Option.some.injEq] at applied
  rw [contains_iff_mem.mpr member] at applied
  exact contains_iff_mem.mp applied.symm

theorem closedNode_of_meaning (legal : tree.Legal) (meaning : Meaning .little tree) :
    ClosedNode tree := by
  cases tree with
  | ports side list => exact swapClosed_of_meaning legal meaning
  | always => trivial
  | never => trivial
  | negation child => trivial
  | conjunction children => trivial
  | disjunction children => trivial
  | addresses side list => trivial
  | differential side name content => trivial
  | range side v6 netmask bytes => trivial

/-- A tree and the trees inside mean what they say exactly when no list of ports is looked up in
the wrong order of bytes. -/
theorem meaning_everywhere_iff (order : ByteOrder) (tree : FilterTree) (legal : tree.Legal) :
    tree.Everywhere (Meaning order) ↔ order = .big ∨ tree.Everywhere ClosedNode := by
  constructor
  · intro meaning
    cases order with
    | big => exact .inl rfl
    | little =>
      right
      apply Everywhere.derive _ legal meaning
      intro sub legal meaning
      exact closedNode_of_meaning legal meaning.here
  · rintro (big | closed)
    · exact legal.derive (fun sub legal _ => meaning_of_sound legal (.inl big)) legal
    · exact legal.derive (fun sub legal closed => meaning_of_sound legal (.inr closed)) closed

/-- A filter with a range, an address and a port whose bytes are equal. -/
def sampleTree : FilterTree :=
  .conjunction [.range .remote false 12 [10, 0], .negation (.addresses .near [[10, 0, 0, 9]]),
    .disjunction [.ports .near [0x0101], .differential .remote [letter 'x'] [[10, 0, 0, 2]]]]

theorem legal_sampleTree : sampleTree.Legal := by
  simp [sampleTree, FilterTree.Legal, Everywhere, EverywhereAll, LegalNode]

theorem meaning_sampleTree : sampleTree.Legal ∧ sampleTree.Everywhere (Meaning .little) := by
  refine ⟨legal_sampleTree, (meaning_everywhere_iff .little sampleTree legal_sampleTree).mpr ?_⟩
  right
  simp [sampleTree, Everywhere, EverywhereAll, ClosedNode, SwapClosed, swap]

theorem port80_applied :
    (filterParse (FilterTree.ports .remote [80]).encode).bind
        (fun filter => filter.apply .little (FilterTree.ports .remote [80]).stores (probe 80)) =
      some false := by
  decide +kernel

/-- A little endian host looks for port 80 and does not match a packet of it. -/
theorem port80_not_matched : (FilterTree.ports .remote [80]).Legal ∧
    (FilterTree.ports .remote [80]).value (probe 80) = true ∧
    ¬ Meaning .little (.ports .remote [80]) := by
  have legal : (FilterTree.ports .remote [80]).Legal := show [(80 : UInt16)].length < 2 ^ 16 by decide
  refine ⟨legal, by decide +kernel, ?_⟩
  intro meaning
  obtain ⟨filter, parsed, applied⟩ := meaning (probe 80) nofun
  have mismatch := port80_applied
  rw [parsed, bind_some, applied] at mismatch
  exact absurd mismatch (by decide +kernel)

end Ucollect.Flow
