import Mathlib.Data.UInt
import Ucollect.Construction.Flow.Collector
import Ucollect.Proof.Flow.Meaning
import Ucollect.Proof.Trie.Refinement

/-
This file proves that the key of a flow stands for the identity of the flow.
-/

namespace Ucollect.Flow
open Library Core List Option Function

/-- Two packets belong together when they agree on all of this. -/
structure Identity where
  ipProtocol : Nat
  appProtocol : UInt8
  addresses : Option (Pair Bytes)
  ports : Option (Pair UInt16)
  deriving DecidableEq, Repr

/-- What two packets of one flow share. -/
def identity (packet : Packet) : Identity where
  ipProtocol := packet.ipProtocol
  appProtocol := packet.appProtocol
  addresses := packet.localRemote packet.addresses
  ports := packet.localRemote packet.ports

/-- The keys of one version have one length. -/
def FlowKey (key : Key) : Prop :=
  key.head? = some 4 ∧ key.length = 14 ∨ key.head? = some 6 ∧ key.length = 38

variable {order : ByteOrder} {packet other : Packet} {key : Key}

theorem localRemote_eq_some {A : Type} (known : packet.direction ≠ .unknown) (ends : Ends A) :
    ∃ near remote, packet.localRemote ends = some ⟨near, remote⟩ ∧
      (near = ends.src ∧ remote = ends.dst ∨ near = ends.dst ∧ remote = ends.src) := by
  cases direction : packet.direction with
  | incoming => exact ⟨ends.dst, ends.src, by rw [Packet.localRemote, direction]; rfl, .inr ⟨rfl, rfl⟩⟩
  | outgoing => exact ⟨ends.src, ends.dst, by rw [Packet.localRemote, direction]; rfl, .inl ⟨rfl, rfl⟩⟩
  | unknown => exact absurd direction known

theorem addressLength (packet : Packet) :
    (if packet.ipProtocol = 4 then 4 else 16) = packet.addresses.src.length ∧
      (if packet.ipProtocol = 4 then 4 else 16) = packet.addresses.dst.length := by
  rcases packet.family with ⟨four, src, dst⟩ | ⟨six, src, dst⟩
  · rw [four, src, dst]
    decide
  · rw [six, src, dst]
    decide

/-- The parts of a key are the parts of the identity. -/
structure KeyParts (order : ByteOrder) (packet : Packet) (key : Key) (addresses : Pair Bytes)
    (ports : Pair UInt16) : Prop where
  rendered : flowKey order packet = .ok key
  endAddresses : packet.localRemote packet.addresses = some addresses
  endPorts : packet.localRemote packet.ports = some ports
  nearLength : addresses.first.length = if packet.ipProtocol = 4 then 4 else 16
  remoteLength : addresses.second.length = if packet.ipProtocol = 4 then 4 else 16
  eq : key = packet.ipProtocol.toUInt8 :: packet.appProtocol ::
    (addresses.first ++ addresses.second ++ order.bytes ports.first ++ order.bytes ports.second)

/-- A known packet has a key of a known shape. -/
theorem keyParts (order : ByteOrder) (known : packet.direction ≠ .unknown) :
    ∃ key addresses ports, KeyParts order packet key addresses ports := by
  obtain ⟨near, remote, addresses, either⟩ := localRemote_eq_some known packet.addresses
  obtain ⟨nearPort, remotePort, ports, -⟩ := localRemote_eq_some known packet.ports
  obtain ⟨src, dst⟩ := addressLength packet
  refine ⟨_, ⟨near, remote⟩, ⟨nearPort, remotePort⟩, ?_, addresses, ports, ?_, ?_, rfl⟩
  · rw [flowKey, if_neg (not_not_intro (addressLength packet)), addresses, ports]
  · rcases either with ⟨rfl, -⟩ | ⟨rfl, -⟩
    · exact src.symm
    · exact dst.symm
  · rcases either with ⟨-, rfl⟩ | ⟨-, rfl⟩
    · exact dst.symm
    · exact src.symm

theorem bytes_length (port : UInt16) : (order.bytes port).length = 2 := by
  cases order <;> rfl

/-- The bytes of a port determine it. -/
theorem bytes_injective {first second : UInt16} (same : order.bytes first = order.bytes second) :
    first = second := by
  cases order with
  | little => exact word16_injective (reverse_injective same)
  | big => exact word16_injective same

section

variable (rendered : flowKey order packet = .ok key)
include rendered

theorem flowKey_known : packet.direction ≠ .unknown := by
  intro unknown
  rw [flowKey, if_neg (not_not_intro (addressLength packet)), Packet.localRemote, unknown]
    at rendered
  cases rendered

theorem flowKey_parts : ∃ addresses ports, KeyParts order packet key addresses ports := by
  obtain ⟨found, addresses, ports, parts⟩ := keyParts order (flowKey_known rendered)
  obtain rfl := Except.ok.inj (parts.rendered.symm.trans rendered)
  exact ⟨addresses, ports, parts⟩

theorem flowKey_shape : FlowKey key := by
  obtain ⟨addresses, ports, parts⟩ := flowKey_parts rendered
  have near := parts.nearLength
  have remote := parts.remoteLength
  rw [parts.eq]
  rcases packet.family with ⟨four, -⟩ | ⟨six, -⟩
  · rw [four, if_pos rfl] at near remote
    left
    simp only [four, List.head?_cons, length_cons, length_append, near, remote, bytes_length]
    decide
  · rw [six, if_neg (by decide)] at near remote
    right
    simp only [six, List.head?_cons, length_cons, length_append, near, remote, bytes_length]
    decide

end

/-- The version in the first byte fixes the length of the addresses. -/
theorem ipProtocol_injective (same : packet.ipProtocol.toUInt8 = other.ipProtocol.toUInt8) :
    packet.ipProtocol = other.ipProtocol := by
  rcases packet.family with ⟨first, -⟩ | ⟨first, -⟩ <;>
    rcases other.family with ⟨second, -⟩ | ⟨second, -⟩ <;> rw [first, second] at same ⊢
  · cases same
  · cases same

/-- Two packets have the same key exactly when they have the same identity. -/
theorem flowKey_eq_iff {otherKey : Key} (rendered : flowKey order packet = .ok key)
    (otherRendered : flowKey order other = .ok otherKey) :
    key = otherKey ↔ identity packet = identity other := by
  obtain ⟨addresses, ports, parts⟩ := flowKey_parts rendered
  obtain ⟨otherAddresses, otherPorts, otherParts⟩ := flowKey_parts otherRendered
  simp only [identity, Identity.mk.injEq, parts.endAddresses, parts.endPorts,
    otherParts.endAddresses, otherParts.endPorts, Option.some.injEq]
  constructor
  · intro same
    rw [parts.eq, otherParts.eq, List.cons.injEq, List.cons.injEq] at same
    obtain ⟨version, protocol, rest⟩ := same
    have versions := ipProtocol_injective version
    have nearSize : addresses.first.length = otherAddresses.first.length := by
      rw [parts.nearLength, otherParts.nearLength, versions]
    have remoteSize : addresses.second.length = otherAddresses.second.length := by
      rw [parts.remoteLength, otherParts.remoteLength, versions]
    rw [append_assoc, append_assoc, append_assoc, append_assoc] at rest
    obtain ⟨near, rest⟩ := append_inj rest nearSize
    obtain ⟨remote, rest⟩ := append_inj rest remoteSize
    obtain ⟨nearPort, remotePort⟩ := append_inj rest (by rw [bytes_length, bytes_length])
    refine ⟨versions, protocol, ?_, ?_⟩
    · cases addresses
      cases otherAddresses
      simp only at near remote
      rw [near, remote]
    · cases ports
      cases otherPorts
      simp only at nearPort remotePort
      rw [bytes_injective nearPort, bytes_injective remotePort]
  · rintro ⟨version, protocol, rfl, rfl⟩
    rw [parts.eq, otherParts.eq, version, protocol]

/-- No key of a flow continues another one. -/
theorem FlowKey.not_cutsEdge {keys : List Key} (shaped : ∀ key ∈ keys, FlowKey key)
    (shape : FlowKey key) : ¬ CutsEdge keys key := by
  apply not_cutsEdge_of_prefix
  intro longer member continued
  have longerShape := shaped longer member
  have sizes : longer.length = key.length := by
    obtain ⟨tail, rfl⟩ := continued
    have head : (key ++ tail).head? = key.head? := by
      rcases shape with ⟨first, -⟩ | ⟨first, -⟩ <;> rw [List.head?_append, first, some_or]
    rw [FlowKey, head] at longerShape
    rcases shape with ⟨first, size⟩ | ⟨first, size⟩ <;> rw [first] at longerShape <;>
      rcases longerShape with ⟨same, other⟩ | ⟨same, other⟩ <;> first
        | exact absurd same (by decide)
        | rw [size, other]
  exact (continued.eq_of_length sizes.symm).symm

end Ucollect.Flow

/-
This file proves that the table of flows counts a group of packets.
-/

namespace Ucollect.Flow
open Library Core List Option Function

/-- A packet comes at some time. -/
structure Arrival where
  now : Nat
  packet : Packet

/-- These packets of the group have the key. -/
def own (order : ByteOrder) (key : Key) (group : List Arrival) : List Arrival :=
  group.filter fun arrival => (flowKey order arrival.packet).toOption = some key

def heading (direction : Direction) (group : List Arrival) : List Arrival :=
  group.filter fun arrival => arrival.packet.direction = direction

def Record.SameEnds (record other : Record) : Prop :=
  record.ports = other.ports ∧ record.addrs = other.addrs ∧ record.v6 = other.v6 ∧
    record.udp = other.udp

/-- The record counts these packets, each one once, with its length and its direction. -/
structure Accounts (record : Record) (packets : List Arrival) : Prop where
  count : ∀ direction, direction ≠ .unknown →
    record.count.at direction = UInt32.ofNat (heading direction packets).length
  size : ∀ direction, direction ≠ .unknown → record.size.at direction =
    ((heading direction packets).map fun arrival => UInt64.ofNat arrival.packet.length).sum
  starts : ∀ direction, direction ≠ .unknown → record.seenFlowStart.at direction =
    (heading direction packets).any fun arrival => opensFlow arrival.packet
  ends : ∀ arrival ∈ packets, ∃ first, flowParse arrival.packet = some first ∧ record.SameEnds first

section Accounting

variable {A : Type} {order : ByteOrder} {packet : Packet} {record first : Record}
  {group : List Arrival} {direction other : Direction}

theorem Pair.at_change_self (pair : Pair A) (value : A → A) (known : direction ≠ .unknown) :
    (pair.change direction value).at direction = value (pair.at direction) := by
  cases direction with
  | incoming => rfl
  | outgoing => rfl
  | unknown => exact absurd rfl known

theorem Pair.at_change_other (pair : Pair A) (value : A → A) (known : other ≠ .unknown)
    (different : direction ≠ other) : (pair.change direction value).at other = pair.at other := by
  cases direction <;> cases other
  all_goals first
    | rfl
    | exact absurd rfl different
    | exact absurd rfl known

theorem heading_append (direction : Direction) (group : List Arrival) (arrival : Arrival) :
    heading direction (group ++ [arrival]) = heading direction group ++
      if arrival.packet.direction = direction then [arrival] else [] := by
  rw [heading, filter_append, ← heading, filter_singleton, Bool.cond_decide]

theorem own_append (order : ByteOrder) (key : Key) (group : List Arrival) (arrival : Arrival) :
    own order key (group ++ [arrival]) = own order key group ++
      if (flowKey order arrival.packet).toOption = some key then [arrival] else [] := by
  rw [own, filter_append, ← own, filter_singleton, Bool.cond_decide]

/-- A new packet of the flow is counted once more. -/
theorem Accounts.add (accounts : Accounts record group) {now : Nat}
    (known : packet.direction ≠ .unknown) (parsed : flowParse packet = some first)
    (same : record.SameEnds first) :
    Accounts (record.add now packet) (group ++ [⟨now, packet⟩]) where
  count direction known' := by
    rw [heading_append, Record.add]
    split
    case isTrue heads =>
      subst heads
      rw [Pair.at_change_self _ _ known, accounts.count _ known, length_append, UInt32.ofNat_add]
      rfl
    case isFalse different =>
      rw [Pair.at_change_other _ _ known' different, accounts.count _ known', append_nil]
  size direction known' := by
    rw [heading_append, Record.add]
    split
    case isTrue heads =>
      subst heads
      rw [Pair.at_change_self _ _ known, accounts.size _ known, map_append, sum_append,
        map_singleton, sum_singleton]
    case isFalse different =>
      rw [Pair.at_change_other _ _ known' different, accounts.size _ known', append_nil]
  starts direction known' := by
    rw [heading_append, Record.add]
    split
    case isTrue heads =>
      subst heads
      rw [Pair.at_change_self _ _ known, accounts.starts _ known, any_append, any_cons, any_nil,
        Bool.or_false]
    case isFalse different =>
      rw [Pair.at_change_other _ _ known' different, accounts.starts _ known', append_nil]
  ends arrival member := by
    rcases mem_append.mp member with old | new
    · exact accounts.ends arrival old
    · obtain rfl := mem_singleton.mp new
      exact ⟨first, parsed, same⟩

theorem flowParse_eq_some (known : packet.direction ≠ .unknown) :
    ∃ first, flowParse packet = some first := by
  obtain ⟨near, remote, addresses, -⟩ := localRemote_eq_some known packet.addresses
  obtain ⟨nearPort, remotePort, ports, -⟩ := localRemote_eq_some known packet.ports
  rw [flowParse, addresses, ports]
  exact ⟨_, rfl⟩

/-- Packets of one flow parse alike. -/
theorem flowParse_congr {other : Packet} (same : identity packet = identity other) :
    flowParse packet = flowParse other := by
  simp only [identity, Identity.mk.injEq] at same
  obtain ⟨version, protocol, addresses, ports⟩ := same
  rw [flowParse, flowParse, version, protocol, addresses, ports]

/-- A new record accounts for no packet. -/
theorem Accounts.fresh (parsed : flowParse packet = some first) : Accounts first [] := by
  obtain ⟨ports, -, rest⟩ := bind_eq_some_iff.mp parsed
  obtain ⟨addresses, -, rfl⟩ := map_eq_some_iff.mp rest
  refine ⟨?_, ?_, ?_, nofun⟩
  all_goals
    intro direction known
    cases direction <;> rfl

theorem Accounts.sameEnds (accounts : Accounts record group) {arrival : Arrival}
    (member : arrival ∈ group) (same : identity arrival.packet = identity packet)
    (parsed : flowParse packet = some first) : record.SameEnds first := by
  obtain ⟨found, eq, ends⟩ := accounts.ends arrival member
  rw [flowParse_congr same, parsed] at eq
  obtain rfl := Option.some.inj eq
  exact ends

end Accounting

/-- The pointers lead to one record for each key of the group. -/
structure Pointers (order : ByteOrder) (table : Key → Option Nat) (flowPool : List Record)
    (group : List Arrival) : Prop where
  points : ∀ key pointer, table key = some pointer →
    ∃ record, flowPool[pointer]? = some record ∧ Accounts record (own order key group)
  owned : ∀ key, (table key).isSome = true ↔ own order key group ≠ []
  distinct : ∀ first second pointer, table first = some pointer → table second = some pointer →
    first = second
  covered : ∀ pointer < flowPool.length, ∃ key, table key = some pointer

section Counting

variable {order : ByteOrder} {table : Key → Option Nat} {flowPool : List Record}
  {group : List Arrival} {key : Key} {packet : Packet} {pointer now : Nat} {record first : Record}

theorem pointers_nil (order : ByteOrder) : Pointers order (fun _ => none) [] [] where
  points := nofun
  owned key := by
    constructor
    · exact nofun
    · exact fun some => absurd rfl some
  distinct := nofun
  covered := nofun

theorem own_append_self (rendered : flowKey order packet = .ok key) :
    own order key (group ++ [⟨now, packet⟩]) = own order key group ++ [⟨now, packet⟩] := by
  rw [own_append, rendered]
  exact congrArg _ (if_pos rfl)

theorem own_append_other {other : Key} (rendered : flowKey order packet = .ok key)
    (different : other ≠ key) :
    own order other (group ++ [⟨now, packet⟩]) = own order other group := by
  rw [own_append, rendered]
  have unequal : ¬ (Except.ok key : Except Abort Key).toOption = some other := fun same =>
    different (Option.some.inj same).symm
  rw [if_neg unequal, append_nil]

theorem Pointers.lt_length (pointers : Pointers order table flowPool group)
    (points : table key = some pointer) : pointer < flowPool.length := by
  obtain ⟨record, found, -⟩ := pointers.points key pointer points
  exact (List.getElem?_eq_some_iff.mp found).1

/-- A packet of a known flow is added to the record of the flow. -/
theorem Pointers.count (pointers : Pointers order table flowPool group)
    (rendered : flowKey order packet = .ok key) (points : table key = some pointer)
    (found : flowPool[pointer]? = some record) :
    Pointers order table (flowPool.set pointer (record.add now packet))
      (group ++ [⟨now, packet⟩]) where
  points other place pointsOther := by
    by_cases same : other = key
    · subst same
      obtain rfl := Option.some.inj (points.symm.trans pointsOther)
      obtain ⟨record', found', accounts⟩ := pointers.points other pointer points
      obtain rfl := Option.some.inj (found.symm.trans found')
      have known := flowKey_known rendered
      obtain ⟨first, parsed⟩ := flowParse_eq_some known
      have some := (pointers.owned other).mp (by rw [points]; rfl)
      obtain ⟨arrival, member⟩ := exists_mem_of_ne_nil _ some
      have keyed : flowKey order arrival.packet = .ok other := by
        have kept := of_decide_eq_true (mem_filter.mp member).2
        cases result : flowKey order arrival.packet with
        | error abort =>
          rw [result] at kept
          cases kept
        | ok key =>
          rw [result] at kept
          rw [Option.some.inj kept]
      have ends := accounts.sameEnds member ((flowKey_eq_iff keyed rendered).mp rfl) parsed
      refine ⟨record.add now packet, List.getElem?_set_self (pointers.lt_length points), ?_⟩
      rw [own_append_self rendered]
      exact accounts.add known parsed ends
    · have elsewhere : pointer ≠ place := fun samePlace =>
        same (pointers.distinct other key pointer (samePlace ▸ pointsOther) points)
      rw [List.getElem?_set_ne elsewhere, own_append_other rendered same]
      exact pointers.points other place pointsOther
  owned other := by
    by_cases same : other = key
    · subst same
      rw [own_append_self rendered, points]
      exact iff_of_true rfl (append_ne_nil_of_right_ne_nil _ (cons_ne_nil _ _))
    · rw [own_append_other rendered same]
      exact pointers.owned other
  distinct := pointers.distinct
  covered place := by
    rw [length_set]
    exact pointers.covered place

/-- A packet of a new flow starts a record at the end of the pool. -/
theorem Pointers.create (pointers : Pointers order table flowPool group)
    (rendered : flowKey order packet = .ok key) (missing : table key = none)
    (parsed : flowParse packet = some first) :
    Pointers order (update table key (some flowPool.length))
      (flowPool ++ [first.add now packet]) (group ++ [⟨now, packet⟩]) where
  points other place pointsOther := by
    by_cases same : other = key
    · subst same
      rw [update_self, Option.some.injEq] at pointsOther
      subst pointsOther
      have empty : own order other group = [] := by
        by_contra some
        have found := (pointers.owned other).mpr some
        rw [missing] at found
        cases found
      refine ⟨_, List.getElem?_concat_length, ?_⟩
      rw [own_append_self rendered, empty]
      exact (Accounts.fresh parsed).add (flowKey_known rendered) parsed ⟨rfl, rfl, rfl, rfl⟩
    · rw [update_of_ne same] at pointsOther
      rw [List.getElem?_append_left (pointers.lt_length pointsOther), own_append_other rendered same]
      exact pointers.points other place pointsOther
  owned other := by
    by_cases same : other = key
    · subst same
      rw [own_append_self rendered, update_self]
      exact iff_of_true rfl (append_ne_nil_of_right_ne_nil _ (cons_ne_nil _ _))
    · rw [own_append_other rendered same, update_of_ne same]
      exact pointers.owned other
  distinct left right place pointsLeft pointsRight := by
    by_cases sameLeft : left = key <;> by_cases sameRight : right = key
    · rw [sameLeft, sameRight]
    · rw [sameLeft, update_self, Option.some.injEq] at pointsLeft
      rw [update_of_ne sameRight, ← pointsLeft] at pointsRight
      exact absurd (pointers.lt_length pointsRight) (lt_irrefl _)
    · rw [sameRight, update_self, Option.some.injEq] at pointsRight
      rw [update_of_ne sameLeft, ← pointsRight] at pointsLeft
      exact absurd (pointers.lt_length pointsLeft) (lt_irrefl _)
    · rw [update_of_ne sameLeft] at pointsLeft
      rw [update_of_ne sameRight] at pointsRight
      exact pointers.distinct left right place pointsLeft pointsRight
  covered place inside := by
    rw [length_append, length_singleton] at inside
    by_cases last : place = flowPool.length
    · exact ⟨key, by rw [update_self, last]⟩
    · obtain ⟨other, points⟩ := pointers.covered place (by omega)
      have different : other ≠ key := by
        rintro rfl
        rw [missing] at points
        cases points
      exact ⟨other, by rw [update_of_ne different, points]⟩

end Counting

end Ucollect.Flow
