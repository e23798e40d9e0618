import Mathlib.Data.Nat.Bitwise
import Ucollect.Construction.Count.Counters
import Ucollect.Proof.Packet.Consistency

/-
This file proves which packets the counters of a report count.
-/

namespace Ucollect.Count
open Core List Option

section Innermost

variable {memory : PacketMemory} {uplink : List AddrInfo} {size : Nat} {d : UserData}
  {info : PacketInfo} {tunnel : Bool}

/-- This is the packet inside all the envelopes. -/
def innermost : PacketInfo → PacketInfo
  | { next := some next, .. } => innermost next
  | info => info

/-- These are the packets around the innermost one. -/
def envelopes : PacketInfo → List PacketInfo
  | info@{ next := some next, .. } => info :: envelopes next
  | _ => []

def overIp (info : PacketInfo) : Bool := info.layer = 'I' && (info.ipProtocol = 4 || info.ipProtocol = 6)

/-- Only the innermost packet is counted, and the envelopes tell whether it came through a tunnel. -/
theorem packetHandleInternal_eq (memory : PacketMemory) (uplink : List AddrInfo) (size : Nat)
    (d : UserData) (tunnel : Bool) (info : PacketInfo) :
    packetHandleInternal memory uplink size d tunnel info =
      d.innermost memory uplink (innermost info) size (tunnel || (envelopes info).any overIp) := by
  induction tunnel, info using packetHandleInternal.induct with
  | case1 tunnel next _ _ _ _ _ _ _ _ _ _ _ _ _ _ _ _ ih =>
    rw [packetHandleInternal, ih, innermost, envelopes, any_cons, ← Bool.or_assoc]
    rfl
  | case2 tunnel info last =>
    rw [packetHandleInternal.eq_2 _ _ _ _ _ _ last, innermost.eq_2 _ last, envelopes.eq_2 _ last,
      any_nil, Bool.or_false]

/-- A packet that is counted changes the numbers of its property. -/
def Datum.bump (datum : Datum) (counted : Bool) (size : Nat) : Datum :=
  if counted then ⟨datum.count + 1, datum.size + size⟩ else datum

theorem update_data (d : UserData) (other : Selector) (size : Nat) (selector : Selector) :
    (d.update other size).data selector = (d.data selector).bump (selector = other) size := by
  by_cases same : selector = other
  · subst same
    simp [UserData.update, Datum.bump]
  · simp [UserData.update, Datum.bump, same]

/-- These are the packets that the code counts. -/
def Selector.counted (memory : PacketMemory) (uplink : List AddrInfo) (info : PacketInfo)
    (tunnel : Bool) : Selector → Bool
  | .any => true
  | .inward => info.direction = .incoming
  | .outward => info.direction = .outgoing
  | .v4 => info.layer = 'I' && info.ipProtocol = 4
  | .v6 => info.layer = 'I' && info.ipProtocol = 6 && !tunnel
  | .v6Tunnel => info.layer = 'I' && info.ipProtocol = 6 && tunnel
  | .tcp => info.layer = 'I' && info.appProtocol = 'T'
  | .udp => info.layer = 'I' && info.appProtocol = 'U'
  | .icmp => info.layer = 'I' && (info.appProtocol = 'i' || info.appProtocol = 'I')
  | .synFlag => info.layer = 'I' && info.appProtocol = 'T' && info.tcpFlags &&& tcpSyn ≠ 0
  | .finFlag => info.layer = 'I' && info.appProtocol = 'T' && info.tcpFlags &&& tcpFin ≠ 0
  | .synAckFlag => info.layer = 'I' && info.appProtocol = 'T' && (info.tcpFlags &&& tcpAck ≠ 0 &&
      info.tcpFlags &&& tcpSyn ≠ 0)
  | .ackFlag => info.layer = 'I' && info.appProtocol = 'T' && info.tcpFlags &&& tcpAck ≠ 0
  | .pushFlag => info.layer = 'I' && info.appProtocol = 'T' &&
      info.tcpFlags &&& Selector.pushFlag.number ≠ 0
  | .lowPort => info.layer = 'I' && (remoteEndpoint info.direction info.ports).any fun port =>
    port ≤ 1024 && port ≠ 0
  | .server => info.layer = 'I' && (remoteEndpoint info.direction info.ports).any fun port =>
    uplink.any (AddrInfo.isRemote memory info port)

theorem bump_ite (condition : Prop) [Decidable condition] (other selector : Selector) (size : Nat)
    (d : UserData) : (if condition then d.update other size else d).data selector =
      (d.data selector).bump (condition && selector = other) size := by
  split
  case isTrue holds => rw [update_data, decide_eq_true holds, Bool.true_and]
  case isFalse fails => rw [decide_eq_false fails, Bool.false_and]; rfl

theorem flags_data (d : UserData) (info : PacketInfo) (size : Nat) (selector : Selector) :
    (d.flags info size).data selector = (((((d.data selector).bump
      (info.tcpFlags &&& tcpSyn ≠ 0 && selector = .synFlag) size).bump
      (info.tcpFlags &&& tcpFin ≠ 0 && selector = .finFlag) size).bump
      (decide (info.tcpFlags &&& tcpAck ≠ 0 ∧ info.tcpFlags &&& tcpSyn ≠ 0) &&
        selector = .synAckFlag) size).bump
      (info.tcpFlags &&& tcpAck ≠ 0 && selector = .ackFlag) size).bump
      (info.tcpFlags &&& Selector.pushFlag.number ≠ 0 && selector = .pushFlag) size := by
  simp only [UserData.flags, bump_ite]

theorem direction_data (d : UserData) (info : PacketInfo) (size : Nat) (selector : Selector) :
    (d.direction info size).data selector = ((d.data selector).bump
      (info.direction = .incoming && selector = .inward) size).bump
      (info.direction = .outgoing && selector = .outward) size := by
  rw [UserData.direction]
  cases info.direction with
  | incoming => exact update_data d .inward size selector
  | outgoing => exact update_data d .outward size selector
  | unknown => rfl

theorem ipProtocol_data (d : UserData) (info : PacketInfo) (size : Nat) (tunnel : Bool)
    (selector : Selector) :
    (d.ipProtocol info size tunnel).data selector = ((d.data selector).bump
      (info.ipProtocol = 4 && selector = .v4) size).bump
      (info.ipProtocol = 6 && selector = if tunnel then .v6Tunnel else .v6) size := by
  rw [UserData.ipProtocol]
  by_cases v4 : info.ipProtocol = 4
  · rw [if_pos v4, update_data, v4]
    rfl
  · by_cases v6 : info.ipProtocol = 6
    · rw [if_neg v4, if_pos v6, update_data, v6]
      rfl
    · rw [if_neg v4, if_neg v6, decide_eq_false v4, decide_eq_false v6]
      rfl

theorem appProtocol_data (d : UserData) (info : PacketInfo) (size : Nat) (selector : Selector) :
    (d.appProtocol info size).data selector =
      if info.appProtocol = 'T' then ((d.update .tcp size).flags info size).data selector
      else ((d.data selector).bump (info.appProtocol = 'U' && selector = .udp) size).bump
        (decide (info.appProtocol = 'i' ∨ info.appProtocol = 'I') && selector = .icmp) size := by
  rw [UserData.appProtocol]
  by_cases tcp : info.appProtocol = 'T'
  · rw [if_pos tcp, if_pos tcp]
  · rw [if_neg tcp, if_neg tcp]
    by_cases udp : info.appProtocol = 'U'
    · rw [if_pos udp, update_data, udp]
      rfl
    · rw [if_neg udp, decide_eq_false udp, bump_ite]
      rfl

theorem remote_data (d : UserData) (memory : PacketMemory) (uplink : List AddrInfo)
    (info : PacketInfo) (size : Nat) (selector : Selector) :
    (d.remote memory uplink info size).data selector = ((d.data selector).bump
      (((remoteEndpoint info.direction info.ports).any fun port => port ≤ 1024 && port ≠ 0) &&
        selector = .lowPort) size).bump
      (((remoteEndpoint info.direction info.ports).any fun port =>
        uplink.any (AddrInfo.isRemote memory info port)) && selector = .server) size := by
  rw [UserData.remote]
  cases remoteEndpoint info.direction info.ports with
  | none => rfl
  | some port =>
    dsimp only
    rw [bump_ite, bump_ite, Bool.decide_and, Bool.decide_eq_true, any_some, any_some]
@[simp] theorem bump_false (datum : Datum) (size : Nat) : datum.bump false size = datum := rfl

/-- Each property is counted once at most. -/
theorem innermost_data (d : UserData) (memory : PacketMemory) (uplink : List AddrInfo)
    (info : PacketInfo) (size : Nat) (tunnel : Bool) (selector : Selector) :
    (d.innermost memory uplink info size tunnel).data selector =
      (d.data selector).bump (selector.counted memory uplink info tunnel) size := by
  rw [UserData.innermost]
  by_cases layer : info.layer = 'I'
  · rw [if_neg (not_not_intro layer), remote_data, appProtocol_data]
    by_cases tcp : info.appProtocol = 'T'
    · rw [if_pos tcp, flags_data, update_data, ipProtocol_data, direction_data, update_data]
      cases selector <;> cases tunnel <;> simp [Selector.counted, layer, tcp]
    · rw [if_neg tcp, ipProtocol_data, direction_data, update_data]
      cases selector <;> cases tunnel <;> simp [Selector.counted, layer, tcp]
  · rw [if_pos layer, direction_data, update_data]
    cases selector <;> simp [Selector.counted, layer]

end Innermost

section Captured

variable {width : Width} {memory : PacketMemory} {pool : Nat → PacketInfo}
  {packet result : PacketInfo}

/-- The parser clears what an IP packet does not have. -/
structure Settled (info : PacketInfo) : Prop where
  protocol : info.layer = 'I' → overIp info = false → info.appProtocol = '\x00'
  addresses : info.layer = 'I' → overIp info = false → info.addresses = ⟨none, none⟩
  ports : info.layer = 'I' → ¬ info.Transport → info.ports = ⟨0, 0⟩

theorem headerless_settled (memory : PacketMemory) (packet : PacketInfo) :
    Settled (headerless memory packet) := by
  constructor
  case protocol => exact fun _ _ => rfl
  case addresses => exact fun _ _ => rfl
  case ports => exact fun _ _ => rfl

theorem headed_settled {header : IpHeader} {next : Option PacketInfo}
    (known : header.version = 4 ∨ header.version = 6) :
    Settled (headed width memory header packet next) := by
  have ip : overIp (headed width memory header packet next) = true := by
    rcases known with version | version
    · simp [overIp, headed, version]
    · simp [overIp, headed, version]
  constructor
  case protocol =>
    intro _ other
    rw [ip] at other
    cases other
  case addresses =>
    intro _ other
    rw [ip] at other
    cases other
  case ports =>
    exact fun _ =>
      (content_plain width memory header packet.data packet.length packet.ports).1

theorem innermost_none (last : packet.next = none) : innermost packet = packet := by
  cases packet
  cases last
  rfl

theorem innermost_some {next : PacketInfo} (inside : packet.next = some next) :
    innermost packet = innermost next := by
  cases packet
  cases inside
  rfl

/-- Whatever the parser finds inside an IP packet is cleared. -/
theorem raw_settled {budget : Nat} (parsed :
    (ucParsePacket width memory budget pool packet dltRaw).result = some result) :
    Settled (innermost result) := by
  induction budget generalizing pool packet result with
  | zero => cases parsed
  | succ budget ih =>
    rw [ucParsePacket_result] at parsed
    cases found : ipHeader memory packet.data packet.length with
    | none =>
      rw [found] at parsed
      cases parsed
      exact headerless_settled memory packet
    | some header =>
      rw [found] at parsed
      dsimp only at parsed
      split at parsed
      · obtain ⟨next, inner, rfl⟩ := map_eq_some_iff.mp parsed
        rw [innermost_some rfl]
        exact ih inner
      · cases parsed
        rw [innermost_none rfl]
        exact headed_settled (ipHeader_version found)

/-- The frame around an IP packet is of another layer. -/
theorem CapturedPacket.settled (captured : CapturedPacket) : Settled (innermost captured.info) := by
  have parsed := captured.parsed
  by_cases raw : captured.datalink = dltRaw
  · rw [raw] at parsed
    exact raw_settled parsed
  · obtain ⟨frame, known, call⟩ := ucParsePacket_frame captured.width captured.starts
      captured.interface captured.direction captured.timestamp raw
    cases size : captured.budget with
    | zero =>
      rw [size] at parsed
      cases parsed
    | succ budget =>
      rw [size, call] at parsed
      cases carried : payload captured.capture captured.datalink with
      | none =>
        rw [carried] at parsed
        cases parsed
        rw [innermost_none known.next]
        exact ⟨fun layer => absurd layer known.layer, fun layer => absurd layer known.layer,
          fun layer => absurd layer known.layer⟩
      | some length =>
        rw [carried] at parsed
        obtain ⟨next, inner, same⟩ := map_eq_some_iff.mp parsed
        rw [← same, innermost_some rfl]
        exact raw_settled inner

end Captured

section Documented

variable {observed : Observed}

def Observed.last (observed : Observed) : PacketInfo := innermost observed.packet.info

/-- The innermost packet came inside another IP packet. -/
def Observed.tunnelled (observed : Observed) : Bool := (envelopes observed.packet.info).any overIp

def Observed.remotePort (observed : Observed) : Option Nat :=
  remoteEndpoint observed.last.direction observed.last.ports

/-- These are the bytes of the remote address. -/
def Observed.remoteAddress (observed : Observed) : Option (List UInt8) :=
  (remoteEndpoint observed.last.direction observed.last.addresses).join.map fun address =>
    pointed observed.packet.memory address observed.last.addrLen

def Observed.isTcp (observed : Observed) : Bool :=
  overIp observed.last && observed.last.appProtocol = 'T'

def Observed.isUdp (observed : Observed) : Bool :=
  overIp observed.last && observed.last.appProtocol = 'U'

/-- The remote endpoint is one of the addresses of the uplink. -/
def Observed.withServer (observed : Observed) : Bool :=
  overIp observed.last && observed.uplink.any fun addr =>
    addr.pos.isSome && addr.pos = observed.remoteAddress

/-- These are the properties of the documentation. IPv6 in a tunnel has a property of its own, in
contrast with native IPv6. -/
def Selector.documented (observed : Observed) : Selector → Bool
  | .any => true
  | .v4 => overIp observed.last && observed.last.ipProtocol = 4
  | .v6 => overIp observed.last && observed.last.ipProtocol = 6 && !observed.tunnelled
  | .inward => overIp observed.last && observed.last.direction = .incoming
  | .outward => overIp observed.last && observed.last.direction = .outgoing
  | .tcp => observed.isTcp
  | .udp => observed.isUdp
  | .icmp => overIp observed.last &&
      (observed.last.appProtocol = 'i' || observed.last.appProtocol = 'I')
  | .lowPort => (observed.isTcp || observed.isUdp) && observed.remotePort.any fun port => port ≤ 1024
  | .synFlag => observed.isTcp && observed.last.tcpFlags.testBit 1
  | .finFlag => observed.isTcp && observed.last.tcpFlags.testBit 0
  | .synAckFlag => observed.isTcp && observed.last.tcpFlags.testBit 1 &&
      observed.last.tcpFlags.testBit 4
  | .ackFlag => observed.isTcp && observed.last.tcpFlags.testBit 4
  | .pushFlag => observed.isTcp && observed.last.tcpFlags.testBit 3
  | .server => observed.withServer
  | .v6Tunnel => overIp observed.last && observed.last.ipProtocol = 6 && observed.tunnelled

/-- These are the packets that the code counts where the documentation does. -/
def Selector.Plain (observed : Observed) : Selector → Prop
  | .inward => observed.last.direction = .incoming → overIp observed.last = true
  | .outward => observed.last.direction = .outgoing → overIp observed.last = true
  | .lowPort => observed.isTcp = true ∨ observed.isUdp = true → observed.remotePort ≠ some 0
  | .pushFlag => observed.isTcp = true →
      observed.last.tcpFlags.testBit 0 = true ∨ observed.last.tcpFlags.testBit 2 = true →
        observed.last.tcpFlags.testBit 3 = true
  | .server => observed.withServer = true → observed.remotePort ≠ some 22
  | _ => True

def Observed.counts (observed : Observed) (selector : Selector) : Bool :=
  selector.counted observed.packet.memory observed.uplink observed.last observed.tunnelled

/-- An application protocol needs an IP packet around it. -/
theorem Settled.appProtocol {info : PacketInfo} (settled : Settled info) {protocol : Char}
    (known : protocol ≠ '\x00') : (decide (info.layer = 'I') && decide (info.appProtocol = protocol)) =
      (overIp info && decide (info.appProtocol = protocol)) := by
  by_cases named : info.appProtocol = protocol
  · by_cases layer : info.layer = 'I'
    · have ip : overIp info = true := by
        by_contra other
        rw [settled.protocol layer (Bool.eq_false_iff.mpr other)] at named
        exact known named.symm
      rw [ip, decide_eq_true layer]
    · have other : overIp info = false := by
        rw [overIp, decide_eq_false layer, Bool.false_and]
      rw [other, decide_eq_false layer]
  · rw [decide_eq_false named, Bool.and_false, Bool.and_false]

/-- A mask of one bit tests this bit. -/
theorem and_flag (flags bit : Nat) : decide (flags &&& 1 <<< bit ≠ 0) = flags.testBit bit := by
  rw [Nat.one_shiftLeft, Nat.and_two_pow]
  cases flags.testBit bit with
  | false => simp
  | true => simp

/-- The number of the selector has the bits of FIN, RST and PUSH. -/
theorem and_pushFlag (flags : Nat) : decide (flags &&& Selector.pushFlag.number ≠ 0) =
    (flags.testBit 0 || flags.testBit 2 || flags.testBit 3) := by
  have mask : Selector.pushFlag.number = 1 <<< 0 ||| 1 <<< 2 ||| 1 <<< 3 := by decide
  rw [mask, Nat.and_or_distrib_left, Nat.and_or_distrib_left, ← and_flag, ← and_flag, ← and_flag]
  rw [← Bool.decide_or, ← Bool.decide_or]
  congr 1
  rw [ne_eq, Nat.or_eq_zero_iff, Nat.or_eq_zero_iff]
  grind

theorem isRemote_eq (memory : PacketMemory) (info : PacketInfo) (port : Nat) (addr : AddrInfo) :
    addr.isRemote memory info port = ((addr.pos.isSome && decide (addr.pos =
      (remoteEndpoint info.direction info.addresses).join.map fun address =>
        pointed memory address info.addrLen)) && port != 22) := by
  rw [AddrInfo.isRemote]
  cases addr.pos with
  | none => rfl
  | some pos =>
    cases remoteEndpoint info.direction info.addresses with
    | none => rfl
    | some pointer =>
      cases pointer with
      | none => rfl
      | some address =>
        have size : (pointed memory address info.addrLen).length = info.addrLen := by
          rw [pointed, length_map, length_range]
        by_cases same : pos = pointed memory address info.addrLen
        · subst same
          simp [size]
        · by_cases length : pos.length = info.addrLen
          · simp [length, same, Ne.symm same]
          · simp [length, same]

theorem Observed.settled (observed : Observed) : Settled observed.last := observed.packet.settled

/-- A remote port that is not zero belongs to TCP or UDP. -/
theorem counts_lowPort (observed : Observed) : observed.counts .lowPort =
    (Selector.lowPort.documented observed && observed.remotePort != some 0) := by
  have settled := observed.settled
  rw [Observed.counts, Selector.counted, Selector.documented, Observed.isTcp, Observed.isUdp,
    ← settled.appProtocol (by decide), ← settled.appProtocol (by decide), ← Observed.remotePort]
  by_cases layer : observed.last.layer = 'I'
  · by_cases transport : observed.last.Transport
    · rcases transport with tcp | udp
      · rw [decide_eq_true layer, decide_eq_true tcp]
        cases observed.remotePort <;> simp [bne, Bool.beq_eq_decide_eq]
      · rw [decide_eq_true layer, decide_eq_true udp]
        cases observed.remotePort <;> simp [bne, Bool.beq_eq_decide_eq]
    · have neither := not_or.mp transport
      have none : ∀ port, observed.remotePort = some port → port = 0 := by
        intro port remote
        rw [Observed.remotePort, settled.ports layer transport] at remote
        cases direction : observed.last.direction with
        | incoming =>
          rw [direction] at remote
          cases remote
          rfl
        | outgoing =>
          rw [direction] at remote
          cases remote
          rfl
        | unknown =>
          rw [direction] at remote
          cases remote
      rw [decide_eq_false neither.1, decide_eq_false neither.2]
      cases remote : observed.remotePort with
      | none => simp
      | some port => simp [none port remote]
  · rw [decide_eq_false layer]
    simp

/-- No address of the uplink is equal to a missing one. -/
theorem server_none (uplink : List AddrInfo) {address : Option (List UInt8)} (none : address = none) :
    (uplink.any fun addr => addr.pos.isSome && decide (addr.pos = address)) = false := by
  rw [List.any_eq_false]
  intro addr _
  rw [none]
  cases addr.pos with
  | none => simp
  | some pos => simp

theorem remoteAddress_none {observed : Observed} (missing : observed.remotePort = none) :
    observed.remoteAddress = none := by
  rw [Observed.remotePort] at missing
  rw [Observed.remoteAddress]
  cases direction : observed.last.direction with
  | incoming =>
    rw [direction] at missing
    cases missing
  | outgoing =>
    rw [direction] at missing
    cases missing
  | unknown => rfl

theorem Settled.remoteAddress {observed : Observed} (settled : Settled observed.last)
    (layer : observed.last.layer = 'I') (other : overIp observed.last = false) :
    observed.remoteAddress = none := by
  rw [Observed.remoteAddress, settled.addresses layer other]
  cases observed.last.direction <;> rfl

theorem counts_server (observed : Observed) : observed.counts .server =
    (Selector.server.documented observed && observed.remotePort != some 22) := by
  have settled := observed.settled
  have each : ∀ port, (observed.uplink.any (AddrInfo.isRemote observed.packet.memory observed.last
      port)) = ((observed.uplink.any fun addr => addr.pos.isSome &&
        decide (addr.pos = observed.remoteAddress)) && port != 22) := by
    intro port
    simp only [funext (isRemote_eq observed.packet.memory observed.last port)]
    rw [← Observed.remoteAddress]
    cases port != 22 <;> simp
  rw [Observed.counts, Selector.counted, Selector.documented, Observed.withServer,
    ← Observed.remotePort]
  simp only [each]
  cases remote : observed.remotePort with
  | none =>
    rw [server_none observed.uplink (remoteAddress_none remote), Bool.and_false, Bool.false_and]
    exact Bool.and_false _
  | some port =>
    have same : (some port != some 22) = (port != 22) := rfl
    rw [any_some, same, ← Bool.and_assoc]
    congr 1
    by_cases layer : observed.last.layer = 'I'
    · rw [decide_eq_true layer, Bool.true_and]
      cases ip : overIp observed.last with
      | false => exact server_none observed.uplink (settled.remoteAddress layer ip)
      | true => rfl
    · have other : overIp observed.last = false := by
        rw [overIp, decide_eq_false layer, Bool.false_and]
      rw [decide_eq_false layer, other]

/-- The other properties are counted as they are documented, or too often. -/
theorem counts_eq (observed : Observed) (selector : Selector) :
    observed.counts selector = match selector with
      | .lowPort => selector.documented observed && observed.remotePort != some 0
      | .server => selector.documented observed && observed.remotePort != some 22
      | .pushFlag => observed.isTcp && (observed.last.tcpFlags.testBit 0 ||
          observed.last.tcpFlags.testBit 2 || observed.last.tcpFlags.testBit 3)
      | .inward => observed.last.direction = .incoming
      | .outward => observed.last.direction = .outgoing
      | _ => selector.documented observed := by
  have settled := observed.settled
  have ip : ∀ version, (version = 4 ∨ version = 6) → (decide (observed.last.layer = 'I') &&
      decide (observed.last.ipProtocol = version)) =
        (overIp observed.last && decide (observed.last.ipProtocol = version)) := by
    intro version known
    rw [overIp]
    by_cases same : observed.last.ipProtocol = version
    · rcases known with rfl | rfl
      · simp [same]
      · simp [same]
    · simp [same]
  cases selector with
  | lowPort => exact counts_lowPort observed
  | server => exact counts_server observed
  | any => rfl
  | inward => rfl
  | outward => rfl
  | v4 => exact ip 4 (.inl rfl)
  | v6 =>
    rw [Observed.counts, Selector.counted, ip 6 (.inr rfl)]
    rfl
  | v6Tunnel =>
    rw [Observed.counts, Selector.counted, ip 6 (.inr rfl)]
    rfl
  | tcp => exact settled.appProtocol (by decide)
  | udp => exact settled.appProtocol (by decide)
  | icmp =>
    rw [Observed.counts, Selector.counted, Selector.documented, Bool.and_or_distrib_left,
      settled.appProtocol (by decide), settled.appProtocol (by decide), ← Bool.and_or_distrib_left]
  | synFlag =>
    rw [Observed.counts, Selector.counted, settled.appProtocol (by decide), tcpSyn, and_flag]
    rfl
  | finFlag =>
    rw [Observed.counts, Selector.counted, settled.appProtocol (by decide), tcpFin, and_flag]
    rfl
  | ackFlag =>
    rw [Observed.counts, Selector.counted, settled.appProtocol (by decide), tcpAck, and_flag]
    rfl
  | synAckFlag =>
    rw [Observed.counts, Selector.counted, settled.appProtocol (by decide), tcpAck, tcpSyn,
      and_flag, and_flag, Bool.and_comm (Nat.testBit _ 4), ← Bool.and_assoc]
    rfl
  | pushFlag =>
    rw [Observed.counts, Selector.counted, settled.appProtocol (by decide), and_pushFlag]
    rfl

/-- A plain packet is counted where the documentation counts it, and no other one is. -/
theorem counts_iff (observed : Observed) (selector : Selector) :
    observed.counts selector = selector.documented observed ↔ selector.Plain observed := by
  rw [counts_eq]
  cases selector with
  | lowPort | server | pushFlag | inward | outward =>
    simp only [Selector.documented, Selector.Plain]
    grind
  | _ => exact iff_of_true rfl trivial

/-- The code counts more packets than the documentation, or it counts fewer. -/
theorem counts_order (selector : Selector) :
    (∀ observed, selector.documented observed = true → Observed.counts observed selector = true) ∨
      ∀ observed, Observed.counts observed selector = true → selector.documented observed = true := by
  simp only [counts_eq]
  cases selector with
  | lowPort | server => exact .inr fun observed counted => (Bool.and_eq_true_iff.mp counted).1
  | inward | outward => exact .inl fun observed documented => (Bool.and_eq_true_iff.mp documented).2
  | pushFlag =>
    refine .inl fun observed documented => ?_
    obtain ⟨tcp, push⟩ := Bool.and_eq_true_iff.mp documented
    rw [tcp, push, Bool.or_true]
    rfl
  | _ => exact .inl fun observed documented => documented

end Documented

section Reports

variable {d : UserData} {seen : List Observed}

/-- These are the packets before each request. -/
def intervals : List Event → List Observed → List (List Observed)
  | [], _ => []
  | .packet observed :: events, seen => intervals events (seen ++ [observed])
  | .request _ _ :: events, seen => seen :: intervals events []

/-- The number and the outer length of the packets with the property. -/
def total (property : Observed → Bool) (interval : List Observed) : Datum :=
  ⟨(interval.filter property).length,
    ((interval.filter property).map fun observed => observed.packet.info.length).sum⟩

/-- The counters have counted these packets. -/
def UserData.Tracks (d : UserData) (seen : List Observed) : Prop :=
  ∀ selector, d.data selector = total (Observed.counts · selector) seen

theorem fresh_tracks (timestamp : UInt64) : (UserData.fresh timestamp).Tracks [] := fun _ => rfl

theorem total_append (property : Observed → Bool) (seen : List Observed) (observed : Observed) :
    total property (seen ++ [observed]) =
      (total property seen).bump (property observed) observed.packet.info.length := by
  rw [total, filter_append, Datum.bump]
  cases holds : property observed with
  | true => simp [holds, total]
  | false => simp [holds, total]

theorem UserData.Tracks.handle (tracks : d.Tracks seen) (observed : Observed) :
    (d.handle observed).Tracks (seen ++ [observed]) := by
  intro selector
  rw [total_append, ← tracks selector, UserData.handle, packetHandle, packetHandleInternal_eq,
    innermost_data, Bool.false_or]
  rfl

/-- The report has the numbers of each property at its place. -/
theorem communicate_datum (timestamp : UInt64) (stats : List Nat) (u : UserData)
    (selector : Selector) : (communicate timestamp stats u).1.datum selector = u.data selector := by
  cases selector <;> rfl

theorem run_tracks (events : List Event) (tracks : d.Tracks seen) :
    List.Forall₂ (fun interval report => ∀ selector,
      Report.datum report selector = total (Observed.counts · selector) interval)
      (intervals events seen) (run events d) := by
  induction events generalizing d seen with
  | nil => exact .nil
  | cons event events ih =>
    cases event with
    | packet observed => exact ih (tracks.handle observed)
    | request timestamp stats =>
      refine .cons (fun selector => ?_) (ih (fresh_tracks timestamp))
      exact (communicate_datum timestamp stats d selector).trans (tracks selector)

/-- A property that is wider than another one has the same number of packets when it is the same. -/
theorem filter_length_iff {A : Type} {narrow wide : A → Bool} {items : List A}
    (order : ∀ item, narrow item = true → wide item = true) :
    (items.filter narrow).length = (items.filter wide).length ↔
      ∀ item ∈ items, narrow item = wide item := by
  constructor
  · intro same
    have sub : (items.filter narrow).Sublist (items.filter wide) :=
      monotone_filter_right items order
    have equal := sub.eq_of_length same
    intro item member
    cases holds : wide item with
    | true =>
      have inside := mem_filter.mpr ⟨member, holds⟩
      rw [← equal] at inside
      exact (mem_filter.mp inside).2
    | false =>
      by_contra other
      rw [order item (Bool.eq_true_of_not_eq_false other)] at holds
      cases holds
  · intro same
    rw [filter_congr same]

theorem total_iff (selector : Selector) (interval : List Observed) :
    total (Observed.counts · selector) interval =
        total (fun observed => selector.documented observed) interval ↔
      ∀ observed ∈ interval, selector.Plain observed := by
  have lengths : (interval.filter (Observed.counts · selector)).length =
      (interval.filter fun observed => selector.documented observed).length ↔
        ∀ observed ∈ interval, Observed.counts observed selector = selector.documented observed := by
    rcases counts_order selector with more | fewer
    · rw [eq_comm, filter_length_iff more]
      exact forall₂_congr fun _ _ => eq_comm
    · exact filter_length_iff fewer
  simp only [← counts_iff]
  constructor
  · exact fun same => lengths.mp (congrArg Datum.count same)
  · intro same
    rw [total, filter_congr same]
    rfl

/-- Each number of a report is the documented one when the packets of its interval are plain. The
properties IPv4, IPv6, TCP, UDP, ICMP, SYN, FIN, SYN and ACK, ACK, and IPv6 in a tunnel are always
right. -/
theorem reports_documented (events : List Event) :
    List.Forall₂ (fun interval report => ∀ selector,
      Report.datum report selector = total (fun observed => selector.documented observed) interval ↔
        ∀ observed ∈ interval, selector.Plain observed)
      (intervals events []) (run events (.fresh 0)) := by
  refine (run_tracks events (fresh_tracks 0)).imp fun interval report numbers selector => ?_
  rw [numbers selector]
  exact total_iff selector interval

/-- This TCP packet has the flags FIN and ACK. -/
def finishing : Capture where
  bytes := [0x45, 0, 0, 40, 0, 0, 0, 0, 64, 6, 0, 0, 10, 0, 0, 1, 10, 0, 0, 2, 0x1F, 0x90, 0x1F, 0x91,
    0, 0, 0, 0, 0, 0, 0, 0, 0x50, 0x11, 0, 0, 0, 0, 0, 0]
  fits := by decide

def finishingPacket : CapturedPacket where
  width := .bits64
  memory := finishing.byte
  budget := 1
  pool := fun _ => .zero
  capture := finishing
  starts := fun _ _ => rfl
  interface := "eth0"
  direction := .incoming
  timestamp := 0
  datalink := dltRaw
  info := headed .bits64 finishing.byte ⟨4, ⟨12, 16⟩, 4, 20, 6⟩
    (finishing.packet "eth0" .incoming 0) none
  parsed := by
    rw [ucParsePacket_result]
    rfl

/-- The end of a connection is reported as a push. -/
theorem reports_push :
    (run [.packet ⟨finishingPacket, []⟩, .request 0 [0]] (.fresh 0)).map
        (Report.datum · .pushFlag) = [⟨1, 40⟩] ∧
      (intervals [.packet ⟨finishingPacket, []⟩, .request 0 [0]] []).map
        (total fun observed => Selector.pushFlag.documented observed) = [⟨0, 0⟩] := by
  decide +kernel

end Reports

end Ucollect.Count
