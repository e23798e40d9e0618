import Ucollect.Construction.Core.Packet
import Mathlib.Tactic

namespace Ucollect.Core
open List

/-- An IP packet carries another IP packet, a header with ports, or nothing of interest. -/
inductive Carried where
  | nothing
  | transport (header : Nat)
  | packet (header : Nat)
  deriving DecidableEq, Repr

def carriedBy (protocol header : Nat) : Carried :=
  if protocol = 4 ∨ protocol = 41 then .packet header
  else if protocol = 6 ∨ protocol = 17 then .transport header
  else .nothing

/-- The protocol and the length of the header are fields of the header itself. -/
def carries (memory : PacketMemory) (data length : Nat) : Carried :=
  if length < iphdrSize then .nothing
  else if ipVersion memory data = 4 then
    carriedBy (memory (data + 9)).toNat (headerSizeUnit * ipIhl memory data)
  else if ipVersion memory data = 6 then
    if length < ip6HdrSize then .nothing else carriedBy (memory (data + 6)).toNat ip6HdrSize
  else .nothing

/-- The header bytes are the first byte and bytes inside the packet. -/
def HeaderBytes (packet : PacketInfo) (accesses : List Access) : Prop :=
  .byte packet.data ∈ accesses ∧ ∀ access ∈ accesses, ∃ offset, access = .byte offset ∧
    (offset = packet.data ∨ offset < packet.data + packet.length)

/-- The port bytes lie below the computed rest of the packet. -/
def PortBytes (start rest : Nat) (accesses : List Access) : Prop :=
  (tcpPortsSize ≤ rest → .byte start ∈ accesses) ∧ ∀ access ∈ accesses, ∃ offset,
    access = .byte offset ∧ offset < start + rest

/-- Both transport headers start with two ports. -/
def portBytes (start : Nat) : List Access := wordBytes start ++ wordBytes (start + 2)

/-- This relation lists everything that one call on an IP packet can do. -/
inductive RawCall (width : Width) (memory : PacketMemory) (inner : PacketInfo → Parsed)
    (packet : PacketInfo) : Parsed → Prop where
  | leaf {own : List Access} {result : PacketInfo}
      (carried : carries memory packet.data packet.length = .nothing)
      (header : HeaderBytes packet own) :
      RawCall width memory inner packet ⟨own, some result⟩
  | transport {own ports : List Access} {result : PacketInfo} {length : Nat}
      (carried : carries memory packet.data packet.length = .transport length)
      (header : HeaderBytes packet own)
      (below : PortBytes (packet.data + length) (width.sub packet.length length) ports) :
      RawCall width memory inner packet ⟨own ++ ports, some result⟩
  | nested {own : List Access} {next : PacketInfo} {length : Nat}
      {finish : PacketInfo → PacketInfo}
      (carried : carries memory packet.data packet.length = .packet length)
      (header : HeaderBytes packet own) (start : next.data = packet.data + length)
      (rest : next.length = width.sub packet.length length) :
      RawCall width memory inner packet ⟨own ++ .nested next.data next.length ::
        (inner next).accesses, (inner next).result.map finish⟩

/-- The part below the IP header follows the protocol field. -/
theorem parseBelowIp_cases (width : Width) (memory : PacketMemory) (fresh : PacketInfo)
    (inner : PacketInfo → Parsed) (packet : PacketInfo) :
    (carriedBy packet.appProtocolRaw packet.hdrLength = .nothing ∧
      ∃ result, parseBelowIp width memory fresh inner packet = ⟨[], some result⟩) ∨
    (carriedBy packet.appProtocolRaw packet.hdrLength = .transport packet.hdrLength ∧
      ∃ ports result, PortBytes (packet.data + packet.hdrLength)
        (width.sub packet.length packet.hdrLength) ports ∧
        parseBelowIp width memory fresh inner packet = ⟨ports, some result⟩) ∨
    (carriedBy packet.appProtocolRaw packet.hdrLength = .packet packet.hdrLength ∧
      ∃ (next : PacketInfo) (finish : PacketInfo → PacketInfo),
        parseBelowIp width memory fresh inner packet =
          ⟨.nested next.data next.length :: (inner next).accesses,
            (inner next).result.map finish⟩ ∧
        next.data = packet.data + packet.hdrLength ∧
        next.length = width.sub packet.length packet.hdrLength) := by
  by_cases icmp : packet.appProtocolRaw = 1
  · refine Or.inl ⟨by simp [carriedBy, icmp], { packet with appProtocol := 'i' }, ?_⟩
    simp [parseBelowIp, icmp, Parsed.done]
  by_cases encapsulated : packet.appProtocolRaw = 4 ∨ packet.appProtocolRaw = 41
  · refine Or.inr (Or.inr ⟨by simp [carriedBy, encapsulated], ?_⟩)
    simp only [parseBelowIp, if_neg icmp, if_pos encapsulated, accessing, Parsed.andThen,
      singleton_append]
    exact ⟨{ fresh with
      data := packet.data + packet.hdrLength
      length := width.sub packet.length packet.hdrLength
      interface := packet.interface
      direction := packet.direction
      timestamp := packet.timestamp }, _, rfl, rfl, rfl⟩
  by_cases tcp : packet.appProtocolRaw = 6
  · refine Or.inr (Or.inl ⟨by simp [carriedBy, tcp], ?_⟩)
    by_cases short : width.sub packet.length packet.hdrLength < tcpPortsSize
    · refine ⟨[], { packet with appProtocol := '?' }, ⟨fun long => by omega, by simp⟩, ?_⟩
      simp [parseBelowIp, tcp, short, Parsed.done]
    · have same : ∃ result, parseBelowIp width memory fresh inner packet =
          ⟨[.byte (packet.data + packet.hdrLength + 12),
            .byte (packet.data + packet.hdrLength + 13)] ++
            portBytes (packet.data + packet.hdrLength), some result⟩ := by
        simp [parseBelowIp, tcp, short, accessing, Parsed.done, portBytes]
      obtain ⟨result, same⟩ := same
      refine ⟨_, result, ⟨?_, ?_⟩, same⟩
      · simp [portBytes, wordBytes]
      · simp only [tcpPortsSize] at short
        simp [portBytes, wordBytes]
        omega
  by_cases udp : packet.appProtocolRaw = 17
  · refine Or.inr (Or.inl ⟨by simp [carriedBy, udp], ?_⟩)
    by_cases short : width.sub packet.length packet.hdrLength < udpLength
    · refine ⟨[], { packet with appProtocol := 'U' }, ⟨fun long => ?_, by simp⟩, ?_⟩
      · simp only [udpLength, tcpPortsSize] at short long
        omega
      · simp [parseBelowIp, udp, short, Parsed.done]
    · have same : ∃ result, parseBelowIp width memory fresh inner packet =
          ⟨portBytes (packet.data + packet.hdrLength), some result⟩ := by
        simp [parseBelowIp, udp, short, accessing, Parsed.done, portBytes]
      obtain ⟨result, same⟩ := same
      refine ⟨_, result, ⟨?_, ?_⟩, same⟩
      · simp [portBytes, wordBytes]
      · simp only [udpLength] at short
        simp [portBytes, wordBytes]
        omega
  refine Or.inl ⟨by simp [carriedBy, encapsulated, tcp, udp], ?_⟩
  by_cases icmp6 : packet.appProtocolRaw = 58
  · exact ⟨{ packet with appProtocol := 'I' }, by simp [parseBelowIp, icmp6, Parsed.done]⟩
  · refine ⟨{ packet with appProtocol := '?' }, ?_⟩
    simp [parseBelowIp, icmp, encapsulated, tcp, udp, icmp6, Parsed.done]

variable {packet : PacketInfo}

/-- Everything that precedes the part below the header reads header bytes. -/
theorem HeaderBytes.of_short {accesses : List Access} (first : .byte packet.data ∈ accesses)
    (inside : ∀ access ∈ accesses, access = .byte packet.data ∨
      ∃ offset < packet.length, access = .byte (packet.data + offset)) :
    HeaderBytes packet accesses := by
  refine ⟨first, fun access member => ?_⟩
  rcases inside access member with same | ⟨offset, below, same⟩
  · exact ⟨_, same, Or.inl rfl⟩
  · exact ⟨_, same, Or.inr (by omega)⟩

/-- The part below the header completes the call once the header is read. -/
theorem RawCall.of_parseBelowIp {width : Width} {memory : PacketMemory}
    {inner : PacketInfo → Parsed} {own : List Access} (fresh below : PacketInfo)
    (header : HeaderBytes packet own) (data : below.data = packet.data)
    (length : below.length = packet.length)
    (carried : carries memory packet.data packet.length =
      carriedBy below.appProtocolRaw below.hdrLength) :
    RawCall width memory inner packet
      (accessing own (parseBelowIp width memory fresh inner below)) := by
  rcases parseBelowIp_cases width memory fresh inner below with
    ⟨nothing, result, same⟩ | ⟨transport, ports, result, bytes, same⟩ |
    ⟨encapsulated, next, finish, same, start, rest⟩
  · rw [same, accessing, append_nil]
    exact .leaf (carried.trans nothing) header
  · rw [same, accessing]
    rw [data, length] at bytes
    exact .transport (carried.trans transport) header bytes
  · rw [same, accessing]
    rw [data] at start
    rw [length] at rest
    exact .nested (carried.trans encapsulated) header start rest

theorem parseInternal_rawCall (width : Width) (memory : PacketMemory) (fresh : PacketInfo)
    (inner : PacketInfo → Parsed) (packet : PacketInfo) :
    RawCall width memory inner packet (parseInternal width memory fresh inner packet) := by
  unfold parseInternal
  by_cases short : packet.length < iphdrSize
  · simp only [short, if_true, accessing, Parsed.done, append_nil]
    exact .leaf (by simp [carries, short]) (.of_short (by simp) (by simp))
  simp only [short, if_false]
  have long : 20 ≤ packet.length := Nat.le_of_not_lt short
  by_cases version4 : ipVersion memory packet.data = 4
  · simp only [version4, if_true]
    have header : HeaderBytes packet ([.byte packet.data] ++ ([.byte packet.data] ++
        [.byte packet.data, .byte (packet.data + 9)])) := .of_short (by simp) (by simp; omega)
    exact .of_parseBelowIp fresh _ header rfl rfl (by simp [carries, short, version4])
  simp only [version4, if_false]
  by_cases version6 : ipVersion memory packet.data = 6
  · simp only [version6, if_true]
    by_cases short6 : packet.length < ip6HdrSize
    · simp only [short6, if_true, accessing, Parsed.done, append_nil]
      exact .leaf (by simp [carries, version6, short6]) (.of_short (by simp) (by simp))
    · simp only [short6, if_false]
      have header : HeaderBytes packet ([.byte packet.data] ++ ([.byte packet.data] ++
          [.byte (packet.data + 6)])) := .of_short (by simp) (by simp; omega)
      exact .of_parseBelowIp fresh _ header rfl rfl (by simp [carries, short, version6, short6])
  · simp only [version6, if_false, accessing, Parsed.done, append_nil]
    exact .leaf (by simp [carries, version4, version6]) (.of_short (by simp) (by simp))

/-- The caller of a raw call may still change the returned structure. -/
theorem RawCall.andThen {width : Width} {memory : PacketMemory} {inner : PacketInfo → Parsed}
    {parsed : Parsed} (call : RawCall width memory inner packet parsed)
    (continue_ : PacketInfo → PacketInfo) :
    RawCall width memory inner packet (parsed.andThen continue_) := by
  cases call with
  | leaf carried header => exact .leaf carried header
  | transport carried header below => exact .transport carried header below
  | nested carried header start rest =>
    simp only [Parsed.andThen, Option.map_map]
    exact .nested carried header start rest

/-- A call on an IP packet reads its header and calls itself at most once. -/
theorem ucParsePacket_rawCall (width : Width) (memory : PacketMemory) (budget : Nat)
    (pool : Nat → PacketInfo) (packet : PacketInfo) :
    RawCall width memory
      (fun next => ucParsePacket width memory budget (fun index => pool (index + 1)) next dltRaw)
      packet (ucParsePacket width memory (budget + 1) pool packet dltRaw) := by
  rw [ucParsePacket]
  have notEthernet : ¬ (dltRaw = dltEn10mb ∨ dltRaw = dltIeee802) := by decide
  simp only [notEthernet, if_false, if_true]
  have call := (parseInternal_rawCall width memory (pool 0)
    (fun next => ucParsePacket width memory budget (fun index => pool (index + 1)) next dltRaw)
    { packet with layer := 'I', layerRaw := dltRaw }).andThen postprocess
  generalize Parsed.andThen _ _ = parsed at call
  cases call with
  | leaf carried header => exact .leaf carried header
  | transport carried header below => exact .transport carried header below
  | nested carried header start rest => exact .nested carried header start rest

end Ucollect.Core
