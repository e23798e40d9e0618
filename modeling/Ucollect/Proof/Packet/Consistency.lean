import Ucollect.Proof.Packet.Bounds
import Ucollect.Proof.Packet.Recycled

namespace Ucollect.Core
open Option

/-- A packet reaches itself and what its next packet reaches. -/
inductive PacketInfo.Reaches : PacketInfo → PacketInfo → Prop where
  | here {packet : PacketInfo} : packet.Reaches packet
  | next {packet inner last : PacketInfo} (found : packet.next = some inner)
      (rest : inner.Reaches last) : packet.Reaches last

def PacketInfo.Ip (packet : PacketInfo) : Prop := packet.ipProtocol = 4 ∨ packet.ipProtocol = 6

/-- The packet has ports. -/
def PacketInfo.Transport (packet : PacketInfo) : Prop :=
  packet.appProtocol = 'T' ∨ packet.appProtocol = 'U'

/-- The ports of a packet stand behind its IP header. -/
def PacketInfo.transport (memory : PacketMemory) (packet : PacketInfo) : Nat :=
  packet.data + if packet.ipProtocol = 4 then headerSizeUnit * ipIhl memory packet.data
    else ip6HdrSize

/-- These relations between the fields of a packet are documented. -/
structure PacketInfo.Consistent (memory : PacketMemory) (bound : Nat) (packet : PacketInfo) :
    Prop where
  hdrLength : packet.Ip → packet.Transport → packet.hdrLength ≤ packet.length
  src : ∀ address, packet.addresses.src = some address → address + packet.addrLen ≤ bound
  dst : ∀ address, packet.addresses.dst = some address → address + packet.addrLen ≤ bound
  noPorts : packet.layer = 'I' → ¬ packet.Transport → packet.ports = ⟨0, 0⟩
  tcpFlags : packet.layer = 'I' → packet.appProtocol ≠ 'T' → packet.tcpFlags = 0
  next : packet.layer = 'I' → packet.next ≠ none →
    packet.appProtocol = '4' ∨ packet.appProtocol = '6'
  raw : packet.layer = 'I' → ¬ packet.Ip → packet.appProtocolRaw = 255
  ports : packet.layer = 'I' → packet.Transport →
    packet.transport memory + 4 ≤ packet.data + packet.length ∧
    packet.ports = ⟨word memory (packet.transport memory),
      word memory (packet.transport memory + 2)⟩

/-- The transport header behind the IP header ends inside the packet. A truncated UDP header does no
harm when its ports are the zeros that the structure starts with. -/
structure IpHeader.Complete (header : IpHeader) (memory : PacketMemory) (data length : Nat)
    (zeroed : Bool) : Prop where
  tcp : header.protocol = 6 → header.length ≤ length ∧ (length < header.length + tcpPortsSize ∨
    header.length + headerSizeUnit * ((memory (data + header.length + 12)).toNat / 16) ≤ length)
  udp : header.protocol = 17 → header.length + udpLength ≤ length ∨
    zeroed ∧ header.length + 4 ≤ length ∧ word memory (data + header.length) = 0 ∧
      word memory (data + header.length + 2) = 0

/-- Every header of a packet of this length at the end of the capture ends inside the packet. -/
inductive Regular (capture : Capture) : Bool → Nat → Prop where
  | unknown {zeroed : Bool} {length : Nat}
      (none : ipHeader capture.byte (capture.length - length) length = none) :
      Regular capture zeroed length
  | innermost {zeroed : Bool} {length : Nat} {header : IpHeader}
      (found : ipHeader capture.byte (capture.length - length) length = some header)
      (last : ¬ header.Encapsulates)
      (complete : header.Complete capture.byte (capture.length - length) length zeroed) :
      Regular capture zeroed length
  | encapsulates {zeroed : Bool} {length : Nat} {header : IpHeader}
      (found : ipHeader capture.byte (capture.length - length) length = some header)
      (encapsulates : header.Encapsulates) (consumes : 0 < header.length)
      (fits : header.length ≤ length) (inner : Regular capture false (length - header.length)) :
      Regular capture zeroed length

variable {memory : PacketMemory} {length : Nat}

theorem otherVersion_unknown {data : Nat} (none : ipHeader memory data length = none) :
    ¬ (otherVersion memory data length = 4 ∨ otherVersion memory data length = 6) := by
  unfold ipHeader at none
  unfold otherVersion
  grind

variable {packet : PacketInfo}

theorem headerless_consistent (none : ipHeader memory packet.data packet.length = none)
    (bound : Nat) :
    (headerless memory packet).Consistent memory bound := by
  have unknown : ¬ (headerless memory packet).Ip := otherVersion_unknown none
  have plain : ¬ (headerless memory packet).Transport := by
    simp [PacketInfo.Transport, headerless]
  constructor
  case hdrLength => exact fun ip => absurd ip unknown
  case ports => exact fun _ transport => absurd transport plain
  all_goals simp [headerless]

variable {header : IpHeader}

/-- The addresses of a header lie inside its packet, and its length is stored in it. -/
theorem ipHeader_spec {data : Nat} (found : ipHeader memory data length = some header) :
    header.addresses.src + header.addrLen ≤ data + length ∧
    header.addresses.dst + header.addrLen ≤ data + length ∧
    header.length = if header.version = 4 then headerSizeUnit * ipIhl memory data
      else ip6HdrSize := by
  simp only [ipHeader, iphdrSize, ip6HdrSize] at found ⊢
  grind

/-- Only a transport header gives ports and only TCP gives flags. -/
theorem content_plain (width : Width) (memory : PacketMemory) (header : IpHeader)
    (data length : Nat) (stored : Ends Nat) :
    let content := content width memory header data length stored
    (¬ (content.appProtocol = 'T' ∨ content.appProtocol = 'U') → content.ports = ⟨0, 0⟩) ∧
    (content.appProtocol ≠ 'T' → content.tcpFlags = 0) ∧
    (header.Encapsulates → content.appProtocol = '4' ∨ content.appProtocol = '6') := by
  simp only [content, IpHeader.Encapsulates]
  split_ifs <;> simp_all

variable {width : Width} {zeroed : Bool}

/-- A complete transport header stands inside the packet. -/
theorem IpHeader.Complete.content {data : Nat}
    (complete : header.Complete memory data length zeroed) (small : length < 2 ^ 32)
    {stored : Ends Nat} (start : zeroed → stored = ⟨0, 0⟩)
    (transport : (Core.content width memory header data length stored).appProtocol = 'T' ∨
      (Core.content width memory header data length stored).appProtocol = 'U') :
    (Core.content width memory header data length stored).hdrLength ≤ length ∧
    header.length + 4 ≤ length ∧
    (Core.content width memory header data length stored).ports =
      ⟨word memory (data + header.length), word memory (data + header.length + 2)⟩ := by
  by_cases tcp : header.protocol = 6
  · obtain ⟨fits, room⟩ := complete.tcp tcp
    have rest := width.sub_of_le fits small
    by_cases short : length - header.length < tcpPortsSize
    · simp [Core.content, tcp, rest, short] at transport
    · simp only [tcpPortsSize] at short room
      simp [Core.content, tcp, rest, tcpPortsSize, short]
      omega
  by_cases udp : header.protocol = 17
  · rcases complete.udp udp with whole | ⟨zero, room, first, second⟩
    · have rest : width.sub length header.length = length - header.length :=
        width.sub_of_le (by omega) small
      simp only [udpLength] at whole
      simp [Core.content, udp, rest, udpLength, show ¬ length - header.length < 8 by omega]
      omega
    · have rest : width.sub length header.length = length - header.length :=
        width.sub_of_le (by omega) small
      by_cases short : length - header.length < udpLength
      · simp [Core.content, udp, rest, short, start zero, first, second]
        omega
      · simp only [udpLength] at short
        simp [Core.content, udp, rest, udpLength, short]
        omega
  simp only [Core.content, tcp, udp, if_false] at transport
  split_ifs at transport <;> simp at transport

variable {bound : Nat}

/-- A packet whose transport header is complete has consistent fields. -/
theorem headed_consistent {next : Option PacketInfo}
    (found : ipHeader memory packet.data packet.length = some header)
    (room : packet.data + packet.length ≤ bound) (small : packet.length < 2 ^ 32)
    (nested : next ≠ none → header.Encapsulates) (stored : zeroed → packet.ports = ⟨0, 0⟩)
    (complete : header.Complete memory packet.data packet.length zeroed) :
    (headed width memory header packet next).Consistent memory bound := by
  obtain ⟨src, dst, size⟩ := ipHeader_spec found
  have known := ipHeader_version found
  obtain ⟨noPorts, noFlags, inner⟩ :=
    content_plain width memory header packet.data packet.length packet.ports
  have place : (headed width memory header packet next).transport memory =
      packet.data + header.length := by
    rw [PacketInfo.transport, size]
    rfl
  constructor
  case hdrLength => exact fun _ transport => (complete.content small stored transport).1
  case src =>
    intro address same
    cases same
    exact src.trans room
  case dst =>
    intro address same
    cases same
    exact dst.trans room
  case noPorts => exact fun _ => noPorts
  case tcpFlags => exact fun _ => noFlags
  case next => exact fun _ some => inner (nested some)
  case raw => exact fun _ unknown => absurd known unknown
  case ports =>
    intro _ transport
    obtain ⟨_, inside, ports⟩ := complete.content small stored transport
    rw [place]
    exact ⟨by simp only [headed]; omega, ports⟩

/-- The transport header of a packet stands in the capture. -/
theorem AgreeBelow.complete {first second : PacketMemory} (agree : AgreeBelow bound first second)
    {data : Nat} (room : data + length ≤ bound)
    (complete : header.Complete second data length zeroed) :
    header.Complete first data length zeroed := by
  constructor
  · intro tcp
    obtain ⟨fits, short | ends⟩ := complete.tcp tcp
    · exact ⟨fits, Or.inl short⟩
    · refine ⟨fits, ?_⟩
      by_cases short : length < header.length + tcpPortsSize
      · exact Or.inl short
      · simp only [tcpPortsSize] at short
        rw [agree _ (by omega)]
        exact Or.inr ends
  · intro udp
    rcases complete.udp udp with whole | ⟨zero, inside, src, dst⟩
    · exact Or.inl whole
    · rw [← agree.word (by omega)] at src dst
      exact Or.inr ⟨zero, inside, src, dst⟩

variable {capture : Capture}

/-- A regular packet has a call that returns a chain of consistent packets. -/
theorem Regular.consistent (width : Width) (starts : capture.Starts memory)
    (regular : Regular capture zeroed length) (room : length ≤ capture.length)
    (pool : Nat → PacketInfo) (packet : PacketInfo) (start : packet.data = capture.length - length)
    (ends : packet.length = length) (stored : zeroed → packet.ports = ⟨0, 0⟩) :
    ∃ budget result, (ucParsePacket width memory budget pool packet dltRaw).result = some result ∧
      ∀ last, result.Reaches last → last.Consistent memory capture.length := by
  have small := capture.fits
  have captured : capture.bytes.length = capture.length := rfl
  have read (length : Nat) (room : length ≤ capture.length) :
      ipHeader memory (capture.length - length) length =
        ipHeader capture.byte (capture.length - length) length :=
    starts.agree.ipHeader (by omega)
  induction regular generalizing pool packet with
  | @unknown zeroed length none =>
    have unread : ipHeader memory packet.data packet.length = Option.none := by
      rw [start, ends, read length room, none]
    refine ⟨1, headerless memory packet, by rw [ucParsePacket_result, unread], ?_⟩
    intro last reaches
    cases reaches with
    | here => exact headerless_consistent unread _
    | next found => simp [headerless] at found
  | @innermost zeroed length header found last complete =>
    have same : ipHeader memory packet.data packet.length = some header := by
      rw [start, ends, read length room, found]
    have whole : header.Complete memory packet.data packet.length zeroed := by
      rw [start, ends]
      exact starts.agree.complete (by omega) complete
    refine ⟨1, headed width memory header packet none, ?_, ?_⟩
    · rw [ucParsePacket_result, same]
      simp [last]
    · intro reached reaches
      cases reaches with
      | here => exact headed_consistent same (by omega) (by omega) (by simp) stored whole
      | next found => simp [headed] at found
  | @encapsulates zeroed length header found encapsulates consumes fits inner ih =>
    have same : ipHeader memory packet.data packet.length = some header := by
      rw [start, ends, read length room, found]
    have whole : header.Complete memory packet.data packet.length zeroed := by
      simp only [IpHeader.Encapsulates] at encapsulates
      exact ⟨by omega, by omega⟩
    have behind : packet.data + header.length =
        capture.length - (length - header.length) := by omega
    have rest : width.sub packet.length header.length = length - header.length := by
      rw [ends, width.sub_of_le fits (by omega)]
    obtain ⟨budget, next, call, chain⟩ := ih (by omega) (fun index => pool (index + 1))
      (Core.inside width header packet (pool 0)) behind rest (by simp)
    refine ⟨budget + 1, headed width memory header packet (some next), ?_, ?_⟩
    · rw [ucParsePacket_result, same]
      simp [encapsulates, call]
    · intro last reaches
      cases reaches with
      | here =>
        exact headed_consistent same (by omega) (by omega) (fun _ => encapsulates) stored whole
      | next found rest =>
        simp only [headed, Option.some.injEq] at found
        subst found
        exact chain last rest

/-- Whatever a call on this part of the memory returns has an inconsistent packet. -/
def Breaks (width : Width) (memory : PacketMemory) (bound data length : Nat)
    (ports fresh : Ends Nat) : Prop :=
  ∀ (budget : Nat) (packet : PacketInfo), packet.data = data → packet.length = length →
    packet.ports = ports → ∀ result,
      (ucParsePacket width memory budget (fun _ => { PacketInfo.zero with ports := fresh }) packet
        dltRaw).result = some result →
      ∃ last, result.Reaches last ∧ ¬ last.Consistent memory bound

/-- The packet of a header is the result of its call. -/
theorem breaks_of_headed {data : Nat} {ports fresh : Ends Nat}
    (found : ipHeader memory data length = some header) (last : ¬ header.Encapsulates)
    (wrong : ∀ packet : PacketInfo, packet.data = data → packet.length = length →
      packet.ports = ports → ¬ (headed width memory header packet none).Consistent memory bound) :
    Breaks width memory bound data length ports fresh := by
  intro budget packet start ends stored result call
  cases budget with
  | zero => simp [ucParsePacket] at call
  | succ budget =>
    rw [ucParsePacket_result, start, ends, found] at call
    simp only [last, if_false, Option.some.injEq] at call
    exact ⟨result, .here, call ▸ wrong packet start ends stored⟩

theorem Breaks.outer {data : Nat} {ports fresh : Ends Nat}
    (breaks : Breaks width memory bound (data + header.length) (width.sub length header.length)
      fresh fresh) (found : ipHeader memory data length = some header)
    (encapsulates : header.Encapsulates) :
    Breaks width memory bound data length ports fresh := by
  intro budget packet start ends stored result call
  cases budget with
  | zero => simp [ucParsePacket] at call
  | succ budget =>
    rw [ucParsePacket_result, start, ends, found] at call
    simp only [encapsulates, if_true, map_eq_some_iff] at call
    obtain ⟨next, inner, rfl⟩ := call
    obtain ⟨last, reaches, wrong⟩ := breaks budget _ (by simp [Core.inside, start])
      (by simp [Core.inside, ends]) rfl next inner
    exact ⟨last, .next rfl reaches, wrong⟩

/-- The fields of a packet whose transport header is not complete contradict each other. -/
theorem headed_inconsistent (bound : Nat)
    (found : ipHeader memory packet.data packet.length = some header)
    (small : packet.length < 2 ^ 32)
    (stored : packet.ports = if zeroed then ⟨0, 0⟩
      else ⟨(word memory (packet.data + header.length) + 1) % 65536, 0⟩)
    (wrong : ¬ header.Complete memory packet.data packet.length zeroed) :
    ¬ (headed width memory header packet none).Consistent memory bound := by
  intro consistent
  obtain ⟨_, _, size⟩ := ipHeader_spec found
  have bounds := ipHeader_bounds found
  have known : (headed width memory header packet none).Ip := ipHeader_version found
  have place : (headed width memory header packet none).transport memory =
      packet.data + header.length := by
    rw [PacketInfo.transport, size]
    rfl
  have wide : 2 ^ 32 ≤ width.modulus := by cases width <;> decide
  have wraps (order : ¬ header.length ≤ packet.length) :
      tcpPortsSize ≤ width.sub packet.length header.length := by
    rw [width.sub_of_lt (Nat.lt_of_not_le order)]
    simp only [tcpPortsSize]
    omega
  apply wrong
  constructor
  · intro tcp
    have ends (long : ¬ width.sub packet.length header.length < tcpPortsSize) :
        header.length + headerSizeUnit *
          ((memory (packet.data + header.length + 12)).toNat / 16) ≤ packet.length := by
      have inside := consistent.hdrLength known (Or.inl (by simp [headed, content, tcp, long]))
      simpa [headed, content, tcp, long] using inside
    by_cases order : header.length ≤ packet.length
    · refine ⟨order, ?_⟩
      rw [width.sub_of_le order small] at ends
      by_cases short : packet.length < header.length + tcpPortsSize
      · exact Or.inl short
      · exact Or.inr (ends (by omega))
    · have := ends (Nat.not_lt.mpr (wraps order))
      omega
  · intro udp
    have ends (long : ¬ width.sub packet.length header.length < udpLength) :
        header.length + udpLength ≤ packet.length := by
      have inside := consistent.hdrLength known (Or.inr (by simp [headed, content, udp, long]))
      simpa [headed, content, udp, long] using inside
    by_cases long : width.sub packet.length header.length < udpLength
    · have order : header.length ≤ packet.length := by
        by_contra order
        have := wraps order
        simp only [tcpPortsSize, udpLength] at this long
        omega
      obtain ⟨inside, ports⟩ :=
        consistent.ports rfl (Or.inr (by simp [headed, content, udp, long]))
      rw [place] at inside ports
      simp only [headed] at inside
      have kept : packet.ports = ⟨word memory (packet.data + header.length),
          word memory (packet.data + header.length + 2)⟩ := by
        simpa [headed, content, udp, long] using ports
      rw [stored] at kept
      cases zeroed with
      | true =>
        simp only [if_true, Ends.mk.injEq] at kept
        exact Or.inr ⟨rfl, by omega, kept.1.symm, kept.2.symm⟩
      | false =>
        simp only [Bool.false_eq_true, if_false, Ends.mk.injEq, word] at kept
        have first := (memory (packet.data + header.length)).toNat_lt
        have second := (memory (packet.data + header.length + 1)).toNat_lt
        omega
    · exact Or.inl (ends long)

/-- The memory behind the capture can hold an ICMP packet. -/
def leafMemory (capture : Capture) (leaf : Nat) : PacketMemory := fun offset =>
  if offset < capture.length then capture.byte offset else if offset = leaf then 0x45 else 1

theorem leafMemory_starts (capture : Capture) (leaf : Nat) :
    capture.Starts (leafMemory capture leaf) := by
  intro offset inside
  rw [leafMemory, if_pos inside]

/-- The addresses of a packet behind the capture are not inside the capture. -/
theorem leafMemory_breaks (width : Width) {leaf : Nat} (behind : capture.length ≤ leaf)
    (long : 20 ≤ length) (ports fresh : Ends Nat) :
    Breaks width (leafMemory capture leaf) capture.length leaf length ports fresh := by
  have first : leafMemory capture leaf leaf = 0x45 := by
    rw [leafMemory, if_neg (by omega), if_pos rfl]
  have ninth : leafMemory capture leaf (leaf + 9) = 1 := by
    rw [leafMemory, if_neg (by omega), if_neg (by omega)]
  have found : ipHeader (leafMemory capture leaf) leaf length =
      some ⟨4, ⟨leaf + 12, leaf + 16⟩, 4, 20, 1⟩ := by
    simp [ipHeader, ipVersion, ipIhl, first, ninth, iphdrSize, headerSizeUnit, Nat.not_lt.mpr long]
  apply breaks_of_headed found (by simp [IpHeader.Encapsulates])
  intro packet start ends stored consistent
  have outside : leaf + 12 + 4 ≤ capture.length := consistent.src (leaf + 12) rfl
  omega

/-- Some memory and some structures of the pool make a call on an irregular packet return an
inconsistent one. -/
theorem exists_breaking (width : Width) (capture : Capture) (zeroed : Bool) (length : Nat)
    (room : length ≤ capture.length) (wrong : ¬ Regular capture zeroed length) :
    ∃ memory fresh, capture.Starts memory ∧ Breaks width memory capture.length
      (capture.length - length) length (if zeroed then ⟨0, 0⟩ else fresh) fresh := by
  induction length using Nat.strong_induction_on generalizing zeroed with
  | _ length ih =>
    have small := capture.fits
    have captured : capture.bytes.length = capture.length := rfl
    have wide : 2 ^ 32 ≤ width.modulus := by cases width <;> decide
    have starts : capture.Starts capture.byte := fun _ _ => rfl
    cases found : ipHeader capture.byte (capture.length - length) length with
    | none => exact absurd (.unknown found) wrong
    | some header =>
      have bounds := ipHeader_bounds found
      by_cases encapsulates : header.Encapsulates
      · by_cases fits : header.length ≤ length
        · by_cases consumes : 0 < header.length
          · obtain ⟨memory, fresh, agrees, breaks⟩ := ih (length - header.length) (by omega)
              false (by omega) fun inner =>
                wrong (.encapsulates found encapsulates consumes fits inner)
            have same : ipHeader memory (capture.length - length) length = some header := by
              rw [agrees.agree.ipHeader (by omega), found]
            refine ⟨memory, fresh, agrees, Breaks.outer ?_ same encapsulates⟩
            rw [width.sub_of_le fits (by omega), show capture.length - length +
              header.length = capture.length - (length - header.length) by omega]
            exact breaks
          · refine ⟨capture.byte, ⟨0, 0⟩, starts, fun budget packet start ends _ result call => ?_⟩
            rw [repeats_never budget _ packet (by omega) (by rw [start, ends, found])
              encapsulates (by omega)] at call
            simp at call
        · have agrees := leafMemory_starts capture (capture.length - length + header.length)
          have same : ipHeader (leafMemory capture (capture.length - length + header.length))
              (capture.length - length) length = some header := by
            rw [agrees.agree.ipHeader (by omega), found]
          refine ⟨_, ⟨0, 0⟩, agrees, Breaks.outer ?_ same encapsulates⟩
          apply leafMemory_breaks width (by omega)
          rw [width.sub_of_lt (Nat.lt_of_not_le fits)]
          omega
      · refine ⟨capture.byte, ⟨(word capture.byte (capture.length - length + header.length) + 1) %
          65536, 0⟩, starts, breaks_of_headed found encapsulates ?_⟩
        intro packet start ends stored
        apply headed_inconsistent capture.length (by rw [start, ends, found]) (by omega)
          (by rw [stored, start])
        intro complete
        rw [start, ends] at complete
        exact wrong (.innermost found encapsulates complete)

/-- A cooked frame has room for the address that its header announces. -/
def AddressFits (capture : Capture) (datalink : Int) : Prop :=
  datalink = dltLinuxSll → 16 ≤ capture.length →
    6 + word capture.byte 4 % 256 ≤ capture.length

theorem linkAddresses_inside_iff (capture : Capture) (datalink : Int) :
    ((∀ address, (linkAddresses capture datalink).1.src = some address →
        address + (linkAddresses capture datalink).2 ≤ capture.length) ∧
      ∀ address, (linkAddresses capture datalink).1.dst = some address →
        address + (linkAddresses capture datalink).2 ≤ capture.length) ↔
    AddressFits capture datalink := by
  simp only [linkAddresses, AddressFits]
  by_cases ethernet : datalink = dltEn10mb ∨ datalink = dltIeee802
  · have notCooked : datalink ≠ dltLinuxSll := by
      rcases ethernet with rfl | rfl <;> decide
    by_cases long : 14 ≤ capture.length
    · simp only [ethernet, long, notCooked, and_self, if_true, false_implies, iff_true]
      constructor
      · rintro address ⟨⟩
        omega
      · rintro address ⟨⟩
        omega
    · simp [long, notCooked]
  · by_cases cooked : datalink = dltLinuxSll ∧ 16 ≤ capture.length
    · obtain ⟨rfl, long⟩ := cooked
      simp [ethernet, long]
    · simp only [ethernet, cooked, false_and, if_false]
      simp
      grind

/-- The structure of a frame is consistent when its addresses are captured. -/
theorem frame_consistent_iff {datalink : Int} {frame : PacketInfo}
    (parsed : FrameParsed capture datalink frame) (layer : packet.layer = frame.layer)
    (ipProtocol : packet.ipProtocol = frame.ipProtocol)
    (addresses : packet.addresses = frame.addresses) (addrLen : packet.addrLen = frame.addrLen)
    (memory : PacketMemory) :
    packet.Consistent memory capture.length ↔ AddressFits capture datalink := by
  rw [← linkAddresses_inside_iff, ← parsed.addresses, ← parsed.addrLen, ← addresses, ← addrLen]
  constructor
  · exact fun consistent => ⟨consistent.src, consistent.dst⟩
  · intro inside
    have notIp : ¬ packet.Ip := by
      simp [PacketInfo.Ip, ipProtocol, parsed.ipProtocol]
    have link : packet.layer ≠ 'I' := layer ▸ parsed.layer
    constructor
    case hdrLength => exact fun ip => absurd ip notIp
    case src => exact inside.1
    case dst => exact inside.2
    all_goals exact fun layer => absurd layer link

/-- The parser returns consistent packets exactly for the captures whose headers all end inside
the packets and whose cooked address is captured. -/
theorem ucParsePacket_consistent_iff (width : Width) (capture : Capture) (interface : String)
    (direction : Direction) (timestamp : Nat) (datalink : Int) :
    (∀ (memory : PacketMemory), capture.Starts memory → ∀ (pool : Nat → PacketInfo),
      ∃ budget result, (ucParsePacket width memory budget pool
          (capture.packet interface direction timestamp) datalink).result = some result ∧
        ∀ last, result.Reaches last → last.Consistent memory capture.length) ↔
    AddressFits capture datalink ∧
      ∀ length, payload capture datalink = some length → Regular capture true length := by
  have starts : capture.Starts capture.byte := fun _ _ => rfl
  constructor
  · intro consistent
    constructor
    · by_cases raw : datalink = dltRaw
      · intro cooked
        simp [raw, dltRaw, dltLinuxSll] at cooked
      obtain ⟨frame, parsed, call⟩ :=
        ucParsePacket_frame width starts interface direction timestamp raw
      obtain ⟨budget, result, returned, chain⟩ := consistent capture.byte starts fun _ => .zero
      have here := chain result .here
      cases budget with
      | zero => simp [ucParsePacket] at returned
      | succ budget =>
        rw [call] at returned
        cases found : payload capture datalink with
        | none =>
          simp only [found, Option.some.injEq] at returned
          subst returned
          exact (frame_consistent_iff parsed (by rfl) (by rfl) (by rfl) (by rfl) _).mp here
        | some length =>
          simp only [found, map_eq_some_iff] at returned
          obtain ⟨next, _, rfl⟩ := returned
          exact (frame_consistent_iff parsed (by rfl) (by rfl) (by rfl) (by rfl) _).mp here
    · intro length found
      by_contra wrong
      obtain ⟨memory, fresh, agrees, breaks⟩ :=
        exists_breaking width capture true length (payload_le found) wrong
      obtain ⟨budget, result, returned, chain⟩ :=
        consistent memory agrees fun _ => { PacketInfo.zero with ports := fresh }
      by_cases raw : datalink = dltRaw
      · obtain rfl : capture.length = length := by simpa [payload, raw] using found
        rw [raw] at returned
        obtain ⟨last, reaches, inconsistent⟩ := breaks budget _
          (by simp [Capture.packet, PacketInfo.zero]) rfl rfl result returned
        exact inconsistent (chain last reaches)
      · obtain ⟨frame, parsed, call⟩ :=
          ucParsePacket_frame width agrees interface direction timestamp raw
        cases budget with
        | zero => simp [ucParsePacket] at returned
        | succ budget =>
          simp only [call, found, map_eq_some_iff] at returned
          obtain ⟨next, inner, rfl⟩ := returned
          obtain ⟨last, reaches, inconsistent⟩ := breaks budget _ rfl rfl rfl next inner
          exact inconsistent (chain last (.next rfl reaches))
  · rintro ⟨fits, regular⟩ memory agrees pool
    by_cases raw : datalink = dltRaw
    · rw [raw]
      exact (regular _ (by simp [payload, raw])).consistent width agrees le_rfl pool _
        (by simp [Capture.packet, PacketInfo.zero]) rfl fun _ => rfl
    · obtain ⟨frame, parsed, call⟩ :=
        ucParsePacket_frame width agrees interface direction timestamp raw
      cases found : payload capture datalink with
      | none =>
        refine ⟨1, frame, by simp [call, found], fun last reaches => ?_⟩
        cases reaches with
        | here => exact (frame_consistent_iff parsed (by rfl) (by rfl) (by rfl) (by rfl) memory).mpr fits
        | next some => simp [parsed.next] at some
      | some length =>
        obtain ⟨budget, next, inner, chain⟩ := (regular length found).consistent width agrees
          (payload_le found) (fun index => pool (index + 1))
          (payloadPacket (capture.packet interface direction timestamp) length) rfl rfl
          fun _ => rfl
        refine ⟨budget + 1, { frame with next := some next }, by simp [call, found, inner],
          fun last reaches => ?_⟩
        cases reaches with
        | here => exact (frame_consistent_iff parsed (by rfl) (by rfl) (by rfl) (by rfl) memory).mpr fits
        | next some rest =>
          simp only [Option.some.injEq] at some
          subst some
          exact chain last rest

/-- This IPv4 packet claims an UDP header behind a header of sixty bytes. -/
theorem ucParsePacket_long_header :
    longHeader.Starts longHeader.byte ∧ ∃ result,
      (ucParsePacket .bits64 longHeader.byte 1 (fun _ => .zero)
        (longHeader.packet "eth0" .incoming 0) dltRaw).result = some result ∧
      result.Ip ∧ result.appProtocol = 'U' ∧ result.length = 20 ∧ result.hdrLength = 68 := by
  refine ⟨fun _ _ => rfl, headed .bits64 longHeader.byte ⟨4, ⟨12, 16⟩, 4, 60, 17⟩
    (longHeader.packet "eth0" .incoming 0) none, ?_, Or.inl rfl, ?_, rfl, ?_⟩
  · rw [ucParsePacket_result]
    rfl
  · decide
  · decide

end Ucollect.Core
