import Ucollect.Construction.Refused.Connections
import Ucollect.Proof.Packet.Consistency

namespace Ucollect.Refused
open Option

open Ucollect.Core

variable {packet : PacketInfo}

theorem innermost_last (last : packet.next = none) : innermost packet = packet := by
  cases packet
  subst last
  rw [innermost]

theorem innermost_next {packet next : PacketInfo} (found : packet.next = some next) :
    innermost packet = innermost next := by
  cases packet
  subst found
  rw [innermost]

/-- A packet ends where the capture ends, up to the overflow of its length. -/
structure EndsWith (width : Width) (capture : Capture) (packet : PacketInfo) : Prop where
  length : packet.length < width.modulus
  ends : (packet.data + packet.length) % width.modulus = capture.length

variable {capture : Capture}

theorem EndsWith.of_eq (width : Width) (same : packet.data + packet.length = capture.length) :
    EndsWith width capture packet := by
  have small := capture.fits
  have captured : capture.bytes.length = capture.length := rfl
  have wide : 2 ^ 32 ≤ width.modulus := by cases width <;> decide
  exact ⟨by omega, by rw [same, Nat.mod_eq_of_lt (by omega)]⟩

variable {width : Width}

/-- A packet that starts inside the capture ends with it. -/
theorem EndsWith.exact (ends : EndsWith width capture packet)
    (inside : packet.data ≤ capture.length) :
    packet.data + packet.length = capture.length := by
  have small := capture.fits
  have captured : capture.bytes.length = capture.length := rfl
  have wide : 2 ^ 32 ≤ width.modulus := by cases width <;> decide
  have length := ends.length
  have same := ends.ends
  by_cases wraps : packet.data + packet.length < width.modulus
  · rwa [Nat.mod_eq_of_lt wraps] at same
  · rw [Nat.mod_eq_sub_mod (by omega), Nat.mod_eq_of_lt (by omega)] at same
    omega

/-- The packet behind a header ends where the packet with the header ends. -/
theorem EndsWith.inside (ends : EndsWith width capture packet) {header : IpHeader}
    (small : header.length ≤ 60) (fresh : PacketInfo) :
    EndsWith width capture (inside width header packet fresh) := by
  have wide : 2 ^ 32 ≤ width.modulus := by cases width <;> decide
  constructor
  · exact Nat.mod_lt _ (by omega)
  · simp only [Core.inside, Width.sub]
    rw [Nat.add_mod_mod, show packet.data + header.length +
      (packet.length + width.modulus - header.length) =
        packet.data + packet.length + width.modulus by omega, Nat.add_mod_right, ends.ends]

/-- Every call on an IP packet keeps the end of the packet for the innermost packet. -/
theorem EndsWith.innermost {width : Width} {capture : Capture} {memory : PacketMemory}
    {budget : Nat} {pool : Nat → PacketInfo} {packet result : PacketInfo}
    (ends : EndsWith width capture packet)
    (parsed : (ucParsePacket width memory budget pool packet dltRaw).result = some result) :
    EndsWith width capture (Refused.innermost result) := by
  induction budget generalizing pool packet result with
  | zero => simp [ucParsePacket] at parsed
  | succ budget ih =>
    rw [ucParsePacket_result] at parsed
    cases found : ipHeader memory packet.data packet.length with
    | none =>
      obtain rfl : headerless memory packet = result := by simpa [found] using parsed
      rw [innermost_last rfl]
      exact ⟨ends.length, ends.ends⟩
    | some header =>
      simp only [found] at parsed
      have small : header.length ≤ 60 := (ipHeader_bounds found).2
      by_cases encapsulates : header.Encapsulates
      · simp only [encapsulates, if_true, map_eq_some_iff] at parsed
        obtain ⟨next, inner, rfl⟩ := parsed
        rw [@innermost_next _ next rfl]
        exact ih (ends.inside small (pool 0)) inner
      · simp only [encapsulates, if_false, Option.some.injEq] at parsed
        subst parsed
        rw [innermost_last rfl]
        exact ⟨ends.length, ends.ends⟩

variable {memory : PacketMemory}

/-- The innermost IP packet of a capture ends with the capture. -/
theorem innermost_endsWith (starts : capture.Starts memory) {interface : String}
    {direction : Direction} {timestamp budget : Nat} {pool : Nat → PacketInfo} {datalink : Int}
    {result : PacketInfo}
    (parsed : (ucParsePacket width memory budget pool
      (capture.packet interface direction timestamp) datalink).result = some result)
    (ip : (innermost result).layer = 'I') : EndsWith width capture (innermost result) := by
  by_cases raw : datalink = dltRaw
  · rw [raw] at parsed
    refine EndsWith.innermost (.of_eq width ?_) parsed
    simp [Capture.packet, PacketInfo.zero]
  · cases budget with
    | zero => simp [ucParsePacket] at parsed
    | succ budget =>
      obtain ⟨frame, fields, calls⟩ :=
        ucParsePacket_frame width starts interface direction timestamp raw
      rw [calls] at parsed
      cases carried : payload capture datalink with
      | none =>
        obtain rfl : frame = result := by simpa [carried] using parsed
        rw [innermost_last fields.next] at ip
        exact absurd ip fields.layer
      | some length =>
        simp only [carried, map_eq_some_iff] at parsed
        obtain ⟨next, inner, rfl⟩ := parsed
        rw [@innermost_next _ next rfl]
        refine EndsWith.innermost (.of_eq width ?_) inner
        have fits := payload_le carried
        simp only [payloadPacket, Capture.packet]
        omega

/-- The quoted packet stands behind the ICMP header. -/
def quoted (packet : PacketInfo) : Nat := packet.data + packet.hdrLength + headerSize

/-- The event names the remote end of the quoted TCP packet, and the capture contains all that
the event takes from it. -/
structure NakEvent.Sound (capture : Capture) (packet : PacketInfo) (event : NakEvent) : Prop where
  copied : event.nak.addrLen = copiedLen event.v6
  address : event.nak.addr + event.nak.addrLen ≤ capture.length
  header : ∃ header, ipHeader capture.byte (quoted packet) (capture.length - quoted packet) =
    some header ∧ header.protocol = 6 ∧ iphdrSize ≤ header.length ∧
    event.nak.addr = header.addresses.dst ∧
    quoted packet + header.length + quotedSize ≤ capture.length ∧
    event.nak.locPort = word capture.byte (quoted packet + header.length) ∧
    event.nak.destPort = word capture.byte (quoted packet + header.length + 2)

/-- The quoted header stands inside the capture, has the version of the header around it and
claims all of its own fixed part. -/
structure Matches (capture : Capture) (packet : PacketInfo) : Prop where
  inside : packet.data + packet.hdrLength ≤ capture.length
  version : ipVersion capture.byte (quoted packet) = packet.ipProtocol
  whole : packet.ipProtocol = 4 → 5 ≤ ipIhl capture.byte (quoted packet)

instance (capture : Capture) (packet : PacketInfo) : Decidable (Matches capture packet) :=
  decidable_of_iff (packet.data + packet.hdrLength ≤ capture.length ∧
    ipVersion capture.byte (quoted packet) = packet.ipProtocol ∧
    (packet.ipProtocol = 4 → 5 ≤ ipIhl capture.byte (quoted packet)))
    ⟨fun ⟨inside, version, whole⟩ => ⟨inside, version, whole⟩,
      fun ⟨inside, version, whole⟩ => ⟨inside, version, whole⟩⟩

/-- The parser of refusals accepts nothing but a quoted TCP header. -/
structure Quotes (width : Width) (memory : PacketMemory) (packet : PacketInfo) (nak : Nak)
    (ipLen : Nat) : Prop where
  address : quotedAddress memory (width.sub packet.length packet.hdrLength) (quoted packet) =
    some (nak.addrLen, nak.addr, ipLen)
  room : headerSize + iphdrSize ≤ width.sub packet.length packet.hdrLength
  rest : headerSize + ipLen + quotedSize ≤ width.sub packet.length packet.hdrLength
  locPort : nak.locPort = word memory (quoted packet + ipLen)
  destPort : nak.destPort = word memory (quoted packet + ipLen + 2)

theorem nakParse_quotes {nak : Nak} (found : nakParse width memory packet = some nak) :
    ∃ ipLen, Quotes width memory packet nak ipLen := by
  simp [nakParse, bind_eq_some_iff] at found
  obtain ⟨_, _, room, addrLen, addr, ipLen, address, rest, type, _, rfl⟩ := found
  exact ⟨ipLen, address, room, rest, rfl, rfl⟩

variable {ipLen : Nat}

theorem quotedAddress_cases {dataLen ip addrLen addr : Nat}
    (found : quotedAddress memory dataLen ip = some (addrLen, addr, ipLen)) :
    (ipVersion memory ip = 4 ∧ memory (ip + 9) = 6 ∧ addrLen = 4 ∧ addr = ip + 16 ∧
      ipLen = headerSizeUnit * ipIhl memory ip) ∨
    (ipVersion memory ip = 6 ∧ memory (ip + 6) = 6 ∧ addrLen = 16 ∧ addr = ip + 24 ∧
      ipLen = ip6HdrSize) := by
  by_cases four : ipVersion memory ip = 4
  · rw [quotedAddress, if_pos four] at found
    split_ifs at found with fragment protocol
    simp only [Option.some.injEq, Prod.mk.injEq] at found
    simp_all
  · rw [quotedAddress, if_neg four] at found
    split_ifs at found with six short protocol
    simp only [Option.some.injEq, Prod.mk.injEq] at found
    simp_all

/-- The quoted header is the header at the end of the capture. -/
theorem Quotes.header (starts : capture.Starts memory) {nak : Nak}
    (quotes : Quotes width memory packet nak ipLen)
    (ends : quoted packet + width.sub packet.length packet.hdrLength =
      capture.length + headerSize) :
    ∃ header, ipHeader capture.byte (quoted packet) (capture.length - quoted packet) =
      some header ∧ header.protocol = 6 ∧ header.length = ipLen ∧
      header.addresses.dst = nak.addr ∧ header.addrLen = nak.addrLen ∧
      header.version = ipVersion memory (quoted packet) := by
  have room := quotes.room
  have rest := quotes.rest
  simp only [headerSize, iphdrSize, quotedSize] at room rest ends
  have same := starts.agree.ipHeader
    (show quoted packet + (capture.length - quoted packet) ≤ capture.length by omega)
  rw [← same]
  have long : ¬ capture.length - quoted packet < iphdrSize := by
    simp only [iphdrSize]
    omega
  rcases quotedAddress_cases quotes.address with
    ⟨version, protocol, addrLen, addr, length⟩ | ⟨version, protocol, addrLen, addr, length⟩
  · exact ⟨_, by rw [ipHeader, if_neg long, if_pos version],
      by simp [protocol], length.symm, addr.symm, addrLen.symm, version.symm⟩
  · have long6 : ¬ capture.length - quoted packet < ip6HdrSize := by
      simp only [ip6HdrSize] at length ⊢
      omega
    exact ⟨_, by rw [ipHeader, if_neg long, if_neg (by omega), if_pos version, if_neg long6],
      by simp [protocol], length.symm, addr.symm, addrLen.symm, version.symm⟩

/-- The key takes as many bytes as the address has exactly where the versions agree. -/
theorem Quotes.copied_iff {nak : Nak} (quotes : Quotes width memory packet nak ipLen)
    (known : packet.ipProtocol = 4 ∨ packet.ipProtocol = 6) :
    nak.addrLen = copiedLen (packet.ipProtocol = 6) ↔
      ipVersion memory (quoted packet) = packet.ipProtocol := by
  rcases quotedAddress_cases quotes.address with
    ⟨version, _, addrLen, _⟩ | ⟨version, _, addrLen, _⟩ <;>
  rcases known with outer | outer <;>
  simp [version, addrLen, outer, copiedLen]

/-- Right evidence comes from a header that matches. -/
theorem NakEvent.Sound.matches (starts : capture.Starts memory)
    (known : packet.ipProtocol = 4 ∨ packet.ipProtocol = 6) {nak : Nak}
    (quotes : Quotes width memory packet nak ipLen)
    (sound : NakEvent.Sound capture packet ⟨nak, packet.ipProtocol = 6⟩) :
    Matches capture packet := by
  have place : quoted packet = packet.data + packet.hdrLength + 8 := rfl
  have address : nak.addr + nak.addrLen ≤ capture.length := sound.address
  have behind : quoted packet ≤ nak.addr := by
    rcases quotedAddress_cases quotes.address with ⟨_, _, _, addr, _⟩ | ⟨_, _, _, addr, _⟩ <;>
    omega
  have positive : 0 < nak.addrLen := by
    rcases quotedAddress_cases quotes.address with ⟨_, _, len, _⟩ | ⟨_, _, len, _⟩ <;> omega
  have read := starts (quoted packet) (by omega)
  have version : ipVersion capture.byte (quoted packet) = packet.ipProtocol := by
    rw [ipVersion, ← read, ← ipVersion]
    exact (quotes.copied_iff known).mp sound.copied
  refine ⟨by omega, version, fun four => ?_⟩
  obtain ⟨header, same, _, whole, _⟩ := sound.header
  obtain ⟨_, _, length⟩ := ipHeader_spec same
  have inner : header.version = 4 := by
    rw [four] at version
    unfold ipHeader at same
    grind
  rw [if_pos inner] at length
  simp only [iphdrSize, headerSizeUnit] at whole length
  omega

/-- A header that matches gives right evidence. -/
theorem Matches.sound (starts : capture.Starts memory) (ends : EndsWith width capture packet)
    (known : packet.ipProtocol = 4 ∨ packet.ipProtocol = 6) {nak : Nak}
    (quotes : Quotes width memory packet nak ipLen) (matched : Matches capture packet) :
    NakEvent.Sound capture packet ⟨nak, packet.ipProtocol = 6⟩ := by
  have place : quoted packet = packet.data + packet.hdrLength + 8 := rfl
  have inside := matched.inside
  have exact := ends.exact (by omega)
  have small := capture.fits
  have captured : capture.bytes.length = capture.length := rfl
  have wide : 2 ^ 32 ≤ width.modulus := by cases width <;> decide
  have dataLen : width.sub packet.length packet.hdrLength = packet.length - packet.hdrLength :=
    width.sub_of_le (by omega) (by omega)
  have rest := quotes.rest
  simp only [dataLen, headerSize, quotedSize] at rest
  have within : quoted packet + ipLen + 8 ≤ capture.length := by omega
  have read := starts (quoted packet) (by omega)
  have version : ipVersion memory (quoted packet) = packet.ipProtocol := by
    rw [ipVersion, read, ← ipVersion, matched.version]
  obtain ⟨header, same, protocol, length, dst, addrLen, _⟩ :=
    quotes.header starts (by simp only [headerSize]; omega)
  obtain ⟨_, address, claimed⟩ := ipHeader_spec same
  have whole : iphdrSize ≤ header.length := by
    by_cases four : header.version = 4
    · have ihl := matched.whole (by omega)
      rw [claimed, if_pos four]
      simp only [iphdrSize, headerSizeUnit]
      omega
    · rw [claimed, if_neg four]
      decide
  constructor
  case copied => exact (quotes.copied_iff known).mpr version
  case address =>
    rw [← dst, ← addrLen]
    exact address.trans (by omega)
  case header =>
    refine ⟨header, same, protocol, whole, dst.symm, ?_, ?_, ?_⟩
    · rw [length]
      exact within
    · rw [quotes.locPort, length]
      exact starts.agree.word (by omega)
    · rw [quotes.destPort, length]
      exact starts.agree.word (by omega)

/-- A received refusal becomes evidence with the right address and the right ports exactly where
the quoted header matches. -/
theorem icmpEvent_sound_iff (width : Width) (capture : Capture) (interface : String)
    (direction : Direction) (timestamp : Nat) (datalink : Int) (memory : PacketMemory)
    (starts : capture.Starts memory) (budget : Nat) (pool : Nat → PacketInfo)
    (result : PacketInfo)
    (parsed : (ucParsePacket width memory budget pool
      (capture.packet interface direction timestamp) datalink).result = some result)
    (event : NakEvent) (reported : icmpEvent width memory result = some event) :
    event.Sound capture (innermost result) ↔ Matches capture (innermost result) := by
  simp only [icmpEvent] at reported
  split_ifs at reported with received
  obtain ⟨ip, known, _, _⟩ := received
  simp only [map_eq_some_iff] at reported
  obtain ⟨nak, found, rfl⟩ := reported
  obtain ⟨ipLen, quotes⟩ := nakParse_quotes found
  exact ⟨NakEvent.Sound.matches starts known quotes,
    Matches.sound starts (innermost_endsWith starts parsed ip) known quotes⟩

/-- An ICMP error of an IPv4 router quotes a TCP packet to port 80. -/
def unreachable : Capture where
  bytes := [0x45, 0, 0, 56, 0, 0, 0, 0, 64, 1, 0, 0, 10, 0, 0, 1, 10, 0, 0, 2,
    3, 1, 0, 0, 0, 0, 0, 0,
    0x45, 0, 0, 40, 0, 0, 0, 0, 64, 6, 0, 0, 10, 0, 0, 2, 10, 0, 0, 3,
    200, 0, 0, 80, 0, 0, 0, 1]
  fits := by decide

/-- The evidence names the quoted destination and both quoted ports. -/
theorem icmpEvent_sound_iff_unreachable :
    let packet := headed .bits64 unreachable.byte ⟨4, ⟨12, 16⟩, 4, 20, 1⟩
      (unreachable.packet "eth0" .incoming 0) none
    NakEvent.Sound unreachable (innermost packet) ⟨⟨'H', 4, 44, 51200, 80⟩, false⟩ ↔
      Matches unreachable (innermost packet) :=
  icmpEvent_sound_iff .bits64 unreachable "eth0" .incoming 0 dltRaw unreachable.byte
    (fun _ _ => rfl) 1 (fun _ => .zero) _ (by rw [ucParsePacket_result]; rfl) _ (by decide +kernel)

/-- An ICMPv6 error quotes an IPv4 packet at the end of the capture. -/
def mixed : Capture where
  bytes := [0x60, 0, 0, 0, 0, 36, 58, 64, 0, 0, 0, 0, 0, 0, 0, 0, 0, 0, 0, 0, 0, 0, 0, 1,
    0, 0, 0, 0, 0, 0, 0, 0, 0, 0, 0, 0, 0, 0, 0, 2,
    1, 0, 0, 0, 0, 0, 0, 0,
    0x45, 0, 0, 40, 0, 0, 0, 0, 64, 6, 0, 0, 10, 0, 0, 2, 10, 0, 0, 3,
    200, 0, 0, 80, 0, 0, 0, 1]
  fits := by decide

/-- The key takes sixteen bytes from an address of four, and the last of them are not captured. -/
theorem icmpEvent_mixed :
    let packet := headed .bits64 mixed.byte ⟨6, ⟨8, 24⟩, 16, 40, 58⟩
      (mixed.packet "eth0" .incoming 0) none
    let event : NakEvent := ⟨⟨'N', 4, 64, 51200, 80⟩, true⟩
    mixed.Starts mixed.byte ∧
    (ucParsePacket .bits64 mixed.byte 1 (fun _ => .zero) (mixed.packet "eth0" .incoming 0)
      dltRaw).result = some packet ∧
    icmpEvent .bits64 mixed.byte packet = some event ∧
    mixed.length < event.nak.addr + copiedLen event.v6 ∧
    ¬ event.Sound mixed (innermost packet) := by
  refine ⟨fun _ _ => rfl, by rw [ucParsePacket_result]; rfl, by decide +kernel, by decide, ?_⟩
  intro sound
  have copied := sound.copied
  simp [copiedLen] at copied

end Ucollect.Refused
