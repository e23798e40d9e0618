import Ucollect.Proof.Packet.Link

namespace Ucollect.Core
open Function

/-- A complete IP header names its own length and the protocol behind it. -/
structure IpHeader where
  version : Nat
  addresses : Ends Nat
  addrLen : Nat
  length : Nat
  protocol : Nat
  deriving DecidableEq, Repr

def ipHeader (memory : PacketMemory) (data length : Nat) : Option IpHeader :=
  if length < iphdrSize then none
  else if ipVersion memory data = 4 then
    some ⟨4, ⟨data + 12, data + 16⟩, 4, headerSizeUnit * ipIhl memory data,
      (memory (data + 9)).toNat⟩
  else if ipVersion memory data = 6 then
    if length < ip6HdrSize then none
    else some ⟨6, ⟨data + 8, data + 24⟩, 16, ip6HdrSize, (memory (data + 6)).toNat⟩
  else none

def IpHeader.Encapsulates (header : IpHeader) : Prop := header.protocol = 4 ∨ header.protocol = 41

instance (header : IpHeader) : Decidable header.Encapsulates := by
  unfold IpHeader.Encapsulates
  infer_instance

/-- The version of a packet without a complete header may be stored nevertheless. -/
def otherVersion (memory : PacketMemory) (data length : Nat) : Nat :=
  if length < iphdrSize ∨ ipVersion memory data = 6 then 0 else ipVersion memory data

/-- These fields follow from what stands behind the IP header. -/
structure Content where
  appProtocol : Char
  hdrLength : Nat
  ports : Ends Nat
  tcpFlags : Nat

/-- A truncated UDP header leaves the ports of the structure alone. -/
def content (width : Width) (memory : PacketMemory) (header : IpHeader) (data length : Nat)
    (stored : Ends Nat) : Content :=
  let below := data + header.length
  let rest := width.sub length header.length
  let ports : Ends Nat := ⟨word memory below, word memory (below + 2)⟩
  if header.protocol = 1 then ⟨'i', header.length, ⟨0, 0⟩, 0⟩
  else if header.protocol = 4 then ⟨'4', header.length, ⟨0, 0⟩, 0⟩
  else if header.protocol = 41 then ⟨'6', header.length, ⟨0, 0⟩, 0⟩
  else if header.protocol = 6 then
    if rest < tcpPortsSize then ⟨'?', header.length, ⟨0, 0⟩, 0⟩
    else ⟨'T', header.length + headerSizeUnit * ((memory (below + 12)).toNat / 16), ports,
      (memory (below + 13)).toNat⟩
  else if header.protocol = 17 then
    if rest < udpLength then ⟨'U', header.length, stored, 0⟩
    else ⟨'U', header.length + udpLength, ports, 0⟩
  else if header.protocol = 58 then ⟨'I', header.length, ⟨0, 0⟩, 0⟩
  else ⟨'?', header.length, ⟨0, 0⟩, 0⟩

/-- A packet without a complete header keeps only the length of the headers. -/
def headerless (memory : PacketMemory) (packet : PacketInfo) : PacketInfo :=
  { packet with
    next := none
    addresses := ⟨none, none⟩
    ports := ⟨0, 0⟩
    layer := 'I'
    layerRaw := dltRaw
    ipProtocol := otherVersion memory packet.data packet.length
    appProtocol := '\x00'
    appProtocolRaw := 0xff
    addrLen := 0
    tcpFlags := 0
    vlanTag := 0 }

/-- The header and the content behind it fill in everything that the caller did not. -/
def headed (width : Width) (memory : PacketMemory) (header : IpHeader) (packet : PacketInfo)
    (next : Option PacketInfo) : PacketInfo :=
  let content := content width memory header packet.data packet.length packet.ports
  { packet with
    next := next
    hdrLength := content.hdrLength
    addresses := ⟨some header.addresses.src, some header.addresses.dst⟩
    ports := content.ports
    layer := 'I'
    layerRaw := dltRaw
    ipProtocol := header.version
    appProtocol := content.appProtocol
    appProtocolRaw := header.protocol
    addrLen := header.addrLen
    tcpFlags := content.tcpFlags
    vlanTag := 0 }

/-- The packet inside reuses a structure of the pool. -/
def inside (width : Width) (header : IpHeader) (packet fresh : PacketInfo) : PacketInfo :=
  { fresh with
    data := packet.data + header.length
    length := width.sub packet.length header.length
    interface := packet.interface
    direction := packet.direction
    timestamp := packet.timestamp }

theorem ipHeader_version {memory : PacketMemory} {data length : Nat} {header : IpHeader}
    (found : ipHeader memory data length = some header) :
    header.version = 4 ∨ header.version = 6 := by
  unfold ipHeader at found
  grind

/-- The parser continues below the header with these fields. -/
def entered (header : IpHeader) (packet : PacketInfo) : PacketInfo :=
  { packet with
    layer := 'I'
    layerRaw := dltRaw
    ipProtocol := header.version
    addresses := ⟨some header.addresses.src, some header.addresses.dst⟩
    addrLen := header.addrLen
    hdrLength := header.length
    appProtocolRaw := header.protocol }

/-- The part below the header fills in the content. -/
theorem parseBelowIp_result (width : Width) (memory : PacketMemory) {header : IpHeader}
    (known : header.version = 4 ∨ header.version = 6) (fresh : PacketInfo)
    (inner : PacketInfo → Parsed) (packet : PacketInfo) :
    ((parseBelowIp width memory fresh inner (entered header packet)).andThen postprocess).result =
      if header.Encapsulates then
        (inner (inside width header packet fresh)).result.map fun next =>
          headed width memory header packet (some next)
      else some (headed width memory header packet none) := by
  by_cases icmp : header.protocol = 1
  · simp [parseBelowIp, entered, IpHeader.Encapsulates, icmp, Parsed.done, Parsed.andThen,
      postprocess, known, headed, content]
  by_cases ip4 : header.protocol = 4
  · simp [parseBelowIp, entered, IpHeader.Encapsulates, ip4, Parsed.andThen, accessing, postprocess,
      known, headed, content, inside, comp_def]
  by_cases ip6 : header.protocol = 41
  · simp [parseBelowIp, entered, IpHeader.Encapsulates, ip6, Parsed.andThen, accessing, postprocess,
      known, headed, content, inside, comp_def]
  have plain : ¬ header.Encapsulates := by simp [IpHeader.Encapsulates, ip4, ip6]
  rw [if_neg plain]
  by_cases tcp : header.protocol = 6
  · by_cases short : width.sub packet.length header.length < tcpPortsSize
    · simp [parseBelowIp, entered, tcp, short, Parsed.done, Parsed.andThen, postprocess, known,
        headed, content]
    · simp [parseBelowIp, entered, tcp, short, Parsed.done, Parsed.andThen, accessing, postprocess,
        known, headed, content]
  by_cases udp : header.protocol = 17
  · by_cases short : width.sub packet.length header.length < udpLength
    · simp [parseBelowIp, entered, udp, short, Parsed.done, Parsed.andThen, postprocess, known,
        headed, content]
    · simp [parseBelowIp, entered, udp, short, Parsed.done, Parsed.andThen, accessing, postprocess,
        known, headed, content]
  by_cases icmp6 : header.protocol = 58
  · simp [parseBelowIp, entered, icmp6, Parsed.done, Parsed.andThen, postprocess, known, headed,
      content]
  · simp [parseBelowIp, entered, icmp, ip4, ip6, tcp, udp, icmp6, Parsed.done, Parsed.andThen,
      postprocess, known, headed, content]

/-- A call on an IP packet fills in its structure and calls itself for the packet inside. -/
theorem ucParsePacket_result (width : Width) (memory : PacketMemory) (budget : Nat)
    (pool : Nat → PacketInfo) (packet : PacketInfo) :
    (ucParsePacket width memory (budget + 1) pool packet dltRaw).result =
      match ipHeader memory packet.data packet.length with
      | none => some (headerless memory packet)
      | some header =>
        if header.Encapsulates then
          (ucParsePacket width memory budget (fun index => pool (index + 1))
            (inside width header packet (pool 0)) dltRaw).result.map fun next =>
              headed width memory header packet (some next)
        else some (headed width memory header packet none) := by
  have notEthernet : ¬ (dltRaw = dltEn10mb ∨ dltRaw = dltIeee802) := by decide
  rw [ucParsePacket]
  simp only [notEthernet, if_false, if_true]
  rw [parseInternal]
  by_cases short : packet.length < iphdrSize
  · simp [ipHeader, short, headerless, otherVersion, accessing, Parsed.done, Parsed.andThen,
      postprocess]
  by_cases version4 : ipVersion memory packet.data = 4
  · let header : IpHeader := ⟨4, ⟨packet.data + 12, packet.data + 16⟩, 4,
      headerSizeUnit * ipIhl memory packet.data, (memory (packet.data + 9)).toNat⟩
    simp only [ipHeader, short, version4, if_true, if_false]
    exact @parseBelowIp_result width memory header (Or.inl rfl) (pool 0) _ packet
  by_cases version6 : ipVersion memory packet.data = 6
  · by_cases short6 : packet.length < ip6HdrSize
    · simp [ipHeader, short, version6, short6, headerless, otherVersion, accessing, Parsed.done,
        Parsed.andThen, postprocess]
    · let header : IpHeader := ⟨6, ⟨packet.data + 8, packet.data + 24⟩, 16, ip6HdrSize,
        (memory (packet.data + 6)).toNat⟩
      simp only [ipHeader, short, version6, short6, if_true, if_false]
      exact @parseBelowIp_result width memory header (Or.inr rfl) (pool 0) _ packet
  · simp [ipHeader, short, version4, version6, headerless, otherVersion, accessing, Parsed.done,
      Parsed.andThen, postprocess]

/-- The IP packet of a frame starts from an initialized structure. -/
def payloadPacket (packet : PacketInfo) (length : Nat) : PacketInfo :=
  { PacketInfo.zero with
    data := packet.length - length
    length := length
    interface := packet.interface
    direction := packet.direction
    timestamp := packet.timestamp
    layer := 'I'
    appProtocol := '?' }

/-- The parser of the type field keeps what the parser of the frame stored. -/
structure TypeParsed (packet frame : PacketInfo) : Prop where
  next : frame.next = none
  layer : frame.layer = packet.layer
  ipProtocol : frame.ipProtocol = packet.ipProtocol
  addresses : frame.addresses = packet.addresses
  addrLen : frame.addrLen = packet.addrLen

theorem parseType_result (width : Width) (memory : PacketMemory) {packet : PacketInfo}
    {field : Nat} (start : packet.data = 0) (room : field + 2 ≤ packet.length)
    (fits : packet.length < 2 ^ 32) (empty : packet.next = none) :
    ∃ frame, TypeParsed packet frame ∧ ∀ inner : PacketInfo → Parsed,
      (parseType width memory inner packet field).result =
        match framed memory packet.length field with
        | none => some frame
        | some length => (inner (payloadPacket packet length)).result.map fun next =>
          { frame with next := some next } := by
  obtain ⟨bytes, header⟩ := linkHeader_spec memory packet.length field room
  simp only [parseType, framed, if_neg (show ¬ packet.length < field + 2 by omega), start,
    Nat.sub_zero]
  cases found : (linkHeader memory packet.length field field).header with
  | none =>
    refine ⟨{ packet with
      vlanTag := (linkHeader memory packet.length field field).vlanTag.getD packet.vlanTag },
      ⟨empty, rfl, rfl, rfl, rfl⟩, fun inner => ?_⟩
    simp [accessing, Parsed.done, start]
  | some link =>
    obtain ⟨same, behind⟩ := header link found
    have rest : width.sub packet.length link.skipped = packet.length - link.skipped :=
      width.sub_of_le behind fits
    have place : packet.length - (packet.length - link.skipped) = link.skipped := by omega
    by_cases ip : carriesIp link.type
    · refine ⟨{ packet with
        vlanTag := (linkHeader memory packet.length field field).vlanTag.getD packet.vlanTag
        next := none
        appProtocol := 'I' }, ⟨rfl, rfl, rfl, rfl, rfl⟩, fun inner => ?_⟩
      simp [accessing, ip, rest, Parsed.andThen, payloadPacket, place, same, start]
    · refine ⟨{ packet with
        vlanTag := (linkHeader memory packet.length field field).vlanTag.getD packet.vlanTag
        next := none
        appProtocol := linkProtocol link.type packet.appProtocol },
        ⟨rfl, rfl, rfl, rfl, rfl⟩, fun inner => ?_⟩
      simp [accessing, ip, Parsed.done, start]

/-- A frame stores the addresses of its link header. -/
def linkAddresses (capture : Capture) (datalink : Int) : Ends (Option Nat) × Nat :=
  if (datalink = dltEn10mb ∨ datalink = dltIeee802) ∧ 14 ≤ capture.length then
    (⟨some 6, some 0⟩, 6)
  else if datalink = dltLinuxSll ∧ 16 ≤ capture.length then
    (⟨some 6, none⟩, word capture.byte 4 % 256)
  else (⟨none, none⟩, 0)

/-- The structure of a frame is no IP packet. -/
structure FrameParsed (capture : Capture) (datalink : Int) (frame : PacketInfo) : Prop where
  next : frame.next = none
  layer : frame.layer ≠ 'I'
  ipProtocol : frame.ipProtocol = 0
  addresses : frame.addresses = (linkAddresses capture datalink).1
  addrLen : frame.addrLen = (linkAddresses capture datalink).2

/-- A call on a frame fills in its structure and calls itself for the IP packet of the frame. -/
theorem ucParsePacket_frame (width : Width) {capture : Capture} {memory : PacketMemory}
    (starts : capture.Starts memory) (interface : String) (direction : Direction)
    (timestamp : Nat) {datalink : Int} (frame : datalink ≠ dltRaw) :
    ∃ result, FrameParsed capture datalink result ∧ ∀ budget (pool : Nat → PacketInfo),
      (ucParsePacket width memory (budget + 1) pool
        (capture.packet interface direction timestamp) datalink).result =
        match payload capture datalink with
        | none => some result
        | some length => (ucParsePacket width memory budget (fun index => pool (index + 1))
            (payloadPacket (capture.packet interface direction timestamp) length)
            dltRaw).result.map fun next => { result with next := some next } := by
  have captured (field : Nat) : framed capture.byte capture.length field =
      framed memory capture.length field := (framed_agree starts.agree field).symm
  simp only [ucParsePacket, payload, if_neg frame, typeField]
  by_cases ethernet : datalink = dltEn10mb ∨ datalink = dltIeee802
  · have notCooked : datalink ≠ dltLinuxSll := by
      rcases ethernet with rfl | rfl <;> decide
    simp only [ethernet, if_true, captured, parseEthernet, Capture.packet]
    by_cases short : capture.length < 14
    · have none : linkAddresses capture datalink = (⟨none, none⟩, 0) := by
        simp [linkAddresses, notCooked, Nat.not_le.mpr short]
      simp only [framed, short, if_true]
      exact ⟨_, ⟨rfl, (by decide : 'E' ≠ 'I'), rfl, none ▸ rfl, none ▸ rfl⟩, fun _ _ => rfl⟩
    · have room : 12 + 2 ≤ capture.length := Nat.le_of_not_lt short
      have stored : linkAddresses capture datalink = (⟨some 6, some 0⟩, 6) := by
        rw [linkAddresses, if_pos ⟨ethernet, room⟩]
      simp only [short, if_false]
      let packet : PacketInfo := { capture.packet interface direction timestamp with
        layer := 'E', layerRaw := datalink, addresses := ⟨some 6, some 0⟩, addrLen := 6 }
      obtain ⟨result, parsed, same⟩ :=
        @parseType_result width memory packet 12 rfl room capture.fits rfl
      refine ⟨result, ⟨parsed.next, ?_, parsed.ipProtocol, ?_, ?_⟩, fun budget pool => same _⟩
      · rw [parsed.layer]
        exact (by decide : 'E' ≠ 'I')
      · rw [parsed.addresses, stored]
      · rw [parsed.addrLen, stored]
  · simp only [ethernet, if_false]
    by_cases cooked : datalink = dltLinuxSll
    · simp only [cooked, if_true, captured, parseCooked, Capture.packet]
      by_cases short : capture.length < 16
      · have none : linkAddresses capture dltLinuxSll = (⟨none, none⟩, 0) := by
          simp [linkAddresses, dltLinuxSll, dltEn10mb, dltIeee802, Nat.not_le.mpr short]
        simp only [framed, short, if_true]
        exact ⟨_, ⟨rfl, (by decide : 'S' ≠ 'I'), rfl, none ▸ rfl, none ▸ rfl⟩, fun _ _ => rfl⟩
      · have room : 14 + 2 ≤ capture.length := Nat.le_of_not_lt short
        have stored : linkAddresses capture dltLinuxSll =
            (⟨some 6, none⟩, word memory 4 % 256) := by
          rw [starts.agree.word (by omega)]
          simp [linkAddresses, dltLinuxSll, dltEn10mb, dltIeee802, show 16 ≤ capture.length from room]
        simp only [short, if_false]
        let packet : PacketInfo := { capture.packet interface direction timestamp with
          layer := 'S', layerRaw := dltLinuxSll, addresses := ⟨some 6, none⟩
          addrLen := word memory 4 % 256 }
        obtain ⟨result, parsed, same⟩ :=
          @parseType_result width memory packet 14 rfl room capture.fits rfl
        refine ⟨result, ⟨parsed.next, ?_, parsed.ipProtocol, ?_, ?_⟩, fun budget pool =>
          same fun next =>
            ucParsePacket width memory budget (fun index => pool (index + 1)) next dltRaw⟩
        · rw [parsed.layer]
          exact (by decide : 'S' ≠ 'I')
        · rw [parsed.addresses, stored]
        · rw [parsed.addrLen, stored]
    · have none : linkAddresses capture datalink = (⟨none, none⟩, 0) := by
        simp [linkAddresses, ethernet, cooked]
      simp only [cooked, if_false]
      exact ⟨_, ⟨rfl, (by decide : '?' ≠ 'I'), rfl, none ▸ rfl, none ▸ rfl⟩, fun _ _ => rfl⟩

end Ucollect.Core
