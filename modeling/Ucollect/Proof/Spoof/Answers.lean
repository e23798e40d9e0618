import Ucollect.Proof.Flow.Reading
import Ucollect.Proof.Packet.Fields
import Ucollect.Proof.Spoof.Checksum

/-
This file proves that each spoofed frame answers the ordinary packet before it, and what a receiver
reads from the frame.
-/

namespace Ucollect.Spoof
open Library Core List Option
open Flow (ByteOrder bytes_htons)
open Refused (innermost)

section Memory

variable {memory : PacketMemory} {offset : Nat} {bytes front back : Bytes}

/-- These bytes stand at the offset of the memory. -/
def Holds (memory : PacketMemory) (offset : Nat) (bytes : Bytes) : Prop :=
  ∀ index byte, bytes[index]? = some byte → memory (offset + index) = byte

theorem Holds.left (holds : Holds memory offset (front ++ back)) : Holds memory offset front := by
  intro index byte found
  obtain ⟨inside, _⟩ := List.getElem?_eq_some_iff.mp found
  exact holds index byte ((List.getElem?_append_left inside).trans found)

theorem Holds.right (holds : Holds memory offset (front ++ back)) :
    Holds memory (offset + front.length) back := by
  intro index byte found
  have place := holds (front.length + index) byte
  rw [List.getElem?_append_right (Nat.le_add_right _ _), Nat.add_sub_cancel_left,
    ← Nat.add_assoc] at place
  exact place found

theorem Holds.bytesAt (holds : Holds memory offset bytes) :
    bytesAt memory offset bytes.length = bytes := by
  apply ext_getElem (by rw [Spoof.bytesAt, length_map, length_range])
  intro index _ inside
  simp only [Spoof.bytesAt, getElem_map, getElem_range]
  exact holds index _ (List.getElem?_eq_getElem inside)

theorem length_addressAt {address : Option Nat} {size : Nat}
    (found : addressAt memory address size = some bytes) : bytes.length = size := by
  obtain ⟨offset, _, rfl⟩ := map_eq_some_iff.mp found
  rw [Spoof.bytesAt, length_map, length_range]

theorem Holds.word {number : Nat} (holds : Holds memory offset (word16 number))
    (small : number < 2 ^ 16) : word memory offset = number := by
  have high := holds 0 _ rfl
  have low := holds 1 _ rfl
  have value := bigEndian_word16 small
  rw [Nat.add_zero] at high
  rw [word16, bigEndian_pair] at value
  rw [Core.word, high, low, value]

theorem holds_capture {capture : Capture} (starts : capture.Starts memory) :
    Holds memory 0 capture.bytes := by
  intro index byte found
  obtain ⟨inside, same⟩ := List.getElem?_eq_some_iff.mp found
  rw [Nat.zero_add, starts index inside, Capture.byte, getD_eq_getElem?_getD, found]
  rfl

end Memory

section Receiving

variable {width : Width} {memory : PacketMemory} {length : Nat}

/-- The type field of a frame without a tag names IP. -/
theorem linkHeader_untagged (holds : Holds memory 12 (word16 0x0800)) :
    (linkHeader memory length 12 12).vlanTag = some 0 ∧
      (linkHeader memory length 12 12).header = some ⟨0x0800, 14, 14⟩ := by
  have type := holds.word (by decide)
  rw [linkHeader, skipTags, type]
  simp [type]

/-- The tag stands before the type field. -/
theorem linkHeader_tagged {tag : Nat} (small : tag < 2 ^ 16) (long : 18 < length)
    (holds : Holds memory 12 (word16 0x8100 ++ word16 tag ++ word16 0x0800)) :
    (linkHeader memory length 12 12).vlanTag = some tag ∧
      (linkHeader memory length 12 12).header = some ⟨0x0800, 18, 18⟩ := by
  have outer := holds.left.left.word (by decide)
  have middle : word memory 14 = tag := holds.left.right.word small
  have type : word memory 16 = 0x0800 := holds.right.word (by decide)
  have room : ¬ length ≤ 12 + 2 + 2 := by omega
  have room' : ¬ length ≤ 12 + 4 + 2 := by omega
  rw [linkHeader, skipTags, outer]
  simp [middle, type, room, room']

/-- The receiver of a frame continues with the packet behind the link header. -/
theorem ucParsePacket_ethernet {tag start : Nat} {capture : Capture} (interface : String)
    (direction : Direction) (timestamp budget : Nat) (pool : Nat → PacketInfo)
    (long : 14 ≤ capture.length)
    (link : (linkHeader memory capture.length 12 12).vlanTag = some tag ∧
      (linkHeader memory capture.length 12 12).header = some ⟨0x0800, start, start⟩) :
    (ucParsePacket width memory (budget + 1) pool (capture.packet interface direction timestamp)
        dltEn10mb).result =
      (ucParsePacket width memory budget (fun index => pool (index + 1))
        { PacketInfo.zero with
          data := start
          length := width.sub capture.length start
          interface := interface
          direction := direction
          timestamp := timestamp
          layer := 'I'
          appProtocol := '?' } dltRaw).result.map fun next =>
        { capture.packet interface direction timestamp with
          layerRaw := dltEn10mb
          layer := 'E'
          addresses := ⟨some 6, some 0⟩
          addrLen := 6
          vlanTag := tag
          appProtocol := 'I'
          next := some next } := by
  obtain ⟨named, header⟩ := link
  have short : ¬ capture.length < 14 := Nat.not_lt.mpr long
  rw [ucParsePacket]
  simp [dltEn10mb, parseEthernet, Capture.packet, short, PacketInfo.zero, parseType, named, header,
    accessing, carriesIp, Parsed.andThen]

/-- This is the IP header of the frame. -/
theorem ipHeader_frame {order : ByteOrder} {saddr daddr : Bytes} {check : UInt16} {start : Nat}
    (long : 20 ≤ length) (holds : Holds memory start (ipHeader order saddr daddr check)) :
    Core.ipHeader memory start length = some ⟨4, ⟨start + 12, start + 16⟩, 4, 20, 17⟩ := by
  have front := holds.left.left
  have first : memory start = 0x45 := front 0 _ rfl
  have protocol : memory (start + 9) = 17 := front 9 _ (by cases order <;> rfl)
  have short : ¬ length < iphdrSize := Nat.not_lt.mpr long
  rw [Core.ipHeader, if_neg short, ipVersion, ipIhl, first, protocol]
  rfl

/-- The IP packet of the frame carries the data behind a UDP header. -/
theorem ucParsePacket_udp {packet : PacketInfo} {rest : Nat}
    (header : Core.ipHeader memory packet.data packet.length =
      some ⟨4, ⟨packet.data + 12, packet.data + 16⟩, 4, 20, 17⟩)
    (size : packet.length = 28 + rest) (small : rest < 2 ^ 16) (budget : Nat)
    (pool : Nat → PacketInfo) :
    (ucParsePacket width memory (budget + 1) pool packet dltRaw).result =
      some { packet with
        next := none
        hdrLength := 28
        addresses := ⟨some (packet.data + 12), some (packet.data + 16)⟩
        ports := ⟨word memory (packet.data + 20), word memory (packet.data + 22)⟩
        layer := 'I'
        layerRaw := dltRaw
        ipProtocol := 4
        appProtocol := 'U'
        appProtocolRaw := 17
        addrLen := 4
        tcpFlags := 0
        vlanTag := 0 } := by
  have below : width.sub packet.length 20 = 8 + rest := by
    rw [size, width.sub_of_le (by omega) (by omega)]
    omega
  rw [ucParsePacket_result, header]
  simp [IpHeader.Encapsulates, headed, content, below, udpLength]

end Receiving

section Frames

variable {order : ByteOrder} {u : UserData} {ports : Ends Nat} {source dest frame : Bytes}
  {vlanTag : Nat}

theorem checkedHeader_returns (request : RequestV4) :
    ∃ check, checkedHeader order request.srcAddress request.destAddress =
      some (ipHeader order request.srcAddress request.destAddress check) := by
  obtain ⟨wide, wide', _, _⟩ := request.widths
  have even : (ipFront order).length % 2 = 0 := by cases order <;> rfl
  have even' : (request.srcAddress ++ request.destAddress).length % 2 = 0 := by
    rw [length_append, wide, wide']
  exact ⟨_, congrArg (Option.map _) (ipCheck_block even even')⟩

theorem length_ipHeader {saddr daddr : Bytes} {check : UInt16} (size : saddr.length = 4)
    (size' : daddr.length = 4) : (ipHeader order saddr daddr check).length = 20 := by
  rw [ipHeader, length_append, length_append, length_append, size, size']
  cases order <;> rfl

/-- The link header of a frame has a tag when the ordinary packet had one. -/
def linkBytes (source dest : Bytes) (vlanTag : Nat) : Bytes :=
  dest ++ source ++ (if vlanTag ≠ 0 then word16 0x8100 ++ word16 vlanTag else []) ++ word16 0x0800

/-- The assertion about the size of the header never fails. -/
theorem packetRaw_returns (source dest : Bytes) (small : vlanTag < 2 ^ 16)
    (near : ports.src < 2 ^ 16) (far : ports.dst < 2 ^ 16) :
    ∃ check, packetRaw order u ports source dest vlanTag =
      some (linkBytes source dest vlanTag ++
        (ipHeader order u.request.srcAddress u.request.destAddress check ++
          (word16 ports.src ++ word16 ports.dst ++ (word16 (udpSize + packetDataSize) ++ word16 0) ++
            u.expectedPacket.set 12 1))) := by
  obtain ⟨check, header⟩ := @checkedHeader_returns order u.request
  have exact_ (number : Nat) (fits : number < 2 ^ 16) :
      (UInt16.ofNat number).toNat = number := by
    rw [UInt16.toNat_ofNat', Nat.mod_eq_of_lt fits]
  refine ⟨check, ?_⟩
  rw [packetRaw, header, map_some]
  simp only [bytes_htons, exact_ _ small, exact_ _ near, exact_ _ far,
    exact_ _ (show 0x8100 < 2 ^ 16 by decide), exact_ _ (show 0x0800 < 2 ^ 16 by decide),
    exact_ _ (show udpSize + packetDataSize < 2 ^ 16 by decide),
    exact_ _ (show 0 < 2 ^ 16 by decide), linkBytes, append_assoc]

/-- The receiver sees a packet from the forged address behind the link header of the ordinary
packet. -/
structure Impersonates (request : RequestV4) (observed : PacketMemory) (info : PacketInfo)
    (seen : PacketMemory) (ether ip : PacketInfo) : Prop where
  next : ether.next = some ip
  last : ip.next = none
  link : ether.layer = 'E' ∧ ether.vlanTag = (etherLayer info).vlanTag
  source : addressAt seen ether.addresses.src 6 =
    addressAt observed (etherLayer info).addresses.src 6
  dest : addressAt seen ether.addresses.dst 6 =
    addressAt observed (etherLayer info).addresses.dst 6
  protocol : ip.layer = 'I' ∧ ip.ipProtocol = 4 ∧ ip.appProtocol = 'U'
  srcAddress : addressAt seen ip.addresses.src 4 = some request.srcAddress
  destAddress : addressAt seen ip.addresses.dst 4 = some request.destAddress
  ports : ip.ports = ⟨(innermost info).ports.src, bigEndian request.port⟩
  data : bytesAt seen (ip.data + ip.hdrLength) (ip.length - ip.hdrLength) =
    packetData request.token true

/-- Every receiver of the frame reads it this way. -/
def Spoofs (request : RequestV4) (observed : PacketMemory) (info : PacketInfo) (frame : Bytes) :
    Prop :=
  ∀ (capture : Capture) (seen : PacketMemory), capture.bytes = frame → capture.Starts seen →
    ∀ (width : Width) (interface : String) (direction : Direction) (timestamp budget : Nat)
      (pool : Nat → PacketInfo), ∃ ether ip, (ucParsePacket width seen (budget + 2) pool
        (capture.packet interface direction timestamp) dltEn10mb).result = some ether ∧
        Impersonates request observed info seen ether ip

theorem set_packetData {token : Bytes} (size : token.length = 8) :
    (packetData token false).set 12 1 = packetData token true := by
  have before : (word32 magic ++ token).length = 12 := by
    rw [length_append, size]
    rfl
  rw [packetData, packetData, append_assoc (word32 magic ++ token),
    append_assoc (word32 magic ++ token), set_append_right _ _ (le_of_eq before), before]
  rfl

theorem length_linkBytes (wide : source.length = 6) (wide' : dest.length = 6) :
    (linkBytes source dest vlanTag).length = if vlanTag ≠ 0 then 18 else 14 := by
  rw [linkBytes]
  split <;> simp [wide, wide', word16]

variable {memory : PacketMemory}

/-- The receiver finds the IP packet behind the link header. -/
theorem linkHeader_frame {length : Nat} (wide : source.length = 6) (wide' : dest.length = 6)
    (small : vlanTag < 2 ^ 16) (long : 18 < length)
    (holds : Holds memory 0 (linkBytes source dest vlanTag)) :
    (linkHeader memory length 12 12).vlanTag = some vlanTag ∧
      (linkHeader memory length 12 12).header =
        some ⟨0x0800, (linkBytes source dest vlanTag).length,
          (linkBytes source dest vlanTag).length⟩ := by
  rw [length_linkBytes wide wide']
  have sides : (dest ++ source).length = 12 := by rw [length_append, wide, wide']
  rw [linkBytes, append_assoc] at holds
  have behind := holds.right
  rw [sides] at behind
  by_cases tagged : vlanTag ≠ 0
  · rw [if_pos tagged] at behind ⊢
    exact linkHeader_tagged small long behind
  · rw [if_neg tagged] at behind ⊢
    obtain rfl : vlanTag = 0 := not_not.mp tagged
    exact linkHeader_untagged behind

theorem holds_addresses {saddr daddr : Bytes} {check : UInt16} {start : Nat}
    (size : saddr.length = 4) (size' : daddr.length = 4)
    (holds : Holds memory start (ipHeader order saddr daddr check)) :
    bytesAt memory (start + 12) 4 = saddr ∧ bytesAt memory (start + 16) 4 = daddr := by
  have front : (ipFront order ++ order.bytes check).length = 12 := by cases order <;> rfl
  have src := holds.right.left
  have dst := holds.right.right
  rw [front] at src dst
  rw [size] at dst
  exact ⟨size ▸ src.bytesAt, size' ▸ dst.bytesAt⟩

theorem holds_macs (wide : source.length = 6) (wide' : dest.length = 6)
    (holds : Holds memory 0 (linkBytes source dest vlanTag)) :
    bytesAt memory 0 6 = dest ∧ bytesAt memory 6 6 = source := by
  have dst := holds.left.left.left
  have src := holds.left.left.right
  rw [Nat.zero_add, wide'] at src
  exact ⟨wide' ▸ dst.bytesAt, wide ▸ src.bytesAt⟩

/-- A user of the plugin expects the packet of its request. -/
structure Expects (u : UserData) (request : RequestV4) : Prop where
  packet : u.expectedPacket = packetData request.token false
  same : u.request = request
  port : u.port = bigEndian request.port

/-- The receiver of a frame reads the request from it. -/
theorem packetRaw_spoofs {request : RequestV4} {observed : PacketMemory} {info : PacketInfo}
    (expects : Expects u request) (small : (etherLayer info).vlanTag < 2 ^ 16)
    (near : (innermost info).ports.src < 2 ^ 16) (far : (innermost info).ports.dst = u.port)
    (source_ : addressAt observed (etherLayer info).addresses.src 6 = some source)
    (dest_ : addressAt observed (etherLayer info).addresses.dst 6 = some dest)
    (built : packetRaw order u (innermost info).ports source dest (etherLayer info).vlanTag =
      some frame) : Spoofs request observed info frame := by
  intro capture seen whole starts width interface direction timestamp budget pool
  obtain ⟨packet, rfl, port⟩ := expects
  obtain ⟨widthSrc, widthDest, widthPort, widthToken⟩ := u.request.widths
  have fits : (innermost info).ports.dst < 2 ^ 16 := by
    rw [far, port]
    exact Flow.bigEndian_lt16 widthPort
  obtain ⟨check, raw⟩ := @packetRaw_returns order u (innermost info).ports _ source dest small near fits
  rw [built, Option.some.injEq, packet, set_packetData widthToken] at raw
  have wide := length_addressAt source_
  have wide' := length_addressAt dest_
  have holds := holds_capture starts
  rw [whole, raw] at holds
  have long : capture.length = (linkBytes source dest (etherLayer info).vlanTag).length + 233 := by
    rw [Capture.length, whole, raw, length_append, length_append,
      length_ipHeader widthSrc widthDest, length_append, length_packetData widthToken]
    rfl
  have reach : 14 ≤ (linkBytes source dest (etherLayer info).vlanTag).length := by
    rw [length_linkBytes wide wide']
    split <;> decide
  have bound : capture.length < 2 ^ 32 := capture.fits
  rw [ucParsePacket_ethernet interface direction timestamp (budget + 1) pool (by omega)
    (linkHeader_frame wide wide' small (by omega) holds.left)]
  have inner := holds.right
  rw [Nat.zero_add] at inner
  generalize place : (linkBytes source dest (etherLayer info).vlanTag).length = start at *
  have rest : width.sub capture.length start = 233 := by
    rw [width.sub_of_le (by omega) bound]
    omega
  have size : (ipHeader order u.request.srcAddress u.request.destAddress check).length = 20 :=
    length_ipHeader widthSrc widthDest
  have header := ipHeader_frame (show 20 ≤ 233 by decide) inner.left
  have below := inner.right
  rw [size] at below
  rw [@ucParsePacket_udp width seen _ 205 (by rw [rest]; exact header) rest (by decide)]
  have nearPort : word seen (start + 20) = (innermost info).ports.src :=
    below.left.left.left.word near
  have farPort : word seen (start + 22) = (innermost info).ports.dst :=
    below.left.left.right.word fits
  have data := below.right.bytesAt
  rw [length_packetData widthToken] at data
  obtain ⟨srcBytes, destBytes⟩ := holds_addresses widthSrc widthDest inner.left
  obtain ⟨destMac, sourceMac⟩ := holds_macs wide wide' holds.left
  refine ⟨_, _, rfl, rfl, rfl, ⟨rfl, rfl⟩, ?_, ?_, ⟨rfl, rfl, rfl⟩, congrArg some srcBytes,
    congrArg some destBytes, ?_, ?_⟩
  · rw [source_]
    exact congrArg some sourceMac
  · rw [dest_]
    exact congrArg some destMac
  · rw [nearPort, farPort, far, port]
  · rw [rest]
    exact data

end Frames

section Parsing

variable {width : Width} {memory : PacketMemory} {info next : PacketInfo}

theorem innermost_last (last : info.next = none) : innermost info = info := by
  cases info
  cases last
  rfl

theorem innermost_next (found : info.next = some next) : innermost info = innermost next := by
  cases info
  cases found
  rfl

theorem etherLayer_last (last : info.next = none) : etherLayer info = info := by
  cases info
  cases last
  rfl

theorem etherLayer_next (found : info.next = some next) :
    etherLayer info = if info.layer ≠ 'E' then etherLayer next else info := by
  cases info
  cases found
  rfl

/-- A UDP packet has both addresses, and the content behind its ports is long enough for them. -/
structure Udp (width : Width) (ip : PacketInfo) : Prop where
  dest : ip.layer = 'I' → ip.appProtocol = 'U' → ip.addresses.dst.isSome
  source : ip.layer = 'I' → ip.appProtocol = 'U' →
    width.sub ip.length ip.hdrLength = packetDataSize → ip.ports.src < 2 ^ 16

/-- The plugin finds these values in every packet that the parser returns. -/
structure Sound (width : Width) (info : PacketInfo) : Prop where
  udp : Udp width (innermost info)
  ether : nextIsInnermost (etherLayer info) → (etherLayer info).addresses.src.isSome ∧
    (etherLayer info).addresses.dst.isSome ∧ (etherLayer info).vlanTag < 2 ^ 16

theorem word_lt (memory : PacketMemory) (offset : Nat) : word memory offset < 2 ^ 16 := by
  have high := (memory offset).toNat_lt
  have low := (memory (offset + 1)).toNat_lt
  rw [word]
  omega

theorem content_udp {header : IpHeader} {data length : Nat} {stored : Ends Nat}
    (transport : (content width memory header data length stored).appProtocol = 'U') :
    header.protocol = 17 := by
  by_contra other
  unfold content at transport
  dsimp only at transport
  split_ifs at transport <;> simp at transport

theorem headed_udp (header : IpHeader) (packet : PacketInfo) :
    Udp width (headed width memory header packet none) := by
  refine ⟨fun _ _ => rfl, fun _ transport size => ?_⟩
  have udp := content_udp transport
  simp only [headed, content, udp] at size ⊢
  by_cases short : width.sub packet.length header.length < udpLength
  · simp [short] at size
    rw [size] at short
    exact absurd short (by decide)
  · simp [short]
    exact word_lt memory _

variable {packet : PacketInfo}

theorem ucParsePacket_raw {budget : Nat} {pool : Nat → PacketInfo}
    (parsed : (ucParsePacket width memory budget pool packet dltRaw).result = some info) :
    (etherLayer info).next = none ∧ Udp width (innermost info) := by
  induction budget generalizing pool packet info with
  | zero => cases parsed
  | succ budget ih =>
    rw [ucParsePacket_result] at parsed
    split at parsed
    case h_1 =>
      cases parsed
      refine ⟨rfl, ?_, ?_⟩ <;> intro _ transport <;> cases transport
    case h_2 header found =>
      split at parsed
      case isTrue =>
        obtain ⟨next, inner, rfl⟩ := map_eq_some_iff.mp parsed
        have rest := ih inner
        rw [etherLayer_next rfl, innermost_next rfl]
        exact rest
      case isFalse =>
        cases parsed
        exact ⟨rfl, headed_udp header packet⟩

theorem linkHeader_tag {length data skipped : Nat} {header : LinkHeader}
    (found : (linkHeader memory length data skipped).header = some header) :
    ∃ tag < 2 ^ 16, (linkHeader memory length data skipped).vlanTag = some tag := by
  unfold linkHeader at found ⊢
  cases tags : (skipTags memory length data skipped (word memory data)).2 with
  | none => simp [tags] at found
  | some place =>
    obtain ⟨data, skipped, type⟩ := place
    simp only [tags] at found ⊢
    split_ifs at found ⊢
    · exact ⟨_, word_lt memory _, rfl⟩
    · exact ⟨0, by decide, rfl⟩

/-- A frame keeps its layer, and its tag is known when it has an IP packet. -/
theorem parseType_cases {inner : PacketInfo → Parsed} {data : Nat} (fresh : packet.next = none)
    (parsed : (parseType width memory inner packet data).result = some info) :
    info.layer = packet.layer ∧ info.addresses = packet.addresses ∧
      (info.next = none ∨ info.vlanTag < 2 ^ 16 ∧
        ∃ below next, (inner below).result = some next ∧ info.next = some next) := by
  rw [parseType] at parsed
  cases found : (linkHeader memory packet.length data (data - packet.data)).header with
  | none =>
    simp only [found, accessing, Parsed.done, Option.some.injEq] at parsed
    subst parsed
    exact ⟨rfl, rfl, Or.inl fresh⟩
  | some header =>
    obtain ⟨tag, small, named⟩ := linkHeader_tag found
    simp only [found, named, accessing] at parsed
    split at parsed
    case isTrue =>
      obtain ⟨next, inside, rfl⟩ := map_eq_some_iff.mp parsed
      exact ⟨rfl, rfl, Or.inr ⟨small, _, next, inside, rfl⟩⟩
    case isFalse =>
      cases parsed
      exact ⟨rfl, rfl, Or.inl rfl⟩

theorem nextIsInnermost_last (last : info.next = none) : nextIsInnermost info = false := by
  rw [nextIsInnermost, last]
  rfl

/-- A packet without a packet inside is no IP packet of a frame. -/
theorem sound_of_last (last : info.next = none) (other : info.layer ≠ 'I') : Sound width info := by
  rw [← innermost_last last] at other
  refine ⟨⟨fun same => absurd same other, fun same => absurd same other⟩, fun next => ?_⟩
  rw [etherLayer_last last, nextIsInnermost_last last] at next
  cases next

theorem sound_of_raw (raw : (etherLayer info).next = none ∧ Udp width (innermost info)) :
    Sound width info := by
  refine ⟨raw.2, fun next => ?_⟩
  rw [nextIsInnermost_last raw.1] at next
  cases next

theorem sound_of_frame {inner : PacketInfo → Parsed} {data : Nat}
    (parsed : (parseType width memory inner packet data).result = some info)
    (fresh : packet.next = none) (other : packet.layer ≠ 'I')
    (known : packet.layer = 'E' → packet.addresses.src.isSome ∧ packet.addresses.dst.isSome)
    (raw : ∀ below next, (inner below).result = some next →
      (etherLayer next).next = none ∧ Udp width (innermost next)) : Sound width info := by
  obtain ⟨layer, addresses, last | ⟨small, below, next, inside, found⟩⟩ :=
    parseType_cases fresh parsed
  · exact sound_of_last last (layer ▸ other)
  · have rest := raw below next inside
    refine ⟨innermost_next found ▸ rest.2, ?_⟩
    rw [etherLayer_next found, layer]
    by_cases ether : packet.layer = 'E'
    · rw [if_neg (not_not.mpr ether), addresses]
      exact fun _ => ⟨(known ether).1, (known ether).2, small⟩
    · rw [if_pos ether, nextIsInnermost_last rest.1]
      intro next
      cases next

theorem Genuine.sound (genuine : Genuine width memory info) : Sound width info := by
  obtain ⟨capture, interface, direction, timestamp, budget, pool, datalink, _, parsed⟩ := genuine
  cases budget with
  | zero => cases parsed
  | succ budget =>
    by_cases raw : datalink = dltRaw
    · rw [raw] at parsed
      exact sound_of_raw (ucParsePacket_raw parsed)
    rw [ucParsePacket] at parsed
    simp only [raw, if_false] at parsed
    split_ifs at parsed
    · rw [parseEthernet] at parsed
      split at parsed
      · cases parsed
        exact sound_of_last rfl (by decide : 'E' ≠ 'I')
      · exact sound_of_frame parsed rfl (by decide : 'E' ≠ 'I') (fun _ => ⟨rfl, rfl⟩)
          (fun _ _ => ucParsePacket_raw)
    · rw [parseCooked] at parsed
      split at parsed
      · cases parsed
        exact sound_of_last rfl (by decide : 'S' ≠ 'I')
      · dsimp only [accessing] at parsed
        exact sound_of_frame parsed rfl (by decide : 'S' ≠ 'I') (fun same => absurd same (by decide : 'S' ≠ 'E'))
          (fun _ _ => ucParsePacket_raw)
    · cases parsed
      exact sound_of_last rfl (by decide : '?' ≠ 'I')

end Parsing

section Handling

variable {order : ByteOrder} {width : Width} {u final : UserData} {event : Event}
  {outputs : List Output}

/-- The plugin sends this ordinary packet for a request. -/
def RequestV4.datagram (request : RequestV4) : Output :=
  .datagram request.destAddress request.port (packetData request.token false)

/-- The message asks for this request. -/
def Event.Asks (event : Event) (request : RequestV4) : Prop :=
  ∃ data calls, ∃ long : requestSize ≤ data.length,
    event = .message (letter '4' :: data) calls ∧ readRequest data long = request

/-- The frame is built from this captured packet. -/
structure Answers (order : ByteOrder) (width : Width) (u : UserData) (memory : PacketMemory)
    (info : PacketInfo) (frame : Bytes) : Prop where
  direction : info.direction = .outgoing
  layer : (innermost info).layer = 'I' ∧ (innermost info).appProtocol = 'U'
  port : (innermost info).ports.dst = u.port
  address : addressAt memory (innermost info).addresses.dst 4 = some u.request.destAddress
  size : width.sub (innermost info).length (innermost info).hdrLength = packetDataSize
  content : bytesAt memory ((innermost info).data + (innermost info).hdrLength) packetDataSize =
    u.expectedPacket
  single : nextIsInnermost (etherLayer info)
  built : ∃ source dest,
    addressAt memory (etherLayer info).addresses.src 6 = some source ∧
      addressAt memory (etherLayer info).addresses.dst 6 = some dest ∧
        packetRaw order u (innermost info).ports source dest (etherLayer info).vlanTag = some frame

/-- These are all the things that the plugin does with an event. -/
inductive Handled (order : ByteOrder) (width : Width) (u : UserData) (event : Event) :
    UserData → List Output → Prop where
  | quiet {final : UserData} (kept : final = u ∨ final.expected = false) :
      Handled order width u event final []
  | asked {request : RequestV4} {final : UserData} (asks : event.Asks request)
      (expected : final.expected) (expects : Expects final request) :
      Handled order width u event final [request.datagram]
  | answered {memory : PacketMemory} {info : PacketInfo} {calls : SpoofedCalls} {frame : Bytes}
      (packet : event = .packet memory info calls) (expected : u.expected)
      (answers : Answers order width u memory info frame) :
      Handled order width u event { u with expected := false } [.frame (ifrName info.interface) frame]

theorem communicate_handled {data : Bytes} {calls : OrdinaryCalls}
    (returned : communicate u data calls = (final, outputs)) :
    Handled order width u (.message data calls) final outputs := by
  have quiet (same : (u, []) = (final, outputs)) :
      Handled order width u (.message data calls) final outputs := by
    cases same
    exact .quiet (Or.inl rfl)
  cases data with
  | nil => exact quiet returned
  | cons command data =>
    rw [communicate] at returned
    by_cases known : command = letter '4'
    · by_cases long : requestSize ≤ data.length
      · rw [if_pos known, dif_pos long, handleRequestV4] at returned
        split at returned
        · exact quiet returned
        split at returned
        · exact quiet returned
        cases returned
        exact .asked ⟨data, calls, long, known ▸ rfl, rfl⟩ rfl ⟨rfl, rfl, rfl⟩
      · rw [if_pos known, dif_neg long] at returned
        exact quiet returned
    · rw [if_neg known] at returned
      exact quiet returned

variable {memory : PacketMemory}

theorem recognizes_true {ip : PacketInfo} (recognized : recognizes width u memory ip = some true) :
    (ip.layer = 'I' ∧ ip.appProtocol = 'U') ∧ ip.ports.dst = u.port ∧
      addressAt memory ip.addresses.dst 4 = some u.request.destAddress ∧
      width.sub ip.length ip.hdrLength = packetDataSize ∧
      bytesAt memory (ip.data + ip.hdrLength) packetDataSize = u.expectedPacket := by
  rw [recognizes] at recognized
  split at recognized
  · cases recognized
  split at recognized
  · cases recognized
  split at recognized
  · cases recognized
  obtain ⟨dest, found, same⟩ := map_eq_some_iff.mp recognized
  obtain ⟨rfl, size, content⟩ := of_decide_eq_true same
  exact ⟨⟨not_not.mp ‹_›, not_not.mp ‹_›⟩, not_not.mp ‹_›, found, size, content⟩

theorem received_handled {info : PacketInfo} {calls : SpoofedCalls}
    (returned : received order width u memory info calls = some (final, outputs)) :
    Handled order width u (.packet memory info calls) final outputs := by
  have quiet (same : some (u, []) = some (final, outputs)) :
      Handled order width u (.packet memory info calls) final outputs := by
    cases same
    exact .quiet (Or.inl rfl)
  rw [received] at returned
  by_cases expected : u.expected = true
  case neg =>
    rw [if_pos expected] at returned
    exact quiet returned
  by_cases direction : info.direction = .outgoing
  case neg =>
    rw [if_neg (not_not.mpr expected), if_pos direction] at returned
    exact quiet returned
  rw [if_neg (not_not.mpr expected), if_neg (not_not.mpr direction)] at returned
  obtain ⟨found, recognized, returned⟩ := bind_eq_some_iff.mp returned
  cases found with
  | false => exact quiet returned
  | true =>
    obtain ⟨layer, port, address, size, content⟩ := recognizes_true recognized
    by_cases single : nextIsInnermost (etherLayer info) = true
    case neg =>
      rw [if_neg (by decide)] at returned
      dsimp only at returned
      rw [if_pos single] at returned
      exact quiet returned
    rw [if_neg (by decide)] at returned
    dsimp only at returned
    rw [if_neg (not_not.mpr single)] at returned
    obtain ⟨source, near, returned⟩ := bind_eq_some_iff.mp returned
    obtain ⟨dest, far, returned⟩ := bind_eq_some_iff.mp returned
    obtain ⟨frame, built, returned⟩ := bind_eq_some_iff.mp returned
    have answers : Answers order width u memory info frame := ⟨direction, layer, port, address,
      size, content, single, source, dest, near, far, built⟩
    by_cases succeed : calls.succeed = true
    · rw [if_pos succeed] at returned
      cases returned
      exact .answered rfl expected answers
    · rw [if_neg succeed] at returned
      cases returned
      exact .quiet (Or.inr rfl)

theorem handle_handled (returned : handle order width u event = some (final, outputs)) :
    Handled order width u event final outputs := by
  cases event with
  | message data calls => exact communicate_handled (Option.some.inj returned)
  | packet memory info calls => exact received_handled returned

/-- A captured packet of the run comes from the parser. -/
def Event.Parsed (width : Width) : Event → Prop
  | .message _ _ => True
  | .packet memory info _ => Genuine width memory info

/-- Nothing is read through a null pointer. -/
theorem handle_returns (parsed : event.Parsed width) : (handle order width u event).isSome := by
  cases event with
  | message data calls => rfl
  | packet memory info calls =>
    have sound := Genuine.sound parsed
    rw [handle, received]
    by_cases expected : u.expected = true
    case neg => rw [if_pos expected, isSome_some]
    by_cases direction : info.direction = .outgoing
    case neg => rw [if_neg (not_not.mpr expected), if_pos direction, isSome_some]
    rw [if_neg (not_not.mpr expected), if_neg (not_not.mpr direction)]
    have recognized : ∃ found, recognizes width u memory (innermost info) = some found := by
      rw [recognizes]
      by_cases layer : (innermost info).layer = 'I'
      case neg => exact ⟨false, if_pos layer⟩
      by_cases transport : (innermost info).appProtocol = 'U'
      case neg => exact ⟨false, by rw [if_neg (not_not.mpr layer), if_pos transport]⟩
      obtain ⟨place, found⟩ := isSome_iff_exists.mp (sound.udp.dest layer transport)
      rw [if_neg (not_not.mpr layer), if_neg (not_not.mpr transport), found]
      split
      · exact ⟨_, rfl⟩
      · exact ⟨_, rfl⟩
    obtain ⟨found, recognized⟩ := recognized
    dsimp only
    rw [recognized]
    cases found with
    | false => rfl
    | true =>
      dsimp only [bind_eq_bind, bind_some]
      by_cases single : nextIsInnermost (etherLayer info) = true
      case neg => rw [if_neg (by decide), if_pos single, isSome_some]
      obtain ⟨near, far, _⟩ := sound.ether single
      obtain ⟨source, near⟩ := isSome_iff_exists.mp near
      obtain ⟨dest, far⟩ := isSome_iff_exists.mp far
      obtain ⟨check, header⟩ := @checkedHeader_returns order u.request
      rw [if_neg (by decide), if_neg (not_not.mpr single), near, far]
      simp only [packetRaw, header]
      rfl

/-- A frame is read as the request when the plugin expects the packet of the request. -/
theorem Answers.spoofs {info : PacketInfo} {frame : Bytes} {request : RequestV4}
    (answers : Answers order width u memory info frame) (sound : Sound width info)
    (expects : Expects u request) :
    Spoofs request memory info frame := by
  obtain ⟨source, dest, near, far, built⟩ := answers.built
  exact packetRaw_spoofs expects (sound.ether answers.single).2.2
    (sound.udp.source answers.layer.1 answers.layer.2 answers.size) answers.port near far built

/-- The frame answers a request with a packet that was captured behind its message. -/
def AnswersRequest (events : List Event) (request : RequestV4) (name frame : Bytes) : Prop :=
  ∃ early message middle memory info calls late,
    events = early ++ message :: (middle ++ .packet memory info calls :: late) ∧
      message.Asks request ∧ name = ifrName info.interface ∧ info.direction = .outgoing ∧
      bytesAt memory ((innermost info).data + (innermost info).hdrLength) packetDataSize =
        packetData request.token false ∧
      Spoofs request memory info frame

/-- The last thing that left the plugin is the packet that it expects. -/
def Waiting (start : UserData) (past : List Event) (sent : List Output) (u : UserData) : Prop :=
  (sent = [] ∧ start.expected) ∨ ∃ early message later before request,
    past = early ++ message :: later ∧ message.Asks request ∧
      sent = before ++ [request.datagram] ∧ Expects u request

theorem Waiting.later {start : UserData} {past : List Event} {sent : List Output}
    (waiting : Waiting start past sent u) (event : Event) :
    Waiting start (past ++ [event]) sent u := by
  rcases waiting with initial | ⟨early, message, later, before, request, rfl, rest⟩
  · exact Or.inl initial
  · exact Or.inr ⟨early, message, later ++ [event], before, request,
      by rw [append_assoc, cons_append], rest⟩

theorem run_from {start : UserData} {past events : List Event} {sent : List Output}
    (parsed : ∀ event ∈ events, event.Parsed width)
    (waiting : u.expected → Waiting start past sent u)
    (ran : run order width u events = some (final, outputs)) {front back : List Output}
    {name frame : Bytes} (split : outputs = front ++ .frame name frame :: back) :
    (sent ++ front = [] ∧ start.expected) ∨ ∃ before request,
      sent ++ front = before ++ [request.datagram] ∧
        AnswersRequest (past ++ events) request name frame := by
  induction events generalizing u past sent outputs front with
  | nil =>
    cases ran
    exact absurd split (by simp)
  | cons event events ih =>
    obtain ⟨⟨next, first⟩, handled, ran⟩ := bind_eq_some_iff.mp ran
    obtain ⟨⟨last, others⟩, rest, ran⟩ := bind_eq_some_iff.mp ran
    cases ran
    rw [forall_mem_cons] at parsed
    have append : past ++ event :: events = past ++ [event] ++ events := by simp
    rw [append]
    cases handle_handled handled with
    | quiet kept =>
      refine ih parsed.2 ?_ rest split
      intro expected
      rcases kept with rfl | stopped
      · exact (waiting expected).later event
      · rw [stopped] at expected
        cases expected
    | @asked request _ asks expected expects =>
      cases front with
      | nil => cases split
      | cons output front =>
        obtain ⟨rfl, later⟩ := cons_eq_cons.mp split
        have waits : Waiting start (past ++ [event]) (sent ++ [request.datagram]) next :=
          Or.inr ⟨past, event, [], sent, request, rfl, asks, rfl, expects⟩
        have found := ih parsed.2 (fun _ => waits) rest later
        rw [append_assoc] at found
        exact found
    | @answered memory info calls bytes packet expected answers =>
      cases front with
      | nil =>
        obtain ⟨same, _⟩ := cons_eq_cons.mp split
        cases same
        rw [append_nil, append_assoc]
        refine (waiting expected).imp id ?_
        rintro ⟨early, message, later, before, request, rfl, asks, last, expects⟩
        refine ⟨before, request, last, early, message, later, memory, info, calls, events, ?_,
          asks, rfl, answers.direction, answers.content.trans expects.packet,
          answers.spoofs (Genuine.sound (packet ▸ parsed.1)) expects⟩
        rw [packet, append_assoc]
        rfl
      | cons output front =>
        obtain ⟨rfl, later⟩ := cons_eq_cons.mp split
        have idle : ({ u with expected := false } : UserData).expected →
            Waiting start (past ++ [event]) (sent ++ [.frame (ifrName info.interface) bytes])
              { u with expected := false } := by
          intro expected
          cases expected
        have found := ih parsed.2 idle rest later
        rw [append_assoc] at found
        exact found

theorem run_returns {events : List Event} (parsed : ∀ event ∈ events, event.Parsed width) :
    ∃ final outputs, run order width u events = some (final, outputs) := by
  induction events generalizing u with
  | nil => exact ⟨u, [], rfl⟩
  | cons event events ih =>
    rw [forall_mem_cons] at parsed
    obtain ⟨⟨next, first⟩, handled⟩ := isSome_iff_exists.mp
      (@handle_returns order width u event parsed.1)
    obtain ⟨final, others, rest⟩ := @ih next parsed.2
    refine ⟨final, first ++ others, ?_⟩
    rw [run, handled]
    dsimp only [bind_eq_bind, bind_some]
    rw [rest]
    rfl

/-- The plugin never reads through a null pointer. Each frame follows the ordinary packet of the same
request in the order of the outputs, and whoever receives the frame reads the forged address in it.
Only the first output can answer a packet that the memory expected from the start. -/
theorem run_answers (order : ByteOrder) (width : Width) (u : UserData) {events : List Event}
    (parsed : ∀ event ∈ events, event.Parsed width) :
    ∃ final outputs, run order width u events = some (final, outputs) ∧
      ∀ front name frame back, outputs = front ++ .frame name frame :: back →
        (front = [] ∧ u.expected) ∨ ∃ before request, front = before ++ [request.datagram] ∧
          AnswersRequest events request name frame := by
  obtain ⟨final, outputs, ran⟩ := @run_returns order width u events parsed
  refine ⟨final, outputs, ran, fun front name frame back split => ?_⟩
  exact @run_from order width u final outputs u [] events [] parsed
    (fun expected => Or.inl ⟨rfl, expected⟩) ran front back name frame split

/-- This user of the plugin waits for no packet. -/
def quietUser : UserData where
  expected := false
  expectedPacket := packetData (word64 0) false
  request := ⟨word32 0, word32 0, word16 0, word64 0, by decide⟩
  port := 0
  size := length_packetData rfl false

/-- An ordinary datagram leaves the client in a frame, which may have a tag. -/
def ordinaryFrame (tag token : Bytes) : Bytes :=
  [2, 0, 0, 0, 0, 2] ++ [2, 0, 0, 0, 0, 1] ++ tag ++ word16 0x0800 ++
    [0x45, 0, 0, 233, 0, 0, 0x40, 0, 64, 17, 0, 0, 192, 168, 1, 2, 198, 51, 100, 7] ++
    word16 40000 ++ word16 53 ++ word16 213 ++ word16 0 ++ packetData token false

def memoryOf (bytes : Bytes) : PacketMemory := fun offset => bytes.getD offset 0

/-- The parser returns this for the captured frame. -/
def observed (capture : Capture) : PacketInfo :=
  (ucParsePacket .bits64 (memoryOf capture.bytes) 3 (fun _ => .zero)
    (capture.packet "eth0" .outgoing 0) dltEn10mb).result.getD .zero

theorem observed_genuine (capture : Capture)
    (returns : (ucParsePacket .bits64 (memoryOf capture.bytes) 3 (fun _ => .zero)
      (capture.packet "eth0" .outgoing 0) dltEn10mb).result.isSome = true) :
    Genuine .bits64 (memoryOf capture.bytes) (observed capture) := by
  refine ⟨capture, "eth0", .outgoing, 0, 3, fun _ => .zero, dltEn10mb, fun _ _ => rfl, ?_⟩
  obtain ⟨info, found⟩ := isSome_iff_exists.mp returns
  rw [observed, found, getD_some]

def plainCapture : Capture := ⟨ordinaryFrame [] (word64 7), by decide +kernel⟩

def taggedCapture : Capture :=
  ⟨ordinaryFrame (word16 0x8100 ++ word16 5) (word64 8), by decide +kernel⟩

/-- The server asks for a packet from the address 203.0.113.5. -/
def requestMessage (token : Bytes) : Bytes :=
  letter '4' :: ([203, 0, 113, 5] ++ [198, 51, 100, 7] ++ word16 53 ++ token)

def spoofedEvents : List Event :=
  [.message (requestMessage (word64 7)) ⟨true, true⟩,
    .packet (memoryOf plainCapture.bytes) (observed plainCapture) ⟨true, true, true⟩,
    .message (requestMessage (word64 8)) ⟨true, true⟩,
    .packet (memoryOf taggedCapture.bytes) (observed taggedCapture) ⟨true, true, true⟩]

theorem spoofedEvents_parsed : ∀ event ∈ spoofedEvents, event.Parsed .bits64 := by
  simp only [spoofedEvents, forall_mem_cons]
  exact ⟨trivial, observed_genuine plainCapture (by decide +kernel), trivial,
    observed_genuine taggedCapture (by decide +kernel), forall_mem_nil _⟩

def Output.isFrame : Output → Bool
  | .datagram _ _ _ => false
  | .frame _ _ => true

/-- A frame answers each of the two datagrams. -/
theorem run_answers_tagged :
    ∃ final outputs, run .little .bits64 quietUser spoofedEvents = some (final, outputs) ∧
      outputs.map Output.isFrame = [false, true, false, true] ∧
      ∀ front name frame back, outputs = front ++ .frame name frame :: back →
        (front = [] ∧ quietUser.expected) ∨ ∃ before request,
          front = before ++ [request.datagram] ∧
            AnswersRequest spoofedEvents request name frame := by
  obtain ⟨final, outputs, ran, answers⟩ :=
    run_answers .little .bits64 quietUser spoofedEvents_parsed
  have kinds : (run .little .bits64 quietUser spoofedEvents).map
      (fun result => result.2.map Output.isFrame) = some [false, true, false, true] := by
    decide +kernel
  rw [ran] at kinds
  exact ⟨final, outputs, ran, Option.some.inj kinds, answers⟩

end Handling

end Ucollect.Spoof
