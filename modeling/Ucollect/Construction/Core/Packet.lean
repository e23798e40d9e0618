import Mathlib.Algebra.Group.Nat.Defs
import Mathlib.Data.List.Basic

/-
This file models the packet parser of core/packet.c.
-/

namespace Ucollect.Core

/-- The type `size_t` has one of two widths. -/
inductive Width where
  | bits32
  | bits64
  deriving DecidableEq, Repr

def Width.modulus : Width → Nat
  | .bits32 => 2 ^ 32
  | .bits64 => 2 ^ 64

/-- The subtraction of two `size_t` values wraps around. -/
def Width.sub (width : Width) (first second : Nat) : Nat :=
  (first + width.modulus - second) % width.modulus

/-- One value belongs to the source endpoint and one to the destination endpoint. -/
structure Ends (A : Type) where
  src : A
  dst : A
  deriving DecidableEq, Repr

inductive Direction where
  | incoming
  | outgoing
  | unknown
  deriving DecidableEq, Repr

/-- Pointers into the packet are offsets from the start of the captured data. -/
structure PacketInfo where
  next : Option PacketInfo
  length : Nat
  data : Nat
  interface : String
  hdrLength : Nat
  timestamp : Nat
  addresses : Ends (Option Nat)
  ports : Ends Nat
  layer : Char
  layerRaw : Int
  ipProtocol : Nat
  appProtocol : Char
  appProtocolRaw : Nat
  addrLen : Nat
  direction : Direction
  tcpFlags : Nat
  vlanTag : Nat

/-- An initializer sets the fields that it does not name to zero. -/
def PacketInfo.zero : PacketInfo where
  next := none
  length := 0
  data := 0
  interface := ""
  hdrLength := 0
  timestamp := 0
  addresses := ⟨none, none⟩
  ports := ⟨0, 0⟩
  layer := '\x00'
  layerRaw := 0
  ipProtocol := 0
  appProtocol := '\x00'
  appProtocolRaw := 0
  addrLen := 0
  direction := .incoming
  tcpFlags := 0
  vlanTag := 0

/-- The memory continues behind the captured data with unknown contents. -/
abbrev PacketMemory := Nat → UInt8

/-- An access reads one byte of the packet or describes a nested packet. -/
inductive Access where
  | byte (offset : Nat)
  | nested (data length : Nat)
  deriving DecidableEq, Repr

/-- A call without a result did not return within its budget of nested calls. -/
structure Parsed where
  accesses : List Access
  result : Option PacketInfo

def Parsed.done (packet : PacketInfo) : Parsed := ⟨[], some packet⟩

/-- The accesses happen before the rest of the call. -/
def accessing (accesses : List Access) (rest : Parsed) : Parsed :=
  ⟨accesses ++ rest.accesses, rest.result⟩

/-- The caller continues with the packet that a nested call returns. -/
def Parsed.andThen (parsed : Parsed) (continue_ : PacketInfo → PacketInfo) : Parsed :=
  ⟨parsed.accesses, parsed.result.map continue_⟩

/-- This is `ntohs` of the two bytes at the offset. -/
def word (memory : PacketMemory) (offset : Nat) : Nat :=
  256 * (memory offset).toNat + (memory (offset + 1)).toNat

def wordBytes (offset : Nat) : List Access := [.byte offset, .byte (offset + 1)]

def dltEn10mb : Int := 1
def dltIeee802 : Int := 6
def dltRaw : Int := 12
def dltLinuxSll : Int := 113

def udpLength : Nat := 8
def headerSizeUnit : Nat := 4
def iphdrSize : Nat := 20
def ip6HdrSize : Nat := 40
/-- The structure `tcp_ports` ends with two bytes of padding. -/
def tcpPortsSize : Nat := 16

def ipVersion (memory : PacketMemory) (data : Nat) : Nat := (memory data).toNat / 16

def ipIhl (memory : PacketMemory) (data : Nat) : Nat := (memory data).toNat % 16

/-- This part of `parse_internal` follows the IP header. -/
def parseBelowIp (width : Width) (memory : PacketMemory) (fresh : PacketInfo)
    (ucParsePacket : PacketInfo → Parsed) (packet : PacketInfo) : Parsed :=
  let belowIp := packet.data + packet.hdrLength
  let lengthRest := width.sub packet.length packet.hdrLength
  let packet := { packet with appProtocol := '?' }
  let withPorts (packet : PacketInfo) : Parsed :=
    accessing (wordBytes belowIp ++ wordBytes (belowIp + 2)) <|
      .done { packet with ports := ⟨word memory belowIp, word memory (belowIp + 2)⟩ }
  if packet.appProtocolRaw = 1 then
    .done { packet with appProtocol := 'i' }
  else if packet.appProtocolRaw = 4 ∨ packet.appProtocolRaw = 41 then
    let packet := { packet with appProtocol := if packet.appProtocolRaw = 4 then '4' else '6' }
    let next := { fresh with
      data := belowIp
      length := lengthRest
      interface := packet.interface
      direction := packet.direction
      timestamp := packet.timestamp }
    accessing [.nested belowIp lengthRest] <|
      (ucParsePacket next).andThen fun next => { packet with next := some next }
  else if packet.appProtocolRaw = 6 then
    if lengthRest < tcpPortsSize then
      .done packet
    else
      accessing [.byte (belowIp + 12), .byte (belowIp + 13)] <| withPorts { packet with
        appProtocol := 'T'
        hdrLength := packet.hdrLength + headerSizeUnit * ((memory (belowIp + 12)).toNat / 16)
        tcpFlags := (memory (belowIp + 13)).toNat }
  else if packet.appProtocolRaw = 17 then
    let packet := { packet with appProtocol := 'U' }
    if lengthRest < udpLength then
      .done packet
    else
      withPorts { packet with hdrLength := packet.hdrLength + udpLength }
  else if packet.appProtocolRaw = 58 then
    .done { packet with appProtocol := 'I' }
  else
    .done packet

/-- The debug message reads the version before the length is checked. -/
def parseInternal (width : Width) (memory : PacketMemory) (fresh : PacketInfo)
    (ucParsePacket : PacketInfo → Parsed) (packet : PacketInfo) : Parsed :=
  let data := packet.data
  let packet := { packet with appProtocolRaw := 0xff }
  accessing [.byte data] <|
    if packet.length < iphdrSize then
      .done { packet with ipProtocol := 0 }
    else
      let packet := { packet with ipProtocol := ipVersion memory data }
      accessing [.byte data] <|
        if packet.ipProtocol = 4 then
          accessing [.byte data, .byte (data + 9)] <|
            parseBelowIp width memory fresh ucParsePacket { packet with
              addresses := ⟨some (data + 12), some (data + 16)⟩
              addrLen := 4
              hdrLength := headerSizeUnit * ipIhl memory data
              appProtocolRaw := (memory (data + 9)).toNat }
        else if packet.ipProtocol = 6 then
          if packet.length < ip6HdrSize then
            .done { packet with ipProtocol := 0 }
          else
            accessing [.byte (data + 6)] <|
              parseBelowIp width memory fresh ucParsePacket { packet with
                addresses := ⟨some (data + 8), some (data + 24)⟩
                addrLen := 16
                hdrLength := ip6HdrSize
                appProtocolRaw := (memory (data + 6)).toNat }
        else
          .done packet

def postprocess (packet : PacketInfo) : PacketInfo :=
  let packet := if packet.ipProtocol = 4 ∨ packet.ipProtocol = 6 then packet else
    { packet with addresses := ⟨none, none⟩, addrLen := 0, appProtocol := '\x00' }
  let packet := if packet.appProtocol = 'T' ∨ packet.appProtocol = 'U' then packet else
    { packet with ports := ⟨0, 0⟩ }
  let packet := if packet.appProtocol = '4' ∨ packet.appProtocol = '6' then packet else
    { packet with next := none }
  let packet := if packet.appProtocol = 'T' then packet else { packet with tcpFlags := 0 }
  if packet.layer = 'E' then packet else { packet with vlanTag := 0 }

/-- The loop skips the stacked tags and gives up on a short packet. -/
def skipTags (memory : PacketMemory) (length data skipped type : Nat) :
    List Access × Option (Nat × Nat × Nat) :=
  if type = 0x88a8 ∨ type = 0x9100 then
    if _short : skipped + 4 + 2 ≥ length then
      ([], none)
    else
      let rest := skipTags memory length (data + 4) (skipped + 4) (word memory (data + 4))
      (wordBytes (data + 4) ++ rest.1, rest.2)
  else
    ([], some (data, skipped, type))
termination_by length - skipped
decreasing_by omega

/-- The link header ends behind its type field. -/
structure LinkHeader where
  type : Nat
  data : Nat
  skipped : Nat

/-- A short packet has no complete link header, but its tag may be stored already. -/
structure LinkParsed where
  accesses : List Access
  vlanTag : Option Nat
  header : Option LinkHeader

/-- This part of `parse_type` reads the type field and the tags before it. -/
def linkHeader (memory : PacketMemory) (length data skipped : Nat) : LinkParsed :=
  let tags := skipTags memory length data skipped (word memory data)
  let start := wordBytes data ++ tags.1
  match tags.2 with
  | none => ⟨start, none, none⟩
  | some (data, skipped, type) =>
    if type = 0x8100 then
      if skipped + 2 + 2 ≥ length then
        ⟨start, none, none⟩
      else if skipped + 4 + 2 ≥ length then
        ⟨start ++ wordBytes (data + 2), some (word memory (data + 2)), none⟩
      else
        ⟨start ++ wordBytes (data + 2) ++ wordBytes (data + 4), some (word memory (data + 2)),
          some ⟨word memory (data + 4), data + 6, skipped + 6⟩⟩
    else
      ⟨start ++ wordBytes data, some 0, some ⟨word memory data, data + 2, skipped + 2⟩⟩

/-- A length in the place of the type also announces IP. -/
def carriesIp (type : Nat) : Bool := type < 0x0800 || type == 0x0800 || type == 0x86DD

/-- These are the types that the parser names without parsing further. -/
def linkProtocol (type : Nat) (unnamed : Char) : Char :=
  if type = 0x08035 then 'a'
  else if type = 0x0806 then 'A'
  else if type = 0x0842 then 'W'
  else if type = 0x8137 ∨ type = 0x8138 then 'X'
  else if type = 0x888E then 'E'
  else if type = 0x8863 ∨ type = 0x8864 then 'P'
  else unnamed

def parseType (width : Width) (memory : PacketMemory) (ucParsePacket : PacketInfo → Parsed)
    (packet : PacketInfo) (data : Nat) : Parsed :=
  let link := linkHeader memory packet.length data (data - packet.data)
  let packet := { packet with vlanTag := link.vlanTag.getD packet.vlanTag }
  accessing link.accesses <|
    match link.header with
    | none => .done packet
    | some header =>
      let packet := { packet with next := none }
      let next := { PacketInfo.zero with
        data := header.data
        length := width.sub packet.length header.skipped
        interface := packet.interface
        direction := packet.direction
        timestamp := packet.timestamp
        layer := 'I'
        appProtocol := '?' }
      accessing [.nested next.data next.length] <|
        if carriesIp header.type then
          (ucParsePacket next).andThen fun next =>
            { packet with appProtocol := 'I', next := some next }
        else
          .done { packet with appProtocol := linkProtocol header.type packet.appProtocol }

def parseEthernet (width : Width) (memory : PacketMemory) (ucParsePacket : PacketInfo → Parsed)
    (packet : PacketInfo) : Parsed :=
  if packet.length < 14 then
    .done packet
  else
    parseType width memory ucParsePacket { packet with
      addresses := ⟨some (packet.data + 6), some packet.data⟩, addrLen := 6 } (packet.data + 12)

/-- The length of an address is stored in one byte. -/
def parseCooked (width : Width) (memory : PacketMemory) (ucParsePacket : PacketInfo → Parsed)
    (packet : PacketInfo) : Parsed :=
  if packet.length < 16 then
    .done packet
  else
    accessing (wordBytes (packet.data + 4)) <|
      parseType width memory ucParsePacket { packet with
        addrLen := word memory (packet.data + 4) % 256
        addresses := ⟨some (packet.data + 6), none⟩ } (packet.data + 14)

/-- The budget bounds the depth of nested calls, and each call takes one structure of the pool. -/
def ucParsePacket (width : Width) (memory : PacketMemory) :
    Nat → (Nat → PacketInfo) → PacketInfo → Int → Parsed
  | 0, _, _, _ => ⟨[], none⟩
  | budget + 1, pool, packet, datalink =>
    let nested (next : PacketInfo) : Parsed :=
      ucParsePacket width memory budget (fun index => pool (index + 1)) next dltRaw
    let packet := { packet with layerRaw := datalink }
    if datalink = dltEn10mb ∨ datalink = dltIeee802 then
      parseEthernet width memory nested { packet with layer := 'E' }
    else if datalink = dltRaw then
      (parseInternal width memory (pool 0) nested { packet with layer := 'I' }).andThen
        postprocess
    else if datalink = dltLinuxSll then
      parseCooked width memory nested { packet with layer := 'S' }
    else
      .done { packet with layer := '?' }

/-- The capture length is a field of 32 bits. -/
structure Capture where
  bytes : List UInt8
  fits : bytes.length < 2 ^ 32

def Capture.length (capture : Capture) : Nat := capture.bytes.length

def Capture.byte (capture : Capture) (offset : Nat) : UInt8 := capture.bytes.getD offset 0

/-- The capture fills the start of the memory. -/
def Capture.Starts (capture : Capture) (memory : PacketMemory) : Prop :=
  ∀ offset < capture.length, memory offset = capture.byte offset

/-- The capture callback fills in these fields before it calls the parser. -/
def Capture.packet (capture : Capture) (interface : String) (direction : Direction)
    (timestamp : Nat) : PacketInfo :=
  { PacketInfo.zero with
    length := capture.length
    timestamp := timestamp
    interface := interface
    direction := direction }

end Ucollect.Core
