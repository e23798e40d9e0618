import Ucollect.Construction.Flow.Record
import Ucollect.Construction.Fake.Connections

/-
This file models plugins/majordomo/majordomo.c.
-/

namespace Ucollect.Majordomo
open Library Core
open Flow (ByteOrder addrBytes)

/-- A failed check or an access through a null pointer kills the plugin. -/
inductive Abort where
  | trieChild
  | trieIndex
  | direction
  | missingRecord
  | dangling
  | protocol
  deriving DecidableEq, Repr

/-- The plugin sees these fields of the packet below a frame. -/
structure IpPacket where
  layer : UInt8
  ipProtocol : Nat
  appProtocol : UInt8
  addresses : Ends Bytes
  ports : Ends UInt16
  length : Nat
  hdrLength : Nat
  family : ipProtocol = 4 ∧ addresses.src.length = 4 ∧ addresses.dst.length = 4 ∨
    ipProtocol = 6 ∧ addresses.src.length = 16 ∧ addresses.dst.length = 16 ∨
    ipProtocol ≠ 4 ∧ ipProtocol ≠ 6

/-- The parser stores the addresses of an Ethernet frame before it looks below. -/
structure Frame where
  layer : UInt8
  direction : Direction
  addresses : Ends Bytes
  next : Option IpPacket
  hardware : layer = letter 'E' → next.isSome = true →
    addresses.src.length = 6 ∧ addresses.dst.length = 6

/-- This is one half of `struct trie_data`. -/
structure Tally where
  count : UInt64
  size : UInt64
  dataSize : UInt64
  deriving DecidableEq, Repr

/-- This is `struct trie_data` with the counters for upload and for download. -/
structure TrieData where
  u : Tally
  d : Tally
  deriving DecidableEq, Repr

def TrieData.zero : TrieData := ⟨⟨0, 0, 0⟩, ⟨0, 0, 0⟩⟩

/-- This is `struct src_item`. -/
structure SrcItem where
  addr : Bytes
  other : TrieData
  itemsInCommList : Nat

/-- This is `struct filter_rule`, and an IPv4 address fills the start of its array. -/
structure FilterRule where
  addr : Bytes
  prefixLength : Nat
  family : Nat

def sourceSizeLimit : Nat := 6000

/-- The build option for a development machine swaps the two directions. -/
def directionUpload : Direction := .incoming
def directionDownload : Direction := .outgoing

section Accepting

/-- The table of masks is computed once. -/
def masks (bits : Nat) : Nat := 2 ^ 32 - 2 ^ (32 - bits)

/-- The loop compares words of four bytes. -/
def bitcmp (first second : Bytes) (bits : Nat) : Bool :=
  if 32 < bits then
    first.take 4 == second.take 4 && bitcmp (first.drop 4) (second.drop 4) (bits - 32)
  else
    bigEndian (first.take 4) &&& masks bits == bigEndian (second.take 4) &&& masks bits
termination_by bits

def filterAddress (filter : List FilterRule) (addr : Bytes) (family : Nat) : Bool :=
  filter.any fun rule =>
    family == rule.family && bitcmp (addrBytes addr) rule.addr rule.prefixLength

/-- The local endpoint of an upload is its source. -/
def localEndpoint {A : Type} (direction : Direction) (ends : Ends A) : A :=
  if direction = directionUpload then ends.src else ends.dst

def remoteEndpoint {A : Type} (direction : Direction) (ends : Ends A) : A :=
  if direction = directionUpload then ends.dst else ends.src

/-- The bytes of `struct key` include one byte of padding. -/
def buildKey (order : ByteOrder) (src dst : Bytes) (protocol : UInt8) (port : UInt16) : Key :=
  addrBytes src ++ addrBytes dst ++
    [UInt8.ofNat src.length, UInt8.ofNat dst.length, protocol, 0] ++ order.bytes port

/-- An address of a group or of everyone starts with an odd byte. -/
def isOdd (address : Bytes) : Bool := (address.headD 0).toNat % 2 == 1

/-- The sizes have the type `uint64_t`. -/
structure Accepted where
  source : Bytes
  key : Key
  direction : Direction
  size : UInt64
  dataSize : UInt64
  deriving DecidableEq, Repr

/-- This is the part of `packet_handle` above the table. -/
def accept (width : Width) (order : ByteOrder) (filter : List FilterRule) (l2 : Frame) :
    Option Accepted :=
  if l2.direction ≠ directionUpload ∧ l2.direction ≠ directionDownload then none
  else if l2.layer ≠ letter 'E' then none
  else
    match l2.next with
    | none => none
    | some info =>
      if info.layer ≠ letter 'I' then none
      else if info.appProtocol ≠ letter 'T' ∧ info.appProtocol ≠ letter 'U' then none
      else if info.ipProtocol ≠ 4 ∧ info.ipProtocol ≠ 6 then none
      else
        let remote := remoteEndpoint l2.direction info.addresses
        let source := localEndpoint l2.direction l2.addresses
        if filterAddress filter remote info.ipProtocol then none
        else if isOdd source || isOdd (remoteEndpoint l2.direction l2.addresses) then none
        else
          some
            { source
              key := buildKey order source remote info.appProtocol
                (remoteEndpoint l2.direction info.ports)
              direction := l2.direction
              size := UInt64.ofNat info.length
              dataSize := UInt64.ofNat (width.sub info.length info.hdrLength) }

end Accepting

section Counting

def Tally.update (tally : Tally) (size dataSize : UInt64) : Tally :=
  ⟨tally.count + 1, tally.size + size, tally.dataSize + dataSize⟩

def updateValue (value : TrieData) (direction : Direction) (size dataSize : UInt64) :
    Except Abort TrieData :=
  if direction = directionUpload then .ok { value with u := value.u.update size dataSize }
  else if direction = directionDownload then .ok { value with d := value.d.update size dataSize }
  else .error .direction

/-- The direction of the packet plays no role here. -/
def initTrieData (info : Accepted) : TrieData := ⟨⟨1, info.size, info.dataSize⟩, ⟨0, 0, 0⟩⟩

/-- A packet is counted in the record of its key or in the record `other` of its source. -/
inductive Place where
  | entry
  | other
  deriving DecidableEq, Repr

structure Arrival where
  packet : Accepted
  place : Place
  deriving DecidableEq, Repr

/-- A record belongs to one node, so the node holds the record itself. -/
structure Table where
  communication : Trie TrieData
  sources : List SrcItem

def Table.fresh : Table := ⟨trieAlloc TrieData, []⟩

def findSrc (sources : List SrcItem) (source : Bytes) : Option Nat :=
  sources.findIdx? fun it => it.addr == source

/-- This is the rest of `packet_handle`. -/
def Table.count (table : Table) (info : Accepted) : Except Abort (Table × Place) :=
  match trieIndex table.communication info.key with
  | .error .childKeySize => .error .trieChild
  | .ok (_, none) => .error .trieIndex
  | .ok (communication, some slot) =>
    let created := communication.store slot (some (initTrieData info))
    match communication.memory.data slot with
    | some data =>
      (updateValue data info.direction info.size info.dataSize).map fun data =>
        ({ table with communication := communication.store slot (some data) }, .entry)
    | none =>
      match findSrc table.sources info.source with
      | none => .ok (⟨created, table.sources ++ [⟨info.source, .zero, 1⟩]⟩, .entry)
      | some position =>
        match table.sources[position]? with
        | none => .error .dangling
        | some src =>
          if src.itemsInCommList < sourceSizeLimit then
            .ok ({ table with communication := created }, .entry)
          else
            (updateValue src.other info.direction info.size info.dataSize).map fun other =>
              (⟨communication, table.sources.set position { src with other }⟩, .other)

end Counting

section Dumping

/-- The port stands in the line as a number, and here as its bytes in memory. -/
inductive DumpLine where
  | item (appProtocol : String) (src dst port : Bytes) (data : TrieData)
  | other (src : Bytes) (data : TrieData)
  deriving DecidableEq, Repr

/-- The bytes of the key are read as `struct key` again. -/
def dumpItem (visit : TrieVisit TrieData) : Except Abort DumpLine :=
  let src := (visit.key.take 16).take (visit.key.getD 32 0).toNat
  let dst := ((visit.key.drop 16).take 16).take (visit.key.getD 33 0).toNat
  let line (appProtocol : String) : Except Abort DumpLine :=
    match visit.data with
    | none => .error .missingRecord
    | some data => .ok (.item appProtocol src dst (visit.key.drop 36) data)
  if visit.key.getD 34 0 = letter 'T' then line "TCP"
  else if visit.key.getD 34 0 = letter 'U' then line "UDP"
  else .error .protocol

def dumpItems : List (TrieVisit TrieData) → Except Abort (List DumpLine)
  | [] => .ok []
  | visit :: visits =>
    (dumpItem visit).bind fun line => (dumpItems visits).map fun lines => line :: lines

def Table.dump (table : Table) : Except Abort (List DumpLine) :=
  (dumpItems (trieWalk table.communication)).map fun lines =>
    lines ++ table.sources.map fun it => .other it.addr it.other

end Dumping

section System

/-- The file holds what was dumped.
The log is a ghost with the accepted packets since the last dump. -/
structure Plugin where
  table : Table
  filter : List FilterRule
  file : List DumpLine
  log : List Arrival

inductive Event where
  | packet (frame : Frame)
  | dump (opened : Bool)
  | configure (filter : List FilterRule)

def Plugin.init : Plugin := ⟨.fresh, [], [], []⟩

variable (width : Width) (order : ByteOrder) (plugin : Plugin)

def packetHandle (frame : Frame) : Except Abort Plugin :=
  match accept width order plugin.filter frame with
  | none => .ok plugin
  | some packet =>
    (plugin.table.count packet).map fun (table, place) =>
      { plugin with table, log := plugin.log ++ [⟨packet, place⟩] }

/-- Without the file the plugin keeps its data. -/
def dump (opened : Bool) : Except Abort Plugin :=
  if opened then
    plugin.table.dump.map fun lines =>
      { plugin with table := .fresh, file := plugin.file ++ lines, log := [] }
  else .ok plugin

def Plugin.step (event : Event) : Except Abort Plugin :=
  match event with
  | .packet frame => packetHandle width order plugin frame
  | .dump opened => dump plugin opened
  | .configure filter => .ok { plugin with filter }

def Plugin.run (events : List Event) : Except Abort Plugin :=
  events.foldlM (Plugin.step width order) plugin

end System

end Ucollect.Majordomo

/-
This file models how plugins/majordomo/majordomo.c compares addresses in the memory of the host, and
how it reads the subnets of its configuration.
-/

namespace Ucollect.Majordomo.Subnets
open Library
open Flow (ByteOrder)

section Comparing

variable (order : ByteOrder)

/-- The loop fills the table from its end, and the mask loses one bit after another. -/
def precomputeMasks : List Nat :=
  ((List.range 33).reverse.foldl
    (fun (masks, mask) i => (masks.set i (order.htonl mask), 2 * mask % 2 ^ 32))
    (List.replicate 33 0, 0xFFFFFFFF)).1

/-- There is no result when the word does not belong to the address. -/
def firstWord (address : Bytes) : Option Nat :=
  if address.length < 4 then none else some (order.load (address.take 4))

def bitcmp (a b : Bytes) (bits : Nat) : Option Bool :=
  if 32 < bits then do
    let first ← firstWord order a
    let second ← firstWord order b
    if first ≠ second then some false else bitcmp (a.drop 4) (b.drop 4) (bits - 32)
  else do
    let first ← firstWord order a
    let second ← firstWord order b
    let mask ← (precomputeMasks order)[bits]?
    some (first &&& mask == second &&& mask)
termination_by bits

/-- Only the bytes of the family are copied. -/
def addressSize (family : Nat) : Nat := if family = 4 then 4 else 16

def filterAddress (filter : List FilterRule) (addrBytes : Bytes) (family : Nat) : Option Bool :=
  match filter with
  | [] => some false
  | rule :: rules =>
    if family = rule.family then do
      let found ← bitcmp order (addrBytes.take (addressSize family)) rule.addr rule.prefixLength
      if found then some true else filterAddress rules addrBytes family
    else filterAddress rules addrBytes family

end Comparing

section Configuration

/-- A number beyond a `long` is cut to its limits, and a `long` is cut to 32 bits. -/
def atoi (text : Bytes) : Int :=
  (max (- 2 ^ 63) (min (2 ^ 63 - 1) (Fake.strtol text).1)).bmod (2 ^ 32)

variable (inetPton : Nat → Bytes → Option Bytes)

def parseAddress (addrstr : Bytes) : Option (Bytes × Nat) :=
  match inetPton 4 addrstr with
  | some addr => some (addr, 4)
  | none => (inetPton 6 addrstr).map fun addr => (addr, 6)

/-- The number is stored in a `size_t`. -/
def parseOption (line : Bytes) : Option FilterRule :=
  if letter '/' ∈ line then
    match parseAddress inetPton (line.takeWhile (· ≠ letter '/')) with
    | none => none
    | some (addr, family) =>
      let number := ((atoi ((line.dropWhile (· ≠ letter '/')).drop 1)) % 2 ^ 64).toNat
      if number = 0 ∨ (if family = 4 then 32 else 128) < number then none
      else some ⟨addr, number, family⟩
  else none

/-- The check reads every subnet, and a valid configuration is read again when it starts. -/
def readSubnets (values : List Bytes) : Option (List FilterRule) := values.mapM (parseOption inetPton)

end Configuration

end Ucollect.Majordomo.Subnets
