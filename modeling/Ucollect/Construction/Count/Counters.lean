import Mathlib.Data.Vector.Defs
import Ucollect.Construction.Core.Packet

/-
This file models plugins/count/count.c.
-/

namespace Ucollect.Count
open Core

/-- This is `enum selector` without its stop mark. -/
inductive Selector where
  | any
  | v4
  | v6
  | inward
  | outward
  | tcp
  | udp
  | icmp
  | lowPort
  | synFlag
  | finFlag
  | synAckFlag
  | ackFlag
  | pushFlag
  | server
  | v6Tunnel
  deriving DecidableEq, Repr

/-- The selectors in the order of the message. -/
def Selector.all : List Selector :=
  [.any, .v4, .v6, .inward, .outward, .tcp, .udp, .icmp, .lowPort, .synFlag, .finFlag, .synAckFlag,
    .ackFlag, .pushFlag, .server, .v6Tunnel]

/-- The number of the selector. -/
def Selector.number (selector : Selector) : Nat := Selector.all.idxOf selector

def tcpFin : Nat := 1 <<< 0
def tcpSyn : Nat := 1 <<< 1
def tcpAck : Nat := 1 <<< 4

structure Datum where
  count : Nat
  size : Nat
  deriving DecidableEq, Repr

structure UserData where
  timestamp : UInt64
  data : Selector → Datum

def UserData.fresh (timestamp : UInt64) : UserData := ⟨timestamp, fun _ => ⟨0, 0⟩⟩

def UserData.update (d : UserData) (selector : Selector) (size : Nat) : UserData :=
  { d with
    data := Function.update d.data selector
      ⟨(d.data selector).count + 1, (d.data selector).size + size⟩ }

/-- This is an address of the uplink from `getaddrinfo`. -/
inductive AddrInfo where
  | inet (address : List.Vector UInt8 4)
  | inet6 (address : List.Vector UInt8 16)
  | other

/-- These are the bytes that the plugin compares. -/
def AddrInfo.pos : AddrInfo → Option (List UInt8)
  | .inet address => some address.toList
  | .inet6 address => some address.toList
  | .other => none

/-- A packet of an unknown direction has no remote endpoint. -/
def remoteEndpoint {A : Type} (direction : Direction) (ends : Ends A) : Option A :=
  match direction with
  | .incoming => some ends.src
  | .outgoing => some ends.dst
  | .unknown => none

/-- These bytes stand behind a pointer into the packet. -/
def pointed (memory : PacketMemory) (address length : Nat) : List UInt8 :=
  (List.range length).map fun offset => memory (address + offset)

def AddrInfo.isRemote (memory : PacketMemory) (info : PacketInfo) (port : Nat) (addr : AddrInfo) :
    Bool :=
  match addr.pos, remoteEndpoint info.direction info.addresses with
  | some pos, some (some address) =>
    pos.length == info.addrLen && pointed memory address pos.length == pos && port != 22
  | _, _ => false

/-- The flags of the selector and of the TCP header are numbers alike, and the push flag is tested
with the number of its selector. -/
def UserData.flags (d : UserData) (info : PacketInfo) (size : Nat) : UserData :=
  let d := if info.tcpFlags &&& tcpSyn ≠ 0 then d.update .synFlag size else d
  let d := if info.tcpFlags &&& tcpFin ≠ 0 then d.update .finFlag size else d
  let d := if info.tcpFlags &&& tcpAck ≠ 0 ∧ info.tcpFlags &&& tcpSyn ≠ 0 then
    d.update .synAckFlag size else d
  let d := if info.tcpFlags &&& tcpAck ≠ 0 then d.update .ackFlag size else d
  if info.tcpFlags &&& Selector.pushFlag.number ≠ 0 then d.update .pushFlag size else d

def UserData.direction (d : UserData) (info : PacketInfo) (size : Nat) : UserData :=
  match info.direction with
  | .incoming => d.update .inward size
  | .outgoing => d.update .outward size
  | .unknown => d

def UserData.ipProtocol (d : UserData) (info : PacketInfo) (size : Nat) (tunnel : Bool) :
    UserData :=
  if info.ipProtocol = 4 then d.update .v4 size
  else if info.ipProtocol = 6 then d.update (if tunnel then .v6Tunnel else .v6) size
  else d

def UserData.appProtocol (d : UserData) (info : PacketInfo) (size : Nat) : UserData :=
  if info.appProtocol = 'T' then (d.update .tcp size).flags info size
  else if info.appProtocol = 'U' then d.update .udp size
  else if info.appProtocol = 'i' ∨ info.appProtocol = 'I' then d.update .icmp size
  else d

/-- The loop over the addresses ends at the first one that matches. -/
def UserData.remote (d : UserData) (memory : PacketMemory) (uplink : List AddrInfo)
    (info : PacketInfo) (size : Nat) : UserData :=
  match remoteEndpoint info.direction info.ports with
  | none => d
  | some port =>
    let d := if port ≤ 1024 ∧ port ≠ 0 then d.update .lowPort size else d
    if uplink.any (AddrInfo.isRemote memory info port) then d.update .server size else d

/-- The direction is counted before the layer is looked at. -/
def UserData.innermost (d : UserData) (memory : PacketMemory) (uplink : List AddrInfo)
    (info : PacketInfo) (size : Nat) (tunnel : Bool) : UserData :=
  let d := (d.update .any size).direction info size
  if info.layer ≠ 'I' then d
  else ((d.ipProtocol info size tunnel).appProtocol info size).remote memory uplink info size

/-- An envelope is not counted itself. -/
def packetHandleInternal (memory : PacketMemory) (uplink : List AddrInfo) (size : Nat)
    (d : UserData) : Bool → PacketInfo → UserData
  | tunnel, { next := some next, layer, ipProtocol, .. } =>
    packetHandleInternal memory uplink size d
      (tunnel || (layer = 'I' && (ipProtocol = 4 || ipProtocol = 6))) next
  | tunnel, info => d.innermost memory uplink info size tunnel

def packetHandle (memory : PacketMemory) (uplink : List AddrInfo) (info : PacketInfo)
    (d : UserData) : UserData :=
  packetHandleInternal memory uplink info.length d false info

/-- This is the message to the server. The statistics are those of `loop_pcap_stats`, and they start
with the number of the interfaces. -/
structure Report where
  timestamp : UInt64
  ifCount : UInt32
  data : List UInt32
  sizes : List Nat

def UserData.encode (d : UserData) : List Nat :=
  Selector.all.flatMap fun selector => [(d.data selector).count, (d.data selector).size]

/-- The counters start again after a report. -/
def communicate (timestamp : UInt64) (stats : List Nat) (u : UserData) : Report × UserData :=
  (⟨u.timestamp, UInt32.ofNat (stats.headD 0),
    (stats.tail.take (3 * stats.headD 0)).map UInt32.ofNat, u.encode⟩, .fresh timestamp)

/-- This is a packet from the capture loop. -/
structure CapturedPacket where
  width : Width
  memory : PacketMemory
  budget : Nat
  pool : Nat → PacketInfo
  capture : Capture
  starts : capture.Starts memory
  interface : String
  direction : Direction
  timestamp : Nat
  datalink : Int
  info : PacketInfo
  parsed : (ucParsePacket width memory budget pool
    (capture.packet interface direction timestamp) datalink).result = some info

/-- The addresses of the uplink may change between two packets. -/
structure Observed where
  packet : CapturedPacket
  uplink : List AddrInfo

inductive Event where
  | packet (observed : Observed)
  | request (timestamp : UInt64) (stats : List Nat)

def UserData.handle (d : UserData) (observed : Observed) : UserData :=
  packetHandle observed.packet.memory observed.uplink observed.packet.info d

/-- These are the answers to the requests. -/
def run : List Event → UserData → List Report
  | [], _ => []
  | .packet observed :: events, d => run events (d.handle observed)
  | .request timestamp stats :: events, d =>
    let (report, d) := communicate timestamp stats d
    report :: run events d

/-- The numbers of a property in a report. -/
def Report.datum (report : Report) (selector : Selector) : Datum :=
  ⟨report.sizes.getD (2 * selector.number) 0, report.sizes.getD (2 * selector.number + 1) 0⟩

end Ucollect.Count
