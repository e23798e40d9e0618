import Ucollect.Construction.Core.Trie
import Ucollect.Construction.Flow.Filter

/-
This file models plugins/flow/flow.c.
-/

namespace Ucollect.Flow
open Library Core

/-- A failed check kills the plugin. -/
inductive Abort where
  | emptyMessage
  | extraData
  | shortConfig
  | brokenFilter
  | filterDirection
  | addressLength
  | keyDirection
  | trieChild
  | trieIndex
  | wrongCounted
  | wrongFlushed
  | wrongSize
  | renderSize
  | pastSizes
  | dangling
  | noTimeout
  | timeoutExists
  | missingTimeout
  | cancelUnknown
  | noTimeoutId
  deriving DecidableEq, Repr

/-- The order is in and out, or local and remote. -/
structure Pair (A : Type) where
  first : A
  second : A
  deriving DecidableEq, Repr

def Pair.at {A : Type} (pair : Pair A) (direction : Direction) : A :=
  match direction with
  | .incoming => pair.first
  | _ => pair.second

/-- There is no element for a direction that is not known. -/
def Pair.change {A : Type} (pair : Pair A) (direction : Direction) (value : A → A) : Pair A :=
  match direction with
  | .incoming => { pair with first := value pair.first }
  | .outgoing => { pair with second := value pair.second }
  | .unknown => pair

/-- This is `struct flow`.
The monotonic clock does not reach the end of its 64 bits. -/
structure Record where
  count : Pair UInt32
  size : Pair UInt64
  firstTime : Pair Nat
  lastTime : Pair Nat
  ports : Pair UInt16
  addrs : Pair Bytes
  v6 : Bool
  udp : Bool
  seenFlowStart : Pair Bool
  deriving DecidableEq, Repr

/-- The local end is first, and a direction that is not known has no ends. -/
def Packet.localRemote {A : Type} (packet : Packet) (ends : Ends A) : Option (Pair A) :=
  (Side.near.endpoint packet.direction ends).bind fun near =>
    (Side.remote.endpoint packet.direction ends).map fun remote => ⟨near, remote⟩

/-- The array of an address has 16 bytes. -/
def addrBytes (address : Bytes) : Bytes := address ++ List.replicate (16 - address.length) 0

def flowParse (packet : Packet) : Option Record :=
  (packet.localRemote packet.ports).bind fun ports =>
    (packet.localRemote packet.addresses).map fun addresses =>
      { count := ⟨0, 0⟩
        size := ⟨0, 0⟩
        firstTime := ⟨0, 0⟩
        lastTime := ⟨0, 0⟩
        ports
        addrs := ⟨addrBytes addresses.first, addrBytes addresses.second⟩
        v6 := packet.ipProtocol ≠ 4
        udp := packet.appProtocol ≠ letter 'T'
        seenFlowStart := ⟨false, false⟩ }

def flowKey (order : ByteOrder) (packet : Packet) : Except Abort Key :=
  let addrS := if packet.ipProtocol = 4 then 4 else 16
  if ¬ (addrS = packet.addresses.src.length ∧ addrS = packet.addresses.dst.length) then
    .error .addressLength
  else
    match packet.localRemote packet.addresses, packet.localRemote packet.ports with
    | some addresses, some ports =>
      .ok (packet.ipProtocol.toUInt8 :: packet.appProtocol ::
        (addresses.first ++ addresses.second ++
          order.bytes ports.first ++ order.bytes ports.second))
    | _, _ => .error .keyDirection

/-- The encoding has flags, counts, sizes, ports, times and addresses. -/
def flowSize (flow : Record) : Nat :=
  1 + 2 * 4 + 2 * 8 + 2 * 2 + 4 * 8 + if flow.v6 then 2 * 16 else 2 * 4

def flowFlags (flow : Record) : UInt8 :=
  (if flow.v6 then 1 else 0) ||| (if flow.udp then 2 else 0) |||
    (if flow.seenFlowStart.first then 4 else 0) ||| (if flow.seenFlowStart.second then 8 else 0)

def flowRender (dstSize : Nat) (flow : Record) : Except Abort Bytes :=
  if dstSize ≠ flowSize flow then .error .renderSize
  else
    let addrSize := if flow.v6 then 16 else 4
    .ok (flowFlags flow ::
      (word32 flow.count.first.toNat ++ word32 flow.count.second.toNat ++
        word64 flow.size.first.toNat ++ word64 flow.size.second.toNat ++
        word16 flow.ports.first.toNat ++ word16 flow.ports.second.toNat ++
        word64 flow.firstTime.first ++ word64 flow.firstTime.second ++
        word64 flow.lastTime.first ++ word64 flow.lastTime.second ++
        flow.addrs.first.take addrSize ++ flow.addrs.second.take addrSize))

end Ucollect.Flow
