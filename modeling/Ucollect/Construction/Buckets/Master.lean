import Ucollect.Construction.Core.Packet
import Ucollect.Library.Readers

/-
This file models the keys and the hashes of plugins/buckets: criteria.c, rng.c and hash.c.
-/

namespace Ucollect.Buckets
open Library Core

/-- A failed check kills the plugin. -/
inductive Abort where
  | emptyMessage
  | addressLength
  | zeroSeed
  | shortHeader
  | shortCriteria
  | unknownCriterion
  | zeroSized
  | zeroGranularity
  | generationSize
  | outsideCounts
  | wrongTotal
  | splitIndex
  | outsideRequest
  | criterionBounds
  | missingCount
  | fewIndices
  | bucketBounds
  | runOut
  | extraIndices
  | strayGeneration
  deriving DecidableEq, Repr

/-- This is the part of one layer of a packet that the criteria read. -/
structure Layer where
  layer : Char
  appProtocol : Char
  direction : Direction
  ipProtocol : Nat
  addresses : Ends (Option Bytes)
  ports : Ends Nat
  deriving DecidableEq, Repr

/-- A direction that is not known has no endpoints. -/
def remoteEndpoint {A : Type} (direction : Direction) (both : Ends A) : Option A :=
  match direction with
  | .incoming => some both.src
  | .outgoing => some both.dst
  | .unknown => none

def localEndpoint {A : Type} (direction : Direction) (both : Ends A) : Option A :=
  match direction with
  | .incoming => some both.dst
  | .outgoing => some both.src
  | .unknown => none

def addrSize : Nat := 17

def portSize : Nat := 2

/-- The version byte precedes the address, and zeroes follow it. -/
def copyIp (packet : Layer) : Except Abort (Option Bytes) :=
  match (remoteEndpoint packet.direction packet.addresses).join with
  | none => .ok none
  | some address =>
    if addrSize - 1 < address.length then .error .addressLength
    else .ok (some (packet.ipProtocol.toUInt8 :: (address ++
      List.replicate (addrSize - 1 - address.length) 0)))

def copyPort (port : Option Nat) : Option Bytes :=
  match port with
  | none => none
  | some port => if port = 0 then none else some (word16 port)

def extractIpAddress (packet : Layer) : Except Abort (Option Bytes) := copyIp packet

def extractPort (packet : Layer) : Except Abort (Option Bytes) :=
  .ok (copyPort (remoteEndpoint packet.direction packet.ports))

/-- The port stands before the address. -/
def extractPortAddr (packet : Layer) (port : Option Nat) : Except Abort (Option Bytes) :=
  match copyPort port with
  | none => .ok none
  | some port => (copyIp packet).map fun address => address.map (port ++ ·)

def extractBoth (packet : Layer) : Except Abort (Option Bytes) :=
  extractPortAddr packet (remoteEndpoint packet.direction packet.ports)

def extractLportAddr (packet : Layer) : Except Abort (Option Bytes) :=
  extractPortAddr packet (localEndpoint packet.direction packet.ports)

/-- The innermost layer has no next one, so the loop sees this layer only. -/
def outgoing (extract : Layer → Except Abort (Option Bytes)) (packet : Layer) :
    Except Abort (Option Bytes) :=
  if packet.layer = 'I' ∧ (packet.appProtocol = 'i' ∨ packet.appProtocol = 'I') then .ok none
  else if packet.direction = .outgoing then extract packet
  else .ok none

structure CriterionDef where
  name : Char
  keySize : Nat
  extractKey : Layer → Except Abort (Option Bytes)

def criteria : List CriterionDef :=
  [⟨'I', addrSize, extractIpAddress⟩,
    ⟨'P', portSize, extractPort⟩,
    ⟨'B', portSize + addrSize, extractBoth⟩,
    ⟨'L', portSize + addrSize, extractLportAddr⟩,
    ⟨'i', addrSize, outgoing extractIpAddress⟩,
    ⟨'p', portSize, outgoing extractPort⟩,
    ⟨'b', portSize + addrSize, outgoing extractBoth⟩,
    ⟨'l', portSize + addrSize, outgoing extractLportAddr⟩]

/-- The two numbers are 32 bits wide. -/
structure RngSeed where
  low : Nat
  high : Nat
  deriving DecidableEq, Repr

/-- The even and the odd bits of the seed are folded to one half each. -/
def rngSeedInit (seed : Nat) : Except Abort RngSeed :=
  let even := seed &&& 0x5555555555555555
  let odd := seed &&& 0xAAAAAAAAAAAAAAAA
  let low := (even &&& 0x00000000FFFFFFFF) ||| ((even &&& 0xFFFFFFFF00000000) >>> 31)
  let high := (odd &&& 0x00000000FFFFFFFF) ||| ((odd &&& 0xFFFFFFFF00000000) >>> 33)
  if low % 2 ^ 32 = 0 ∨ high % 2 ^ 32 = 0 then .error .zeroSeed
  else .ok ⟨low % 2 ^ 32, high % 2 ^ 32⟩

def rngStep (seed : RngSeed) : RngSeed :=
  ⟨(36969 * (seed.low &&& 0xFFFF) + (seed.low >>> 16)) % 2 ^ 32,
    (18000 * (seed.high &&& 0xFFFF) + (seed.high >>> 16)) % 2 ^ 32⟩

def rngOutput (seed : RngSeed) : Nat := ((seed.high <<< 16) + seed.low) % 2 ^ 32

def rngAfter (seed : RngSeed) : Nat → RngSeed
  | 0 => rngStep seed
  | index + 1 => rngStep (rngAfter seed index)

/-- The numbers follow each other in the array. -/
def genHashData (seed : RngSeed) (index : Nat) : Nat := rngOutput (rngAfter seed index)

/-- Each byte of the key picks a number from its own block. -/
def hash (hashData : Nat → Nat) (start : Nat) (key : Bytes) : Nat :=
  (key.zipIdx.foldl (fun result (byte, position) =>
    result ^^^ hashData (start + 256 * position + byte.toNat)) 0) % 2 ^ 32

end Ucollect.Buckets

/-
This file models the processing of a generation in master/buckets/main.py and master/buckets/group.py.
-/

namespace Ucollect.Buckets
open Library

/-- The configuration of the server. A criterion is known by its code. -/
structure Master where
  bucketCount : Nat
  hashCount : Nat
  criteria : List Char
  lowerTime : Nat
  upperTime : Nat
  gathering : Bool
  deriving DecidableEq, Repr

/-- The counts of a client, one list for each time slot with a line for each hash. -/
abbrev SlotCounts := List (List (List Nat))

/-- The message as the server understands it, with the numbers that nothing was made of. -/
structure Decoded where
  timestamp : Nat
  version : Nat
  timeslots : Nat
  merges : List (Char × SlotCounts)
  left : List Nat
  deriving DecidableEq, Repr

/-- The counts of a group, one list for each hash with the time slots of each bucket. -/
abbrev GroupCounts := List (List (List Nat))

def emptyData (hashCount bucketCount : Nat) : GroupCounts :=
  List.replicate hashCount (List.replicate bucketCount [])

/-- The shorter list gets zeroes on its left side. -/
def addSlots (current new : List Nat) : List Nat :=
  let length := max current.length new.length
  List.zipWith (· + ·) (List.replicate (length - current.length) 0 ++ current)
    (List.replicate (length - new.length) 0 ++ new)

def cell {A : Type} (table : List (List A)) (row column : Nat) : Option A :=
  table[row]?.bind fun cells => cells[column]?

def transposed (hashCount bucketCount : Nat) (counts : SlotCounts) : Option GroupCounts :=
  (List.range hashCount).mapM fun hash => (List.range bucketCount).mapM fun bucket =>
    counts.mapM fun slot => cell slot hash bucket

/-- The assertions compare the sizes. -/
def groupMerge (hashCount bucketCount : Nat) (current : GroupCounts) (counts : SlotCounts) :
    Option GroupCounts := do
  let new ← transposed hashCount bucketCount counts
  if current.length = new.length ∧ current.length = hashCount then
    (current.zip new).mapM fun (currentHash, newHash) =>
      if currentHash.length = newHash.length ∧ currentHash.length = bucketCount then
        some (List.zipWith addSlots currentHash newHash)
      else none
  else none

/-- The data of another window are not merged. -/
def Master.merge (master : Master) (timestamp : Nat) (groups : List GroupCounts)
    (counts : SlotCounts) : Option (List GroupCounts) :=
  if timestamp < master.lowerTime ∨ master.upperTime ≤ timestamp ∨ !master.gathering then
    some groups
  else groups.mapM fun group => groupMerge master.hashCount master.bucketCount group counts

end Ucollect.Buckets

/-
This file models the levels of aggregation in master/buckets/stats.py.
-/

namespace Ucollect.Buckets

variable {M : Type} [AddCommMonoid M]

/-- This is `map` over a range, and a position outside of the list is an error. -/
def positions (what : List M) (place : Nat → Nat) (limit : Nat) : Option (List M) :=
  (List.range limit).mapM fun i => what[place i]?

/-- A list of odd length has one more item at an even position. -/
def levelLimit (l : Nat) : Nat := if l % 2 = 1 then l / 2 + 1 else l / 2

/-- This is one round of the loop. -/
def level (what : List M) (l : Nat) : Option (List M) := do
  let odd ← positions what (fun i => 2 * i + 1) (l / 2)
  let odd := if l % 2 = 1 then odd ++ [0] else odd
  let even ← positions what (fun i => 2 * i) (levelLimit l)
  some (List.zipWith (fun a b => a + b) odd even)

theorem levelLimit_lt {l : Nat} (more : 2 < l) : levelLimit l < l := by
  unfold levelLimit
  split <;> omega

/-- The loop appends one level after another. -/
def aggregateFrom (what : List M) (l : Nat) : Option (List (List M)) :=
  if more : 2 < l then do
    let what ← level what l
    let rest ← aggregateFrom what (levelLimit l)
    some (what :: rest)
  else some []
termination_by l
decreasing_by exact levelLimit_lt more

def aggregate (what : List M) : Option (List (List M)) :=
  (aggregateFrom what what.length).map fun rest => what :: rest

end Ucollect.Buckets
