import Ucollect.Construction.Core.Packet
import Ucollect.Construction.Core.Uplink
import Ucollect.Library.Readers
import Ucollect.Construction.Diffstore.Tries

/-
This file models plugins/flow/filter.c.
-/

namespace Ucollect.Flow
open Library Core

/-- The plugin sees these fields of a parsed IP packet. -/
structure Packet where
  ipProtocol : Nat
  appProtocol : UInt8
  direction : Direction
  addresses : Ends Bytes
  ports : Ends UInt16
  length : Nat
  tcpFlags : UInt8
  family : ipProtocol = 4 ∧ addresses.src.length = 4 ∧ addresses.dst.length = 4 ∨
    ipProtocol = 6 ∧ addresses.src.length = 16 ∧ addresses.dst.length = 16

inductive Side where
  | near
  | remote
  deriving DecidableEq, Repr

/-- A direction that is not known has no endpoints. -/
def Side.endpoint {A : Type} (side : Side) (direction : Direction) (ends : Ends A) : Option A :=
  match side, direction with
  | .near, .outgoing => some ends.src
  | .near, .incoming => some ends.dst
  | .remote, .incoming => some ends.src
  | .remote, .outgoing => some ends.dst
  | _, .unknown => none

inductive ByteOrder where
  | little
  | big
  deriving DecidableEq, Repr

/-- These are the bytes of a number in the memory of the host. -/
def ByteOrder.bytes (order : ByteOrder) (number : UInt16) : Bytes :=
  match order with
  | .little => (word16 number.toNat).reverse
  | .big => word16 number.toNat

def swap (number : UInt16) : UInt16 :=
  UInt16.ofNat (256 * (number.toNat % 256) + number.toNat / 256)

def ByteOrder.htons (order : ByteOrder) (number : UInt16) : UInt16 :=
  match order with
  | .little => swap number
  | .big => number

/-- This is the number that the host reads from the bytes in its memory. -/
def ByteOrder.load (order : ByteOrder) (bytes : Bytes) : Nat :=
  match order with
  | .little => bigEndian bytes.reverse
  | .big => bigEndian bytes

/-- This is `htonl`. -/
def ByteOrder.htonl (order : ByteOrder) (number : Nat) : Nat := order.load (word32 number)

/-- This is `struct filter` with the type of the node.
A trie is the list of its keys. A differential filter has a store with a name, and the content of
the store is elsewhere in the memory. -/
inductive Filter where
  | constant (value : Bool)
  | negation (sub : Filter)
  | conjunction (subfilters : List Filter)
  | disjunction (subfilters : List Filter)
  | address (side : Side) (trie : List Bytes)
  | port (side : Side) (trie : List Bytes)
  | differential (side : Side) (name : Bytes) (store : Nat)
  | range (side : Side) (v6 : Bool) (address mask : Bytes)

/-- The stores are the active keys of the differential filters. -/
abbrev Stores := Nat → List Bytes

section Apply

variable (order : ByteOrder) (stores : Stores) (packet : Packet)

/-- The check for a known direction fails before the lookup. -/
def filterAddress (side : Side) (trie : List Bytes) : Option Bool :=
  (side.endpoint packet.direction packet.addresses).map fun address => trie.contains address

def filterPort (side : Side) (trie : List Bytes) : Option Bool :=
  (side.endpoint packet.direction packet.ports).map fun port => trie.contains (order.bytes port)

def filterDifferential (side : Side) (store : Nat) : Bool :=
  match side.endpoint packet.direction packet.addresses,
    side.endpoint packet.direction packet.ports with
  | some address, some port =>
    (stores store).contains address ||
      (stores store).contains (address ++ order.bytes (order.htons port))
  | _, _ => false

/-- Two words are equal when their bytes are, whatever the order of the bytes is. -/
def matchesMasked (address expected mask : Bytes) : Bool :=
  List.zipWith (fun byte mask => byte &&& mask) address mask == expected

def filterRange (side : Side) (v6 : Bool) (address mask : Bytes) : Bool :=
  match side.endpoint packet.direction packet.addresses with
  | none => false
  | some own => packet.ipProtocol == (if v6 then 6 else 4) && matchesMasked own address mask

mutual

/-- This is `filter_apply`, and a failed check has no value. -/
def Filter.apply : Filter → Option Bool
  | .constant value => some value
  | .negation sub => sub.apply.map fun value => !value
  | .conjunction subfilters => applyAnd subfilters
  | .disjunction subfilters => applyOr subfilters
  | .address side trie => filterAddress packet side trie
  | .port side trie => filterPort order packet side trie
  | .differential side _ store => some (filterDifferential order stores packet side store)
  | .range side v6 address mask => some (filterRange packet side v6 address mask)

def applyAnd : List Filter → Option Bool
  | [] => some true
  | sub :: subfilters => sub.apply.bind fun value => if value then applyAnd subfilters else some false

def applyOr : List Filter → Option Bool
  | [] => some false
  | sub :: subfilters => sub.apply.bind fun value => if value then some true else applyOr subfilters

end

end Apply

section Parse

/-- The next store is the one that the next differential filter gets. -/
structure Parse (A : Type) where
  value : A
  rest : Bytes
  nextStore : Nat

def parseByte (input : Bytes) : Option (UInt8 × Bytes) :=
  match input with
  | [] => none
  | byte :: rest => some (byte, rest)

/-- Each key has its size in front of it. -/
def parseAddresses : Nat → Bytes → Option (List Bytes × Bytes)
  | 0, input => some ([], input)
  | count + 1, input =>
    (parseByte input).bind fun (size, input) =>
      (cut size.toNat input).bind fun (key, input) =>
        (parseAddresses count input).map fun (keys, input) => (key :: keys, input)

/-- The bytes of a port are the key as they come. -/
def parsePorts : Nat → Bytes → Option (List Bytes × Bytes)
  | 0, input => some ([], input)
  | count + 1, input =>
    (cut 2 input).bind fun (key, input) =>
      (parsePorts count input).map fun (keys, input) => (key :: keys, input)

/-- The mask has ones for the bits of the prefix. -/
def prefixMask (addrLen netmask : Nat) : Bytes :=
  let prefixLen := (netmask + 7) / 8
  List.replicate (prefixLen - 1) 0xFF ++ [(0xFF * 2 ^ ((8 - netmask % 8) % 8)).toUInt8] ++
    List.replicate (addrLen - prefixLen) 0

/-- Only the last byte of the prefix is cut to the mask. -/
def prefixAddress (addrLen netmask : Nat) (bytes : Bytes) : Bytes :=
  let prefixLen := (netmask + 7) / 8
  bytes.dropLast ++
    bytes.getLast?.toList.map (· &&& (0xFF * 2 ^ ((8 - netmask % 8) % 8)).toUInt8) ++
    List.replicate (addrLen - prefixLen) 0

def parseRange (side : Side) (input : Bytes) : Option (Filter × Bytes) :=
  if input.length < 2 then none
  else
    (parseByte input).bind fun (family, input) =>
      (parseByte input).bind fun (netmask, input) =>
        let v6 := family == 6
        let addrLen := if v6 then 16 else 4
        let prefixLen := (netmask.toNat + 7) / 8
        if addrLen < prefixLen then none
        else (cut prefixLen input).bind fun (bytes, input) =>
          if netmask = 0 then none
          else some (.range side v6 (prefixAddress addrLen netmask.toNat bytes)
            (prefixMask addrLen netmask.toNat), input)

def parseAddressMatch (side : Side) (input : Bytes) : Option (Filter × Bytes) :=
  (readWord32 input).bind fun (count, input) =>
    (parseAddresses count input).map fun (keys, input) => (.address side keys, input)

def parsePortMatch (side : Side) (input : Bytes) : Option (Filter × Bytes) :=
  (cut 2 input).bind fun (count, input) =>
    (parsePorts (bigEndian count) input).map fun (keys, input) => (.port side keys, input)

/-- A leaf does not need a new store. -/
def leaf (parsed : Option (Filter × Bytes)) (nextStore : Nat) : Option (Parse Filter) :=
  parsed.map fun (filter, rest) => ⟨filter, rest, nextStore⟩

def parseDifferential (side : Side) (input : Bytes) (nextStore : Nat) : Option (Parse Filter) :=
  (uplinkParseString input).map fun (name, rest) =>
    ⟨.differential side (cString name) nextStore, rest, nextStore + 1⟩

/-- This is the loop of `parse_many_subs`. -/
def parseSubs (parseOne : Bytes → Nat → Option (Parse Filter)) :
    Nat → Bytes → Nat → Option (Parse (List Filter))
  | 0, input, nextStore => some ⟨[], input, nextStore⟩
  | count + 1, input, nextStore =>
    (parseOne input nextStore).bind fun first =>
      (parseSubs parseOne count first.rest first.nextStore).map fun last =>
        ⟨first.value :: last.value, last.rest, last.nextStore⟩

def parseManySubs (parseOne : Bytes → Nat → Option (Parse Filter))
    (combine : List Filter → Filter) (input : Bytes) (nextStore : Nat) : Option (Parse Filter) :=
  (readWord32 input).bind fun (count, input) =>
    (parseSubs parseOne count input nextStore).map fun parsed =>
      ⟨combine parsed.value, parsed.rest, parsed.nextStore⟩

/-- The fuel bounds the depth of the filter. -/
def parseOne : Nat → Bytes → Nat → Option (Parse Filter)
  | 0, _, _ => none
  | fuel + 1, input, nextStore =>
    (parseByte input).bind fun (code, input) =>
      if code = letter 'T' then some ⟨.constant true, input, nextStore⟩
      else if code = letter 'F' then some ⟨.constant false, input, nextStore⟩
      else if code = letter '!' then
        (parseOne fuel input nextStore).map fun sub =>
          ⟨.negation sub.value, sub.rest, sub.nextStore⟩
      else if code = letter '&' then parseManySubs (parseOne fuel) .conjunction input nextStore
      else if code = letter '|' then parseManySubs (parseOne fuel) .disjunction input nextStore
      else if code = letter 'i' then leaf (parseAddressMatch .near input) nextStore
      else if code = letter 'I' then leaf (parseAddressMatch .remote input) nextStore
      else if code = letter 'p' then leaf (parsePortMatch .near input) nextStore
      else if code = letter 'P' then leaf (parsePortMatch .remote input) nextStore
      else if code = letter 'd' then parseDifferential .near input nextStore
      else if code = letter 'D' then parseDifferential .remote input nextStore
      else if code = letter 'r' then leaf (parseRange .near input) nextStore
      else if code = letter 'R' then leaf (parseRange .remote input) nextStore
      else none

/-- Each level of the filter takes a byte, so the length is enough fuel.
An empty description means a filter for everything, and data behind the filter is ignored. -/
def filterParse (description : Bytes) : Option Filter :=
  match description with
  | [] => some (.constant true)
  | _ :: _ => (parseOne description.length description 0).map Parse.value

end Parse

end Ucollect.Flow

/-
This file models the updates of the differential filters in plugins/flow/filter.c.
-/

namespace Ucollect.Flow
open Library Core Diffstore

/-- Each differential filter has a store of its own. -/
abbrev AddressStores := Nat → TrieStore

/-- A name without a filter is unknown. -/
inductive FilterAction where
  | unknown
  | known (action : Action)
  deriving DecidableEq, Repr

mutual

/-- This is `filter_find`, and the result is the store of the node. -/
def Filter.find (name : Bytes) : Filter → Option Nat
  | .differential _ own store => if name = own then some store else none
  | .negation sub => sub.find name
  | .conjunction subfilters => findSub name subfilters
  | .disjunction subfilters => findSub name subfilters
  | _ => none

def findSub (name : Bytes) : List Filter → Option Nat
  | [] => none
  | sub :: subfilters =>
    match sub.find name with
    | some store => some store
    | none => findSub name subfilters

end

/-- This is `filter_action`. -/
def Filter.action (filter : Filter) (stores : AddressStores) (name : Bytes) (epoch version : Nat) :
    FilterAction :=
  match filter.find name with
  | none => .unknown
  | some store => .known ((stores store).action epoch version)

/-- This is `filter_diff_apply`. -/
def Filter.diffApply (filter : Filter) (stores : AddressStores) (name : Bytes) (diff : Diff) :
    Option (AddressStores × FilterAction) :=
  match filter.find name with
  | none => some (stores, .unknown)
  | some store =>
    ((stores store).receive diff).map fun (next, action, _) =>
      (Function.update stores store next, .known action)

/-- The address may be there alone or with the port. A lookup moves the nodes of the trie. -/
def lookupPlace (order : ByteOrder) (store : TrieStore) (address : Bytes) (port : UInt16) :
    Except TrieAbort (TrieStore × Bool) :=
  match trieLookup store.trie address with
  | .error abort => .error abort
  | .ok (trie, some _) => .ok ({ store with trie }, true)
  | .ok (trie, none) =>
    match trieLookup trie (address ++ order.bytes (order.htons port)) with
    | .error abort => .error abort
    | .ok (trie, found) => .ok ({ store with trie }, found.isSome)

/-- This is `filter_differential` over the trie of the store. -/
def lookupDifferential (order : ByteOrder) (packet : Packet) (side : Side) (store : TrieStore) :
    Except TrieAbort (TrieStore × Bool) :=
  match side.endpoint packet.direction packet.addresses,
    side.endpoint packet.direction packet.ports with
  | some address, some port => lookupPlace order store address port
  | _, _ => .ok (store, false)

/-- A diff comes from the server, or a node with a store is evaluated for a packet. Which nodes a packet
reaches depends on the other filters of the tree. -/
inductive FilterEvent where
  | update (name : Bytes) (diff : Diff)
  | evaluate (side : Side) (store : Nat) (packet : Packet)

/-- A failed check ends the plugin. -/
def Filter.step (filter : Filter) (order : ByteOrder) (stores : AddressStores) :
    FilterEvent → Option AddressStores
  | .update name diff => (filter.diffApply stores name diff).map Prod.fst
  | .evaluate side store packet =>
    match lookupDifferential order packet side (stores store) with
    | .error _ => none
    | .ok (next, _) => some (Function.update stores store next)

def Filter.run (filter : Filter) (order : ByteOrder) (stores : AddressStores)
    (events : List FilterEvent) : Option AddressStores :=
  events.foldlM (filter.step order) stores

end Ucollect.Flow
