import Ucollect.Construction.Core.Sizes
import Ucollect.Construction.Core.Trie
import Ucollect.Construction.Flow.Filter

/-
This file models the parser of plugins/flow/filter.c with the width of `size_t`, with the blocks that
it allocates and with the tries that it fills.
-/

namespace Ucollect.Sizes
open Library Core MemPool Flow

/-- This is the size of `struct trie_node`, with seven fields and a flag. -/
def nodeSize (machine : Machine) : Nat := 8 * machine.word

/-- This is the size of `struct trie`, with the root and three more fields. -/
def trieStructSize (machine : Machine) : Nat := nodeSize machine + 3 * machine.word

/-- This is the size of `struct filter`, with eight fields and a flag. -/
def filterSize (machine : Machine) : Nat := 9 * machine.word

/-- This is the size of `struct diff_addr_store`, with two versions of 32 bits among ten words. -/
def storeSize (machine : Machine) : Nat := 10 * machine.word + 8

section Tries

variable (machine : Machine)

/-- A new node has a copy of its part of the key. -/
def newNodeBlocks (key : Key) : List Nat := [nodeSize machine, key.length]

mutual

/-- These are the blocks that `trie_index_internal` allocates for a new key. -/
def indexBlocks : TrieNode → Key → List Nat
  | .mk _ nodeKey _ children, key =>
    let common := lcp key nodeKey
    if common = nodeKey.length then
      match key.drop common with
      | [] => []
      | byte :: rest => descendBlocks children byte rest
    else nodeSize machine :: newNodeBlocks machine (key.drop common)

/-- A failed assertion allocates nothing. -/
def descendBlocks : List TrieNode → UInt8 → Key → List Nat
  | [], byte, rest => newNodeBlocks machine (byte :: rest)
  | child :: after, byte, rest =>
    match child.key with
    | [] => []
    | first :: _ =>
      if first = byte then indexBlocks child (byte :: rest) else descendBlocks after byte rest

end

/-- Each block is filled when it is allocated. -/
def fillBlocks : List Nat → Parser Unit
  | [] => pure ()
  | size :: sizes => do
    let block ← memPoolAlloc machine size
    fill block 0 size
    fillBlocks sizes

/-- The trie has a mark for the key, unless an assertion fails. -/
def markKey (trie : Trie Unit) (key : Key) : Option (Trie Unit) :=
  match trieIndex trie key with
  | .error _ => none
  | .ok (trie, none) => some trie
  | .ok (trie, some slot) => some (trie.store slot (some ()))

def indexKey (trie : Trie Unit) (key : Key) : Parser (Trie Unit) := do
  fillBlocks machine (indexBlocks machine trie.root key)
  match markKey trie key with
  | none => Checked.stop .died
  | some trie => pure trie

def allocTrie : Parser (Trie Unit) := do
  let block ← memPoolAlloc machine (trieStructSize machine)
  fill block 0 (trieStructSize machine)
  pure (trieAlloc Unit)

end Tries

section Filters

variable (machine : Machine) (message : Bytes)

/-- The key is in the message while the trie looks at it. -/
def parseSizedKey (size : Nat) (trie : Trie Unit) : Parser (Bytes × Trie Unit) := do
  let cursor ← get
  Checked.require (decide (size ≤ cursor.rest)) .died
  let key ← peek message 0 size
  let trie ← indexKey machine trie key
  advance machine size
  pure (key, trie)

def parseAddressKey (trie : Trie Unit) : Parser (Bytes × Trie Unit) := do
  let size ← takeBytes machine message 1
  parseSizedKey machine message (bigEndian size) trie

/-- The port is copied before the trie looks at it. -/
def parsePortKey (trie : Trie Unit) : Parser (Bytes × Trie Unit) := do
  let port ← takeBytes machine message 2
  let trie ← indexKey machine trie port
  pure (port, trie)

/-- This is the loop of `parse_ip_match` and of `parse_port_match`. -/
def parseKeys (parseKey : Trie Unit → Parser (Bytes × Trie Unit)) :
    Nat → Trie Unit → Parser (List Bytes)
  | 0, _ => pure []
  | count + 1, trie => do
    let (key, trie) ← parseKey trie
    let keys ← parseKeys parseKey count trie
    pure (key :: keys)

/-- The count of the keys has this many bytes. -/
def parseListMatch (width : Nat) (parseKey : Trie Unit → Parser (Bytes × Trie Unit))
    (node : List Bytes → Filter) : Parser Filter := do
  let count ← takeBytes machine message width
  let trie ← allocTrie machine
  let keys ← parseKeys parseKey (bigEndian count) trie
  pure (node keys)

def parseIpMatch (side : Side) : Parser Filter :=
  parseListMatch machine message 4 (parseAddressKey machine message) (.address side)

def parsePortMatch (side : Side) : Parser Filter :=
  parseListMatch machine message 2 (parsePortKey machine message) (.port side)

/-- The store gets a block, a trie and a number of its own. -/
def diffAddrStoreInit : Parser Nat := do
  let block ← memPoolAlloc machine (storeSize machine)
  let _ ← allocTrie machine
  fill block 0 (storeSize machine)
  let cursor ← get
  set { cursor with stores := cursor.stores + 1 }
  pure cursor.stores

def parseDifferential (side : Side) : Parser Filter := do
  let name ← uplinkParseString machine message
  match name with
  | none => Checked.stop .died
  | some name =>
    let store ← diffAddrStoreInit machine
    pure (.differential side (cString name) store)

/-- The mask and the address are written behind each other to their blocks. -/
def parsePrefix (side : Side) (v6 : Bool) (netmask : Nat) : Parser Filter := do
  let addrLen := if v6 then 16 else 4
  let prefixLen := (netmask + 7) / 8
  Checked.require (decide (prefixLen ≤ addrLen)) .died
  let cursor ← get
  Checked.require (decide (prefixLen ≤ cursor.rest)) .died
  Checked.require (decide (netmask ≠ 0)) .died
  let mask ← memPoolAlloc machine addrLen
  let address ← memPoolAlloc machine addrLen
  let bytes ← peek message 0 prefixLen
  fill address 0 prefixLen
  advance machine prefixLen
  fill address prefixLen (addrLen - prefixLen)
  fill mask 0 (prefixLen - 1)
  fill mask prefixLen (addrLen - prefixLen)
  fill mask (prefixLen - 1) 1
  fill address (prefixLen - 1) 1
  pure (.range side v6 (prefixAddress addrLen netmask bytes) (prefixMask addrLen netmask))

/-- The header has two bytes. -/
def parseRange (side : Side) : Parser Filter := do
  let cursor ← get
  Checked.require (decide (2 ≤ cursor.rest)) .died
  let family ← takeBytes machine message 1
  let netmask ← takeBytes machine message 1
  parsePrefix machine message side (family == [6]) (bigEndian netmask)

/-- The filters that are left are the last ones of the block. -/
def parseSubs (parseOne : Nat → Parser Filter) (amount : Nat) : Nat → Parser (List Filter)
  | 0 => pure []
  | left + 1 => do
    let filter ← parseOne (amount - (left + 1))
    let filters ← parseSubs parseOne amount left
    pure (filter :: filters)

/-- The block for the filters has the size of a product. -/
def parseManySubs (parseOne : Nat → Nat → Parser Filter) (combine : List Filter → Filter) :
    Parser Filter := do
  let count ← takeBytes machine message 4
  let size ← sized machine (bigEndian count * filterSize machine)
  let block ← memPoolAlloc machine size
  let filters ← parseSubs (parseOne block) (bigEndian count) (bigEndian count)
  pure (combine filters)

def parseSub (parseOne : Nat → Nat → Parser Filter) : Parser Filter := do
  let block ← memPoolAlloc machine (filterSize machine)
  let filter ← parseOne block 0
  pure (.negation filter)

/-- This is the parser of a type of nodes, if the code is known. -/
def parserOf (parseOne : Nat → Nat → Parser Filter) (code : UInt8) : Option (Parser Filter) :=
  if code = letter 'T' then some (pure (.constant true))
  else if code = letter 'F' then some (pure (.constant false))
  else if code = letter '!' then some (parseSub machine parseOne)
  else if code = letter '&' then some (parseManySubs machine message parseOne .conjunction)
  else if code = letter '|' then some (parseManySubs machine message parseOne .disjunction)
  else if code = letter 'i' then some (parseIpMatch machine message .near)
  else if code = letter 'I' then some (parseIpMatch machine message .remote)
  else if code = letter 'p' then some (parsePortMatch machine message .near)
  else if code = letter 'P' then some (parsePortMatch machine message .remote)
  else if code = letter 'd' then some (parseDifferential machine message .near)
  else if code = letter 'D' then some (parseDifferential machine message .remote)
  else if code = letter 'r' then some (parseRange machine message .near)
  else if code = letter 'R' then some (parseRange machine message .remote)
  else none

/-- The filter is an element of a block, and it is cleared when its code is known.
The fuel bounds the depth of the filter. -/
def parseOne : Nat → Nat → Nat → Parser Filter
  | 0, _, _ => Checked.stop .died
  | fuel + 1, block, index => do
    let code ← takeBytes machine message 1
    match parserOf machine message (parseOne fuel) (code.headD 0) with
    | none => Checked.stop .died
    | some parser =>
      fill block (index * filterSize machine) (filterSize machine)
      parser

/-- The whole message describes the filter. An empty one is a local array with the code `T`, and data
behind the filter is ignored. -/
def filterParse : Parser Filter := do
  let block ← memPoolAlloc machine (filterSize machine)
  let cursor ← get
  if cursor.rest = 0 then
    fill block 0 (filterSize machine)
    pure (.constant true)
  else parseOne machine message cursor.rest block 0

end Filters

end Ucollect.Sizes
