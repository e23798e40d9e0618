import Ucollect.Library.Checked
import Ucollect.Construction.Core.MemPool
import Ucollect.Construction.Core.UplinkFormat

/-
This file models `uplink_parse_string` and `handle_activation` of core/uplink.c with the width of
`size_t` and with the blocks that they allocate from core/mem_pool.c.
-/

namespace Ucollect.Sizes
open Library Core MemPool

/-- The position is the pointer into the message, and the rest is the `size_t` beside it.
Of the pool only the bytes that are left in its page are known, and the stores of the filters are
counted. -/
structure Cursor where
  position : Nat
  rest : Nat
  available : Nat
  stores : Nat
  deriving DecidableEq, Repr

abbrev Parser (A : Type) : Type := Checked Cursor A

section Memory

variable (machine : Machine)

/-- This is a sum or a product of the type `size_t`. -/
def sized (value : Nat) : Parser Nat := Checked.number machine.limit value

/-- The unit is added before the one is subtracted. -/
def roundTo (unit value : Nat) : Parser Nat := do
  let sum ← sized machine (value + unit)
  pure ((sum + (machine.limit - 1)) % machine.limit / unit * unit)

/-- This is `page_alloc`, and it says what it leaves available. -/
def carve (available size : Nat) : Parser (Option Nat) :=
  if available < size then pure none
  else do
    let rounded ← roundTo machine machine.word size
    pure (some (available - min rounded available))

/-- The system has memory to map, but it never maps an empty page. -/
def memPoolAllocPage (size : Nat) : Parser Nat := do
  let whole ← sized machine (size + machine.header)
  let page ← roundTo machine pageSize whole
  Checked.require (0 < page) .died
  match ← carve machine (page - machine.header) size with
  | none => Checked.stop .died
  | some available => pure available

/-- The block is known by its size. -/
def memPoolAlloc (size : Nat) : Parser Nat := do
  let cursor ← get
  match ← carve machine cursor.available size with
  | some available => set { cursor with available }
  | none =>
    let available ← memPoolAllocPage machine size
    set { cursor with available := max cursor.available available }
  pure size

/-- These bytes of the block are written. -/
def fill (block offset amount : Nat) : Parser Unit :=
  Checked.require (decide (offset + amount ≤ block)) .outside

end Memory

section Message

variable (machine : Machine) (message : Bytes)

def peek (offset amount : Nat) : Parser Bytes := do
  let cursor ← get
  Checked.require (decide (cursor.position + offset + amount ≤ message.length)) .outside
  pure ((message.drop (cursor.position + offset)).take amount)

/-- The pointer moves, and the size goes down. -/
def advance (amount : Nat) : Parser Unit := fun cursor =>
  ⟨decide (cursor.rest < amount), .ok ((), { cursor with
    position := cursor.position + amount
    rest := (cursor.rest + machine.limit - amount) % machine.limit })⟩

/-- A failed check of the size stops the parser. -/
def takeBytes (amount : Nat) : Parser Bytes := do
  let cursor ← get
  Checked.require (decide (amount ≤ cursor.rest)) .died
  let bytes ← peek message 0 amount
  advance machine amount
  pure bytes

/-- The length of the block is a sum of 32 bits. -/
def uplinkParseString : Parser (Option Bytes) := do
  let cursor ← get
  if cursor.rest < lengthSize then pure none
  else
    let length ← peek message 0 lengthSize
    let length := bigEndian length
    let needed ← sized machine (length + lengthSize)
    if cursor.rest < needed then pure none
    else
      let size ← Checked.number (2 ^ 32) (length + 1)
      let block ← memPoolAlloc machine size
      let string ← peek message lengthSize length
      fill block 0 length
      fill block length 1
      advance machine needed
      pure (some string)

/-- This is the size of `struct plugin_activation`, with the fields `name`, `hash` and `activate`. -/
def activationSize : Machine → Nat
  | .narrow => 24
  | .wide => 32

/-- The name is written before it is checked. -/
def parseHash (block start : Nat) (name : Option Bytes) : Parser Activation := do
  fill block start machine.word
  match name with
  | none => Checked.stop .died
  | some name =>
    let cursor ← get
    Checked.require (decide (hashSize < cursor.rest)) .died
    let hash ← peek message 0 hashSize
    fill block (start + machine.word) hashSize
    advance machine hashSize
    let flag ← peek message 0 1
    fill block (start + machine.word + hashSize) 1
    advance machine 1
    pure ⟨cString name, hash, flag == [letter 'A']⟩

/-- This is one turn of the loop of `handle_activation`. -/
def parseActivation (block index : Nat) : Parser Activation := do
  let name ← uplinkParseString machine message
  parseHash machine message block (index * activationSize machine) name

/-- The activations that are left are the last ones of the block. -/
def parseActivations (block amount : Nat) : Nat → Parser (List Activation)
  | 0 => pure []
  | left + 1 => do
    let activation ← parseActivation machine message block (amount - (left + 1))
    let activations ← parseActivations block amount left
    pure (activation :: activations)

/-- An empty message has no block. -/
def parsePlugins (amount : Nat) : Parser (List Activation) :=
  if amount = 0 then pure []
  else do
    let size ← sized machine (amount * activationSize machine)
    let block ← memPoolAlloc machine size
    parseActivations machine message block amount amount

/-- The activations are for `loop_plugin_activation`. -/
def handleActivation : Parser (List Activation) := do
  let amount ← takeBytes machine message 4
  parsePlugins machine message (bigEndian amount)

end Message

end Ucollect.Sizes
