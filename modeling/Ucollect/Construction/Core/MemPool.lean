import Ucollect.Library.Spans
import Ucollect.Library.Outcomes
import Ucollect.Library.Bytes
import Ucollect.Library.Writes

/-
This file models the memory pools that take their memory by pages: core/mem_pool.c.
-/

namespace Ucollect.MemPool
open Library

/-- A pointer has 4 or 8 bytes, and so does a `size_t`. -/
inductive Machine where
  | narrow
  | wide
  deriving DecidableEq, Repr

/-- This is `align_for`. -/
def Machine.word : Machine → Nat
  | .narrow => 4
  | .wide => 8

def Machine.limit : Machine → Nat
  | .narrow => 2 ^ 32
  | .wide => 2 ^ 64

/-- This is the size of `struct pool_page`, with the fields `next` and `size`. -/
def Machine.header (machine : Machine) : Nat := 2 * machine.word

/-- This is the size of `struct mem_pool` without the name behind it. -/
def Machine.control (machine : Machine) : Nat := 7 * machine.word

def pageSize : Nat := 4096

def pageCacheSize : Nat := 20

/-- The assertions, and the two calls of `die`. -/
inductive Fault where
  | nameTooLong
  | unaligned
  | noPool
  | noResult
  | otherPool
  | indexRange
  | indexPool
  | mapFailed
  | unmapFailed
  deriving DecidableEq, Repr

/-- The cached pages, the last one first, and the pages that the system has mapped. -/
structure Memory where
  cache : List Span
  mapped : List Span
  deriving DecidableEq, Repr

namespace Memory

variable (machine : Machine) (memory : Memory)

/-- The system maps a whole page or more where nothing is mapped. -/
def Vacant (page : Span) : Prop :=
  0 < page.size ∧ 0 < page.start ∧ pageSize ∣ page.start ∧ page.start + page.size ≤ machine.limit ∧
    ∀ other ∈ memory.mapped, page.Apart other

instance (page : Span) : Decidable (memory.Vacant machine page) := by
  unfold Vacant; infer_instance

/-- The system chooses the place. It may also have no memory to give. -/
def mmap (size : Nat) (offer : Option Nat) : Except Fault (Span × Memory) :=
  match offer with
  | none => .error .mapFailed
  | some start =>
    if memory.Vacant machine ⟨start, size⟩ then
      .ok (⟨start, size⟩, { memory with mapped := ⟨start, size⟩ :: memory.mapped })
    else .error .mapFailed

def munmap (page : Span) : Except Fault Memory :=
  if page ∈ memory.mapped then .ok { memory with mapped := memory.mapped.erase page }
  else .error .unmapFailed

/-- The cache only gives single pages. -/
def pageGet (size : Nat) (offer : Option Nat) : Except Fault (Span × Memory) :=
  match memory.cache with
  | page :: cache =>
    if size = pageSize then .ok (⟨page.start, size⟩, { memory with cache })
    else memory.mmap machine size offer
  | [] => memory.mmap machine size offer

def pageReturn (page : Span) : Except Fault Memory :=
  if page.size = pageSize ∧ memory.cache.length < pageCacheSize then
    .ok { memory with cache := page :: memory.cache }
  else memory.munmap page

/-- The last page of the list is returned first. -/
def pageWalkAndDelete : List Span → Except Fault Memory
  | [] => .ok memory
  | page :: next => do
    let memory ← pageWalkAndDelete next
    memory.pageReturn page

end Memory

/-- The result of `page_alloc`, with the updated position and size. -/
structure Carved where
  result : Nat
  pos : Nat
  available : Nat
  deriving DecidableEq, Repr

def pageAlloc (machine : Machine) (pos available size : Nat) : Except Fault (Option Carved) :=
  if available < size then .ok none
  else if pos % machine.word ≠ 0 then .error .unaligned
  else
    let size := (size + machine.word - 1) % machine.limit / machine.word * machine.word
    let size := if size > available then available else size
    .ok (some ⟨pos, pos + size, available - size⟩)

/-- The control structure is known by its address, and the first page is apart from the pages behind
it. The code does not keep the blocks: they are those that were returned since the last reset, with
their requested sizes. -/
structure Pool where
  address : Nat
  nameLength : Nat
  first : Span
  next : List Span
  pos : Nat
  available : Nat
  poolIndex : Nat
  used : Nat
  allocated : Nat
  requests : Nat
  blocks : List Span
  deriving DecidableEq, Repr

/-- The control structure with the name and its final zero. -/
def Pool.structSize (machine : Machine) (pool : Pool) : Nat :=
  machine.control + (1 + pool.nameLength)

def Pool.pages (pool : Pool) : List Span := pool.first :: pool.next

/-- The part of a page behind its header. -/
def data (machine : Machine) (page : Span) : Span :=
  ⟨page.start + machine.header, page.size - machine.header⟩

/-- The registry is the array `pools`. The control structures are in the pages. -/
structure World where
  memory : Memory
  registry : List Nat
  pools : List Pool
  deriving DecidableEq, Repr

def World.new : World := ⟨⟨[], []⟩, [], []⟩

namespace World

variable (machine : Machine) (world : World)

def others (address : Nat) : List Pool := world.pools.filter fun pool => pool.address ≠ address

/-- The control structure is written to its place. -/
def put (memory : Memory) (pool : Pool) : World :=
  { world with memory, pools := pool :: world.others pool.address }

def store (pool : Pool) : World :=
  { world with
    registry := world.registry ++ [pool.address]
    pools := { pool with poolIndex := world.registry.length } :: world.pools }

/-- The last pool of the registry moves to the freed place. -/
def drop (pool : Pool) : Except Fault World :=
  if world.registry.length ≤ pool.poolIndex then .error .indexRange
  else if world.registry[pool.poolIndex]? ≠ some pool.address then .error .indexPool
  else
    let last := world.registry.getLastD pool.address
    .ok { world with
      registry := (world.registry.set pool.poolIndex last).dropLast
      pools := world.pools.map fun other =>
        if other.address = last then { other with poolIndex := pool.poolIndex } else other }

/-- This is `mem_pool_create` with a name of the length. -/
def create (nameLength : Nat) (offer : Option Nat) : Except Fault World := do
  if pageSize ≤ machine.header + machine.control + (1 + nameLength) then .error .nameTooLong
  else
    let (page, memory) ← world.memory.pageGet machine pageSize offer
    match ← pageAlloc machine (page.start + machine.header) (page.size - machine.header)
        (machine.control + (1 + nameLength)) with
    | none => .error .noPool
    | some carved =>
      let pool : Pool :=
        { address := carved.result, nameLength, first := page, next := [], pos := carved.pos
          available := carved.available, poolIndex := 0, used := 0, allocated := pageSize
          requests := 0, blocks := [] }
      .ok ({ world with memory }.store pool)

/-- The pool is destroyed with the page that it is in. -/
def destroy (pool : Pool) : Except Fault World := do
  let world ← world.drop pool
  let memory ← world.memory.pageWalkAndDelete pool.pages
  .ok { world with memory, pools := world.others pool.address }

/-- A block of the size is returned. -/
def account (pool : Pool) (result size : Nat) : Pool :=
  { pool with
    used := (pool.used + size) % machine.limit
    requests := (pool.requests + 1) % machine.limit
    blocks := ⟨result, size⟩ :: pool.blocks }

/-- A request that does not fit in the current page gets another page. What is left of it is used
for the next requests only when there is more of it. -/
def alloc (pool : Pool) (size : Nat) (offer : Option Nat) : Except Fault World := do
  match ← pageAlloc machine pool.pos pool.available size with
  | some carved =>
    let pool := { pool with pos := carved.pos, available := carved.available }
    .ok (world.put world.memory (account machine pool carved.result size))
  | none =>
    let rounded := (size + machine.header + pageSize - 1) % machine.limit / pageSize * pageSize
    let (page, memory) ← world.memory.pageGet machine rounded offer
    let pool := { pool with next := page :: pool.next }
    match ← pageAlloc machine (page.start + machine.header) (page.size - machine.header) size with
    | none => .error .noResult
    | some carved =>
      let pool := if carved.available > pool.available then
        { pool with pos := carved.pos, available := carved.available } else pool
      let pool := { pool with allocated := (pool.allocated + rounded) % machine.limit }
      .ok (world.put memory (account machine pool carved.result size))

def reset (pool : Pool) : Except Fault World := do
  let memory ← world.memory.pageWalkAndDelete pool.next
  match ← pageAlloc machine (pool.first.start + machine.header) (pool.first.size - machine.header)
      (pool.structSize machine) with
  | none => .error .otherPool
  | some carved =>
    if carved.result = pool.address then
      .ok (world.put memory
        { pool with
          next := [], pos := carved.pos, available := carved.available, allocated := pageSize
          used := 0, requests := 0, blocks := [] })
    else .error .otherPool

end World

/-- These are the calls. The offer is where the system maps a page if it is asked for one. -/
inductive Event where
  | create (nameLength : Nat) (offer : Option Nat)
  | destroy (address : Nat)
  | alloc (address size : Nat) (offer : Option Nat)
  | reset (address : Nat)
  deriving DecidableEq, Repr

/-- Only a pool that exists can be used. -/
def World.withPool (world : World) (address : Nat) (call : Pool → Except Fault World) :
    Except Fault World :=
  match world.pools.find? fun pool => pool.address = address with
  | none => .ok world
  | some pool => call pool

def World.step (machine : Machine) (world : World) : Event → Except Fault World
  | .create nameLength offer => world.create machine nameLength offer
  | .destroy address => world.withPool address world.destroy
  | .alloc address size offer =>
    world.withPool address fun pool => world.alloc machine pool size offer
  | .reset address => world.withPool address (world.reset machine)

/-- The calls come in any order. -/
def run (machine : Machine) (events : List Event) : Except Fault World :=
  events.foldlM (World.step machine) .new

end Ucollect.MemPool

/-
This file models the dumps of bytes as text: `mem_pool_hex` of core/mem_pool.c.
-/

namespace Ucollect.Hex
open Library

def hexDigit (value : Nat) : UInt8 :=
  if value < 10 then UInt8.ofNat (48 + value) else UInt8.ofNat (55 + value)

/-- This is the format `%.2hhX`. -/
def hexByte (byte : UInt8) : Bytes := [hexDigit (byte.toNat / 16), hexDigit (byte.toNat % 16)]

def separator (position : Nat) : UInt8 :=
  if (position + 1) % 4 ≠ 0 then letter ':' else letter ' '

/-- The call of `sprintf` writes a terminator behind the separator. -/
def sprintf (position : Nat) (byte : UInt8) : Write UInt8 :=
  ⟨3 * position, hexByte byte ++ [separator position, 0]⟩

/-- The pool gives this many bytes. -/
def allocated (data : Bytes) : Nat := 3 * data.length

def sprintfs : Nat → Bytes → List (Write UInt8)
  | _, [] => []
  | position, byte :: data => sprintf position byte :: sprintfs (position + 1) data

def memPoolHex (data : Bytes) : List (Write UInt8) :=
  sprintfs 0 data ++ [⟨if data.length ≠ 0 then 3 * data.length - 1 else 0, [0]⟩]

end Ucollect.Hex
