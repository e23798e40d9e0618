import Ucollect.Construction.Buckets.Master

/-
This file models plugins/buckets/buckets.c.
-/

namespace Ucollect.Buckets
open Library Core

/-- This is what the server sets. The numbers are 32 bits wide. -/
structure Config where
  bucketCount : Nat
  hashCount : Nat
  criteria : List CriterionDef
  historySize : Nat
  configVersion : Nat
  maxKeyCount : Nat
  maxTimeslots : Nat
  timeGranularity : Nat
  hashLineSize : Nat
  hashData : Nat → Nat

/-- A trie is the list of its keys, and there is one for each bucket. The last field is not in the
source. It is the number of the packets without the wrap of 32 bits. -/
structure Criterion where
  trie : Nat → List Bytes
  counts : Nat → Nat
  packetCount : Nat
  overflow : Bool
  seen : Nat

/-- A generation that was never activated has pointers to no tries. -/
structure Generation where
  criteria : List Criterion
  timestamp : Nat
  active : Bool
  filled : Bool

structure UserData where
  config : Config
  generations : List Generation
  currentGeneration : Nat
  biggestTimeslot : Nat
  timeslotStart : Nat

def sizeModulus : Nat := 2 ^ 64

/-- The plugin allocates this many counters. The product of the sizes wraps around. -/
def Config.countsSize (config : Config) : Nat :=
  config.bucketCount * config.hashCount * config.maxTimeslots * 4 % sizeModulus / 4

/-- This is the bucket of the key by one of the hashes. -/
def Config.bucket (config : Config) (number : Nat) (key : Bytes) : Nat :=
  hash config.hashData (number * config.hashLineSize) key % config.bucketCount

/-- The counters of a time slot follow each other, one line for each hash. -/
def Config.index (config : Config) (slot number bucket : Nat) : Nat :=
  config.bucketCount * config.hashCount * slot + number * config.bucketCount + bucket

def Criterion.reset (size : Nat) (criterion : Criterion) : Criterion where
  trie _ := []
  counts index := if index < size then 0 else criterion.counts index
  packetCount := 0
  overflow := false
  seen := 0

def UserData.generationActivate (user : UserData) (generation timestamp now : Nat) : UserData :=
  { user with
    generations := user.generations.modify generation fun old =>
      ⟨old.criteria.map (Criterion.reset user.config.countsSize), timestamp, true, true⟩
    currentGeneration := generation
    timeslotStart := now
    biggestTimeslot := 0 }

/-- This is a number of the message in network order. -/
def field (data : Bytes) (offset size : Nat) : Nat := bigEndian ((data.drop offset).take size)

def headerSize : Nat := 48

def findCriterion (name : UInt8) : Except Abort CriterionDef :=
  match criteria.find? fun criterion => letter criterion.name = name with
  | none => .error .unknownCriterion
  | some criterion => .ok criterion

/-- The memory of a new generation holds anything. -/
def newGeneration (count : Nat) (memory : Nat → Nat) : Generation :=
  ⟨List.replicate count ⟨fun _ => [], fun index => memory index % 2 ^ 32, 0, false, 0⟩, 0, false,
    false⟩

/-- The criteria are looked up before the hashes are generated. -/
def readConfig (data : Bytes) : Except Abort Config := do
  if data.length < headerSize then throw .shortHeader
  let criteriaCount := field data 24 4
  if data.length < headerSize + criteriaCount then throw .shortCriteria
  let found ← ((data.drop headerSize).take criteriaCount).mapM findCriterion
  let seed ← rngSeedInit (field data 0 8)
  return {
    bucketCount := field data 16 4
    hashCount := field data 20 4
    criteria := found
    historySize := field data 28 4
    configVersion := field data 32 4
    maxKeyCount := field data 36 4
    maxTimeslots := field data 40 4
    timeGranularity := field data 44 4
    hashLineSize := 256 * (found.map (·.keySize)).foldl max 0
    hashData := genHashData seed }

/-- The check for empty sizes is the last one. -/
def Config.start (config : Config) (timestamp now : Nat) (memory : Nat → Nat) :
    Except Abort UserData :=
  if config.criteria = [] ∨ config.hashCount = 0 ∨ config.bucketCount = 0 then .error .zeroSized
  else
    .ok (UserData.generationActivate
      ⟨config, List.replicate (config.historySize + 1)
        (newGeneration config.criteria.length memory), 0, 0, 0⟩ 0 timestamp now)

/-- A new version of the configuration starts the plugin anew. -/
def configure (user : Option UserData) (data : Bytes) (now : Nat) (memory : Nat → Nat) :
    Except Abort (Option UserData) :=
  match user with
  | some user =>
    if data.length < headerSize then .error .shortHeader
    else if user.config.configVersion ≠ field data 32 4 then .ok none
    else .ok (some user)
  | none => do
    let config ← readConfig data
    let user ← config.start (field data 8 8) now memory
    .ok (some user)

def Criterion.total (criterion : Criterion) (count : Nat) : Nat :=
  ((List.range count).map criterion.counts).sum

/-- This is `struct criterion_data`. -/
def Criterion.data (criterion : Criterion) (globalOverflow : Bool) (count : Nat) : Bytes :=
  word32 (if criterion.overflow || globalOverflow then 1 else 0) ++
    (List.range count).flatMap fun index => word32 (criterion.counts index)

/-- The sums are of the type `size_t`. -/
def Criterion.check (config : Config) (globalOverflow : Bool) (count : Nat)
    (criterion : Criterion) : Except Abort Unit :=
  if globalOverflow ∨ criterion.total count % sizeModulus =
      criterion.packetCount * config.hashCount % sizeModulus then .ok ()
  else .error .wrongTotal

/-- The number of the time slots is zero when they were too many. -/
def UserData.timeslots (user : UserData) : Nat :=
  if user.config.maxTimeslots < user.biggestTimeslot + 1 then 0 else user.biggestTimeslot + 1

def UserData.globalOverflow (user : UserData) : Bool :=
  user.config.maxTimeslots < user.biggestTimeslot + 1

/-- This is `struct generation_data` without its padding. -/
def UserData.generationData (user : UserData) (generation : Generation) : Bytes :=
  letter 'G' :: (word64 generation.timestamp ++ word32 user.config.configVersion ++
    word32 user.timeslots ++ generation.criteria.flatMap fun criterion =>
      criterion.data user.globalOverflow
        (user.config.hashCount * user.config.bucketCount * user.timeslots))

/-- The plugin sends the current generation and starts the next one. -/
def provideGeneration (user : UserData) (data : Bytes) (now : Nat) :
    Except Abort (Bytes × UserData) :=
  if data.length ≠ 8 then .error .generationSize
  else
    match user.generations[user.currentGeneration]? with
    | none => .error .strayGeneration
    | some generation => do
      generation.criteria.forM (Criterion.check user.config user.globalOverflow
        (user.config.hashCount * user.config.bucketCount * user.timeslots))
      .ok (user.generationData generation,
        { user with biggestTimeslot := user.timeslots }.generationActivate
          ((user.currentGeneration + 1) % (user.config.historySize + 1)) (field data 0 8) now)

/-- The groups of the other hashes follow that of the first one in the same array. -/
def filterKeys (config : Config) : List Nat → List Nat → List Bytes →
    Except Abort (List Nat × List Bytes)
  | [], indices, candidates => .ok (indices, candidates)
  | _ :: _, [], _ => .error .runOut
  | number :: numbers, count :: indices, candidates =>
    if indices.length < count then .error .fewIndices
    else filterKeys config numbers (indices.drop count)
      (candidates.filter fun key => config.bucket number key ∈ indices.take count)

/-- The first group says which tries to walk. -/
def walkTries (config : Config) (generation : Generation) (criterion : Criterion) :
    List Nat → Except Abort (List Bytes)
  | [] => .ok []
  | index :: indices =>
    if config.bucketCount ≤ index then .error .bucketBounds
    else if !generation.filled then .error .strayGeneration
    else (walkTries config generation criterion indices).map (criterion.trie index ++ ·)

def scanKeys (config : Config) (generation : Generation) (number : Nat) :
    List Nat → Except Abort (List Bytes)
  | [] => .error .missingCount
  | count :: indices =>
    if indices.length < count then .error .fewIndices
    else
      match generation.criteria[number]? with
      | none => .error .criterionBounds
      | some criterion => do
        let candidates ← walkTries config generation criterion (indices.take count)
        let (left, candidates) ← filterKeys config ((List.range config.hashCount).drop 1)
          (indices.drop count) candidates
        if left = [] then .ok candidates else .error .extraIndices

/-- A key that is already there is not moved. -/
def addNew (candidates : List Bytes) (key : Bytes) : List Bytes :=
  if key ∈ candidates then candidates else candidates ++ [key]

/-- The keys of all the finished generations are put together. -/
def scanAll (user : UserData) (number : Nat) (indices : List Nat) :
    List (Generation × Nat) → List Bytes → Except Abort (List Bytes)
  | [], candidates => .ok candidates
  | (generation, position) :: rest, candidates =>
    if generation.active && position ≠ user.currentGeneration then do
      let keys ← scanKeys user.config generation number indices
      scanAll user number indices rest (keys.foldl addNew candidates)
    else scanAll user number indices rest candidates

def keyRequestSize : Nat := 16

/-- The answer is a list of keys, or it says that the generation is missing. -/
def provideKeys (user : UserData) (data : Bytes) : Except Abort Bytes :=
  if data.length % 4 ≠ 0 then .error .splitIndex
  else if data.length < keyRequestSize then .error .outsideRequest
  else
    let indices := readWords32 ((data.length - keyRequestSize) / 4) (data.drop keyRequestSize)
    let number := field data 12 4
    let timestamp := field data 0 8
    let reqId := (data.drop 8).take 4
    if user.config.criteria.length ≤ number then .error .criterionBounds
    else if timestamp ≠ 0 then
      match user.generations.find? fun generation => generation.timestamp = timestamp with
      | none => .ok (letter 'M' :: reqId)
      | some generation =>
        (scanKeys user.config generation number indices).map fun keys =>
          letter 'K' :: (reqId ++ keys.flatten)
    else
      (scanAll user number indices user.generations.zipIdx []).map fun keys =>
        letter 'K' :: (reqId ++ keys.flatten)

/-- A write behind the allocated counters is a fault. -/
def Criterion.count (config : Config) (slot : Nat) (key : Bytes) (criterion : Criterion)
    (number : Nat) : Except Abort Criterion :=
  let index := config.index slot number (config.bucket number key) % sizeModulus
  if index < config.countsSize then
    .ok { criterion with
      counts := Function.update criterion.counts index ((criterion.counts index + 1) % 2 ^ 32) }
  else .error .outsideCounts

/-- A full trie stops the storing of keys. -/
def Criterion.store (config : Config) (key : Bytes) (criterion : Criterion) : Criterion :=
  if criterion.overflow then criterion
  else
    let bucket := config.bucket 0 key
    let keys := addNew (criterion.trie bucket) key
    { criterion with
      trie := Function.update criterion.trie bucket keys
      overflow := config.maxKeyCount ≤ keys.length }

def Criterion.take (config : Config) (slot : Nat) (packet : Layer)
    (pair : CriterionDef × Criterion) : Except Abort Criterion := do
  match ← pair.1.extractKey packet with
  | none => .ok pair.2
  | some key =>
    let counted := { pair.2 with
      packetCount := (pair.2.packetCount + 1) % 2 ^ 32
      seen := pair.2.seen + 1 }
    let counted ← (List.range config.hashCount).foldlM (Criterion.count config slot key) counted
    .ok (counted.store config key)

def UserData.takeAll (user : UserData) (packet : Layer) : Except Abort UserData :=
  match user.generations[user.currentGeneration]? with
  | none => .error .strayGeneration
  | some generation => do
    let criteria ← (user.config.criteria.zip generation.criteria).mapM
      (Criterion.take user.config user.biggestTimeslot packet)
    .ok { user with
      generations := user.generations.set user.currentGeneration
        { generation with criteria := criteria } }

/-- The layers of a packet are listed from the outside, and the last one counts. -/
def UserData.packet (user : UserData) (packet : List Layer) (now : Nat) :
    Except Abort UserData :=
  match packet.getLast? with
  | none => .ok user
  | some inner =>
    if inner.layer ≠ 'I' then .ok user
    else if user.config.timeGranularity = 0 then .error .zeroGranularity
    else
      let slot := (now - user.timeslotStart) / user.config.timeGranularity
      let user := { user with biggestTimeslot := max user.biggestTimeslot slot }
      if user.config.maxTimeslots ≤ user.biggestTimeslot then .ok user
      else user.takeAll inner

/-- The plugin and what it has sent, oldest first. -/
structure Plugin where
  user : Option UserData
  now : Nat
  sent : List Bytes

def initial (now : Nat) : Plugin := ⟨none, now, [[letter 'C']]⟩

def Plugin.connected (plugin : Plugin) : Plugin :=
  { plugin with
    user := plugin.user.map fun user => { user with
      generations := user.generations.map fun generation => { generation with active := false } }
    sent := plugin.sent ++ [[letter 'C']] }

/-- The requests for data are ignored until the plugin is configured. -/
def Plugin.communicate (plugin : Plugin) (data : Bytes) (memory : Nat → Nat) :
    Except Abort Plugin :=
  match data with
  | [] => .error .emptyMessage
  | code :: data =>
    if code = letter 'C' then do
      let user ← configure plugin.user data plugin.now memory
      .ok { plugin with
        user := user
        sent := plugin.sent ++ if plugin.user.isSome && user.isNone then [[letter 'C']] else [] }
    else
      match plugin.user with
      | none => .ok plugin
      | some user =>
        if code = letter 'G' then do
          let (message, user) ← provideGeneration user data plugin.now
          .ok { plugin with user := some user, sent := plugin.sent ++ [message] }
        else if code = letter 'K' then do
          let message ← provideKeys user data
          .ok { plugin with sent := plugin.sent ++ [message] }
        else .ok plugin

inductive Event where
  | tick (elapsed : Nat)
  | connected
  | message (data : Bytes) (memory : Nat → Nat)
  | packet (layers : List Layer)

def Plugin.step (plugin : Plugin) : Event → Except Abort Plugin
  | .tick elapsed => .ok { plugin with now := plugin.now + elapsed }
  | .connected => .ok plugin.connected
  | .message data memory => plugin.communicate data memory
  | .packet layers =>
    match plugin.user with
    | none => .ok plugin
    | some user => do
      let user ← user.packet layers plugin.now
      .ok { plugin with user := some user }

def Plugin.run (plugin : Plugin) (events : List Event) : Except Abort Plugin :=
  events.foldlM step plugin

end Ucollect.Buckets

/-
This file models the tables of the hashes: plugins/buckets/hash.c and master/buckets/rng.py.
-/

namespace Ucollect.Buckets
open Library

/-- Each number comes from the next state of the generator. -/
def rngGets : Nat → RngSeed → List Nat
  | 0, _ => []
  | count + 1, seed => rngOutput (rngStep seed) :: rngGets count (rngStep seed)

/-- The product of the sizes wraps around. -/
def genHashTable (seedBase hashCount hashLineSize : Nat) : Except Abort (List Nat) := do
  let seed ← rngSeedInit seedBase
  .ok (rngGets (hashLineSize * hashCount % sizeModulus) seed)

/-- The pointer moves to the next block after each byte. A read behind the table has no result. -/
def hashTable (table : List Nat) : Nat → Nat → Bytes → Option Nat
  | _, result, [] => some result
  | hashData, result, byte :: key => do
    let number ← table[hashData + byte.toNat]?
    hashTable table (hashData + 256) ((result ^^^ number) % 2 ^ 32) key

/-- The numbers of the server have no width of their own. -/
structure Rng where
  low : Nat
  high : Nat
  deriving DecidableEq, Repr

def Rng.init (seed : Nat) : Except Abort Rng :=
  let even := seed &&& 0x5555555555555555
  let odd := seed &&& 0xAAAAAAAAAAAAAAAA
  let low := (even &&& 0x00000000FFFFFFFF) ||| ((even &&& 0xFFFFFFFF00000000) >>> 31)
  let high := (odd &&& 0x00000000FFFFFFFF) ||| ((odd &&& 0xFFFFFFFF00000000) >>> 33)
  if low = 0 ∨ high = 0 then .error .zeroSeed else .ok ⟨low, high⟩

def Rng.get (rng : Rng) : Nat × Rng :=
  let low := (36969 * (rng.low &&& 0xFFFF) + (rng.low >>> 16)) &&& 0xFFFFFFFF
  let high := (18000 * (rng.high &&& 0xFFFF) + (rng.high >>> 16)) &&& 0xFFFFFFFF
  (((high <<< 16) + low) &&& 0xFFFFFFFF, ⟨low, high⟩)

structure Hash where
  lineSize : Nat
  hashData : List Nat
  deriving DecidableEq, Repr

/-- The numbers are appended one after the other. -/
def Hash.init (seedBase hashCount hashLineSize : Nat) : Except Abort Hash := do
  let rng ← Rng.init seedBase
  let filled := (List.range (hashLineSize * hashCount)).foldl (fun (state : List Nat × Rng) _ =>
    (state.1 ++ [state.2.get.1], state.2.get.2)) ([], rng)
  .ok ⟨hashLineSize, filled.1⟩

/-- The result and the index change with each byte. An index behind the list is an error. -/
def Hash.pick (hasher : Hash) (state : Nat × Nat) (byte : UInt8) : Option (Nat × Nat) := do
  let number ← hasher.hashData[state.2 + byte.toNat]?
  some (state.1 ^^^ number, state.2 + 256)

def Hash.get (hasher : Hash) (key : Bytes) (funcIndex : Nat) : Option Nat :=
  (key.foldlM hasher.pick (0, funcIndex * hasher.lineSize)).map Prod.fst

end Ucollect.Buckets
