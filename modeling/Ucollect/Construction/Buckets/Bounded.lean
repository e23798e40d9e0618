import Ucollect.Construction.Buckets.Client
import Ucollect.Construction.Core.MemPool

/-
This file models plugins/buckets/buckets.c with the width of `size_t`, and with the blocks of the
message copy, the index array, the counts and the tries. The contents of the counts and of the tries
are left out, and so are the other blocks.
-/

namespace Ucollect.Buckets.Bounded
open Library Core MemPool

/-- The plugin leaves a block, or it divides by zero. -/
inductive Harm where
  | outside
  | divided
  deriving DecidableEq, Repr

/-- A check fails, or nothing is known about what comes next. -/
inductive Halt where
  | rejected
  | harmed (harm : Harm)
  deriving DecidableEq, Repr

/-- The array of the criteria of a generation that was never activated points to no tries. -/
structure Generation where
  timestamp : Nat
  active : Bool
  filled : Bool
  deriving DecidableEq, Repr

structure UserData where
  config : Config
  generations : List Generation
  currentGeneration : Nat
  biggestTimeslot : Nat
  timeslotStart : Nat

/-- These bytes of a block are read or written. -/
def access (block start size : Nat) : Except Halt Unit :=
  if start + size ≤ block then .ok () else .error (.harmed .outside)

def require (holds : Bool) : Except Halt Unit := if holds then .ok () else .error .rejected

/-- A failed check of another function is a failed check. -/
def checked {A : Type} : Except Abort A → Except Halt A
  | .ok value => .ok value
  | .error _ => .error .rejected

section Sizes

variable (machine : Machine) (config : Config)

/-- The size of the array of the tries of a criterion. -/
def trieBytes : Nat := config.bucketCount * machine.word % machine.limit

/-- The size of the counts of a criterion. -/
def countsBytes : Nat :=
  config.bucketCount * config.hashCount * config.maxTimeslots * 4 % machine.limit

end Sizes

section Configuration

/-- Each criterion is read from the message copy and looked up. -/
def readCriteria (data : Bytes) : Nat → Nat → Except Halt (List CriterionDef)
  | 0, _ => .ok []
  | left + 1, index => do
    access data.length (headerSize + index) 1
    let criterion ← checked (findCriterion (data.getD (headerSize + index) 0))
    let rest ← readCriteria data left (index + 1)
    .ok (criterion :: rest)

variable (machine : Machine)

def readConfig (data : Bytes) : Except Halt Config := do
  require (headerSize ≤ data.length)
  let criteriaCount := field data 24 4
  require ((headerSize + criteriaCount) % machine.limit ≤ data.length)
  let found ← readCriteria data criteriaCount 0
  let seed ← checked (rngSeedInit (field data 0 8))
  .ok {
    bucketCount := field data 16 4
    hashCount := field data 20 4
    criteria := found
    historySize := field data 28 4
    configVersion := field data 32 4
    maxKeyCount := field data 36 4
    maxTimeslots := field data 40 4
    timeGranularity := field data 44 4
    hashLineSize := 256 * (found.map (·.keySize)).foldl max 0
    hashData := genHashData seed }

/-- The counts of each criterion are cleared, and each of its buckets gets a trie. -/
def generationActivate (user : UserData) (generation timestamp now : Nat) :
    Except Halt UserData := do
  user.config.criteria.forM fun _ => do
    access (countsBytes machine user.config) 0 (countsBytes machine user.config)
    access (trieBytes machine user.config) 0 (user.config.bucketCount * machine.word)
  if generation < user.generations.length then
    .ok { user with
      generations := user.generations.set generation ⟨timestamp, true, true⟩
      currentGeneration := generation
      timeslotStart := now
      biggestTimeslot := 0 }
  else .error (.harmed .outside)

/-- The loop over the generations does not end when the history has the largest size. -/
def start (config : Config) (timestamp now : Nat) : Except Halt UserData := do
  if (config.historySize + 1) % machine.limit = 0 then .error (.harmed .outside)
  let user ← generationActivate machine
    ⟨config, List.replicate (config.historySize + 1) ⟨0, false, false⟩, 0, 0, 0⟩ 0 timestamp now
  require (config.criteria ≠ [] && config.hashCount ≠ 0 && config.bucketCount ≠ 0)
  .ok user

/-- Another version of the configuration starts the plugin anew. -/
def configure (user : Option UserData) (data : Bytes) (now : Nat) :
    Except Halt (Option UserData) :=
  match user with
  | some user => do
    require (headerSize ≤ data.length)
    .ok (if user.config.configVersion ≠ field data 32 4 then none else some user)
  | none => do
    let config ← readConfig machine data
    let user ← start machine config (field data 8 8) now
    .ok (some user)

end Configuration

section Answers

variable (machine : Machine) (user : UserData) (data : Bytes)

/-- The number of the time slots is zero when they were too many. -/
def timeslots : Nat :=
  if user.config.maxTimeslots < (user.biggestTimeslot + 1) % machine.limit then 0
  else (user.biggestTimeslot + 1) % machine.limit

/-- The counts of the time slots are read for each criterion. The last argument says whether their
sums are right. -/
def provideGeneration (now : Nat) (balanced : Bool) : Except Halt UserData := do
  require (data.length = 8)
  let count := user.config.hashCount * user.config.bucketCount * timeslots machine user %
    machine.limit
  user.config.criteria.forM fun _ => do
    access (countsBytes machine user.config) 0 (4 * count)
    require balanced
  let historySize := (user.config.historySize + 1) % machine.limit
  if historySize = 0 then .error (.harmed .divided)
  generationActivate machine { user with biggestTimeslot := timeslots machine user }
    ((user.currentGeneration + 1) % historySize) (field data 0 8) now

/-- The count of a group is read from its position in the index array, and then its indices are. -/
def readGroup (position length : Nat) : Except Halt Nat := do
  require (0 < length)
  access data.length (keyRequestSize + 4 * position) 4
  let count := field data (keyRequestSize + 4 * position) 4
  require (count ≤ length - 1)
  access data.length (keyRequestSize + 4 * (position + 1)) (4 * count)
  .ok count

/-- The first group says which tries are walked. -/
def walkTries (generation : Generation) : Nat → Nat → Except Halt Unit
  | 0, _ => .ok ()
  | left + 1, position => do
    let index := field data (keyRequestSize + 4 * position) 4
    require (index < user.config.bucketCount)
    access (trieBytes machine user.config) (index * machine.word) machine.word
    if generation.filled = false then .error (.harmed .outside)
    walkTries generation left (position + 1)

/-- The groups of the other hashes follow each other to the end of the array. -/
def filterKeys : Nat → Nat → Nat → Except Halt Unit
  | 0, _, length => require (length = 0)
  | left + 1, position, length => do
    let count ← readGroup data position length
    filterKeys left (position + 1 + count) (length - 1 - count)

/-- The length of the index array is cut to 32 bits. -/
def scanKeys (length : Nat) (generation : Generation) : Except Halt Unit := do
  let count ← readGroup data 0 (length % 2 ^ 32)
  walkTries machine user data generation count 1
  filterKeys data (user.config.hashCount - 1) (1 + count) (length % 2 ^ 32 - 1 - count)

/-- The size of the header is subtracted from the length before anything is checked. -/
def provideKeys : Except Halt Unit := do
  let rest := (data.length + (machine.limit - keyRequestSize)) % machine.limit
  require (rest % 4 = 0)
  access data.length keyRequestSize (4 * (rest / 4))
  access data.length 0 keyRequestSize
  require (field data 12 4 < user.config.criteria.length)
  if field data 0 8 ≠ 0 then
    match user.generations.find? fun generation => generation.timestamp = field data 0 8 with
    | none => .ok ()
    | some generation => scanKeys machine user data (rest / 4) generation
  else
    user.generations.zipIdx.forM fun (generation, position) =>
      if generation.active && position ≠ user.currentGeneration then
        scanKeys machine user data (rest / 4) generation
      else .ok ()

end Answers

section Packets

variable (machine : Machine) (user : UserData)

/-- The counter of each hash is incremented, and the trie of the first hash takes the key. -/
def take (packet : Layer) (definition : CriterionDef) : Except Halt Unit := do
  match ← checked (definition.extractKey packet) with
  | none => .ok ()
  | some key =>
    if user.config.bucketCount = 0 then .error (.harmed .divided)
    (List.range user.config.hashCount).forM fun number =>
      access (countsBytes machine user.config) (user.config.index user.biggestTimeslot number
        (user.config.bucket number key) % machine.limit * 4) 4
    access (trieBytes machine user.config) (user.config.bucket 0 key * machine.word) machine.word

/-- The slot is cut to the width of `size_t`. -/
def slotAt (now : Nat) : Nat :=
  max user.biggestTimeslot ((now - user.timeslotStart) / user.config.timeGranularity % machine.limit)

/-- The generation that is filled has its tries. -/
def packet (layers : List Layer) (now : Nat) : Except Halt UserData :=
  match layers.getLast? with
  | none => .ok user
  | some inner => do
    if inner.layer ≠ 'I' then .ok user
    else if user.config.timeGranularity = 0 then .error (.harmed .divided)
    else
      let user := { user with biggestTimeslot := slotAt machine user now }
      if user.config.maxTimeslots ≤ user.biggestTimeslot then .ok user
      else if (user.generations[user.currentGeneration]?.map (·.filled)) ≠ some true then
        .error (.harmed .outside)
      else do
        user.config.criteria.forM (take machine user inner)
        .ok user

end Packets

structure Plugin where
  user : Option UserData
  now : Nat

inductive Event where
  | tick (elapsed : Nat)
  | connected
  | message (data : Bytes) (balanced : Bool)
  | packet (layers : List Layer)

section Runs

variable (machine : Machine) (plugin : Plugin)

def communicate (data : Bytes) (balanced : Bool) : Except Halt (Option UserData) :=
  match data with
  | [] => .error .rejected
  | code :: data =>
    if code = letter 'C' then configure machine plugin.user data plugin.now
    else
      match plugin.user with
      | none => .ok none
      | some user =>
        if code = letter 'G' then do
          let user ← provideGeneration machine user data plugin.now balanced
          .ok (some user)
        else if code = letter 'K' then do
          provideKeys machine user data
          .ok (some user)
        else .ok (some user)

def connected (user : UserData) : UserData :=
  { user with generations := user.generations.map fun generation =>
      { generation with active := false } }

/-- A check that fails makes the loop start the plugin anew. -/
def settle (result : Except Halt (Option UserData)) : Except Harm Plugin :=
  match result with
  | .ok user => .ok { plugin with user }
  | .error .rejected => .ok { plugin with user := none }
  | .error (.harmed harm) => .error harm

def step : Event → Except Harm Plugin
  | .tick elapsed => .ok { plugin with now := plugin.now + elapsed }
  | .connected => .ok { plugin with user := plugin.user.map connected }
  | .message data balanced => settle plugin (communicate machine plugin data balanced)
  | .packet layers =>
    match plugin.user with
    | none => .ok plugin
    | some user => settle plugin ((packet machine user layers plugin.now).map some)

def run (events : List Event) : Except Harm Plugin := events.foldlM (step machine) plugin

end Runs

end Ucollect.Buckets.Bounded
