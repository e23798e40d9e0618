import Ucollect.Construction.Fwup.Plugin

/-
This file models the callbacks of plugins/fwup/main.c with every check that can fail, the two memory
pools of the sets and the cached list of the sets in the kernel.
-/

namespace Ucollect.Fwup.Callbacks
open Library Diffstore

section State

/-- These are the checks that can fail. The last three depend on the message. -/
inductive Fault where
  | oldState
  | copyState
  | destroyState
  | createState
  | replaceStarted
  | replaceNotStarted
  | reconfigure
  | doubleReload
  | copyTarget
  | noSet
  | corruptDiff
  | addressSize
  | malformed
  deriving DecidableEq, Repr

/-- The plugin has two pools, and the user data says which of them is the standby pool. -/
inductive PoolId where
  | first
  | second
  deriving DecidableEq, Repr

inductive Use where
  | sets
  | name
  | store
  | trie
  | nodes
  deriving DecidableEq, Repr

/-- A block of a pool belongs to one array of sets. -/
structure Block where
  array : Nat
  use : Use
  deriving DecidableEq, Repr

/-- The store of a set remembers its pool. -/
structure PooledSet extends IpSet where
  pool : PoolId
  array : Nat

/-- The list of the kernel was read in some callback. -/
structure Listing where
  callback : Nat
  existing : Existing

/-- The list of one callback is consulted in some callback. -/
structure Consultation where
  callback : Nat
  listing : Nat
  deriving DecidableEq, Repr

/-- The last fields are not in the source. They log what the plugin has done, and `room` says how many
more commands the child takes in this callback before the connection to it is reset. -/
structure World where
  configVersion : Nat
  sets : List PooledSet
  array : Nat
  existingSets : Option Listing
  blocks : PoolId → List Block
  confPool : PoolId
  standbyPool : PoolId
  broken : Bool
  room : Option Nat
  callback : Nat
  consultations : List Consultation
  commands : List Command
  requests : List Request
  faults : List Fault

/-- This is `initialize`. -/
def World.start : World where
  configVersion := 0
  sets := []
  array := 0
  existingSets := none
  blocks := fun _ => []
  confPool := .first
  standbyPool := .second
  broken := false
  room := none
  callback := 0
  consultations := []
  commands := []
  requests := []
  faults := []

abbrev Action (A : Type) := Program Fault World A

/-- These are the list that the kernel would give, the order of the walks and the room of the child. -/
structure Answers where
  existing : Existing
  walk : Walk
  room : Option Nat

end State

section Sets

variable (answers : Answers)

def allocate (pool : PoolId) (block : Block) : Action Unit :=
  modify fun world =>
    { world with blocks := Function.update world.blocks pool (world.blocks pool ++ [block]) }

def check (holds : Bool) (fault : Fault) : Action Unit := Program.when (!holds) (throw fault)

def send (request : Request) : Action Unit :=
  modify fun world => { world with requests := world.requests ++ [request] }

/-- A broken queue takes no commands, and a reset connection breaks the queue. -/
def World.enqueue (world : World) (command : Command) : World :=
  if world.broken then world
  else
    match world.room with
    | none => { world with commands := world.commands ++ [command] }
    | some 0 => { world with broken := true }
    | some (room + 1) => { world with commands := world.commands ++ [command], room := some room }

def enqueue (command : Command) : Action Unit := modify fun world => world.enqueue command

/-- The kernel is asked only when there is no list yet. -/
def setExists (name : Name) : Action Bool := do
  let world ← get
  let listing := world.existingSets.getD ⟨world.callback, answers.existing⟩
  modify fun world =>
    { world with
      existingSets := some listing
      consultations := world.consultations ++ [⟨world.callback, listing.callback⟩] }
  pure (listing.existing name)

def setCreate (set : PooledSet) : Action Unit := do
  let known ← setExists answers set.name
  Program.when (!known) (enqueue (set.create set.name))

/-- An address of a wrong size fails a check before anything is enqueued. -/
def enqueueAll : Option (List Command) → Action Unit
  | none => throw .addressSize
  | some commands => Program.each commands enqueue

def addItem (set : PooledSet) (addr : Bytes) : Action Unit :=
  enqueueAll (Fwup.addItem set.toIpSet addr)

def removeItem (set : PooledSet) (addr : Bytes) : Action Unit :=
  enqueueAll (Fwup.removeItem set.toIpSet addr)

def replaceStart (set : PooledSet) : Action PooledSet :=
  match set.tmpName with
  | some _ => throw .replaceStarted
  | none => do
    let tmpName := set.name ++ repSuffix
    setCreate answers set
    let left ← setExists answers tmpName
    Program.when left (enqueue (.destroy tmpName))
    enqueue (set.create tmpName)
    pure { set with tmpName := some tmpName }

def replaceEnd (set : PooledSet) : Action PooledSet :=
  match set.tmpName with
  | none => throw .replaceNotStarted
  | some tmpName => do
    enqueue (.swap set.name tmpName)
    enqueue (.destroy tmpName)
    pure { set with tmpName := none }

def setReload (set : PooledSet) : Action PooledSet := do
  let set ← replaceStart answers set
  Program.each (answers.walk set.name set.store.trie) (addItem set)
  replaceEnd set

/-- This is `diff_addr_store_init` with the hooks of the set. -/
def storeInit (pool : PoolId) (array : Nat) : Action Store := do
  allocate pool ⟨array, .store⟩
  allocate pool ⟨array, .trie⟩
  pure .init

/-- The copied addresses need nodes in the pool of the target. -/
def storeCopy (target : PooledSet) (source : Store) : Action PooledSet := do
  check (target.store.added = 0) .copyTarget
  Program.each (answers.walk target.name source.trie) fun _ =>
    allocate target.pool ⟨target.array, .nodes⟩
  pure { target with
    store :=
      { target.store with
        epoch := source.epoch
        version := source.version
        trie := target.store.trie ∪ source.trie
        added := target.store.added + source.trie.card } }

/-- The index of the trie may need nodes even for an address that is deleted. -/
def applyEntry (set : PooledSet) (address : Bytes) (add : Bool) : Action PooledSet := do
  allocate set.pool ⟨set.array, .nodes⟩
  let (store, hooks) := set.store.change address add
  Program.each hooks fun hook =>
    match hook with
    | .add address => addItem set address
    | .remove address => removeItem set address
    | _ => pure ()
  pure { set with store := store }

/-- The loop fails a check when an address is cut off. -/
def applyEntries : Nat → Bytes → PooledSet → Action PooledSet
  | _, [], set => pure set
  | 0, _ :: _, _ => throw .corruptDiff
  | fuel + 1, flags :: diff, set =>
    let addrLen := (flags &&& sizeMask).toNat
    if diff.length < addrLen then throw .corruptDiff
    else do
      let set ← applyEntry set (diff.take addrLen) (flags &&& addMask != 0)
      applyEntries fuel (diff.drop addrLen) set

/-- A store that is not empty gets a new trie, and the old one stays in the pool. -/
def storeReset (set : PooledSet) : Action PooledSet := do
  Program.when (set.store.added ≠ set.store.deleted) (allocate set.pool ⟨set.array, .trie⟩)
  pure { set with store := set.store.reset }

/-- A full update replaces the whole set. -/
def applyFull (diff : Bytes) (set : PooledSet) : Action PooledSet := do
  let set ← replaceStart answers set
  let set ← storeReset set
  let set ← applyEntries diff.length diff set
  replaceEnd set

def applyDiff (full : Bool) (diff : Bytes) (set : PooledSet) : Action PooledSet :=
  if full then applyFull answers diff set else applyEntries diff.length diff set

/-- This is `diff_addr_store_apply`. -/
def storeApply (set : PooledSet) (full : Bool) (epoch fromVersion toVersion : Nat) (diff : Bytes) :
    Action (PooledSet × Diffstore.Action) :=
  if epoch ≠ set.store.epoch ∧ full = false then pure (set, .full)
  else if fromVersion ≠ set.store.version ∧ full = false then
    pure (set, .incremental set.store.version)
  else do
    let set ← applyDiff answers full diff set
    pure ({ set with store := { set.store with epoch, version := toVersion } }, .noAction)

end Sets

section Configuration

variable (answers : Answers)

/-- The name of a set of an unknown type is left in the pool. -/
def setParse (pool : PoolId) (array : Nat) (config : SetConfig) : Action (Option PooledSet) := do
  allocate pool ⟨array, .name⟩
  match setTypes config.type with
  | none => pure none
  | some type => do
    let store ← storeInit pool array
    pure (some
      { name := config.name
        tmpName := none
        state := .newborn
        type
        maxSize := config.maxSize
        hashSize := config.hashSize
        store
        pool
        array })

def parseSets (pool : PoolId) (array : Nat) : List SetConfig → Action (List PooledSet)
  | [] => pure []
  | config :: rest => do
    let set ← setParse pool array config
    let sets ← parseSets pool array rest
    pure (set.toList ++ sets)

def deadState : SetState → Action SetState
  | .valid => pure .dead
  | .pending => pure .deadPending
  | _ => throw .oldState

/-- The old sets are marked as dead, so that they can be resurrected in the new ones. -/
def markDead : List PooledSet → Action (List PooledSet)
  | [] => pure []
  | old :: rest => do
    let state ← deadState old.state
    let olds ← markDead rest
    pure ({ old with state } :: olds)

/-- The content of a pending set is not copied. -/
def copyFrom (set old : PooledSet) : Action PooledSet :=
  match old.state with
  | .dead => do
    let set ← storeCopy answers set old.store
    let set := { set with state := .valid }
    if set.toIpSet.resized old.toIpSet then setReload answers set else pure set
  | .deadPending => pure { set with state := .pending }
  | _ => throw .copyState

def copyFound (set old : PooledSet) : Action (PooledSet × PooledSet) :=
  if set.toIpSet.corresponds old.toIpSet then do
    let set ← copyFrom answers set old
    pure (set, { old with state := .copied })
  else pure (set, old)

/-- This is the inner loop of the search for old sets. -/
def copyOlds (set : PooledSet) : List PooledSet → Action (PooledSet × List PooledSet)
  | [] => pure (set, [])
  | old :: rest => do
    let (set, old) ← copyFound answers set old
    let (set, olds) ← copyOlds set rest
    pure (set, old :: olds)

def copyAll : List PooledSet → List PooledSet → Action (List PooledSet × List PooledSet)
  | [], olds => pure ([], olds)
  | set :: rest, olds => do
    let (set, olds) ← copyOlds answers set olds
    let (sets, olds) ← copyAll rest olds
    pure (set :: sets, olds)

def destroyOld (old : PooledSet) : Action Unit :=
  match old.state with
  | .dead => enqueue (.destroy old.name)
  | .deadPending => enqueue (.destroy old.name)
  | .copied => pure ()
  | _ => throw .destroyState

def createNew (set : PooledSet) : Action PooledSet :=
  match set.state with
  | .newborn => do
    setCreate answers set
    send (.ask set.name)
    pure { set with state := .pending }
  | .pending => do
    send (.ask set.name)
    pure set
  | .valid => do
    send (.ask set.name)
    pure set
  | _ => throw .createState

def createAll : List PooledSet → Action (List PooledSet)
  | [] => pure []
  | set :: rest => do
    let set ← createNew answers set
    let sets ← createAll rest
    pure (set :: sets)

/-- The old configuration is dropped, and its pool becomes the standby pool. -/
def World.switch (world : World) (version : Nat) (sets : List PooledSet) : World :=
  { world with
    configVersion := version
    sets := sets
    array := world.array + 1
    blocks := Function.update world.blocks world.confPool []
    confPool := world.standbyPool
    standbyPool := world.confPool }

/-- These are the passes over the new sets and over the old ones. -/
def newSets (pool : PoolId) (array : Nat) (configs : List SetConfig) (olds : List PooledSet) :
    Action (List PooledSet) := do
  let sets ← parseSets pool array configs
  let olds ← markDead olds
  let (sets, olds) ← copyAll answers sets olds
  Program.each olds destroyOld
  createAll answers sets

def configParse (config : Config) : Action Unit := do
  let world ← get
  if world.configVersion = config.version then
    Program.each world.sets fun set => send (.ask set.name)
  else do
    allocate world.standbyPool ⟨world.array + 1, .sets⟩
    let sets ← newSets answers world.standbyPool (world.array + 1) config.sets world.sets
    modify fun world => world.switch config.version sets

end Configuration

section Updates

variable (answers : Answers)

def setFind (sets : List PooledSet) (name : Name) : Option PooledSet :=
  sets.find? fun set => set.name = name

/-- The pointer that `set_find` returns is the first set with the name. -/
def changeFirst (name : Name) (change : PooledSet → PooledSet) : List PooledSet → List PooledSet
  | [] => []
  | set :: rest => if set.name = name then change set :: rest else set :: changeFirst name change rest

/-- The result of `set_find` is used without a check. -/
def setState (name : Name) (state : SetState) : Action Unit := do
  let world ← get
  match setFind world.sets name with
  | none => throw .noSet
  | some _ =>
    modify fun world =>
      { world with sets := changeFirst name (fun set => { set with state }) world.sets }

/-- This is the part of `handle_action` without a reload of the configuration. -/
def handleUpdate (name : Name) (action : Diffstore.Action) (epoch newVersion : Nat) : Action Unit :=
  match action with
  | .noAction => setState name .valid
  | .full => do
    setState name .pending
    send (.update true name epoch 0 newVersion)
  | .incremental oldVersion => do
    setState name .valid
    send (.update false name epoch oldVersion newVersion)
  | .configReload => throw .doubleReload

/-- A set moves to the other pool with its state and without its deleted addresses. -/
def copySet (pool : PoolId) (array : Nat) (set : PooledSet) : Action PooledSet := do
  allocate pool ⟨array, .name⟩
  check set.tmpName.isNone .reconfigure
  let store ← storeInit pool array
  storeCopy answers { set with store, pool, array } set.store

def copySets (pool : PoolId) (array : Nat) : List PooledSet → Action (List PooledSet)
  | [] => pure []
  | set :: rest => do
    let copy ← copySet answers pool array set
    let copies ← copySets pool array rest
    pure (copy :: copies)

/-- The pools are exchanged, and neither is reset. -/
def World.exchange (world : World) (sets : List PooledSet) : World :=
  { world with
    sets := sets
    array := world.array + 1
    confPool := world.standbyPool
    standbyPool := world.confPool }

def configReload : Action Unit := do
  let world ← get
  allocate world.standbyPool ⟨world.array + 1, .sets⟩
  let sets ← copySets answers world.standbyPool (world.array + 1) world.sets
  modify fun world => world.exchange sets

def handleAction (name : Name) (action : Diffstore.Action) (epoch newVersion : Nat) : Action Unit :=
  match action with
  | .configReload => do
    configReload answers
    let world ← get
    match setFind world.sets name with
    | none => throw .noSet
    | some set => handleUpdate name (diffAddrStoreAction set.store epoch newVersion) epoch newVersion
  | action => handleUpdate name action epoch newVersion

def versionReceived (configVersion : Nat) (name : Name) (epoch version : Nat) : Action Unit := do
  let world ← get
  if world.configVersion ≠ configVersion then pure ()
  else
    match setFind world.sets name with
    | none => pure ()
    | some set =>
      handleAction answers name (diffAddrStoreAction set.store epoch version) epoch version

def diffReceived (configVersion : Nat) (name : Name) (full : Bool)
    (epoch fromVersion toVersion : Nat) (data : Bytes) : Action Unit := do
  let world ← get
  if world.configVersion ≠ configVersion then pure ()
  else
    match setFind world.sets name with
    | none => pure ()
    | some set => do
      let (set, action) ← storeApply answers set full epoch (if full then 0 else fromVersion)
        toVersion data
      modify fun world => { world with sets := changeFirst name (fun _ => set) world.sets }
      handleAction answers name action epoch toVersion

def reloadAll : List PooledSet → Action (List PooledSet)
  | [] => pure []
  | set :: rest => do
    let set ← setReload answers set
    let sets ← reloadAll rest
    pure (set :: sets)

def setsReload : Action Unit := do
  let world ← get
  let sets ← reloadAll answers world.sets
  modify fun world => { world with sets := sets }

/-- The cache may be outdated and in invalid memory. -/
def communicate (message : Option Message) : Action Unit := do
  modify fun world => { world with existingSets := none }
  match message with
  | none => throw .malformed
  | some (.config config) => configParse answers config
  | some (.version configVersion name epoch version) =>
    versionReceived answers configVersion name epoch version
  | some (.diff configVersion name full epoch fromVersion toVersion data) =>
    diffReceived answers configVersion name full epoch fromVersion toVersion data
  | some .reload => setsReload answers
  | some .other => pure ()

/-- The timeout exists only while the queue is broken. -/
def retryTimeout : Action Unit := do
  let world ← get
  Program.when world.broken do
    modify fun world => { world with broken := false }
    setsReload answers

end Updates

section Runs

/-- A message that cannot be parsed is nothing. The last event stands for the callbacks that do not
touch the sets. -/
inductive Event where
  | message (message : Option Message) (answers : Answers)
  | retryTimeout (answers : Answers)
  | childDied (failed : Bool)
  | other

def childDied (failed : Bool) : Action Unit :=
  Program.when failed (modify fun world => { world with broken := true })

def handle : Event → Action Unit
  | .message message answers => communicate answers message
  | .retryTimeout answers => retryTimeout answers
  | .childDied failed => childDied failed
  | .other => pure ()

def Event.room : Event → Option Nat
  | .message _ answers => answers.room
  | .retryTimeout answers => answers.room
  | _ => none

def World.enter (world : World) (event : Event) : World :=
  { world with callback := world.callback + 1, room := event.room }

/-- A plugin that fails a check is started again, and its pools are new. -/
def World.restart (world : World) (fault : Fault) : World :=
  { World.start with
    callback := world.callback
    consultations := world.consultations
    commands := world.commands
    requests := world.requests
    faults := world.faults ++ [fault] }

def World.step (world : World) (event : Event) : World :=
  match (handle event).eval (world.enter event) with
  | (.ok _, world) => world
  | (.error fault, world) => world.restart fault

def run (events : List Event) : World := events.foldl World.step .start

end Runs

end Ucollect.Fwup.Callbacks
