import Ucollect.Construction.Diffstore.Store
import Ucollect.Construction.Fwup.Ipset

/-
This file models plugins/fwup/main.c and plugins/fwup/type.c, with the queue of plugins/fwup/queue.c.
-/

namespace Ucollect.Fwup
open Library Diffstore

section Types

/-- The constructors are the six entries of `set_types`. -/
inductive SetType where
  | ip
  | ip6
  | net
  | net6
  | ipPort
  | ip6Port
  deriving DecidableEq, Repr

def setTypes (code : UInt8) : Option SetType :=
  if code = letter 'i' then some .ip
  else if code = letter 'I' then some .ip6
  else if code = letter 'n' then some .net
  else if code = letter 'N' then some .net6
  else if code = letter 'b' then some .ipPort
  else if code = letter 'B' then some .ip6Port
  else none

def SetType.desc : SetType → String
  | .ip => "hash:ip"
  | .ip6 => "hash:ip"
  | .net => "hash:net"
  | .net6 => "hash:net"
  | .ipPort => "hash:ip,port"
  | .ip6Port => "hash:ip,port"

def SetType.family : SetType → String
  | .ip => "inet"
  | .ip6 => "inet6"
  | .net => "inet"
  | .net6 => "inet6"
  | .ipPort => "inet"
  | .ip6Port => "inet6"

/-- This is `inet2str` with length 4 and `inet62str` with length 16. -/
def inet2str (length : Nat) (addr : Bytes) : Option Entry :=
  if addr.length = length then some ⟨addr, none⟩ else none

/-- This is `inetup2str`, where the port follows the address. -/
def inetup2str (length : Nat) (addr : Bytes) : Option Entry :=
  if addr.length = length + 2 then some ⟨addr.take length, some (.mark, addr.drop length)⟩ else none

/-- The result of an address with a wrong size is nothing. -/
def SetType.addr2str : SetType → Bytes → Option Entry
  | .ip => inet2str 4
  | .ip6 => inet2str 16
  | .net => inet2str 4
  | .net6 => inet2str 16
  | .ipPort => inetup2str 4
  | .ip6Port => inetup2str 16

end Types

section Sets

inductive SetState where
  | valid
  | pending
  | dead
  | deadPending
  | copied
  | newborn
  deriving DecidableEq, Repr

/-- This is `struct set`. -/
structure IpSet where
  name : Name
  tmpName : Option Name
  state : SetState
  type : SetType
  maxSize : Nat
  hashSize : Nat
  store : Store
  deriving DecidableEq

/-- This is `struct user_data`. -/
structure UserData where
  configVersion : Nat
  sets : List IpSet
  deriving DecidableEq

/-- These are the messages to the server. -/
inductive Request where
  | ask (name : Name)
  | update (full : Bool) (name : Name) (epoch oldVersion newVersion : Nat)
  deriving DecidableEq, Repr

/-- This tells if a set is in the list that the kernel has given. -/
abbrev Existing := Name → Bool

/-- The list ends with a line break, so the empty text behind it is found, too. -/
def setExists (kernel : Kernel) : Existing := fun name => name.isEmpty || (kernel name).isSome

variable (existing : Existing) (set : IpSet)

def IpSet.create (name : Name) : Command :=
  .create name set.type.desc set.type.family set.hashSize set.maxSize

def setCreate : List Command := if existing set.name then [] else [set.create set.name]

/-- This overwrites the first `XXX` of a text. -/
def chooseProtocol (protocol : Bytes) : Bytes → Option Bytes
  | 88 :: 88 :: 88 :: rest => some (protocol ++ rest)
  | byte :: rest => (chooseProtocol protocol rest).map (byte :: ·)
  | [] => none

def tcpText : Bytes := [116, 99, 112]
def udpText : Bytes := [117, 100, 112]

/-- The mark is searched in the whole command, and the name stands before the address. -/
def addrCmd (cmd : Name → Entry → Command) (addr : Bytes) : Option (List Command) :=
  (set.type.addr2str addr).map fun entry =>
    let name := set.tmpName.getD set.name
    match chooseProtocol tcpText name, chooseProtocol udpText name with
    | some tcpName, some udpName => [cmd tcpName entry, cmd udpName entry]
    | _, _ =>
      match entry.service with
      | some (_, port) =>
        [cmd name ⟨entry.address, some (.tcp, port)⟩, cmd name ⟨entry.address, some (.udp, port)⟩]
      | none => [cmd name entry]

def addItem (addr : Bytes) : Option (List Command) := addrCmd set .add addr

def removeItem (addr : Bytes) : Option (List Command) := addrCmd set .del addr

/-- This is `-rep`. -/
def repSuffix : Bytes := [45, 114, 101, 112]

def replaceStart : Option (IpSet × List Command) :=
  match set.tmpName with
  | some _ => none
  | none =>
    let tmpName := set.name ++ repSuffix
    some ({ set with tmpName := some tmpName },
      setCreate existing set ++ (if existing tmpName then [.destroy tmpName] else []) ++
        [set.create tmpName])

def replaceEnd : Option (IpSet × List Command) :=
  match set.tmpName with
  | none => none
  | some tmpName => some ({ set with tmpName := none }, [.swap set.name tmpName, .destroy tmpName])

def runHook : Hook → Option (IpSet × List Command)
  | .replaceStart => replaceStart existing set
  | .add addr => (addItem set addr).map fun commands => (set, commands)
  | .remove addr => (removeItem set addr).map fun commands => (set, commands)
  | .replaceEnd => replaceEnd set

def runHooks : IpSet → List Hook → Option (IpSet × List Command)
  | set, [] => some (set, [])
  | set, hook :: hooks => do
    let (set, first) ← runHook existing set hook
    let (set, rest) ← runHooks set hooks
    pure (set, first ++ rest)

/-- The store is walked in some order. -/
abbrev Walk := Name → Finset Bytes → List Bytes

def setReload (walk : Walk) : Option (IpSet × List Command) :=
  runHooks existing set
    (.replaceStart :: (walk set.name set.store.trie).map .add ++ [.replaceEnd])

end Sets

section Messages

structure SetConfig where
  name : Name
  type : UInt8
  maxSize : Nat
  hashSize : Nat
  deriving DecidableEq, Repr

/-- The names in a configuration are distinct. -/
structure Config where
  version : Nat
  sets : List SetConfig
  distinct : (sets.map SetConfig.name).Nodup

inductive Message where
  | config (config : Config)
  | version (configVersion : Nat) (name : Name) (epoch version : Nat)
  | diff (configVersion : Nat) (name : Name) (full : Bool) (epoch fromVersion toVersion : Nat)
      (data : Bytes)
  | reload
  | other

/-- This is what the plugin does about a message.

The commands before the first look at the list of the kernel may be executed before that look. -/
structure Reaction where
  early : List Command
  late : Existing → Option (UserData × List Command × List Request)

/-- This is a reaction that enqueues nothing before the look. -/
def Reaction.lately (late : Existing → Option (UserData × List Command × List Request)) : Reaction :=
  ⟨[], late⟩

/-- A set of an unknown type is skipped. -/
def setParse (config : SetConfig) : Option IpSet :=
  (setTypes config.type).map fun type =>
    { name := config.name
      tmpName := none
      state := .newborn
      type
      maxSize := config.maxSize
      hashSize := config.hashSize
      store := .init }

/-- The old sets are marked as dead, so that they can be resurrected in the new ones. -/
def markDead (set : IpSet) : Option IpSet :=
  match set.state with
  | .valid => some { set with state := .dead }
  | .pending => some { set with state := .deadPending }
  | _ => none

def IpSet.corresponds (set old : IpSet) : Bool := set.name = old.name ∧ set.type = old.type

def IpSet.resized (set old : IpSet) : Bool :=
  set.hashSize ≠ old.hashSize ∨ set.maxSize ≠ old.maxSize

/-- This looks for the set in the old configuration. -/
def carryOver (existing : Existing) (walk : Walk) (dead : List IpSet) (set : IpSet) :
    Option (IpSet × List Command) :=
  match dead.find? set.corresponds with
  | none => some (set, [])
  | some old =>
    match old.state with
    | .dead =>
      let copy := { set with store := diffAddrStoreCp old.store, state := .valid }
      if set.resized old then setReload existing copy walk else some (copy, [])
    | .deadPending => some ({ set with state := .pending }, [])
    | _ => none

def markCopied (sets : List IpSet) (old : IpSet) : IpSet :=
  if sets.any fun set => set.corresponds old then { old with state := .copied } else old

def destroyOld (old : IpSet) : Option (List Command) :=
  match old.state with
  | .dead => some [.destroy old.name]
  | .deadPending => some [.destroy old.name]
  | .copied => some []
  | _ => none

def createNew (existing : Existing) (set : IpSet) : Option (IpSet × List Command) :=
  match set.state with
  | .newborn => some ({ set with state := .pending }, setCreate existing set)
  | .pending => some (set, [])
  | .valid => some (set, [])
  | _ => none

/-- This asks for the version of each set. -/
def versionAsk (sets : List IpSet) : List Request := sets.map fun set => .ask set.name

/-- A resized set needs the list of the kernel before the old sets are destroyed. -/
def configParse (walk : Walk) (config : Config) (user : UserData) : Option Reaction :=
  if user.configVersion = config.version then
    some (.lately fun _ => some (user, [], versionAsk user.sets))
  else do
    let sets := config.sets.filterMap setParse
    let dead ← user.sets.mapM markDead
    let destroys ← (dead.map (markCopied sets)).mapM destroyOld
    let resizing := sets.any fun set =>
      (dead.find? set.corresponds).any fun old => old.state = .dead ∧ set.resized old
    pure
      { early := if resizing then [] else destroys.flatten
        late := fun existing => do
          let carried ← sets.mapM (carryOver existing walk dead)
          let created ← (carried.map Prod.fst).mapM (createNew existing)
          let sets := created.map Prod.fst
          pure (⟨config.version, sets⟩,
            (if resizing then carried.flatMap Prod.snd ++ destroys.flatten else []) ++
              created.flatMap Prod.snd,
            versionAsk sets) }

def setFind (user : UserData) (name : Name) : Option IpSet :=
  user.sets.find? fun set => set.name = name

/-- This changes the set that `setFind` finds. -/
def UserData.modify (user : UserData) (name : Name) (change : IpSet → IpSet) : UserData :=
  { user with sets := user.sets.map fun set => if set.name = name then change set else set }

/-- This is the part of `handle_action` without a reload of the configuration. -/
def handleUpdate (user : UserData) (name : Name) (action : Action) (epoch newVersion : Nat) :
    Option (UserData × List Request) :=
  match action with
  | .noAction => some (user.modify name fun set => { set with state := .valid }, [])
  | .full =>
    some (user.modify name fun set => { set with state := .pending },
      [.update true name epoch 0 newVersion])
  | .incremental oldVersion =>
    some (user.modify name fun set => { set with state := .valid },
      [.update false name epoch oldVersion newVersion])
  | .configReload => none

def IpSet.copy (set : IpSet) : IpSet := { set with store := diffAddrStoreCp set.store }

/-- This moves all the sets to new memory. -/
def UserData.copySets (user : UserData) : UserData := { user with sets := user.sets.map IpSet.copy }

/-- A reload copies all the sets, and the second one in a row fails a check. -/
def handleAction (user : UserData) (name : Name) (action : Action) (epoch newVersion : Nat) :
    Option (UserData × List Request) :=
  match action with
  | .configReload => do
    let set ← setFind user.copySets name
    handleUpdate user.copySets name (diffAddrStoreAction set.store epoch newVersion) epoch
      newVersion
  | action => handleUpdate user name action epoch newVersion

def versionReceived (configVersion : Nat) (name : Name) (epoch version : Nat) (user : UserData) :
    Option (UserData × List Request) :=
  if user.configVersion ≠ configVersion then some (user, [])
  else
    match setFind user name with
    | none => some (user, [])
    | some set => handleAction user name (diffAddrStoreAction set.store epoch version) epoch version

def diffReceived (existing : Existing) (configVersion : Nat) (name : Name) (full : Bool)
    (epoch fromVersion toVersion : Nat) (data : Bytes) (user : UserData) :
    Option (UserData × List Command × List Request) :=
  if user.configVersion ≠ configVersion then some (user, [], [])
  else
    match setFind user name with
    | none => some (user, [], [])
    | some set => do
      let (store, action, hooks) ← diffAddrStoreApply set.store full epoch
        (if full then 0 else fromVersion) toVersion data
      let (set, commands) ← runHooks existing set hooks
      let (user, requests) ←
        handleAction (user.modify name fun _ => { set with store }) name action epoch toVersion
      pure (user, commands, requests)

def setsReload (existing : Existing) (walk : Walk) (user : UserData) :
    Option (UserData × List Command) := do
  let reloaded ← user.sets.mapM fun set => setReload existing set walk
  pure ({ user with sets := reloaded.map Prod.fst }, reloaded.flatMap Prod.snd)

/-- The result of a failed check is nothing. -/
def communicate (walk : Walk) (user : UserData) : Message → Option Reaction
  | .config config => configParse walk config user
  | .version configVersion name epoch version =>
    some (.lately fun _ => do
      let (user, requests) ← versionReceived configVersion name epoch version user
      pure (user, [], requests))
  | .diff configVersion name full epoch fromVersion toVersion data =>
    some (.lately fun existing =>
      diffReceived existing configVersion name full epoch fromVersion toVersion data user)
  | .reload =>
    some (.lately fun existing => do
      let (user, commands) ← setsReload existing walk user
      pure (user, commands, []))
  | .other => some (.lately fun _ => some (user, [], []))

end Messages

section Router

/-- The child executes the commands some time after the plugin has enqueued them. -/
structure Router where
  user : UserData
  child : Deferred Kernel Command
  sent : List Request

/-- The router has no sets yet, and the version of the configuration is 0. -/
def Router.start : Router := ⟨⟨0, []⟩, ⟨Kernel.empty, []⟩, []⟩

/-- This is how far the child gets before the look, and in which order the stores are walked. -/
structure Timing where
  pace : Nat
  walk : Walk
  complete : ∀ name trie, (walk name trie).Nodup ∧ (walk name trie).toFinset = trie

inductive Event where
  | execute
  | receive (message : Message) (timing : Timing)

inductive Stop where
  | failed
  | insane
  deriving DecidableEq, Repr

variable (ipset : Ipset) (router : Router)

def Router.execute : Except Stop Router :=
  match router.child.execute ipset.run 1 with
  | none => .error .failed
  | some child => .ok { router with child }

def Router.receive (message : Message) (timing : Timing) : Except Stop Router :=
  match communicate timing.walk router.user message with
  | none => .error .insane
  | some reaction =>
    match (router.child.enqueue reaction.early).execute ipset.run timing.pace with
    | none => .error .failed
    | some child =>
      match reaction.late (setExists child.now) with
      | none => .error .insane
      | some (user, commands, requests) =>
        .ok ⟨user, child.enqueue commands, router.sent ++ requests⟩

def Router.step : Event → Except Stop Router
  | .execute => router.execute ipset
  | .receive message timing => router.receive ipset message timing

def Router.run (events : List Event) : Except Stop Router :=
  events.foldlM (Router.step ipset) router

end Router

end Ucollect.Fwup
