import Mathlib.Data.BitVec
import Ucollect.Construction.Core.Timeouts
import Ucollect.Construction.Core.MemPool

/-
This file models the captured interfaces of core/loop.c with their descriptors and watchdogs, and how
core/configure.c changes them.
-/

namespace Ucollect.Interfaces
open Core (Timers)

def ifaceReconfigureTime : Nat := 10000
def pcapWatchdogTime : Nat := 10 * 1000 * 60
def watchdogMissedCount : Nat := 5

/-- This is `struct pcap_interface`. A structure and a capture are known by their numbers, and the
descriptor of a capture has the number of the capture. -/
structure Interface where
  address : Nat
  name : String
  promiscuous : Bool
  pcapIn : Nat
  pcapOut : Nat
  watchdogTimer : Nat
  watchdogReceived : Bool
  watchdogInitialized : Bool
  watchdogMissed : Nat
  mark : Bool
  registered : Bool
  deriving DecidableEq, Repr

def Interface.captures (interface : Interface) : List Nat := [interface.pcapIn, interface.pcapOut]

def Interface.key (interface : Interface) : String × Bool := (interface.name, interface.promiscuous)

/-- The watchdog has a pointer to its interface. The other timeouts belong to other parts. -/
inductive Task where
  | watchdog (address : Nat)
  | selfReconfigure
  | other
  deriving DecidableEq, Repr

/-- The daemon ends or uses something that is gone. -/
inductive Halt where
  | noTimer
  | noId
  | known
  | unknown
  | closed
  | stray
  | copyFailed
  deriving DecidableEq, Repr

/-- The kernel keeps the open captures and what is registered with epoll. The last field is the next
number that is free. -/
structure Loop where
  interfaces : List Interface
  timers : Timers Task
  now : Nat
  reconfigure : Bool
  reconfigureFull : Bool
  retryReconfigureOnFailure : Bool
  opened : Finset Nat
  epoll : Nat → Option Nat
  fresh : Nat

section Resources

def Loop.addTimeout (loop : Loop) (after : Nat) (task : Task) : Except Halt (Nat × Loop) :=
  match loop.timers.add .wide loop.now after task with
  | none => .error .noId
  | some (id, timers) => .ok (id, { loop with timers })

/-- The assertion needs a pending timeout. -/
def Loop.cancelTimeout (loop : Loop) (id : Nat) : Except Halt Loop :=
  match loop.timers.cancel id with
  | none => .error .noTimer
  | some timers => .ok { loop with timers }

/-- A descriptor that is not registered is only logged. -/
def Loop.unregisterFd (loop : Loop) (capture : Nat) : Loop :=
  { loop with epoll := Function.update loop.epoll capture none }

/-- The descriptor of a capture is read before the capture is closed. -/
def Loop.closeDirection (loop : Loop) (registered : Bool) (capture : Nat) : Except Halt Loop :=
  if capture ∉ loop.opened then .error .closed
  else
    let loop := if registered then loop.unregisterFd capture else loop
    .ok { loop with opened := loop.opened.erase capture }

def Loop.pcapDestroy (loop : Loop) (interface : Interface) : Except Halt Loop := do
  let loop ← if interface.watchdogInitialized then loop.cancelTimeout interface.watchdogTimer
    else .ok loop
  interface.captures.foldlM (fun loop => loop.closeDirection interface.registered) loop

inductive EpollOp where
  | add
  | mod
  deriving DecidableEq, Repr

/-- A known descriptor can not be added, and only a known one can be changed. -/
def Loop.epollCtl (op : EpollOp) (address : Nat) (loop : Loop) (capture : Nat) :
    Except Halt Loop :=
  match op, loop.epoll capture with
  | .add, some _ => .error .known
  | .mod, none => .error .unknown
  | _, _ => .ok { loop with epoll := Function.update loop.epoll capture (some address) }

def Loop.epollRegisterPcap (loop : Loop) (interface : Interface) (op : EpollOp) :
    Except Halt Loop :=
  interface.captures.foldlM (Loop.epollCtl op interface.address) loop

end Resources

section Transaction

/-- The new interfaces wait in the configurator. -/
structure Configurator where
  loop : Loop
  interfaces : List Interface

def loopConfigStart (loop : Loop) : Configurator :=
  ⟨{ loop with interfaces := loop.interfaces.map fun interface => { interface with mark := true } },
    []⟩

/-- The two directions are opened one after the other. -/
structure Opens where
  incoming : Bool
  outgoing : Bool

def Loop.unmark (loop : Loop) (address : Nat) : Loop :=
  { loop with
    interfaces := loop.interfaces.map fun interface =>
      if interface.address = address then { interface with mark := false } else interface }

/-- An interface that is open already is copied. A direction that fails closes the other one. -/
def Configurator.addPcap (configurator : Configurator) (name : String) (promiscuous : Bool)
    (opens : Opens) : Bool × Configurator :=
  let loop := configurator.loop
  match loop.interfaces.find? fun old => old.name = name ∧ old.promiscuous = promiscuous with
  | some old =>
    (true, ⟨{ loop.unmark old.address with fresh := loop.fresh + 1 },
      configurator.interfaces ++ [{ old with mark := false, address := loop.fresh }]⟩)
  | none =>
    if opens.incoming && opens.outgoing then
      let new : Interface :=
        { address := loop.fresh
          name
          promiscuous
          pcapIn := loop.fresh
          pcapOut := loop.fresh + 1
          watchdogTimer := 0
          watchdogReceived := false
          watchdogInitialized := false
          watchdogMissed := 0
          mark := true
          registered := false }
      (true, ⟨{ loop with
        opened := insert loop.fresh (insert (loop.fresh + 1) loop.opened)
        fresh := loop.fresh + 2 }, configurator.interfaces ++ [new]⟩)
    else (false, configurator)

def loopConfigAbort (configurator : Configurator) : Except Halt Loop :=
  (configurator.interfaces.filter Interface.mark).foldlM Loop.pcapDestroy configurator.loop

/-- The watchdog of a copy starts again with the copy as its interface. -/
def Loop.commitInterface (pair : Loop × List Interface) (interface : Interface) :
    Except Halt (Loop × List Interface) := do
  let loop ← pair.1.epollRegisterPcap interface (if interface.mark then .add else .mod)
  let loop ← if interface.mark then .ok loop else loop.cancelTimeout interface.watchdogTimer
  let (id, loop) ← loop.addTimeout pcapWatchdogTime (.watchdog interface.address)
  .ok (loop, pair.2 ++ [{ interface with
    registered := true
    watchdogTimer := id
    watchdogInitialized := true }])

def loopConfigCommit (configurator : Configurator) : Except Halt Loop := do
  let loop ← (configurator.loop.interfaces.filter Interface.mark).foldlM Loop.pcapDestroy
    configurator.loop
  let (loop, interfaces) ← configurator.interfaces.foldlM Loop.commitInterface (loop, [])
  .ok { loop with interfaces }

/-- A section of the configuration is an interface with its options, or something else that is
accepted or not. A missing uplink is noticed behind the last section. -/
inductive Section where
  | interface (ifname promiscuous : Option String) (opens : Opens)
  | other (accepted : Bool)

/-- An interface is promiscuous unless it says otherwise. -/
def promiscConv : Option String → Option Bool
  | none => some true
  | some promiscuous =>
    if promiscuous = "0" then some false else if promiscuous = "1" then some true else none

def Configurator.loadSection (configurator : Configurator) : Section → Bool × Configurator
  | .interface none _ _ => (false, configurator)
  | .interface (some name) promiscuous opens =>
    match promiscConv promiscuous with
    | none => (false, configurator)
    | some promiscuous => configurator.addPcap name promiscuous opens
  | .other accepted => (accepted, configurator)

/-- The first section that fails ends the loading. -/
def Configurator.loadPackage : List Section → Configurator → Bool × Configurator
  | [], configurator => (true, configurator)
  | item :: items, configurator =>
    match configurator.loadSection item with
    | (true, configurator) => loadPackage items configurator
    | (false, configurator) => (false, configurator)

def loadConfig (sections : List Section) (loop : Loop) : Except Halt (Bool × Loop) := do
  match (loopConfigStart loop).loadPackage sections with
  | (true, configurator) => return (true, ← loopConfigCommit configurator)
  | (false, configurator) => return (false, ← loopConfigAbort configurator)

end Transaction

section Running

/-- The loop is asked to read its configuration again. A failure may be tried again later. -/
def Loop.reload (loop : Loop) (sections : List Section) : Except Halt Loop := do
  if loop.reconfigure then
    let full := loop.reconfigureFull
    let loop ← if full then loopConfigCommit (loopConfigStart { loop with reconfigure := false })
      else .ok { loop with reconfigure := false }
    let (done, loop) ← loadConfig sections { loop with reconfigureFull := false }
    if done then .ok { loop with retryReconfigureOnFailure := false }
    else if loop.retryReconfigureOnFailure then
      let (_, loop) ← loop.addTimeout ifaceReconfigureTime .selfReconfigure
      .ok loop
    else .ok loop
  else .ok loop

def Configurator.copyAll (opens : Opens) :
    List Interface → Configurator → Except Halt Configurator
  | [], configurator => .ok configurator
  | interface :: rest, configurator =>
    match configurator.addPcap interface.name interface.promiscuous opens with
    | (true, configurator) => copyAll opens rest configurator
    | (false, _) => .error .copyFailed

/-- After a plugin has crashed, all interfaces are copied. -/
def Loop.recover (loop : Loop) (opens : Opens) : Except Halt Loop := do
  let configurator ← (loopConfigStart loop).copyAll opens loop.interfaces
  loopConfigCommit configurator

def Loop.modify (loop : Loop) (address : Nat) (change : Interface → Interface) : Loop :=
  { loop with
    interfaces := loop.interfaces.map fun interface =>
      if interface.address = address then change interface else interface }

def Loop.find (loop : Loop) (address : Nat) : Except Halt Interface :=
  match loop.interfaces.find? fun interface => interface.address = address with
  | none => .error .stray
  | some interface => .ok interface

/-- An interface without data for a long time makes the loop open everything again. -/
def Loop.pcapWatchdog (loop : Loop) (address : Nat) : Except Halt Loop := do
  let interface ← loop.find address
  let missed := if interface.watchdogReceived then 0 else interface.watchdogMissed + 1
  let late := !interface.watchdogReceived && decide (watchdogMissedCount ≤ interface.watchdogMissed)
  let (id, loop) ← loop.addTimeout pcapWatchdogTime (.watchdog address)
  .ok { loop.modify address fun interface => { interface with
      watchdogMissed := missed
      watchdogReceived := false
      watchdogTimer := id } with
    retryReconfigureOnFailure := loop.retryReconfigureOnFailure || late
    reconfigure := loop.reconfigure || late
    reconfigureFull := loop.reconfigureFull || late }

/-- The first timeout is taken out before it is called. -/
def Loop.fire (loop : Loop) : Except Halt Loop :=
  match loop.timers.timeouts with
  | [] => .ok loop
  | timeout :: rest =>
    if loop.now < timeout.due then .ok loop
    else
      let loop := { loop with timers := { loop.timers with timeouts := rest } }
      match timeout.callback with
      | .watchdog address => loop.pcapWatchdog address
      | .selfReconfigure => .ok { loop with reconfigure := true }
      | .other => .ok loop

/-- An event of a descriptor reaches the interface whose structure was registered. -/
def Loop.pcapRead (loop : Loop) (capture : Nat) (error : Bool) : Except Halt Loop :=
  match loop.epoll capture with
  | none => .ok loop
  | some address => do
    let interface ← loop.find address
    if capture ∉ interface.captures ∨ capture ∉ loop.opened then .error .closed
    else
      .ok { loop.modify address fun interface => { interface with watchdogReceived := true } with
        retryReconfigureOnFailure := loop.retryReconfigureOnFailure || error
        reconfigure := loop.reconfigure || error }

inductive Event where
  | wait (elapsed : Nat)
  | hup
  | usr1
  | reload (sections : List Section)
  | crash (opens : Opens)
  | fire
  | read (capture : Nat) (error : Bool)
  | addOther (after : Nat)
  | cancelOther (id : Nat)

/-- The other parts cancel their own timeouts. -/
def Loop.cancelOther (loop : Loop) (id : Nat) : Except Halt Loop :=
  if loop.timers.timeouts.any fun timeout => timeout.id = id ∧ timeout.callback = .other then
    loop.cancelTimeout id
  else .ok loop

def Loop.step (loop : Loop) : Event → Except Halt Loop
  | .wait elapsed => .ok { loop with now := loop.now + elapsed }
  | .hup => .ok { loop with reconfigure := true }
  | .usr1 => .ok { loop with reconfigure := true, reconfigureFull := true }
  | .reload sections => loop.reload sections
  | .crash opens => loop.recover opens
  | .fire => loop.fire
  | .read capture error => loop.pcapRead capture error
  | .addOther after => do
    let (_, loop) ← loop.addTimeout after .other
    .ok loop
  | .cancelOther id => loop.cancelOther id

def Loop.run (loop : Loop) (events : List Event) : Except Halt Loop := events.foldlM step loop

def Loop.create : Loop where
  interfaces := []
  timers := ⟨[], 0⟩
  now := 0
  reconfigure := false
  reconfigureFull := false
  retryReconfigureOnFailure := false
  opened := ∅
  epoll := fun _ => none
  fresh := 0

/-- The daemon does not start without its configuration. -/
def daemon (sections : List Section) (events : List Event) : Except Halt Loop := do
  let (done, loop) ← loadConfig sections Loop.create
  if done then loop.run events else .ok loop

end Running

end Ucollect.Interfaces

/-
This file models the statistics of the captured interfaces: `loop_pcap_stats` of core/loop.c.
-/

namespace Ucollect.Capture
open MemPool (Machine)

/-- An interface has these items in the result. -/
inductive Item where
  | received
  | dropped
  | ifDropped
  deriving DecidableEq, Repr

def Item.offset : Item → Nat
  | .received => 0
  | .dropped => 1
  | .ifDropped => 2

/-- This is `struct pcap_stat`. -/
structure PcapStat where
  psRecv : UInt32
  psDrop : UInt32
  psIfdrop : UInt32
  deriving DecidableEq, Repr

def PcapStat.value (ps : PcapStat) : Item → UInt32
  | .received => ps.psRecv
  | .dropped => ps.psDrop
  | .ifDropped => ps.psIfdrop

/-- An item has the type `size_t`. -/
abbrev Size (machine : Machine) := BitVec (8 * machine.word)

/-- An interface keeps these numbers from the last call. -/
abbrev Counters (machine : Machine) := Item → Size machine

/-- The answers of `pcap_stats` for the two directions of each interface. -/
abbrev Call := Nat → Fin 2 → Option PcapStat

def pcapDirIn : Fin 2 := 0

def pcapDirOut : Fin 2 := 1

variable {machine : Machine}

/-- The first error fills the items and ends the loop over the directions. -/
def readDirections : List (Option PcapStat) → Counters machine → Counters machine
  | [], items => items
  | none :: _, _ => fun _ => BitVec.allOnes _
  | some ps :: directions, items =>
    readDirections directions fun item => items item + BitVec.ofNat _ (ps.value item).toNat

/-- The items are replaced by their differences after they were read. -/
def loopPcapStats (call : Call) (interfaces : List (Counters machine)) :
    List (Size machine) × List (Counters machine) :=
  let read := interfaces.mapIdx fun index _ => readDirections [call index pcapDirIn, call index pcapDirOut] 0
  (BitVec.ofNat _ interfaces.length ::
    (List.zipWith (fun tmp interface => tmp - interface) read interfaces).flatMap fun items =>
      [items .received, items .dropped, items .ifDropped], read)

/-- These are the results of the calls. -/
def run : List Call → List (Counters machine) → List (List (Size machine))
  | [], _ => []
  | call :: calls, interfaces =>
    let (result, interfaces) := loopPcapStats call interfaces
    result :: run calls interfaces

/-- The interfaces start with zeros. -/
def opened (machine : Machine) (count : Nat) : List (Counters machine) := List.replicate count 0

end Ucollect.Capture
