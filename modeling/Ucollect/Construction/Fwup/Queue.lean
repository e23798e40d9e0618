import Ucollect.Construction.Core.Timeouts

/-
This file models the queue of the ipset commands in plugins/fwup/queue.c, with the timeouts of the
plugin, its file descriptors and the children of the process.
-/

namespace Ucollect.Fwup
open Core

inductive QueueTimer where
  | flush
  | retry
  deriving DecidableEq, Repr

/-- The child and the timeouts of one queue. -/
structure Queue where
  active : Bool
  timeoutStarted : Bool
  broken : Bool
  ipsetPipe : Nat
  pid : Nat
  timeoutId : Nat
  deriving DecidableEq, Repr

/-- A child is listed until its status is collected. The last two fields are not in the source.
They say that a command was written to the child, and that since its start no flush timeout has
fired, no end of file was read and no send has failed. -/
structure Child where
  pid : Nat
  fed : Bool
  current : Bool
  deriving DecidableEq, Repr

structure QueueWorld where
  queue : Queue
  timers : Timers QueueTimer
  now : Nat
  fds : List Nat
  children : List Child
  deriving DecidableEq, Repr

/-- A new queue has no child. -/
def queueAlloc : QueueWorld :=
  ⟨⟨false, false, false, 0, 0, 0⟩, ⟨[], 0⟩, 0, [], []⟩

/-- A malformed command is the caller's mistake. An impossible event cannot come from the system. -/
inductive QueueFault where
  | sanity
  | command
  | impossible
  deriving DecidableEq, Repr

def queueFlushTime : Nat := 5000

def queueRetryTime : Nat := 60000

/-- The system picks a process and a descriptor that are not in use. -/
structure Launch where
  pid : Nat
  fd : Nat
  deriving DecidableEq, Repr

def QueueWorld.start (world : QueueWorld) (launch : Launch) : Except QueueFault QueueWorld :=
  if world.queue.active then .error .sanity
  else if launch.pid ∈ world.children.map (·.pid) ∨ launch.fd ∈ world.fds ∨ launch.fd = 0 then
    .error .impossible
  else
    .ok { world with
      queue := { world.queue with active := true, ipsetPipe := launch.fd, pid := launch.pid }
      fds := launch.fd :: world.fds
      children := ⟨launch.pid, false, true⟩ :: world.children }

def QueueWorld.addTimeout (world : QueueWorld) (after : Nat) (timer : QueueTimer) :
    Except QueueFault (Nat × QueueWorld) :=
  match world.timers.add .wide world.now after timer with
  | none => .error .sanity
  | some (id, timers) => .ok (id, { world with timers := timers })

def QueueWorld.cancelTimeout (world : QueueWorld) (id : Nat) : Except QueueFault QueueWorld :=
  match world.timers.cancel id with
  | none => .error .sanity
  | some timers => .ok { world with timers := timers }

def QueueWorld.close (world : QueueWorld) (fd : Nat) : Except QueueFault QueueWorld :=
  if fd ∈ world.fds then .ok { world with fds := world.fds.erase fd } else .error .sanity

/-- After an error the pipe may still hold messages. -/
def QueueWorld.closePipe (world : QueueWorld) (error : Bool) : Except QueueFault QueueWorld :=
  if error then .ok world else world.close world.queue.ipsetPipe

/-- An active queue lets go of its child. -/
def QueueWorld.deactivate (world : QueueWorld) (error : Bool) : Except QueueFault QueueWorld := do
  let world ← world.closePipe error
  let world := { world with
    queue := { world.queue with ipsetPipe := 0, active := false, pid := 0 } }
  if world.queue.timeoutStarted then
    let world := { world with queue := { world.queue with timeoutStarted := false } }
    world.cancelTimeout world.queue.timeoutId
  else .ok world

/-- Only an active queue has a child to let go. -/
def QueueWorld.release (world : QueueWorld) (error : Bool) : Except QueueFault QueueWorld :=
  if world.queue.active then world.deactivate error else .ok world

/-- A broken queue tries again later. -/
def QueueWorld.breakDown (world : QueueWorld) : Except QueueFault QueueWorld := do
  let world := { world with queue := { world.queue with broken := true } }
  let (_, world) ← world.addTimeout queueRetryTime .retry
  .ok world

def QueueWorld.lost (world : QueueWorld) (error : Bool) : Except QueueFault QueueWorld :=
  if world.queue.broken then .ok world
  else do
    let world ← world.release error
    if error then world.breakDown else .ok world

/-- What `send` may answer, apart from the errors that abort the plugin. -/
inductive Write where
  | sent (more : Nat)
  | interrupted
  | reset
  deriving DecidableEq, Repr

/-- The loop sends what is left. The answers say whether something was written and whether the
connection is gone. -/
def sendCommand : Nat → List Write → Bool × Bool
  | 0, _ => (false, false)
  | _ + 1, [] => (true, false)
  | left + 1, .sent more :: rest => (true, (sendCommand (left - more) rest).2)
  | left + 1, .interrupted :: rest => sendCommand (left + 1) rest
  | _ + 1, .reset :: _ => (false, true)

/-- A call of `enqueue` with the answers of the system. -/
structure Order where
  command : List UInt8
  launch : Launch
  writes : List Write
  deriving DecidableEq, Repr

def QueueWorld.feed (world : QueueWorld) : QueueWorld :=
  { world with children := world.children.map fun child =>
      if child.pid = world.queue.pid then { child with fed := true } else child }

def QueueWorld.outdate (world : QueueWorld) : QueueWorld :=
  { world with children := world.children.map fun child => { child with current := false } }

/-- A written order is flushed after a while. -/
def QueueWorld.transmit (world : QueueWorld) (order : Order) : Except QueueFault QueueWorld :=
  let sending := sendCommand order.command.length order.writes
  let world := if sending.1 then world.feed else world
  if sending.2 then world.outdate.lost true
  else if world.queue.timeoutStarted then .ok world
  else do
    let (id, world) ← world.addTimeout queueFlushTime .flush
    .ok { world with queue := { world.queue with timeoutStarted := true, timeoutId := id } }

/-- A child is started when none is there. -/
def QueueWorld.ensure (world : QueueWorld) (launch : Launch) : Except QueueFault QueueWorld :=
  if world.queue.active then .ok world else world.start launch

/-- A command ends in a newline. -/
def QueueWorld.enqueue (world : QueueWorld) (order : Order) : Except QueueFault QueueWorld :=
  if world.queue.broken then .ok world
  else do
    let world ← world.ensure order.launch
    if !world.queue.active || world.queue.ipsetPipe == 0 then .error .sanity
    else if order.command.getLast? ≠ some 10 then .error .command
    else world.transmit order

def QueueWorld.enqueueAll (world : QueueWorld) (orders : List Order) :
    Except QueueFault QueueWorld :=
  orders.foldlM enqueue world

def QueueWorld.queueFlush (world : QueueWorld) : Except QueueFault QueueWorld := world.lost false

/-- The callback of the plugin reloads all the sets, by commands of its own. -/
def QueueWorld.retryTimeout (world : QueueWorld) (reload : List Order) :
    Except QueueFault QueueWorld :=
  if world.queue.timeoutStarted then .error .sanity
  else { world with queue := { world.queue with broken := false } }.enqueueAll reload

def QueueWorld.flushTimeout (world : QueueWorld) : Except QueueFault QueueWorld :=
  { world with queue := { world.queue with timeoutStarted := false } }.queueFlush

/-- The first timeout fires when it is due. -/
def QueueWorld.fire (world : QueueWorld) (reload : List Order) : Except QueueFault QueueWorld :=
  match world.timers.timeouts with
  | [] => .error .impossible
  | timeout :: rest =>
    if timeout.due ≤ world.now then
      let world := { world with timers := { world.timers with timeouts := rest } }
      match timeout.callback with
      | .flush => world.outdate.flushTimeout
      | .retry => world.retryTimeout reload
    else .error .impossible

/-- What a read from the child gives. -/
inductive Reading where
  | text
  | later
  | closed
  deriving DecidableEq, Repr

/-- An active queue is lost whichever of its descriptors was closed. -/
def QueueWorld.queueFdData (world : QueueWorld) (fd : Nat) : Reading → Except QueueFault QueueWorld
  | .text => .ok world
  | .later => .ok world
  | .closed => if world.queue.active then world.lost false else world.close fd

/-- How a child ended. -/
inductive ChildStatus where
  | exited (code : Nat)
  | signalled (signal : Nat)
  | unknown
  deriving DecidableEq, Repr

def QueueWorld.queueChildDied (world : QueueWorld) (pid : Nat) (status : ChildStatus) :
    Except QueueFault QueueWorld :=
  if !world.queue.active then .ok world
  else if world.queue.pid ≠ pid then .ok world
  else world.lost (status ≠ .exited 0)

inductive QueueEvent where
  | tick (elapsed : Nat)
  | enqueue (order : Order)
  | fire (reload : List Order)
  | fdData (fd : Nat) (reading : Reading)
  | died (pid : Nat) (status : ChildStatus)
  deriving DecidableEq, Repr

/-- Children of other plugins may die too. -/
def QueueWorld.step (world : QueueWorld) : QueueEvent → Except QueueFault QueueWorld
  | .tick elapsed => .ok { world with now := world.now + elapsed }
  | .enqueue order => world.enqueue order
  | .fire reload => world.fire reload
  | .fdData fd reading =>
    if fd ∈ world.fds then
      (if reading = .closed then world.outdate else world).queueFdData fd reading
    else .error .impossible
  | .died pid status =>
    { world with children := world.children.filter fun child => child.pid ≠ pid }.queueChildDied
      pid status

def QueueWorld.run (world : QueueWorld) (events : List QueueEvent) :
    Except QueueFault QueueWorld :=
  events.foldlM step world

end Ucollect.Fwup
