import Ucollect.Library.Bytes

/-
This file models how the client runs tasks: plugins/sniff/sniff.c, lines 39 to 206.
-/

namespace Ucollect.Sniffer
open Library

def growRatio : Nat := 3
def growAddition : Nat := 1024

/-- An object of the pool is known by the number of resets before its allocation. -/
structure Kept (A : Type) where
  generation : Nat
  value : A

/-- The buffer of a task that could not be read is missing. -/
structure TaskDesc (Data : Type) where
  name : UInt8
  finish : Data → Option Bytes → Nat → Bytes × Bool

/-- The last field counts the tasks that were started before. -/
structure Task (Data : Type) where
  desc : TaskDesc Data
  data : Kept Data
  id : Bytes
  pid : Nat
  out : Nat
  buffer : Option (Kept Bytes)
  bufferUsed : Nat
  bufferAllocated : Nat
  serial : Nat

/-- The loop knows a descriptor together with the task that is its tag. -/
structure Client (Data : Type) where
  generation : Nat
  tasks : List (Kept (Task Data))
  fds : List (Nat × Nat)

def Client.new {Data : Type} : Client Data := ⟨0, [], []⟩

inductive Fault where
  | stale
  | outside
  deriving DecidableEq, Repr

/-- These are the calls that leave the plugin. An answer names the task that it is about. -/
inductive Effect where
  | opened (descriptor : Nat)
  | closed (descriptor : Nat)
  | kill (pid : Nat)
  | answer (task : Option Nat) (message : Bytes)
  | fault (fault : Fault)
  deriving DecidableEq, Repr

/-- A request has an identifier, a kind and parameters. -/
structure Request where
  bytes : Bytes
  header : 5 ≤ bytes.length

def Request.id (request : Request) : Bytes := request.bytes.take 4

def Request.op (request : Request) : UInt8 := request.bytes.getD 4 0

/-- The function of the kind has parsed the parameters and has forked a process, and the descriptor
is zero when it did not. The flag says that the descriptor could be made non-blocking. -/
structure Start (Data : Type) where
  data : Data
  out : Nat
  pid : Nat
  nonBlocking : Bool

/-- A descriptor has no data for now, an error, or some bytes. No bytes are the end. -/
inductive Read where
  | again
  | failed
  | got (bytes : Bytes)

section Calls

variable {Data : Type}

namespace Client

/-- An object must not be used when the pool was reset after its allocation. -/
def touch {A : Type} (client : Client Data) (object : Kept A) : List Effect :=
  if object.generation = client.generation then [] else [.fault .stale]

/-- The buffer must have this many bytes. -/
def access (client : Client Data) (buffer : Option (Kept Bytes)) (amount : Nat) : List Effect :=
  match buffer with
  | none => if amount = 0 then [] else [.fault .outside]
  | some buffer =>
    client.touch buffer ++ if amount ≤ buffer.value.length then [] else [.fault .outside]

/-- Walking or changing the list uses the tasks in it. -/
def touchTasks (client : Client Data) : List Effect := client.tasks.flatMap client.touch

def cleanup (client : Client Data) : Client Data :=
  if client.tasks.isEmpty then { client with generation := client.generation + 1 } else client

def replySend (client : Client Data) (serial : Nat) (id : Bytes) (desc : TaskDesc Data)
    (data : Kept Data) (output : Option (Kept Bytes)) (outputSize : Nat) :
    Client Data × List Effect :=
  let result := desc.finish data.value (output.map Kept.value) outputSize
  let message := id ++ [if result.2 then letter 'O' else letter 'F'] ++ result.1
  (client.cleanup, client.touch data ++ (output.map client.touch).getD [] ++
    [.answer (some serial) message])

/-- The task leaves the list, and its output is closed. -/
def drop (client : Client Data) (task : Task Data) : Client Data × List Effect :=
  ({ client with
      tasks := client.tasks.filter fun other => other.value.serial ≠ task.serial
      fds := client.fds.eraseP fun fd => fd.1 = task.out },
    client.touchTasks ++ [.closed task.out])

end Client

namespace Task

/-- A full buffer is copied to a larger one with unknown contents behind. -/
def grown (task : Task Data) (generation : Nat) (junk : Nat → UInt8) : Task Data :=
  if task.bufferUsed = task.bufferAllocated then
    let allocated := task.bufferAllocated * growRatio + growAddition
    let old := (task.buffer.map Kept.value).getD []
    { task with
      bufferAllocated := allocated
      buffer := some ⟨generation, old.take task.bufferUsed ++
        ((List.range allocated).map junk).drop task.bufferUsed⟩ }
  else task

def room (task : Task Data) : Nat := task.bufferAllocated - task.bufferUsed

/-- The bytes are written behind the used part of the buffer. -/
def written (task : Task Data) (bytes : Bytes) : Task Data :=
  { task with
    buffer := task.buffer.map fun buffer => { buffer with
      value := buffer.value.take task.bufferUsed ++ bytes ++
        buffer.value.drop (task.bufferUsed + bytes.length) } }

end Task

namespace Client

/-- The structure of the task is changed in place. -/
def put (client : Client Data) (task : Task Data) : Client Data :=
  { client with
    tasks := client.tasks.map fun other =>
      if other.value.serial = task.serial then { other with value := task } else other }

/-- The task and its descriptor go away before the answer is sent. -/
def dismiss (client : Client Data) (task : Task Data) : Client Data × List Effect :=
  let dropped := client.drop task
  let replied := dropped.1.replySend task.serial task.id task.desc task.data task.buffer
    task.bufferUsed
  (replied.1, dropped.2 ++ replied.2)

def dataReceived (client : Client Data) (task : Kept (Task Data)) (junk : Nat → UInt8)
    (read : Read) : Client Data × List Effect :=
  let start := client.touch task ++ client.access task.value.buffer task.value.bufferUsed
  let grown := task.value.grown client.generation junk
  match read with
  | .again => (client.put grown, start)
  | .failed =>
    let reset := { grown with bufferUsed := 0, buffer := none }
    let dismissed := (client.put reset).dismiss reset
    (dismissed.1, start ++ dismissed.2)
  | .got [] =>
    let terminated := grown.written [0]
    let dismissed := (client.put terminated).dismiss terminated
    (dismissed.1, start ++ client.access grown.buffer (grown.bufferUsed + 1) ++ dismissed.2)
  | .got bytes =>
    let filled := { grown.written bytes with bufferUsed := grown.bufferUsed + bytes.length }
    (client.put filled, start ++ client.access grown.buffer (grown.bufferUsed + bytes.length))

/-- Any existing task with the same identifier goes away. Its label is printed at the end. -/
def abort (client : Client Data) (id : Bytes) : Client Data × List Effect :=
  match client.tasks.find? fun task => task.value.id = id with
  | none => (client, client.touchTasks)
  | some old =>
    let dropped := client.drop old.value
    let cleaned := dropped.1.cleanup
    (cleaned, client.touchTasks ++ [.kill old.value.pid] ++ dropped.2 ++ cleaned.touch old ++
      [.answer (some old.value.serial) (id ++ [letter 'A'])])

/-- The task waits for its output unless there is none. -/
def launch (client : Client Data) (desc : TaskDesc Data) (id : Bytes) (start : Start Data)
    (serial : Nat) : Client Data × List Effect :=
  let data : Kept Data := ⟨client.generation, start.data⟩
  if start.out = 0 then client.replySend serial id desc data none 0
  else if start.nonBlocking then
    let task : Task Data := {
      desc, data, id, serial
      pid := start.pid
      out := start.out
      buffer := none
      bufferUsed := 0
      bufferAllocated := 0 }
    ({ client with
        tasks := client.tasks ++ [⟨client.generation, task⟩]
        fds := client.fds ++ [(start.out, serial)] },
      client.touchTasks ++ [.opened start.out])
  else
    let replied := client.replySend serial id desc data none 0
    (replied.1, .closed start.out :: replied.2)

/-- The list of kinds ends with an empty name. -/
def findDesc (taskDescs : List (TaskDesc Data)) (op : UInt8) : Option (TaskDesc Data) :=
  (taskDescs.takeWhile fun desc => desc.name ≠ 0).find? fun desc => desc.name = op

def inRequest (taskDescs : List (TaskDesc Data)) (client : Client Data) (request : Request)
    (start : Start Data) (serial : Nat) : Client Data × List Effect :=
  match findDesc taskDescs request.op with
  | none => (client, [.answer none (request.id ++ [letter 'U'])])
  | some desc =>
    let aborted := client.abort request.id
    let launched := aborted.1.launch desc request.id start serial
    (launched.1, aborted.2 ++ launched.2)

end Client

end Calls

/-- A process writes to a pipe and closes it. The last field is everything that it wrote. -/
structure Pipe where
  pending : Bytes
  closed : Bool
  written : Bytes
  deriving DecidableEq, Repr

/-- A read returns at least one byte when there is one. -/
def Pipe.read (pipe : Pipe) (room amount : Nat) : Read :=
  if room = 0 then .got []
  else if pipe.pending = [] then if pipe.closed then .got [] else .again
  else .got (pipe.pending.take (max 1 (min amount room)))

def Read.taken : Read → Nat
  | .again => 0
  | .failed => 0
  | .got bytes => bytes.length

/-- The pipes are those that the client has not closed yet. -/
structure World (Data : Type) where
  client : Client Data
  pipes : Nat → Option Pipe
  started : Nat
  log : List Effect

inductive Event (Data : Type) where
  | request (request : Request) (start : Start Data)
  | write (descriptor : Nat) (bytes : Bytes)
  | finish (descriptor : Nat)
  | ready (descriptor amount : Nat) (junk : Nat → UInt8)
  | failed (descriptor : Nat) (junk : Nat → UInt8)

def Effect.pipes (pipes : Nat → Option Pipe) : Effect → Nat → Option Pipe
  | .opened descriptor => Function.update pipes descriptor (some ⟨[], false, []⟩)
  | .closed descriptor => Function.update pipes descriptor none
  | .kill _ | .answer _ _ | .fault _ => pipes

namespace World

variable {Data : Type}

def new : World Data := ⟨.new, fun _ => none, 0, []⟩

/-- The results of a call are put in the world. -/
def apply (world : World Data) (result : Client Data × List Effect) : World Data :=
  { world with
    client := result.1
    pipes := result.2.foldl Effect.pipes world.pipes
    log := world.log ++ result.2 }

/-- The loop calls the plugin only for a registered descriptor. -/
def tagged (world : World Data) (descriptor : Nat) : Option (Kept (Task Data) × Pipe) :=
  match world.client.fds.find? fun fd => fd.1 = descriptor with
  | none => none
  | some fd =>
    match world.client.tasks.find? fun task => task.value.serial = fd.2 with
    | none => none
    | some task => (world.pipes descriptor).map fun pipe => (task, pipe)

def setPipe (world : World Data) (descriptor : Nat) (pipe : Pipe) : World Data :=
  { world with pipes := Function.update world.pipes descriptor (some pipe) }

def step (taskDescs : List (TaskDesc Data)) (world : World Data) : Event Data → World Data
  | .request request start =>
    let next := world.apply (world.client.inRequest taskDescs request start world.started)
    if (Client.findDesc taskDescs request.op).isSome then
      { next with started := world.started + 1 }
    else next
  | .write descriptor bytes =>
    match world.pipes descriptor with
    | none => world
    | some pipe =>
      if pipe.closed then world
      else world.setPipe descriptor { pipe with
        pending := pipe.pending ++ bytes, written := pipe.written ++ bytes }
  | .finish descriptor =>
    match world.pipes descriptor with
    | none => world
    | some pipe => world.setPipe descriptor { pipe with closed := true }
  | .ready descriptor amount junk =>
    match world.tagged descriptor with
    | none => world
    | some (task, pipe) =>
      let read := pipe.read (task.value.grown world.client.generation junk).room amount
      (world.setPipe descriptor { pipe with pending := pipe.pending.drop read.taken }).apply
        (world.client.dataReceived task junk read)
  | .failed descriptor junk =>
    match world.tagged descriptor with
    | none => world
    | some (task, _) => world.apply (world.client.dataReceived task junk .failed)

def run (taskDescs : List (TaskDesc Data)) (world : World Data) (events : List (Event Data)) :
    World Data := events.foldl (step taskDescs) world

end World

end Ucollect.Sniffer
