import Ucollect.Library.Readers

/-
This file models how the server distributes tasks to clients: master/sniff/main.py and
master/sniff/task.py.
-/

namespace Ucollect.Sniff
open Library

/-- These are the fields of a task. The last one says that its start timer runs. -/
structure Task where
  taskId : Nat
  activeClients : List Bytes
  finishedClients : List Bytes
  running : Bool
  starter : Bool
  deriving DecidableEq, Repr

def Task.new : Task := ⟨0, [], [], false, false⟩

/-- A client without the plugin refuses the message, and sending may raise an exception. -/
inductive Outcome where
  | sent
  | refused
  | raised
  deriving DecidableEq, Repr

/-- This is what happens when the task is sent to one more client. The client is a random one, and
the functions of the task may raise. -/
structure Attempt where
  pick : Nat
  messageRaises : Bool
  outcome : Outcome
  failureRaises : Bool
  deriving DecidableEq, Repr

def Attempt.plain : Attempt := ⟨0, false, .sent, false⟩

/-- These are the calls that leave the function. A later call is the timeout of the client. -/
inductive Note where
  | send (client : Bytes) (outcome : Outcome)
  | abort (client : Bytes)
  | success (client : Bytes) (payload : Bytes)
  | failure (client : Bytes) (payload : Option Bytes)
  | callLater (client : Bytes)
  | finished (holders : List Bytes)
  deriving DecidableEq, Repr

/-- The flag says that an exception has left the function. -/
structure Result where
  task : Task
  notes : List Note
  raised : Bool
  deriving DecidableEq, Repr

/-- An exception skips the second step. -/
def Result.andThen (result : Result) (next : Task → Result) : Result :=
  if result.raised then result
  else
    { task := (next result.task).task
      notes := result.notes ++ (next result.task).notes
      raised := (next result.task).raised }

namespace Task

def activate (task : Task) (client : Bytes) : Task :=
  { task with
    activeClients := if client ∈ task.activeClients then task.activeClients
      else task.activeClients ++ [client] }

/-- The client does not hold the task any more. -/
def retire (task : Task) (client : Bytes) : Task :=
  { task with
    activeClients := task.activeClients.erase client
    finishedClients := client :: task.finishedClients }

/-- This is `__check_finished`. A task that is not among the active ones raises a `KeyError`. -/
def checkFinished (registered : Bool) (task : Task) : Result :=
  if task.activeClients = [] ∧ task.running = true then
    let task := { task with running := false, starter := false }
    if registered then ⟨task, [.finished task.activeClients], false⟩ else ⟨task, [], true⟩
  else ⟨task, [], false⟩

def available (connected : List Bytes) (task : Task) : List Bytes :=
  connected.filter fun client =>
    client ∉ task.activeClients ∧ client ∉ task.finishedClients

/-- This is `__send_to_client`. One client less is available after each refusal. -/
def sendToClient (limit : Nat) (connected : List Bytes) (registered : Bool) (fuel : Nat)
    (attempts : List Attempt) (task : Task) : Result :=
  if limit ≤ task.activeClients.length then ⟨task, [], false⟩
  else
    match fuel, task.available connected with
    | 0, _ | _, [] => task.checkFinished registered
    | fuel + 1, first :: rest =>
      let attempt := attempts.headD .plain
      let client := (first :: rest).getD (attempt.pick % (rest.length + 1)) first
      if attempt.messageRaises then ⟨task, [], true⟩
      else if attempt.outcome = .refused then
        let result := Result.andThen
          ⟨{ task with finishedClients := client :: task.finishedClients },
            [.send client .refused, .failure client none], attempt.failureRaises⟩
          (sendToClient limit connected registered fuel attempts.tail)
        -- The exception is logged, and then the client gets a timeout like any other.
        if result.raised then
          ⟨result.task.activate client, result.notes ++ [.callLater client], false⟩
        else result
      else ⟨task.activate client, [.send client attempt.outcome, .callLater client], false⟩

section Calls

variable (limit : Nat) (connected : List Bytes) (registered : Bool) (attempts : List Attempt)
  (task : Task)

/-- As many clients as are available may refuse the task. -/
def distribute : Result :=
  sendToClient limit connected registered (task.available connected).length attempts task

/-- The next client gets the task, or the task is over. -/
def proceed : Result :=
  (distribute limit connected registered attempts task).andThen (checkFinished registered)

/-- This is `__start_task`. -/
def start (taskId : Nat) : Result :=
  proceed limit connected registered attempts { task with running := true, taskId, starter := true }

/-- This is `__timeout_task`. An exception of `send` is caught. -/
def timeoutTask (client : Bytes) (failureRaises : Bool) : Result :=
  if client ∈ task.activeClients then
    Result.andThen ⟨task.retire client, [.abort client, .failure client none], failureRaises⟩
      (proceed limit connected registered attempts)
  else ⟨task, [], false⟩

/-- What a status reports. An exception of the report is caught. -/
def report (status : UInt8) (client payload : Bytes) : List Note :=
  if status = letter 'O' then [.success client payload]
  else if status = letter 'F' then [.failure client (some payload)]
  else if status = letter 'U' then [.failure client none]
  else []

/-- This is `message_from_client` with an active task. A client that aborts the task keeps it. -/
def answer (status : UInt8) (client payload : Bytes) : Result :=
  if client ∈ task.activeClients then
    if status = letter 'A' then ⟨task, [], false⟩
    else
      Result.andThen ⟨task.retire client, report status client payload, false⟩
        (proceed limit connected registered attempts)
  else ⟨task, [], false⟩

end Calls

end Task

/-- The tasks are known by their numbers, and the timeouts are waiting. -/
structure World where
  parallelLimit : Nat
  connected : List Bytes
  tasks : Nat → Task
  taskCount : Nat
  activeTasks : Nat → Option Nat
  lastId : Nat
  timeouts : List (Nat × Bytes)

def World.new (parallelLimit : Nat) : World :=
  ⟨parallelLimit, [], fun _ => .new, 0, fun _ => none, 0, []⟩

def Note.later : Note → Option Bytes
  | .callLater client => some client
  | .send _ _ | .abort _ | .success _ _ | .failure _ _ | .finished _ => none

/-- A task that has finished is not an active one any more. -/
def Note.ends : Note → Bool
  | .finished _ => true
  | .send _ _ | .abort _ | .success _ _ | .failure _ _ | .callLater _ => false

def World.registered (world : World) (task : Nat) : Bool :=
  (world.activeTasks (world.tasks task).taskId).isSome

/-- The result of a call is put in the world. -/
def World.put (world : World) (task : Nat) (result : Result) : World × List (Nat × Note) :=
  ({ world with
      tasks := Function.update world.tasks task result.task
      activeTasks := if result.notes.any Note.ends then
        Function.update world.activeTasks result.task.taskId none else world.activeTasks
      timeouts := world.timeouts ++ (result.notes.filterMap Note.later).map fun client =>
        (task, client) },
    result.notes.map fun note => (task, note))

inductive Event where
  | connect (client : Bytes)
  | disconnect (client : Bytes)
  | start (attempts : List Attempt)
  | tick (task : Nat) (attempts : List Attempt)
  | timeout (index : Nat) (failureRaises : Bool) (attempts : List Attempt)
  | answer (client message : Bytes) (attempts : List Attempt)
  deriving DecidableEq, Repr

/-- The new task gets the next identifier. -/
def World.startTask (world : World) (attempts : List Attempt) : World × List (Nat × Note) :=
  let taskId := (world.lastId + 1) % 2 ^ 32
  let task := world.taskCount
  World.put { world with
      taskCount := task + 1
      lastId := taskId
      activeTasks := Function.update world.activeTasks taskId (some task) }
    task (Task.start world.parallelLimit world.connected true attempts (world.tasks task) taskId)

/-- The start timer sends the task to one more client. -/
def World.tick (world : World) (task : Nat) (attempts : List Attempt) :
    World × List (Nat × Note) :=
  if (world.tasks task).starter then
    world.put task (Task.distribute world.parallelLimit world.connected (world.registered task)
      attempts (world.tasks task))
  else (world, [])

/-- The waiting timeouts may fire in any order. -/
def World.timeout (world : World) (index : Nat) (failureRaises : Bool) (attempts : List Attempt) :
    World × List (Nat × Note) :=
  match world.timeouts[index]? with
  | none => (world, [])
  | some (task, client) =>
    World.put { world with timeouts := world.timeouts.eraseIdx index } task
      (Task.timeoutTask world.parallelLimit world.connected (world.registered task) attempts
        (world.tasks task) client failureRaises)

/-- A message that is too short raises an exception. -/
def parseAnswer (message : Bytes) : Option (Nat × UInt8 × Bytes) :=
  (readNumber 4 message).bind fun result =>
    match result.2 with
    | [] => none
    | status :: payload => some (result.1, status, payload)

def World.messageFromClient (world : World) (client message : Bytes) (attempts : List Attempt) :
    World × List (Nat × Note) :=
  match parseAnswer message with
  | none => (world, [])
  | some (taskId, status, payload) =>
    match world.activeTasks taskId with
    | none => (world, [])
    | some task =>
      world.put task (Task.answer world.parallelLimit world.connected
        (world.registered task) attempts (world.tasks task) status client payload)

def World.step (world : World) : Event → World × List (Nat × Note)
  | .connect client =>
    ({ world with
      connected := if client ∈ world.connected then world.connected
        else world.connected ++ [client] }, [])
  | .disconnect client => ({ world with connected := world.connected.erase client }, [])
  | .start attempts => world.startTask attempts
  | .tick task attempts => world.tick task attempts
  | .timeout index failureRaises attempts => world.timeout index failureRaises attempts
  | .answer client message attempts => world.messageFromClient client message attempts

/-- The notes of a run are in order. -/
def World.run (world : World) : List Event → World × List (Nat × Note)
  | [] => (world, [])
  | event :: events =>
    let (next, notes) := world.step event
    let (last, later) := next.run events
    (last, notes ++ later)

end Ucollect.Sniff
