import Ucollect.Library.Readers

/-
This file models how the server asks the clients for keys: master/buckets/client.py, and the
messages of master/buckets/main.py that answer.
-/

namespace Ucollect.Requests
open Library

/-- The callback of a request knows its client object, and a dictionary of the cache with a key
in it. -/
structure Closure where
  object : Nat
  ccache : Nat
  keys : List Nat
  deriving DecidableEq, Repr

/-- The callbacks wait for the data, or the data has come. -/
inductive Entry where
  | waiting (callbacks : List Nat)
  | received (data : Option Bytes) (success : Bool)
  deriving DecidableEq, Repr

/-- The cache leads from a generation and a criterion to a dictionary. -/
structure Client where
  name : Bytes
  active : Bool
  cache : List (Nat × List (Nat × Nat))
  deriving DecidableEq, Repr

/-- This is `RequestManager`. -/
structure Manager where
  requests : Nat → Option (Nat × Closure)
  id : Nat

/-- Each callback is known by its number, and the list has the client that it was made for. -/
structure World where
  manager : Manager
  objects : Nat → Option Client
  objectCount : Nat
  ccaches : Nat → List Nat → Option Entry
  ccacheCount : Nat
  clients : Bytes → Option Nat
  callbacks : List Bytes

def World.start : World where
  manager := ⟨fun _ => none, 0⟩
  objects := fun _ => none
  objectCount := 0
  ccaches := fun _ _ => none
  ccacheCount := 0
  clients := fun _ => none
  callbacks := []

/-- A callback is invoked, or a message is sent to a client. -/
inductive Output where
  | invoke (callback : Nat) (data : Option Bytes) (success : Bool)
  | send (client message : Bytes)
  deriving DecidableEq, Repr

def Manager.register (manager : Manager) (callback : Closure) (timeout : Nat) : Manager × Nat :=
  (⟨Function.update manager.requests manager.id (some (timeout, callback)),
    (manager.id + 1) % 2 ^ 32⟩, manager.id)

def Manager.trim (manager : Manager) (now : Nat) : Manager :=
  { manager with requests := fun id => (manager.requests id).filter fun request => now ≤ request.1 }

def World.setEntry (world : World) (ccache : Nat) (keys : List Nat) (entry : Entry) : World :=
  { world with
    ccaches := Function.update world.ccaches ccache
      (Function.update (world.ccaches ccache) keys (some entry)) }

/-- An exception of a callback leaves the loop. -/
def reached (raises : List Nat) : List Nat → List Nat
  | [] => []
  | callback :: callbacks => callback :: if callback ∈ raises then [] else reached raises callbacks

/-- This is `mycallback`. The flag says that it has raised. -/
def World.mycallback (world : World) (closure : Closure) (data : Option Bytes) (success : Bool)
    (raises : List Nat) : World × List Output × Bool :=
  match world.objects closure.object with
  | none => (world, [], false)
  | some client =>
    if client.active = false then (world, [], false)
    else
      match world.ccaches closure.ccache closure.keys with
      | none => (world, [], true)
      | some (.waiting callbacks) =>
        (world.setEntry closure.ccache closure.keys (.received data success),
          (reached raises callbacks).map fun callback => .invoke callback data success,
          callbacks.any (· ∈ raises))
      -- The data of an earlier answer is no list of callbacks, and it can not be called.
      | some (.received _ _) =>
        (world.setEntry closure.ccache closure.keys (.received data success), [], true)

/-- This is `__route`. A callback that raises leaves its request behind. -/
def World.route (world : World) (rid : Nat) (data : Option Bytes) (success : Bool)
    (raises : List Nat) : World × List Output :=
  match world.manager.requests rid with
  | none => (world, [])
  | some (_, closure) =>
    let (world, outputs, raised) := world.mycallback closure data success raises
    if raised then (world, outputs)
    else
      ({ world with
          manager := { world.manager with
            requests := Function.update world.manager.requests rid none } }, outputs)

/-- The oldest generations are dropped from the cache. -/
def dropOldest : Nat → List (Nat × List (Nat × Nat)) → List (Nat × List (Nat × Nat))
  | 0, cache => cache
  | fuel + 1, cache =>
    if 3 < cache.length then
      dropOldest fuel (cache.filter fun entry => some entry.1 ≠ (cache.map Prod.fst).min?)
    else cache

/-- The dictionary of a generation and a criterion. -/
def findCcache (cache : List (Nat × List (Nat × Nat))) (generation criterion : Nat) : Option Nat :=
  (cache.lookup generation).bind fun criteria => criteria.lookup criterion

/-- A new dictionary is added for the criterion. -/
def addCcache (cache : List (Nat × List (Nat × Nat))) (generation criterion ccache : Nat) :
    List (Nat × List (Nat × Nat)) :=
  cache.map fun entry =>
    if entry.1 = generation then (generation, entry.2 ++ [(criterion, ccache)]) else entry

def addGeneration (cache : List (Nat × List (Nat × Nat))) (generation : Nat) :
    List (Nat × List (Nat × Nat)) :=
  if (cache.lookup generation).isSome then cache
  else dropOldest cache.length cache ++ [(generation, [])]

/-- The generation in the message is always 0. -/
def keysMessage (rid criterion : Nat) (keys : List Nat) : Bytes :=
  letter 'K' :: (word64 0 ++ word32 rid ++ word32 criterion ++ keys.flatMap word32)

/-- The client is asked, as nobody has asked it before. -/
def World.request (world : World) (object : Nat) (client : Client)
    (criterion generation : Nat) (keys : List Nat) (callback now : Nat) : World × List Output :=
  let cache := addGeneration client.cache generation
  let known := findCcache cache generation criterion
  let ccache := known.getD world.ccacheCount
  let cache := if known.isSome then cache else addCcache cache generation criterion ccache
  let (manager, rid) := world.manager.register ⟨object, ccache, keys⟩ (now + 60)
  (World.setEntry { world with
      manager
      objects := Function.update world.objects object (some { client with cache })
      ccacheCount := world.ccacheCount + if known.isSome then 0 else 1 }
    ccache keys (.waiting [callback]), [.send client.name (keysMessage rid criterion keys)])

/-- This is `get_keys` of a client object with a new callback. -/
def World.getKeys (world : World) (object criterion generation : Nat) (keys : List Nat)
    (now : Nat) : World × List Output :=
  match world.objects object with
  | none => (world, [])
  | some client =>
    let callback := world.callbacks.length
    let world := { world with callbacks := world.callbacks ++ [client.name] }
    if client.active = false then (world, [.invoke callback none false])
    else
      match findCcache client.cache generation criterion with
      | none => world.request object client criterion generation keys callback now
      | some ccache =>
        match world.ccaches ccache keys with
        | none => world.request object client criterion generation keys callback now
        | some (.received data success) => (world, [.invoke callback data success])
        | some (.waiting callbacks) =>
          (world.setEntry ccache keys (.waiting (callbacks ++ [callback])), [])

/-- This is `client_connected`. -/
def World.connected (world : World) (name : Bytes) : World :=
  { world with
    objects := Function.update world.objects world.objectCount (some ⟨name, false, []⟩)
    objectCount := world.objectCount + 1
    clients := Function.update world.clients name (some world.objectCount) }

def World.setActive (world : World) (object : Nat) (active : Bool) : World :=
  { world with
    objects := Function.update world.objects object
      ((world.objects object).map fun client => { client with active }) }

/-- This is `client_disconnected`. -/
def World.disconnected (world : World) (name : Bytes) : World :=
  match world.clients name with
  | none => world
  | some object =>
    { world.setActive object false with clients := Function.update world.clients name none }

/-- The messages `K` and `M` start with the number of the request. -/
def answerId (message : Bytes) : Option (Nat × Bytes) := readNumber 4 (message.drop 1)

/-- This is `message_from_client` for the messages about keys, and the one that asks for the
configuration. -/
def World.messageFromClient (world : World) (name message : Bytes) (raises : List Nat) :
    World × List Output :=
  if message.head? = some (letter 'C') then
    match world.clients name with
    | none => (world, [])
    | some object => (world.setActive object true, [])
  else if message.head? = some (letter 'K') then
    match answerId message with
    | none => (world, [])
    | some (rid, data) => world.route rid (some data) true raises
  else if message.head? = some (letter 'M') then
    match answerId message with
    | none => (world, [])
    | some (rid, _) => world.route rid none false raises
  else (world, [])

/-- The keys of an anomaly are asked from the clients of a group one by one. -/
inductive Event where
  | connected (name : Bytes)
  | disconnected (name : Bytes)
  | ask (name : Bytes) (criterion generation : Nat) (keys : List Nat) (now : Nat)
  | message (name message : Bytes) (raises : List Nat)
  | trim (now : Nat)
  deriving DecidableEq, Repr

def World.step (world : World) : Event → World × List Output
  | .connected name => (world.connected name, [])
  | .disconnected name => (world.disconnected name, [])
  | .ask name criterion generation keys now =>
    match world.clients name with
    | none => (world, [])
    | some object => world.getKeys object criterion generation keys now
  | .message name message raises => world.messageFromClient name message raises
  | .trim now => ({ world with manager := world.manager.trim now }, [])

/-- The outputs of a run are in order. -/
def World.run (world : World) : List Event → World × List Output
  | [] => (world, [])
  | event :: events =>
    let (next, outputs) := world.step event
    let (last, later) := next.run events
    (last, outputs ++ later)

end Ucollect.Requests
