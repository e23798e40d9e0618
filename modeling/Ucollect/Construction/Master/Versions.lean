import Ucollect.Construction.Master.Client

/-
This file models the routing of master/plugin.py with the connections that use it.
-/

namespace Ucollect.Master
open Library

/-- These are the fields of a connection that the routing uses. -/
structure Connection where
  cid : Bytes
  sessionId : Option Nat
  lastPong : Nat
  loggedIn : Bool
  connected : Bool
  deriving DecidableEq, Repr

/-- A request to the routing comes from a connection, and a call goes to a plugin. -/
inductive Call where
  | activate (plugin : Bytes) (connection : Nat)
  | deactivate (plugin : Bytes) (connection : Nat)
  | clientConnected (plugin cid : Bytes)
  | clientDisconnected (plugin cid : Bytes)
  deriving DecidableEq, Repr

/-- A client is the position of its connection in the list of all connections. -/
structure Plugins where
  plugins : List Bytes
  clients : Bytes → Option Nat
  activations : Bytes → Bytes → Bool
  connections : List Connection
  now : Nat
  calls : List Call

def Plugins.start (plugins : List Bytes) (now : Nat) : Plugins where
  plugins := plugins
  clients _ := none
  activations _ _ := false
  connections := []
  now := now
  calls := []

def Plugins.call (routing : Plugins) (calls : List Call) : Plugins :=
  { routing with calls := routing.calls ++ calls }

def Plugins.setActivation (routing : Plugins) (plugin cid : Bytes) (active : Bool) : Plugins :=
  { routing with
    activations := fun otherPlugin otherCid =>
      if otherPlugin = plugin ∧ otherCid = cid then active
      else routing.activations otherPlugin otherCid }

def Plugins.setClient (routing : Plugins) (cid : Bytes) (client : Option Nat) : Plugins :=
  { routing with
    clients := fun otherCid => if otherCid = cid then client else routing.clients otherCid }

def Plugins.setConnection (routing : Plugins) (index : Nat) (connection : Connection) : Plugins :=
  { routing with connections := routing.connections.set index connection }

def Plugins.activateClient (routing : Plugins) (plugin : Bytes) (index : Nat) (cid : Bytes) :
    Plugins :=
  let routing := routing.call [.activate plugin index]
  if routing.activations plugin cid then routing
  else (routing.setActivation plugin cid true).call [.clientConnected plugin cid]

def Plugins.deactivateClient (routing : Plugins) (plugin : Bytes) (index : Nat) (cid : Bytes) :
    Plugins :=
  let routing := routing.call [.deactivate plugin index]
  if routing.activations plugin cid then
    (routing.setActivation plugin cid false).call [.clientDisconnected plugin cid]
  else routing

/-- This is the loop of `unregister_client` over the plugins. -/
def Plugins.deactivateAll (routing : Plugins) (index : Nat) (cid : Bytes) : List Bytes → Plugins
  | [] => routing
  | plugin :: rest =>
    (if routing.activations plugin cid then routing.deactivateClient plugin index cid
      else routing).deactivateAll index cid rest

/-- A newer connection of the client stays. -/
def Plugins.unregisterClient (routing : Plugins) (index : Nat) (cid : Bytes) : Plugins :=
  if routing.clients cid = some index then
    (routing.deactivateAll index cid routing.plugins).setClient cid none
  else routing

/-- This is `ClientConn.connectionLost`. -/
def Plugins.connectionLost (routing : Plugins) (index : Nat) : Plugins :=
  match routing.connections[index]? with
  | none => routing
  | some connection =>
    if connection.connected then
      let routing := routing.setConnection index { connection with connected := false }
      if connection.loggedIn then routing.unregisterClient index connection.cid else routing
    else routing

/-- A client without an answer to a ping for this time is a stray one. -/
def strayTime : Nat := 900

def Connection.stray (connection : Connection) (now : Nat) : Bool :=
  connection.lastPong + strayTime < now

def Connection.sameSession (connection old : Connection) : Bool :=
  connection.sessionId.isSome && old.sessionId == connection.sessionId

/-- The result says whether the client is registered. -/
def Plugins.registerClient (routing : Plugins) (index : Nat) (connection : Connection) :
    Plugins × Bool :=
  match (routing.clients connection.cid).bind (fun old =>
      routing.connections[old]?.map fun oldConnection => (old, oldConnection)) with
  | none => (routing.setClient connection.cid (some index), true)
  | some (old, oldConnection) =>
    if oldConnection.stray routing.now then
      (routing.setClient connection.cid (some index), true)
    else if connection.sameSession oldConnection then
      ((routing.connectionLost old).setClient connection.cid (some index), true)
    else (routing, false)

inductive RoutingEvent where
  | connectionMade (cid : Bytes) (sessionId : Option Nat)
  | tick (seconds : Nat)
  | pong (index : Nat)
  | registerClient (index : Nat)
  | unregisterClient (index : Nat)
  | activateClient (plugin : Bytes) (index : Nat)
  | deactivateClient (plugin : Bytes) (index : Nat)
  | connectionLost (index : Nat)
  deriving DecidableEq, Repr

/-- The message `H` registers a connection that is not logged in, and only a connection that is
logged in switches plugins. -/
def Plugins.step (routing : Plugins) : RoutingEvent → Option Plugins
  | .connectionMade cid sessionId =>
    some { routing with
      connections := routing.connections ++ [⟨cid, sessionId, routing.now, false, true⟩] }
  | .tick seconds => some { routing with now := routing.now + seconds }
  | .pong index =>
    routing.connections[index]?.map fun connection =>
      routing.setConnection index { connection with lastPong := routing.now }
  | .registerClient index =>
    routing.connections[index]?.bind fun connection =>
      if connection.loggedIn then none
      else match routing.registerClient index connection with
        | (routing, true) =>
          routing.connections[index]?.map fun connection =>
            routing.setConnection index { connection with loggedIn := true }
        | (routing, false) => some routing
  | .unregisterClient index =>
    routing.connections[index]?.map fun connection =>
      routing.unregisterClient index connection.cid
  | .activateClient plugin index =>
    routing.connections[index]?.bind fun connection =>
      if connection.loggedIn ∧ plugin ∈ routing.plugins then
        some (routing.activateClient plugin index connection.cid)
      else none
  | .deactivateClient plugin index =>
    routing.connections[index]?.bind fun connection =>
      if connection.loggedIn ∧ plugin ∈ routing.plugins then
        some (routing.deactivateClient plugin index connection.cid)
      else none
  | .connectionLost index => some (routing.connectionLost index)

def Plugins.run (routing : Plugins) : List RoutingEvent → Option Plugins
  | [] => some routing
  | event :: events => (routing.step event).bind fun next => next.run events

end Ucollect.Master

/-
This file models the lists of plugins in master/client.py and master/plugin_versions.py.
-/

namespace Ucollect.Master
open Library

/-- A length that does not fit into the word raises an exception. -/
def formatString (string : Bytes) : Option Bytes :=
  if string.length < 2 ^ 32 then some (word32 string.length ++ string) else none

/-- A change asks the client to switch one of its plugins. -/
structure Change where
  name : Bytes
  hash : Bytes
  activate : Bool
  deriving DecidableEq, Repr

/-- A packed string of 16 bytes is cut or filled with zeros. -/
def packHash (hash : Bytes) : Bytes := (hash ++ List.replicate 16 0).take 16

def packChange (change : Change) : Option Bytes :=
  (formatString change.name).map fun name =>
    name ++ packHash change.hash ++ [letter (if change.activate then 'A' else 'I')]

def packChanges : List Change → Option Bytes
  | [] => some []
  | change :: changes =>
    (packChange change).bind fun first => (packChanges changes).map fun rest => first ++ rest

/-- This is the message `A` without its letter. -/
def activationMessage (changes : List Change) : Option Bytes :=
  if changes.length < 2 ^ 32 then
    (packChanges changes).map fun records => word32 changes.length ++ records
  else none

/-- A row of the table may leave the version or the hash open. -/
structure KnownPlugin where
  name : Bytes
  version : Option Nat
  hash : Option Bytes
  deriving DecidableEq, Repr

def checkVersion (table : List KnownPlugin) (name : Bytes) (version : Nat) (hash : Bytes) : Bool :=
  [(some version, some hash), (none, some hash), (some version, none), (none, none)].any
    fun (version, hash) => table.contains ⟨name, version, hash⟩

/-- The hash is compared in its hexadecimal form. -/
def Version.required (version : Version) (table : List KnownPlugin) : Bool :=
  checkVersion table version.name version.version (encodeHex version.hash)

def Plugins.deactivateEach (routing : Plugins) (index : Nat) (cid : Bytes)
    (names : List Bytes) : Plugins :=
  names.foldl (fun routing plugin => routing.deactivateClient plugin index cid) routing

def Plugins.activateEach (routing : Plugins) (index : Nat) (cid : Bytes)
    (names : List Bytes) : Plugins :=
  names.foldl (fun routing plugin => routing.activateClient plugin index cid) routing

/-- The version of the plugin differs from the one that was known before. -/
def versionChanged (versions known : List Version) (name : Bytes) : Bool :=
  (versions.find? (·.name == name)).map Version.version !=
    (known.find? (·.name == name)).map Version.version

/-- The server asks for these changes in an order of its own. -/
def requiredChanges (table : List KnownPlugin) (versions : List Version) : List Change :=
  (versions.filter fun version => version.required table != version.activity).map fun version =>
    ⟨version.name, version.hash, version.required table⟩

def Version.settle (version : Version) (table : List KnownPlugin) : Version :=
  { version with activity := version.required table }

/-- This is `__check_versions` without the message.
A plugin that the routing does not have raises an exception. -/
def Plugins.checkVersions (routing : Plugins) (index : Nat) (cid : Bytes)
    (table : List KnownPlugin) (known versions : List Version) : Option Plugins :=
  let nowActive := (versions.filter (·.required table)).map Version.name
  let prevActive := (known.filter (·.activity)).map Version.name
  let dropped := prevActive.filter (· ∉ nowActive)
  let replaced := prevActive.filter fun name =>
    name ∈ nowActive && versionChanged versions known name
  let added := nowActive.filter (· ∉ prevActive)
  if (dropped ++ replaced ++ added).all (· ∈ routing.plugins) then
    some (((routing.deactivateEach index cid dropped).deactivateEach index cid
      replaced).activateEach index cid (added ++ replaced))
  else none

end Ucollect.Master
