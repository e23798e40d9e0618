import Ucollect.Construction.Fake.Log
import Ucollect.Construction.Fake.Telnet

/-
This file models the configuration of the fake servers in plugins/fake/main.c.
-/

namespace Ucollect.Fake
open Library

section Numbers

def isSpace (byte : UInt8) : Bool := byte == 32 || (9 ≤ byte && byte ≤ 13)

def isDigit (byte : UInt8) : Bool := 48 ≤ byte && byte ≤ 57

def digits (text : Bytes) : Nat :=
  text.foldl (fun number byte => 10 * number + (byte.toNat - 48)) 0

/-- This is `strtol` with base ten and the rest of the text at its `end` pointer.
A value beyond a `long` is out of every range that the plugin accepts. -/
def strtol (text : Bytes) : Int × Bytes :=
  let body := text.dropWhile isSpace
  let (negative, body) : Bool × Bytes :=
    match body with
    | byte :: rest =>
      if byte = letter '-' then (true, rest) else if byte = letter '+' then (false, rest)
      else (false, body)
    | [] => (false, [])
  let number := digits (body.takeWhile isDigit)
  if (body.takeWhile isDigit).isEmpty then (0, text)
  else (if negative then - number else number, body.dropWhile isDigit)

end Numbers

section Sockets

/-- The descriptors of the process have numbers and refer to sockets.
A socket is known by its place among all sockets, and the list of closed sockets is a ghost. -/
structure Sockets where
  opened : List (Nat × Nat)
  registered : List Nat
  next : Nat
  closed : List Nat

/-- The kernel takes the lowest number that is free. -/
def Sockets.lowest (sockets : Sockets) : Nat :=
  ((List.range (sockets.opened.length + 1)).find? fun number =>
    !(sockets.opened.map Prod.fst).contains number).getD 0

/-- This is `socket` with `loop_plugin_register_fd`. -/
def Sockets.create (sockets : Sockets) : Sockets where
  opened := sockets.opened ++ [(sockets.lowest, sockets.next)]
  registered := sockets.registered ++ [sockets.lowest]
  next := sockets.next + 1
  closed := sockets.closed

/-- This is `loop_plugin_unregister_fd` with `close`. -/
def Sockets.release (sockets : Sockets) (fd : Nat) : Sockets where
  opened := sockets.opened.eraseP fun entry => entry.1 == fd
  registered := sockets.registered.erase fd
  next := sockets.next
  closed := sockets.closed ++
    ((sockets.opened.find? fun entry => entry.1 == fd).map Prod.snd).toList

end Sockets

section Servers

/-- The number minus one of the source is `none`. -/
structure Server where
  name : String
  defaultPort : Nat
  fd : Option Nat
  candidate : Option Nat
  port : Nat
  portCandidate : Nat
  deriving DecidableEq, Repr

/-- The system lets these calls for one server succeed. -/
structure Answer where
  socket : Bool
  bind : Bool
  listen : Bool
  deriving DecidableEq, Repr

abbrev Options := String → Option (List Bytes)

/-- An option that is not present gives the default. -/
def wantedPort (options : Options) (server : Server) : Option Nat :=
  match options (server.name ++ "_port") with
  | none => some server.defaultPort
  | some [value] =>
    if value.isEmpty then none
    else
      match strtol value with
      | (port, rest) =>
        if !rest.isEmpty then none
        else if port < 0 ∨ 65536 ≤ port then none
        else some port.toNat
  | some _ => none

/-- The turn of the loop for one server returns, goes on with a retry, or goes on. -/
inductive Turn where
  | failed
  | retry
  | done
  deriving DecidableEq, Repr

def configServer (options : Options) (answer : Answer) (server : Server) (sockets : Sockets) :
    Server × Sockets × Turn :=
  match wantedPort options server with
  | none => (server, sockets, .failed)
  | some port =>
    if port = server.port ∧ server.fd ≠ none then
      ({ server with candidate := server.fd, portCandidate := port }, sockets, .done)
    else if port ≠ 0 then
      if answer.socket then
        let sock := sockets.lowest
        if !answer.bind then
          ({ server with candidate := none }, sockets.create.release sock, .retry)
        else if !answer.listen then (server, sockets.create.release sock, .failed)
        else
          ({ server with candidate := some sock, portCandidate := port }, sockets.create, .done)
      else (server, sockets, .failed)
    else ({ server with portCandidate := port }, sockets, .done)

/-- This is the loop of `config_internal`, and the numbers tell whether it came to its end and
whether a retry is due. -/
def configServers (options : Options) (answers : Nat → Answer) :
    Nat → List Server → Sockets → List Server × Sockets × Bool × Bool
  | _, [], sockets => ([], sockets, true, false)
  | index, server :: servers, sockets =>
    match configServer options (answers index) server sockets with
    | (server, sockets, .failed) => (server :: servers, sockets, false, false)
    | (server, sockets, turn) =>
      match configServers options answers (index + 1) servers sockets with
      | (servers, sockets, ended, retry) =>
        (server :: servers, sockets, ended, retry || turn == .retry)

/-- The timer for a retry is pending while it is scheduled. -/
structure Plugin where
  servers : List Server
  sockets : Sockets
  logCredentials : Bool
  logCredentialsCandidate : Bool
  configRetryScheduled : Bool
  allowRetries : Nat

def configRetryCount : Nat := 10

def credentials (options : Options) : Option Bool :=
  match options "log_credentials" with
  | none => some false
  | some [value] =>
    match strtol value with
    | (number, rest) => if !rest.isEmpty then none else some (number != 0)
  | some _ => none

def configInternal (options : Options) (answers : Nat → Answer) (plugin : Plugin) :
    Plugin × Bool :=
  match configServers options answers 0 plugin.servers plugin.sockets with
  | (servers, sockets, ended, retry) =>
    let plugin := { plugin with servers, sockets, configRetryScheduled := false }
    if !ended then (plugin, false)
    else
      match credentials options with
      | none => (plugin, false)
      | some candidate =>
        let plugin := { plugin with logCredentialsCandidate := candidate }
        if retry && plugin.allowRetries ≠ 0 then
          ({ plugin with
            configRetryScheduled := true
            allowRetries := plugin.allowRetries - 1 }, true)
        else (plugin, true)

def config (options : Options) (answers : Nat → Answer) (plugin : Plugin) : Plugin × Bool :=
  configInternal options answers { plugin with allowRetries := configRetryCount }

/-- No server has its own callback for a new descriptor. -/
def finishServer (activate : Bool) (server : Server) (sockets : Sockets) : Server × Sockets :=
  let finished := { server with portCandidate := 0, candidate := none }
  if activate then
    if server.fd ≠ server.candidate then
      ({ finished with port := server.portCandidate, fd := server.candidate },
        match server.fd with
        | none => sockets
        | some fd => sockets.release fd)
    else (finished, sockets)
  else
    match server.candidate with
    | none => (finished, sockets)
    | some candidate => (finished, sockets.release candidate)

def finishServers (activate : Bool) : List Server → Sockets → List Server × Sockets
  | [], sockets => ([], sockets)
  | server :: servers, sockets =>
    match finishServer activate server sockets with
    | (server, sockets) =>
      match finishServers activate servers sockets with
      | (servers, sockets) => (server :: servers, sockets)

def configFinish (activate : Bool) (plugin : Plugin) : Plugin :=
  match finishServers activate plugin.servers plugin.sockets with
  | (servers, sockets) =>
    { plugin with
      servers, sockets
      logCredentials :=
        if activate && !plugin.servers.isEmpty then plugin.logCredentialsCandidate
        else plugin.logCredentials }

def configRetryNow (options : Options) (answers : Nat → Answer) (plugin : Plugin) : Plugin :=
  match configInternal options answers { plugin with configRetryScheduled := false } with
  | (plugin, success) => configFinish success plugin

end Servers

end Ucollect.Fake

/-
This file models the slots for the connections of the telnet server: the accepting and closing in
plugins/fake/main.c, and the dialogue in plugins/fake/telnet.c.
-/

namespace Ucollect.Fake.Telnet
open Library Core

section Worlds

inductive Callback where
  | inactive (slot : Nat)
  | denial (slot : Nat)
  deriving DecidableEq, Repr

/-- The connection is the number of its socket, and it stands for the addresses. -/
structure FdTag where
  fd : Option Nat
  connection : Nat
  closed : Bool
  inactivityTimeout : Nat
  inactivityTimeoutActive : Bool
  conn : ConnData

/-- This is a call of the log. -/
structure Entry where
  connection : Nat
  type : EventType
  reason : Option String
  username : Option Bytes
  password : Option Bytes
  deriving DecidableEq, Repr

/-- A connection receives a byte, or its denial is over. -/
inductive Input where
  | byte (ch : UInt8)
  | denied
  deriving DecidableEq, Repr

/-- The last fields are not in the source. They list the accepted connections with their slots, the
calls of `conn_closed`, what the connections have read and what they have handled. -/
structure World where
  slots : Nat → FdTag
  sockets : Sockets
  timers : Timers Callback
  now : Nat
  log : List Entry
  accepted : List (Nat × Nat)
  closings : List (Nat × Nat)
  reads : List (Nat × Bytes)
  inputs : List (Nat × Input)

def maxConn : Nat := 20

def connTimeout : Nat := 30000

/-- This is `initialize`, and then the server listens. -/
def World.start : World where
  slots := fun _ => ⟨none, 0, false, 0, false, connAlloc⟩
  sockets := ⟨[(3, 0)], [3], 1, []⟩
  timers := ⟨[], 0⟩
  now := 0
  log := []
  accepted := []
  closings := []
  reads := []
  inputs := []

def World.setTag (world : World) (slot : Nat) (tag : FdTag) : World :=
  { world with slots := Function.update world.slots slot tag }

abbrev World.conn (world : World) (slot : Nat) : ConnData := (world.slots slot).conn

def World.setConn (world : World) (slot : Nat) (conn : ConnData) : World :=
  world.setTag slot { world.slots slot with conn }

def World.setTimers (world : World) (timers : Timers Callback) : World := { world with timers }

def World.addTimeout (world : World) (after : Nat) (callback : Callback) :
    Except Fault (Nat × World) :=
  match world.timers.add .wide world.now after callback with
  | none => .error .timeouts
  | some (id, timers) => .ok (id, world.setTimers timers)

def World.cancelTimeout (world : World) (id : Nat) : Except Fault World :=
  match world.timers.cancel id with
  | none => .error .timeouts
  | some timers => .ok (world.setTimers timers)

def World.note (world : World) (slot : Nat) (input : Input) : World :=
  { world with inputs := world.inputs ++ [((world.slots slot).connection, input)] }

def World.receive (world : World) (slot : Nat) (bytes : Bytes) : World :=
  { world with reads := world.reads ++ [((world.slots slot).connection, bytes)] }

end Worlds

section Closing

def logWrapper (world : World) (slot : Nat) (type : EventType) (reason : Option String)
    (username password : Option Bytes) : World :=
  { world with
    log := world.log ++ [⟨(world.slots slot).connection, type, reason, username, password⟩] }

/-- The number minus one, here `none`, is not registered. -/
def releaseFd (sockets : Sockets) : Option Nat → Sockets
  | none => sockets
  | some fd => sockets.release fd

def connClosed (world : World) (tag : Option Nat) (error : Bool) (reason : Option String) :
    Except Fault World :=
  match tag with
  | none => .error .nullTag
  | some slot => do
    let world := { world with
      closings := world.closings ++ [((world.slots slot).connection, slot)] }
    let world :=
      if (world.slots slot).closed then world
      else logWrapper world slot (if error then .lost else .disconnect) reason none none
    let world := world.setTag slot { world.slots slot with closed := true }
    let world ←
      if (world.slots slot).inactivityTimeoutActive then
        (world.setTag slot { world.slots slot with inactivityTimeoutActive := false }).cancelTimeout
          (world.slots slot).inactivityTimeout
      else .ok world
    let sockets := releaseFd world.sockets (world.slots slot).fd
    .ok ({ world with sockets }.setTag slot { world.slots slot with fd := none })

def doClose (world : World) (slot : Nat) (error : Bool) : Except Fault World := do
  let world ←
    if (world.conn slot).position = .waitDenial then
      world.cancelTimeout (world.conn slot).denialTimeout
    else .ok world
  connClosed world (world.conn slot).tag error (world.conn slot).closeReason

/-- The check is the sanity check of the identifier. -/
def connInactive (world : World) (slot id : Nat) : Except Fault World :=
  if (world.slots slot).inactivityTimeout ≠ id then .error .identifier
  else
    let world := world.setTag slot { world.slots slot with inactivityTimeoutActive := false }
    let world := logWrapper world slot .timeout none none none
    let world := world.setTag slot { world.slots slot with closed := true }
    connClosed world (some slot) false (some "timeout")

def activity (world : World) (slot : Nat) : Except Fault World :=
  if (world.slots slot).closed then .ok world
  else do
    let world ←
      if (world.slots slot).inactivityTimeoutActive then
        world.cancelTimeout (world.slots slot).inactivityTimeout
      else .ok world
    let (id, world) ← world.addTimeout connTimeout (.inactive slot)
    .ok (world.setTag slot
      { world.slots slot with inactivityTimeout := id, inactivityTimeoutActive := true })

end Closing

section Dialogue

/-- This is `conn_log_attempt` after the password was terminated. -/
def logAttempt (world : World) (slot : Nat) : World :=
  logWrapper world slot .login none ((world.conn slot).text .username)
    ((world.conn slot).text .password)

/-- The prompt for the password is sent before the position changes. -/
def processLogin (world : World) (slot : Nat) (sending : Sending) :
    Except Fault (World × Bool) :=
  match (world.conn slot).line with
  | none => .error .missingLogin
  | some (field, offset) => do
    let conn ← (world.conn slot).write field offset 0
    match sendAll (conn.startLine .password) sending with
    | (conn, true) => .ok (world.setConn slot { conn with position := .wantPassword }, true)
    | (conn, false) => .ok (world.setConn slot conn, false)

def processPassword (world : World) (slot : Nat) : Except Fault (World × Bool) := do
  let (id, world) ← world.addTimeout denialTimeout (.denial slot)
  let conn := (world.conn slot).awaitDenial id
  match conn.line with
  | none => .error .missingPassword
  | some (field, offset) => do
    let conn ← conn.write field offset 0
    let world := logAttempt (world.setConn slot conn) slot
    .ok (world.setConn slot { conn with line := none, lineBase := none }, true)

def processLine (world : World) (slot : Nat) (sending : Sending) : Except Fault (World × Bool) :=
  match (world.conn slot).position with
  | .wantLogin => processLogin world slot sending
  | .wantPassword => processPassword world slot
  | .waitDenial => .ok (world, true)

/-- A line feed behind a carriage return ends the line. -/
def lfHandle (world : World) (slot : Nat) (ch : UInt8) (sending : Sending) :
    Except Fault (World × Bool) := do
  let (world, good) ←
    if ch = lineFeed then processLine world slot sending else .ok (world, true)
  if good then .ok (world.setConn slot { world.conn slot with expect := .none }, true)
  else .ok (world, false)

def charHandle (world : World) (slot : Nat) (ch : UInt8) (sending : Sending) :
    Except Fault (World × Bool) :=
  let conn := world.conn slot
  match conn.expect with
  | .cmd =>
    match cmdHandle conn ch sending with
    | (conn, good) => .ok (world.setConn slot conn, good)
  | .opcode =>
    match optionHandle conn sending with
    | (conn, good) => .ok (world.setConn slot conn, good)
  | .params => .ok (world.setConn slot (paramsHandle conn ch), true)
  | .paramsEnd => .ok (world.setConn slot (paramsEndHandle conn ch), true)
  | .lf => lfHandle world slot ch sending
  | .none => do
    let conn ← normalHandle conn ch
    .ok (world.setConn slot conn, true)

/-- Each byte has the answer to the message that it may cause. -/
def charsHandle (world : World) (slot : Nat) : List (UInt8 × Sending) → Except Fault World
  | [] => .ok world
  | (ch, sending) :: rest => do
    let (world, good) ← charHandle (world.note slot (.byte ch)) slot ch sending
    if good then charsHandle world slot rest
    else doClose world slot (world.conn slot).protocolError

/-- These are the answers of `recv`. -/
inductive Receipt where
  | again
  | failed (error : String)
  | closed
  | data (bytes : List (UInt8 × Sending))

/-- A close reason that is there already stays. -/
def ConnData.remoteClosed (conn : ConnData) : ConnData :=
  { conn with closeReason := conn.closeReason <|> some "Closed" }

def telnetData (world : World) (slot : Nat) : Receipt → Except Fault World
  | .again => .ok world
  | .failed error =>
    doClose (world.setConn slot { world.conn slot with closeReason := some error }) slot true
  | .closed => doClose (world.setConn slot (world.conn slot).remoteClosed) slot false
  | .data bytes => charsHandle (world.receive slot (bytes.map Prod.fst)) slot bytes

/-- The tag of the connection is set after the first prompt. -/
def telnetConnSetFd (world : World) (slot : Nat) (sending : Sending) : Except Fault World := do
  let (conn, sent) := sendAll (world.conn slot).reset sending
  let world := world.setConn slot conn
  let world ← if sent then .ok world else doClose world slot true
  .ok (world.setConn slot ((world.conn slot).assign slot))

/-- The denial and the next prompt are sent one after the other. -/
def sendDenial (world : World) (slot : Nat) (denial prompt : Sending) : Except Fault World := do
  let world := world.note slot .denied
  match sendAll (world.conn slot).wantLogin denial with
  | (conn, false) => doClose (world.setConn slot conn) slot true
  | (conn, true) =>
    let conn := conn.countAttempt
    if conn.attempts = maxAttempts then
      doClose (world.setConn slot { conn with closeReason := some "Attempts" }) slot false
    else
      match sendAll (conn.startLine .username) prompt with
      | (conn, true) => .ok (world.setConn slot conn)
      | (conn, false) => doClose (world.setConn slot conn) slot true

end Dialogue

section Runs

/-- An accepted connection gets the number that the kernel chose. -/
def acceptFd (sockets : Sockets) (number : Nat) : Sockets where
  opened := sockets.opened ++ [(number, sockets.next)]
  registered := sockets.registered ++ [number]
  next := sockets.next + 1
  closed := sockets.closed

/-- A connection that is thrown out is not registered. -/
def throwOut (sockets : Sockets) : Sockets :=
  { sockets with next := sockets.next + 1, closed := sockets.closed ++ [sockets.next] }

def World.emptySlot (world : World) : Option Nat :=
  (List.range maxConn).find? fun slot => (world.slots slot).fd.isNone

/-- The number is free, and the first prompt has its answer. -/
def fdAccept (world : World) (number : Nat) (sending : Sending) : Except Fault World :=
  match world.emptySlot with
  | some slot => do
    let world := { world with
      sockets := acceptFd world.sockets number
      accepted := world.accepted ++ [(world.sockets.next, slot)] }.setTag slot
        { world.slots slot with
          fd := some number, connection := world.sockets.next, closed := false }
    let world ← telnetConnSetFd world slot sending
    activity (logWrapper world slot .connect none none none) slot
  | none =>
    .ok { world with
      sockets := throwOut world.sockets
      log := world.log ++ [⟨world.sockets.next, .connectExtra, none, none, none⟩] }

def fdReady (world : World) (slot : Nat) (receipt : Receipt) : Except Fault World := do
  let world ← activity world slot
  telnetData world slot receipt

/-- The clock moves by the time that the loop waits. -/
inductive Event where
  | accept (number : Nat) (sending : Sending)
  | ready (slot : Nat) (receipt : Receipt)
  | fire (denial prompt : Sending)
  | wait (milliseconds : Nat)

/-- The first timeout fires when it is due. A number in use is not given to another socket, and only
a registered descriptor is ready. -/
def step (world : World) : Event → Except Fault World
  | .accept number sending =>
    if number ∈ world.sockets.opened.map Prod.fst then .ok world
    else fdAccept world number sending
  | .ready slot receipt =>
    match (world.slots slot).fd with
    | none => .ok world
    | some fd =>
      if fd ∈ world.sockets.registered then fdReady world slot receipt else .ok world
  | .fire denial prompt =>
    match world.timers.timeouts with
    | [] => .ok world
    | timeout :: rest =>
      if timeout.due ≤ world.now then
        let world := world.setTimers { world.timers with timeouts := rest }
        match timeout.callback with
        | .inactive slot => connInactive world slot timeout.id
        | .denial slot => sendDenial world slot denial prompt
      else .ok world
  | .wait milliseconds => .ok { world with now := world.now + milliseconds }

def run (world : World) : List Event → Except Fault World
  | [] => .ok world
  | event :: events => do
    let world ← step world event
    run world events

end Runs

end Ucollect.Fake.Telnet
