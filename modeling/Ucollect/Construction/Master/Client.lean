import Ucollect.Library.Bytes

/-
This file models the connection of one client in master/client.py.
-/

namespace Ucollect.Master
open Library

def hexDigit (digit : Nat) : UInt8 :=
  if digit < 10 then (48 + digit).toUInt8 else (87 + digit).toUInt8

/-- This is `string.encode('hex')`. -/
def encodeHex (string : Bytes) : Bytes :=
  string.flatMap fun byte => [hexDigit (byte.toNat / 16), hexDigit (byte.toNat % 16)]

/-- A buffer without a complete length raises an exception, a short string does not. -/
def extractString (buffer : Bytes) : Option (Bytes × Bytes) :=
  if buffer.length < 4 then none
  else
    let length := bigEndian (buffer.take 4)
    some ((buffer.drop 4).take length, buffer.drop (length + 4))

/-- The server knows this about a plugin of a client. -/
structure Version where
  name : Bytes
  version : Nat
  hash : Bytes
  activity : Bool
  lib : Bytes
  deriving DecidableEq, Repr

/-- A dictionary has one value for a name. -/
def insertVersion (versions : List Version) (version : Version) : List Version :=
  if versions.any (·.name == version.name) then
    versions.map fun other => if other.name = version.name then version else other
  else versions ++ [version]

/-- These fields of a record stand between the two strings. -/
def unpackVersion (params : Bytes) : Option (Nat × Bytes × Bytes) :=
  if params.length < 18 then none
  else some (bigEndian (params.take 2), (params.drop 2).take 16, params.drop 18)

/-- A record ends with the letter of its activity. -/
def readVersion (params : Bytes) : Option (Version × Bytes) :=
  (extractString params).bind fun (name, params) =>
    (unpackVersion params).bind fun (version, hash, params) =>
      (extractString params).bind fun (lib, params) =>
        match params with
        | [] => none
        | activity :: params => some (⟨name, version, hash, activity == letter 'A', lib⟩, params)

/-- The fuel is the length of the message, and every record has some bytes. -/
def readVersions : Nat → Bytes → List Version → Option (List Version)
  | _, [], versions => some versions
  | 0, _ :: _, _ => none
  | fuel + 1, byte :: params, versions =>
    (readVersion (byte :: params)).bind fun (version, params) =>
      readVersions fuel params (insertVersion versions version)

/-- This is the loop of `__handle_versions`. -/
def handledVersions (params : Bytes) : Option (List Version) :=
  readVersions params.length params []

/-- A client of the first version of the protocol lists names with the versions of the plugins. -/
def availablePlugins : Nat → Bytes → Option (List (Bytes × Nat))
  | _, [] => some []
  | 0, _ :: _ => none
  | fuel + 1, byte :: params =>
    (extractString (byte :: params)).bind fun (name, params) =>
      if params.length < 2 then none
      else (availablePlugins fuel (params.drop 2)).map fun available =>
        (name, bigEndian (params.take 2)) :: available

/-- These are the fields of a connection that the login and the routing of messages use. -/
structure ClientConn where
  addrName : Bytes
  pingsOutstanding : Nat
  loggedIn : Bool
  authenticated : Bool
  ownCid : Option Bytes
  authBuffer : Option (List Bytes)
  waitAuth : Bool
  challenge : Option Bytes
  protoVersion : Nat
  sessionId : Option Nat
  connected : Bool
  deriving DecidableEq

/-- These are the fields after the challenge is sent. -/
def ClientConn.connectionMade (addrName challenge : Bytes) : ClientConn where
  addrName := addrName
  pingsOutstanding := 0
  loggedIn := false
  authenticated := false
  ownCid := none
  authBuffer := some []
  waitAuth := false
  challenge := some challenge
  protoVersion := 0
  sessionId := none
  connected := true

/-- An empty identifier counts as no identifier. -/
def ClientConn.cid (conn : ClientConn) : Bytes :=
  match conn.ownCid with
  | none => conn.addrName
  | some cid => if cid = [] then conn.addrName else cid

/-- The call of `register_client` and of the following activations ends in one of three ways.
The other calls of the routing, which a message with data or with versions makes, may only raise. -/
inductive Registration where
  | refused
  | accepted
  | raised
  deriving DecidableEq

/-- A record is something that the connection does or an answer that it gets. -/
inductive Record where
  | send (message : Bytes)
  | auth (cid challenge response : Bytes)
  | answered (cid : Bytes) (allowed : Bool)
  | registerClient (cid : Bytes)
  | login (cid : Bytes)
  | routeToPlugin (plugin data cid : Bytes)
  | handleVersions (params cid : Bytes)
  | unregisterClient (cid : Bytes)
  | abortConnection
  deriving DecidableEq

/-- A call leaves the fields as they are when it raises an exception. -/
structure Received where
  conn : ClientConn
  records : List Record
  raised : Bool

def Received.returned (conn : ClientConn) (records : List Record) : Received :=
  ⟨conn, records, false⟩

def Received.exception (conn : ClientConn) (records : List Record) : Received :=
  ⟨conn, records, true⟩

def ClientConn.loginFailure (conn : ClientConn) : Received :=
  .returned { conn with challenge := none } [.send [letter 'F']]

/-- A login message names a scheme, an identifier and a response. -/
structure Login where
  version : UInt8
  cid : Bytes
  response : Bytes
  rest : Bytes

def parseLogin (params : Bytes) : Option Login :=
  match params with
  | [] => none
  | version :: params =>
    match extractString params with
    | none => none
    | some (cid, params) =>
      match extractString params with
      | none => none
      | some (response, rest) => some ⟨version, cid, response, rest⟩

/-- The identifier is stored in the form that the authenticator gets. -/
def Login.storedCid (login : Login) : Bytes :=
  if login.version = letter 'O' then encodeHex login.cid else login.cid

/-- This part of `stringReceived` handles the message `L`. -/
def ClientConn.receiveLogin (conn : ClientConn) (params : Bytes) : Received :=
  match parseLogin params with
  | none => .exception conn []
  | some login =>
    let conn := { conn with ownCid := some login.storedCid }
    if login.rest ≠ [] then conn.loginFailure
    else if login.version ≠ letter 'O' then conn.loginFailure
    else match conn.challenge with
      | none => .returned conn []
      | some challenge =>
        if challenge = [] then .returned conn []
        else .returned { conn with waitAuth := true }
          [.auth login.storedCid (encodeHex challenge) (encodeHex login.response)]

/-- A client of the first version does not say its version. -/
def ClientConn.readProtoVersion (conn : ClientConn) (params : Bytes) : ClientConn :=
  match params with
  | [] => conn
  | version :: _ => { conn with protoVersion := version.toNat }

/-- This part of `stringReceived` handles the message `H`. -/
def ClientConn.receiveHello (conn : ClientConn) (registration : Registration)
    (params : Bytes) : Received :=
  if conn.authenticated then
    let conn := conn.readProtoVersion params
    match registration with
    | .refused => .returned conn [.registerClient conn.cid]
    | .accepted => .returned { conn with loggedIn := true }
        [.registerClient conn.cid, .login conn.cid]
    | .raised => .exception conn [.registerClient conn.cid]
  else conn.loginFailure

/-- A plugin that the routing does not have raises an exception, and the plugin itself may raise one. -/
def ClientConn.calls (conn : ClientConn) (registration : Registration) (record : Record) :
    Received :=
  match registration with
  | .raised => .exception conn [record]
  | _ => .returned conn [record]

/-- This part of `stringReceived` handles the messages after the login. -/
def ClientConn.receiveLoggedIn (conn : ClientConn) (registration : Registration) (message : UInt8)
    (params : Bytes) : Received :=
  if message = letter 'P' then .returned conn [.send (letter 'p' :: params)]
  else if message = letter 'p' then .returned { conn with pingsOutstanding := 0 } []
  else if message = letter 'R' then
    match extractString params with
    | none => .exception conn []
    | some (plugin, data) => conn.calls registration (.routeToPlugin plugin data conn.cid)
  else if message = letter 'V' then
    if conn.protoVersion = 0 then
      match availablePlugins params.length params with
      | none => .exception conn []
      | some _ => .returned conn []
    else
      match handledVersions params with
      | none => .exception conn []
      | some _ => conn.calls registration (.handleVersions params conn.cid)
  else .returned conn []

/-- The buffer is gone after the first answer, so a second wait raises an exception. -/
def ClientConn.stringReceived (conn : ClientConn) (registration : Registration)
    (string : Bytes) : Received :=
  if conn.waitAuth then
    match conn.authBuffer with
    | none => .exception conn []
    | some buffer => .returned { conn with authBuffer := some (buffer ++ [string]) } []
  else
    match string with
    | [] => .exception conn []
    | message :: params =>
      if conn.loggedIn then conn.receiveLoggedIn registration message params
      else if message = letter 'L' then conn.receiveLogin params
      else if message = letter 'H' then conn.receiveHello registration params
      else if message = letter 'S' ∧ params.length = 4 then
        .returned { conn with sessionId := some (bigEndian params) } []
      else .returned conn []

/-- The loop over the buffered messages is at some position while it runs. -/
structure Session where
  conn : ClientConn
  pending : List Bytes
  replaying : Option Nat
  trace : List Record
  deriving DecidableEq

def Session.start (addrName challenge : Bytes) : Session where
  conn := .connectionMade addrName challenge
  pending := []
  replaying := none
  trace := [.send (letter 'C' :: challenge)]

/-- The requests of these records wait for an answer. -/
def requested (records : List Record) : List Bytes :=
  records.filterMap fun record => match record with
    | .auth cid _ _ => some cid
    | _ => none

def Session.apply (session : Session) (received : Received) : Session :=
  { session with
    conn := received.conn
    pending := session.pending ++ requested received.records
    trace := session.trace ++ received.records }

/-- This is `auth_finished` up to the loop over the buffered messages. -/
def Session.authFinished (session : Session) (cid : Bytes) (allowed : Bool) : Session :=
  let conn := { session.conn with waitAuth := false }
  let session := { session with trace := session.trace ++ [Record.answered cid allowed] }
  if allowed then
    { session with
      conn := { conn with authenticated := true }
      replaying := conn.authBuffer.map fun _ => 0 }
  else
    let session := session.apply conn.loginFailure
    { session with conn := { session.conn with authBuffer := none } }

/-- One turn of the loop handles one message or leaves the loop. -/
def Session.replay (session : Session) (position : Nat) (registration : Registration) :
    Session :=
  match (session.conn.authBuffer.getD [])[position]? with
  | none => { session with conn := { session.conn with authBuffer := none }, replaying := none }
  | some message =>
    let received := session.conn.stringReceived registration message
    { session.apply received with
      replaying := if received.raised then none else some (position + 1) }

def ClientConn.connectionLost (conn : ClientConn) : Received :=
  if conn.connected then
    let conn := { conn with connected := false }
    .returned conn (if conn.loggedIn then [.unregisterClient conn.cid, .abortConnection] else [])
  else .returned conn []

def ClientConn.checkLogged (conn : ClientConn) : Received :=
  if conn.connected ∧ ¬ conn.loggedIn then
    .returned { conn with connected := false } [.abortConnection]
  else .returned conn []

def ClientConn.ping (conn : ClientConn) : Received :=
  .returned { conn with pingsOutstanding := conn.pingsOutstanding + 1 }
    ((if conn.pingsOutstanding ≥ 3 then [.abortConnection] else []) ++ [.send [letter 'P']])

inductive Event where
  | message (string : Bytes) (registration : Registration)
  | answer (position : Nat) (allowed : Bool)
  | replay (registration : Registration)
  | connectionLost
  | checkLogged
  | ping
  deriving DecidableEq

/-- No other event happens while the loop over the buffered messages runs. -/
def Session.step (session : Session) (event : Event) : Option Session :=
  match session.replaying, event with
  | some position, .replay registration => some (session.replay position registration)
  | none, .message string registration =>
    some (session.apply (session.conn.stringReceived registration string))
  | none, .answer position allowed =>
    session.pending[position]?.map fun cid =>
      { session with pending := session.pending.eraseIdx position }.authFinished cid allowed
  | none, .connectionLost => some (session.apply session.conn.connectionLost)
  | none, .checkLogged => some (session.apply session.conn.checkLogged)
  | none, .ping =>
    if session.conn.loggedIn ∧ session.conn.connected then
      some (session.apply session.conn.ping)
    else none
  | _, _ => none

def Session.run (session : Session) : List Event → Option Session
  | [] => some session
  | event :: events => (session.step event).bind fun next => next.run events

end Ucollect.Master

/-
This file models master/auth.py with the connections to the authenticator.
-/

namespace Ucollect.Master
open Library

/-- A callback waits for the answer to its line. -/
structure Submission where
  callback : Nat
  line : Bytes
  deriving DecidableEq, Repr

/-- The last two fields are the two directions of the connection.
The authenticator answers the lines in their order, and it may be behind them. -/
structure AuthReceiver where
  queue : List Submission
  pending : List Nat
  received : Nat
  lost : Bool
  sent : List Submission
  answers : List Bytes
  deriving DecidableEq, Repr

structure Invocation where
  callback : Nat
  argument : Bool
  deriving DecidableEq, Repr

/-- The global variables and the factory are one state.
A callback is the position of its line in the list of all submitted lines. -/
structure Auth where
  queue : List Submission
  connecting : Bool
  receiver : Option Nat
  attempts : Nat
  receivers : List AuthReceiver
  lines : List Bytes
  invocations : List Invocation
  deriving DecidableEq, Repr

def Auth.start : Auth where
  queue := []
  connecting := false
  receiver := none
  attempts := 0
  receivers := []
  lines := []
  invocations := []

def AuthReceiver.create (queue : List Submission) : AuthReceiver where
  queue := queue
  pending := []
  received := 0
  lost := false
  sent := []
  answers := []

def AuthReceiver.sendAll (receiver : AuthReceiver) : AuthReceiver :=
  { receiver with
    queue := []
    sent := receiver.sent ++ receiver.queue
    pending := receiver.pending ++ receiver.queue.map Submission.callback }

def AuthReceiver.submit (receiver : AuthReceiver) (submission : Submission) : AuthReceiver :=
  { receiver with queue := receiver.queue ++ [submission] }.sendAll

def yes : Bytes := [letter 'Y', letter 'E', letter 'S']

/-- The callers encode all three fields, so they have no end of a line inside. -/
def requestLine (cid challenge response : Bytes) : Bytes :=
  [letter 'H', letter 'A', letter 'L', letter 'F', letter ' '] ++ encodeHex cid ++ [letter ' '] ++
    encodeHex challenge ++ [letter ' '] ++ encodeHex response

/-- This is `Factory.submit`. -/
def Auth.submit (auth : Auth) (line : Bytes) : Auth :=
  let submission : Submission := ⟨auth.lines.length, line⟩
  let auth := { auth with lines := auth.lines ++ [line] }
  match auth.receiver with
  | some index => { auth with receivers := auth.receivers.modify index (·.submit submission) }
  | none =>
    { auth with
      attempts := if auth.connecting then auth.attempts else auth.attempts + 1
      connecting := true
      queue := auth.queue ++ [submission] }

/-- The protocol is built and connected in one turn of the reactor. -/
def Auth.connected (auth : Auth) : Auth :=
  { auth with
    attempts := auth.attempts - 1
    queue := []
    receivers := auth.receivers ++ [(AuthReceiver.create auth.queue).sendAll]
    receiver := some auth.receivers.length
    connecting := false }

def Auth.invoke (auth : Auth) (callbacks : List Nat) (argument : Bool) : Auth :=
  { auth with
    invocations := auth.invocations ++ callbacks.map fun callback => ⟨callback, argument⟩ }

/-- A line without a waiting callback raises an exception. -/
def Auth.lineReceived (auth : Auth) (index : Nat) (receiver : AuthReceiver) (line : Bytes) :
    Auth :=
  match receiver.pending with
  | [] =>
    { auth with
      receivers := auth.receivers.set index { receiver with received := receiver.received + 1 } }
  | callback :: pending =>
    { auth with
      receivers := auth.receivers.set index
        { receiver with received := receiver.received + 1, pending := pending } }.invoke
      [callback] (line == yes)

def Auth.connectionLost (auth : Auth) (index : Nat) (receiver : AuthReceiver) : Auth :=
  { auth with
    receiver := none
    receivers := auth.receivers.set index { receiver with lost := true } }.invoke
      (receiver.pending ++ receiver.queue.map Submission.callback) false

/-- A callback may submit again, also between the two calls about a lost connection. -/
inductive AuthEvent where
  | submit (cid challenge response : Bytes)
  | clientConnectionFailed
  | connected
  | answer (index : Nat) (line : Bytes)
  | lineReceived (index : Nat)
  | connectionLost (index : Nat)
  | clientConnectionLost
  deriving DecidableEq, Repr

def Auth.step (auth : Auth) : AuthEvent → Option Auth
  | .submit cid challenge response => some (auth.submit (requestLine cid challenge response))
  | .clientConnectionFailed =>
    if auth.attempts = 0 then none
    else some { auth with attempts := auth.attempts - 1, connecting := false }
  | .connected => if auth.attempts = 0 then none else some auth.connected
  | .answer index line =>
    auth.receivers[index]?.bind fun receiver =>
      if receiver.answers.length < receiver.sent.length then
        some { auth with
          receivers := auth.receivers.set index
            { receiver with answers := receiver.answers ++ [line] } }
      else none
  | .lineReceived index =>
    auth.receivers[index]?.bind fun receiver =>
      if receiver.lost then none
      else receiver.answers[receiver.received]?.map (auth.lineReceived index receiver)
  | .connectionLost index =>
    auth.receivers[index]?.bind fun receiver =>
      if receiver.lost then none else some (auth.connectionLost index receiver)
  | .clientConnectionLost => some { auth with connecting := false }

def Auth.run (auth : Auth) : List AuthEvent → Option Auth
  | [] => some auth
  | event :: events => (auth.step event).bind fun next => next.run events

end Ucollect.Master
