import Ucollect.Library.Bytes
import Ucollect.Library.Program
import Ucollect.Construction.Core.Timeouts

/-
This file models the uplink of core/uplink.c with the parts of core/loop.c that it calls and
that call it.
-/

namespace Ucollect.Core
open Library

def pingTimeoutTime : Nat := 60000
def pingCount : Nat := 2
def reconnectBase : Nat := 2000
def reconnectMax : Nat := 300000
def reconnectMultiply : Nat := 2
def reconnectAuth : Nat := 600000
def reconnTime : Nat := 1000
def loginFailureLimit : Nat := 10
def compressionBuffsize : Nat := 1024
def protocolVersion : UInt8 := 1
def halfSize : Nat := 16
/-- The crypto chip takes a half of the password and a challenge of the same length. -/
def challengeBytes : Nat := 32
def hashSize : Nat := 16
def readLimit : Nat := 50
def lengthSize : Nat := 4

inductive AuthStatus where
  | authenticated
  | sent
  | notStarted
  | failed
  deriving DecidableEq, Repr

/-- A call of `inflate` leaves a rest of the input and writes some output. -/
structure Inflated (Z : Type) where
  state : Z
  rest : Bytes
  output : Bytes
  corrupted : Bool

/-- The library zlib is a parameter with its own type of stream states. -/
structure Inflater (Z : Type) where
  reset : Z → Z
  inflate : Z → Bytes → Nat → Inflated Z

/-- The callbacks of other parts of the program never touch the timeouts of the uplink. -/
inductive Callback where
  | sendPing
  | reconnectNow
  | other
  deriving DecidableEq, Repr

structure Plugin where
  name : Bytes
  version : Nat
  hash : Bytes
  libname : Bytes
  active : Bool
  deriving DecidableEq, Repr

/-- A message is sent completely, or the connection is lost, or the error is a fatal one. -/
inductive Delivery where
  | delivered
  | lost
  | fatal
  deriving DecidableEq, Repr

/-- A plugin callback may send data, use its timeouts and fail. -/
inductive PluginAction where
  | send (data : Bytes) (delivery : Delivery)
  | addTimeout (after : Nat)
  | cancelTimeout (id : Nat)
  | fail
  deriving DecidableEq, Repr

/-- What one read from the socket gives. -/
inductive Recv where
  | ready (amount : Nat)
  | interrupted
  | reset
  | fatal
  deriving DecidableEq, Repr

/-- The world chooses how the calls of one event end. -/
structure World where
  depth : Nat
  sends : List Delivery
  callbacks : List (List PluginAction)
  disconnects : List (List PluginAction)
  recv : Recv
  connects : Bool
  chip : Option (Bytes × Bytes)
  garbage : Bytes
  processId : Nat

/-- These are the fields of `struct uplink` that the modelled functions use. -/
structure Uplink (Z : Type) where
  remoteName : Option Bytes
  service : Option Bytes
  login : Option Bytes
  password : Option Bytes
  cert : Option Bytes
  buffer : Option Bytes
  bufferSize : Nat
  sizeRest : Nat
  hasSize : Bool
  reconnectTimeout : Nat
  pingTimeout : Nat
  pingsUnanswered : Nat
  pingScheduled : Bool
  reconnectScheduled : Bool
  seenData : Bool
  reconnectId : Nat
  isOpen : Bool
  lastConnect : Nat
  authStatus : AuthStatus
  loginFailureCount : Nat
  inflateState : Z
  availIn : Bytes

/-- The kernel holds the bytes that arrived and were not read. -/
structure Socket where
  unread : Bytes
  closed : Bool
  deriving DecidableEq, Repr

structure SentMessage where
  type : UInt8
  data : Bytes
  deriving DecidableEq, Repr

/-- A turn of the reading loop takes input or handles a complete buffer. -/
inductive Turn where
  | received (chunk : Option Bytes)
  | handled
  | interrupted
  deriving DecidableEq, Repr

/-- The history of a connection is not a part of the program. -/
structure History where
  turns : List Turn
  received : Bytes
  decoded : Bytes
  dispatched : List Bytes
  deriving DecidableEq, Repr

/-- The loop of `uplink_read` has a number of turns left. -/
inductive ReadPhase where
  | idle
  | receiving (limit : Nat)
  | handling (limit : Nat)
  deriving DecidableEq, Repr

structure System (Z : Type) where
  now : Nat
  timers : Timers Callback
  plugins : List Plugin
  uplink : Uplink Z
  socket : Socket
  phase : ReadPhase
  world : World
  sentMessages : List SentMessage
  routed : List (Bytes × Bytes)
  history : History

/-- These assertions of the program guard the reconnecting. -/
inductive Assertion where
  | connectWhileOpen
  | connectFailWhileScheduled
  | closedWhileScheduled
  | timeoutMissing
  deriving DecidableEq, Repr

inductive Death where
  | assertion (failed : Assertion)
  | die
  | sanity
  | signal
  | stackExhausted
  | hang
  deriving DecidableEq, Repr

/-- A failed plugin jumps to the loop, and everything else that stops the program kills it. -/
inductive Exit where
  | jump
  | died (death : Death)
  deriving DecidableEq, Repr

/-- A part of the loop that may die or jump out. -/
abbrev LoopM (Z : Type) := Program Exit (System Z)

variable {Z : Type}

def modifyUplink (update : Uplink Z → Uplink Z) : LoopM Z Unit :=
  modify fun system => { system with uplink := update system.uplink }

def modifyHistory (update : History → History) : LoopM Z Unit :=
  modify fun system => { system with history := update system.history }

def setPhase (phase : ReadPhase) : LoopM Z Unit :=
  modify fun system => { system with phase := phase }

def setActive (index : Nat) (active : Bool) : LoopM Z Unit :=
  modify fun system => { system with
    plugins := system.plugins.modify index fun plugin => { plugin with active := active } }

def takeSend : LoopM Z Delivery :=
  get >>= fun system =>
    set { system with world := { system.world with sends := system.world.sends.tail } } >>=
      fun _ => pure (system.world.sends.headD .delivered)

def takeCallback : LoopM Z (List PluginAction) :=
  get >>= fun system =>
    set { system with
      world := { system.world with callbacks := system.world.callbacks.tail } } >>=
      fun _ => pure (system.world.callbacks.headD [])

def takeDisconnect : LoopM Z (List PluginAction) :=
  get >>= fun system =>
    set { system with
      world := { system.world with disconnects := system.world.disconnects.tail } } >>=
      fun _ => pure (system.world.disconnects.headD [])

def loopTimeoutAdd (after : Nat) (callback : Callback) : LoopM Z Nat :=
  get >>= fun system =>
    match system.timers.add .wide system.now after callback with
    | none => throw (.died .hang)
    | some (id, timers) => set { system with timers := timers } >>= fun _ => pure id

def loopTimeoutCancel (id : Nat) : LoopM Z Unit :=
  get >>= fun system =>
    match system.timers.cancel id with
    | none => throw (.died (.assertion .timeoutMissing))
    | some timers => set { system with timers := timers }

/-- This is `uplink_render_string`. -/
def renderString (string : Bytes) : Bytes := word32 string.length ++ string

/-- This is `uplink_parse_string` for a `size_t` of 64 bits. -/
def uplinkParseString (buffer : Bytes) : Option (Bytes × Bytes) :=
  if buffer.length < lengthSize then none
  else
    let length := bigEndian (buffer.take lengthSize)
    if buffer.length < length + lengthSize then none
    else some ((buffer.drop lengthSize).take length, buffer.drop (length + lengthSize))

/-- A string of the language C ends before its first zero byte. -/
def cString (bytes : Bytes) : Bytes := bytes.takeWhile (· ≠ 0)

section Sending

-- A function that sends takes the way to reconnect after a lost connection.
variable (reconnect : LoopM Z Unit)

def uplinkSendMessage (type : UInt8) (data : Bytes) (delivery : Delivery) : LoopM Z Bool :=
  get >>= fun system =>
    if system.uplink.isOpen then
      match delivery with
      | .delivered =>
        modify (fun system => { system with
          sentMessages := system.sentMessages ++ [⟨type, data⟩] }) >>= fun _ => pure true
      | .lost => reconnect >>= fun _ => pure false
      | .fatal => throw (.died .die)
    else pure false

/-- The program itself sends a message that is not from a plugin. -/
def sendOwnMessage (type : UInt8) (data : Bytes) : LoopM Z Unit :=
  takeSend >>= fun delivery => uplinkSendMessage reconnect type data delivery >>= fun _ => pure ()

def uplinkPluginSendMessage (owner : Nat) (data : Bytes) (delivery : Delivery) : LoopM Z Unit :=
  get >>= fun system =>
    match system.plugins[owner]? with
    | none => pure ()
    | some plugin =>
      if plugin.active then
        uplinkSendMessage reconnect (letter 'R') (renderString plugin.name ++ data) delivery >>=
          fun _ => pure ()
      else pure ()

/-- A plugin cancels only timeouts that are pending and not those of the uplink. -/
def pluginAction (owner : Nat) : PluginAction → LoopM Z Unit
  | .send data delivery => uplinkPluginSendMessage reconnect owner data delivery
  | .addTimeout after => loopTimeoutAdd after .other >>= fun _ => pure ()
  | .cancelTimeout id =>
    get >>= fun system =>
      Program.when (system.timers.timeouts.any fun timeout =>
        timeout.id == id && timeout.callback == .other) (loopTimeoutCancel id)
  | .fail => throw .jump

/-- The actions of a plugin callback, in order. -/
def runScript (owner : Nat) (script : List PluginAction) : LoopM Z Unit :=
  Program.each script (pluginAction reconnect owner)

/-- The loop calls a callback of a plugin. -/
def runCallback (owner : Nat) : LoopM Z Unit :=
  takeCallback >>= fun script => runScript reconnect owner script

/-- The plugin is still active while its callback runs. -/
def disconnectPlugin (index : Nat) : LoopM Z Unit :=
  get >>= fun system =>
    Program.when (system.plugins[index]?.any (·.active))
      (takeDisconnect >>= fun script => runScript reconnect index script) >>=
    fun _ => setActive index false

def loopUplinkDisconnected : LoopM Z Unit :=
  get >>= fun system =>
    Program.each (List.range system.plugins.length) (disconnectPlugin reconnect)

end Sending

def Uplink.bufferReset (uplink : Uplink Z) : Uplink Z :=
  { uplink with bufferSize := 0, sizeRest := 0, buffer := none, hasSize := false }

def bufferReset : LoopM Z Unit := modifyUplink Uplink.bufferReset

/-- A closed socket has nothing to read. -/
def closeConnection : LoopM Z Unit :=
  modify fun system => { system with
    uplink := { system.uplink with isOpen := false }.bufferReset
    socket := ⟨[], false⟩ }

def cancelPing : LoopM Z Unit :=
  get >>= fun system =>
    Program.when system.uplink.pingScheduled (loopTimeoutCancel system.uplink.pingTimeout) >>=
    fun _ => modifyUplink fun uplink => { uplink with pingScheduled := false }

def cancelReconnect : LoopM Z Unit :=
  get >>= fun system =>
    loopTimeoutCancel system.uplink.reconnectId >>= fun _ =>
      modifyUplink fun uplink => { uplink with reconnectScheduled := false }

def uplinkDisconnect (reconnect : LoopM Z Unit) (resetReconnect : Bool) : LoopM Z Unit :=
  get >>= fun system =>
    Program.when (system.uplink.reconnectScheduled && resetReconnect) cancelReconnect >>= fun _ =>
      get >>= fun system =>
        Program.when system.uplink.isOpen
          (loopUplinkDisconnected reconnect >>= fun _ => closeConnection >>= fun _ => cancelPing)

def scheduleReconnect (after : Nat) : LoopM Z Unit :=
  loopTimeoutAdd after .reconnectNow >>= fun id =>
    modifyUplink fun uplink => { uplink with reconnectId := id, reconnectScheduled := true }

/-- The callbacks of a disconnect may lose the connection again, which needs more of the stack. -/
def uplinkReconnect : Nat → LoopM Z Unit
  | 0 => throw (.died .stackExhausted)
  | depth + 1 =>
    get >>= fun system =>
      Program.when (!system.uplink.reconnectScheduled) (scheduleReconnect 0) >>= fun _ =>
        uplinkDisconnect (uplinkReconnect depth) false

/-- The event starts with the whole stack. -/
def reconnectFromEvent : LoopM Z Unit :=
  get >>= fun system => uplinkReconnect system.world.depth

/-- A rejected login waits longer, and other attempts wait twice as long as before. -/
def Uplink.connectFailed (uplink : Uplink Z) : Uplink Z :=
  if uplink.authStatus = .failed then
    { uplink with authStatus := .notStarted, reconnectTimeout := reconnectAuth }
  else if uplink.reconnectTimeout ≠ 0 then
    { uplink with reconnectTimeout := min (uplink.reconnectTimeout * reconnectMultiply) reconnectMax }
  else
    { uplink with reconnectTimeout := reconnectBase }

/-- A failed attempt schedules the next one, later each time. -/
def connectFail : LoopM Z Unit :=
  get >>= fun system =>
    if system.uplink.reconnectScheduled then
      throw (.died (.assertion .connectFailWhileScheduled))
    else
      modifyUplink Uplink.connectFailed >>= fun _ =>
        get >>= fun system => scheduleReconnect system.uplink.reconnectTimeout

def schedulePing : LoopM Z Unit :=
  loopTimeoutAdd pingTimeoutTime .sendPing >>= fun id =>
    modifyUplink fun uplink => { uplink with pingTimeout := id, pingScheduled := true }

/-- The reset of the decompression keeps the input that was not read by it. -/
def openConnection (inflater : Inflater Z) : LoopM Z Unit :=
  modify (fun system => { system with
    uplink := { system.uplink with
      isOpen := true
      authStatus := .notStarted
      reconnectTimeout := if system.uplink.seenData then 0 else system.uplink.reconnectTimeout
      seenData := false
      pingsUnanswered := 0
      inflateState := inflater.reset system.uplink.inflateState }
    socket := ⟨[], false⟩
    history := ⟨[], [], [], []⟩ }) >>= fun _ => schedulePing

def uplinkConnect (inflater : Inflater Z) : LoopM Z Unit :=
  get >>= fun system =>
    if system.uplink.isOpen then
      throw (.died (.assertion .connectWhileOpen))
    else if system.uplink.lastConnect + reconnTime > system.now then connectFail
    else if system.uplink.loginFailureCount ≥ loginFailureLimit then throw (.died .die)
    else
      modifyUplink (fun uplink => { uplink with
        loginFailureCount := uplink.loginFailureCount + 1, lastConnect := system.now }) >>= fun _ =>
      if system.world.connects then openConnection inflater else connectFail

def reconnectNow (inflater : Inflater Z) : LoopM Z Unit :=
  modifyUplink (fun uplink => { uplink with reconnectScheduled := false }) >>= fun _ =>
    uplinkConnect inflater

/-- A lost ping still schedules the next one. -/
def sendPing : LoopM Z Unit :=
  modifyUplink (fun uplink => { uplink with pingScheduled := false }) >>= fun _ =>
    get >>= fun system =>
      if system.uplink.pingsUnanswered ≥ pingCount then
        reconnectFromEvent >>= fun _ =>
          modifyUplink fun uplink => { uplink with pingsUnanswered := 0 }
      else
        modifyUplink (fun uplink => { uplink with
          pingsUnanswered := uplink.pingsUnanswered + 1 }) >>= fun _ =>
        sendOwnMessage reconnectFromEvent (letter 'P') [] >>= fun _ => schedulePing

end Ucollect.Core
