import Ucollect.Construction.Core.Uplink

/-
This file models the messages and the reading of core/uplink.c and the events of core/loop.c
that reach the uplink.
-/

namespace Ucollect.Core
open Library

variable {Z : Type}

def Plugin.describe (plugin : Plugin) : Bytes :=
  renderString plugin.name ++ word16 plugin.version ++ plugin.hash ++ renderString plugin.libname ++
    [letter (if plugin.active then 'A' else 'I')]

def sendPluginVersions : LoopM Z Unit :=
  get >>= fun system =>
    sendOwnMessage reconnectFromEvent (letter 'V') (system.plugins.flatMap Plugin.describe)

/-- The first active plugin of the name gets the data. -/
def loopPluginSendData (name data : Bytes) : LoopM Z Bool :=
  get >>= fun system =>
    match system.plugins.findIdx? fun plugin => plugin.name == name && plugin.active with
    | none => pure false
    | some index =>
      modify (fun system => { system with routed := system.routed ++ [(name, data)] }) >>=
        fun _ => runCallback reconnectFromEvent index >>= fun _ => pure true

structure Activation where
  name : Bytes
  hash : Bytes
  activate : Bool
  deriving DecidableEq, Repr

/-- Each plugin has a name, a hash and one more byte. -/
def parseActivations : Nat → Bytes → Option (List Activation)
  | 0, _ => some []
  | amount + 1, buffer =>
    match uplinkParseString buffer with
    | none => none
    | some (name, rest) =>
      if rest.length ≤ hashSize then none
      else
        let activation : Activation :=
          ⟨cString name, rest.take hashSize, rest[hashSize]? == some (letter 'A')⟩
        (parseActivations amount (rest.drop (hashSize + 1))).map (activation :: ·)

/-- The position of the error header is overwritten and the message starts behind it. -/
def activationError (activation : Activation) (garbage : Bytes) : Bytes :=
  (renderString activation.name ++ activation.hash).drop 1 ++ garbage

def activatePlugin (activation : Activation) : LoopM Z Bool :=
  get >>= fun system =>
    match system.plugins.findIdx? fun plugin =>
      plugin.name == activation.name && plugin.hash == activation.hash with
    | none =>
      sendOwnMessage reconnectFromEvent (letter 'E')
        (activationError activation system.world.garbage) >>= fun _ => pure false
    | some index =>
      if system.plugins[index]?.any (·.active == activation.activate) then pure false
      else
        setActive index activation.activate >>= fun _ =>
          runCallback reconnectFromEvent index >>= fun _ => pure true

def activatePlugins : List Activation → Bool → LoopM Z Bool
  | [], changed => pure changed
  | activation :: rest, changed =>
    activatePlugin activation >>= fun now => activatePlugins rest (changed || now)

def loopPluginActivation (activations : List Activation) : LoopM Z Unit :=
  activatePlugins activations false >>= fun changed => Program.when changed sendPluginVersions

/-- The buffer is reset before the callbacks, because they may not return. -/
def handleActivation (params : Bytes) : LoopM Z Unit :=
  if params.length < lengthSize then throw (.died .sanity)
  else
    let amount := bigEndian (params.take lengthSize)
    if amount = 0 then pure ()
    else
      match parseActivations amount (params.drop lengthSize) with
      | none => throw (.died .die)
      | some activations => bufferReset >>= fun _ => loopPluginActivation activations

def handleRoute (params : Bytes) : LoopM Z Unit :=
  modifyUplink (fun uplink => { uplink with loginFailureCount := 0 }) >>= fun _ =>
    match uplinkParseString params with
    | none => throw (.died .die)
    | some (name, data) =>
      bufferReset >>= fun _ =>
        loopPluginSendData (cString name) data >>= fun found =>
          get >>= fun system =>
            Program.when (!found) (sendOwnMessage reconnectFromEvent (letter 'E')
              (letter 'P' :: renderString (cString name) ++ system.world.garbage))

def handleRejection : LoopM Z Unit :=
  uplinkDisconnect reconnectFromEvent true >>= fun _ =>
    modifyUplink (fun uplink => { uplink with authStatus := .failed }) >>= fun _ => connectFail

/-- The challenge is still in the buffer unless the first message lost the connection. -/
def handleChallenge : LoopM Z Unit :=
  get >>= fun system =>
    sendOwnMessage reconnectFromEvent (letter 'S') (word32 system.world.processId) >>= fun _ =>
      get >>= fun system =>
        if halfSize + system.uplink.bufferSize ≠ challengeBytes then throw (.died .sanity)
        else
          match system.world.chip with
          | none => throw (.died .die)
          | some (serial, response) =>
            sendOwnMessage reconnectFromEvent (letter 'L')
              (letter 'O' :: renderString serial ++ renderString response) >>= fun _ =>
            modifyUplink (fun uplink => { uplink with authStatus := .sent }) >>= fun _ =>
            sendOwnMessage reconnectFromEvent (letter 'H') [protocolVersion] >>= fun _ =>
            sendPluginVersions

/-- This is the switch over the commands after the login. -/
def handleCommand (command : UInt8) (params : Bytes) : LoopM Z Unit :=
  if command = letter 'R' then handleRoute params
  else if command = letter 'P' then sendOwnMessage reconnectFromEvent (letter 'p') params
  else if command = letter 'p' then
    modifyUplink fun uplink => { uplink with pingsUnanswered := 0 }
  else if command = letter 'F' then handleRejection
  else if command = letter 'A' then handleActivation params
  else pure ()

/-- Any message that follows the login proves that the server accepted it. -/
def handleMessage (command : UInt8) (params : Bytes) : LoopM Z Unit :=
  get >>= fun system =>
    if system.uplink.authStatus = .authenticated ∨ system.uplink.authStatus = .sent then
      handleCommand command params >>= fun _ =>
        modifyUplink fun uplink => { uplink with authStatus :=
          if uplink.authStatus = .sent then .authenticated else uplink.authStatus }
    else
      Program.when (command == letter 'C' && system.uplink.authStatus == .notStarted)
        handleChallenge

/-- A complete length word makes room for the message, and a complete message is handled. -/
def handleBuffer : LoopM Z Unit :=
  get >>= fun system =>
    let contents := system.uplink.buffer.getD []
    if system.uplink.hasSize then
      modifyHistory (fun history => { history with
        dispatched := history.dispatched ++ [contents] }) >>= fun _ =>
      (match contents with
      | [] => pure ()
      | command :: params =>
        modifyUplink (fun uplink => { uplink with
          buffer := some params, bufferSize := uplink.bufferSize - 1 }) >>= fun _ =>
        handleMessage command params) >>= fun _ => bufferReset
    else
      modifyUplink fun uplink => { uplink with
        bufferSize := bigEndian contents
        sizeRest := bigEndian contents
        buffer := some []
        hasSize := true }

inductive RddStatus where
  | endLoop
  | again
  | data (output : Bytes)

def logTurn (turn : Turn) : LoopM Z Unit :=
  modifyHistory fun history => { history with turns := history.turns ++ [turn] }

/-- The output goes behind the data in the buffer. -/
def inflateOnce (inflater : Inflater Z) : LoopM Z (Option Bytes) :=
  get >>= fun system =>
    let inflated := inflater.inflate system.uplink.inflateState system.uplink.availIn
      system.uplink.sizeRest
    modifyUplink (fun uplink => { uplink with
      inflateState := inflated.state, availIn := inflated.rest }) >>= fun _ =>
    if inflated.corrupted then pure none
    else
      modifyHistory (fun history => { history with
        decoded := history.decoded ++ inflated.output }) >>= fun _ =>
      pure (some inflated.output)

def inflateAgain (inflater : Inflater Z) : LoopM Z RddStatus :=
  inflateOnce inflater >>= fun output =>
    match output with
    | none => reconnectFromEvent >>= fun _ => pure .endLoop
    | some [] => pure .endLoop
    | some (byte :: more) => pure (.data (byte :: more))

/-- The reconnect is scheduled before the disconnect. -/
def closedByRemote : LoopM Z RddStatus :=
  get >>= fun system =>
    if system.uplink.reconnectScheduled then
      throw (.died (.assertion .closedWhileScheduled))
    else
      scheduleReconnect (system.uplink.reconnectTimeout / 1000) >>= fun _ =>
        uplinkDisconnect reconnectFromEvent false >>= fun _ => pure .endLoop

def takeInput (chunk : Bytes) : LoopM Z Unit :=
  modify fun system => { system with
    uplink := { system.uplink with availIn := chunk }
    socket := { system.socket with unread := system.socket.unread.drop chunk.length }
    history := { system.history with received := system.history.received ++ chunk } }

/-- The kernel gives at least one byte and at most as many as fit into the buffer. -/
def Socket.available (socket : Socket) (amount : Nat) : Bytes :=
  socket.unread.take (max 1 (min amount compressionBuffsize))

def receiveInput (inflater : Inflater Z) : LoopM Z RddStatus :=
  get >>= fun system =>
    match system.world.recv with
    | .interrupted => logTurn (.received none) >>= fun _ => pure .again
    | .fatal => throw (.died .die)
    | .reset => logTurn (.received none) >>= fun _ => closedByRemote
    | .ready amount =>
      match system.socket.available amount with
      | [] =>
        logTurn (.received none) >>= fun _ =>
          if system.socket.closed then closedByRemote else pure .endLoop
      | byte :: more =>
        takeInput (byte :: more) >>= fun _ =>
          logTurn (.received (some (byte :: more))) >>= fun _ => inflateAgain inflater

def readDecompressedData (inflater : Inflater Z) : LoopM Z RddStatus :=
  inflateOnce inflater >>= fun output =>
    match output with
    | none => logTurn (.received none) >>= fun _ => reconnectFromEvent >>= fun _ => pure .endLoop
    | some (byte :: more) => logTurn (.received none) >>= fun _ => pure (.data (byte :: more))
    | some [] =>
      get >>= fun system =>
        if system.uplink.availIn = [] then receiveInput inflater
        else logTurn (.received none) >>= fun _ => inflateAgain inflater

/-- A loop without turns left is over. -/
def nextTurn (limit : Nat) : ReadPhase := if limit = 0 then .idle else .receiving limit

def prepareBuffer : LoopM Z Unit :=
  modifyUplink fun uplink => match uplink.buffer with
    | none => { uplink with bufferSize := lengthSize, sizeRest := lengthSize, buffer := some [] }
    | some _ => uplink

/-- This is a turn of the loop of `uplink_read` up to the call of `handle_buffer`. -/
def uplinkReceive (inflater : Inflater Z) (limit : Nat) : LoopM Z Unit :=
  prepareBuffer >>= fun _ =>
    readDecompressedData inflater >>= fun status =>
      match status with
      | .endLoop => setPhase .idle
      | .again => setPhase (nextTurn limit)
      | .data output =>
        modifyUplink (fun uplink => { uplink with
          seenData := true
          buffer := uplink.buffer.map (· ++ output)
          sizeRest := uplink.sizeRest - output.length }) >>= fun _ =>
        get >>= fun system =>
          setPhase (if system.uplink.sizeRest = 0 then .handling limit else nextTurn limit)

/-- This is the rest of the turn. -/
def uplinkHandle (limit : Nat) : LoopM Z Unit :=
  handleBuffer >>= fun _ =>
    logTurn .handled >>= fun _ =>
      get >>= fun system =>
        setPhase (if system.uplink.isOpen then nextTurn limit else .idle)

/-- A stray read on the error socket drops the connection and retries later. -/
def errReadStray : LoopM Z Unit :=
  uplinkDisconnect reconnectFromEvent true >>= fun _ => connectFail

structure Target where
  remoteName : Bytes
  service : Bytes
  login : Option Bytes
  password : Option Bytes
  cert : Option Bytes
  deriving DecidableEq, Repr

/-- The comparison of a string with a null pointer crashes. -/
def sameString (old new : Option Bytes) : Option Bool :=
  match old, new with
  | none, _ => some false
  | some _, none => none
  | some old, some new => some (old == new)

/-- The parentheses of the last comparison also accept every new password without an old one. -/
def Uplink.sameTarget (uplink : Uplink Z) (target : Target) : Option Bool :=
  sameString uplink.remoteName target.remoteName >>= fun remoteName =>
    if !remoteName then some false else
      sameString uplink.service target.service >>= fun service =>
        if !service then some false else
          sameString uplink.cert target.cert >>= fun cert =>
            if !cert then some false else
              (if uplink.login.isNone && target.login.isNone then some true
                else sameString uplink.login target.login) >>= fun login =>
              if !login then some false else
                if uplink.password.isNone then some true
                else sameString uplink.password target.password

def uplinkConfigure (target : Target) : LoopM Z Unit :=
  get >>= fun system =>
    match system.uplink.sameTarget target with
    | none => throw (.died .signal)
    | some same =>
      modifyUplink (fun uplink => { uplink with
        remoteName := some target.remoteName
        service := some target.service
        login := target.login
        password := target.password
        cert := target.cert }) >>= fun _ =>
      Program.when (!same) reconnectFromEvent

def uplinkConnected (uplink : Uplink Z) : Bool :=
  uplink.isOpen && uplink.authStatus == .authenticated

/-- No jump is ready in this part of the program. -/
def unprotected (program : LoopM Z Unit) : LoopM Z Unit :=
  program.handle (throw (.died .signal)) (· == .jump)

/-- A new list of plugins comes with the callbacks that check and accept it. -/
structure Commit where
  checked : List Nat
  finished : List Nat
  target : Option Target
  plugins : List Plugin
  accepted : List Nat
  newVersions : Bool
  deriving DecidableEq, Repr

def configureTarget (target : Option Target) : LoopM Z Unit :=
  match target with
  | none => pure ()
  | some target => uplinkConfigure target

/-- A plugin that fails in its finish callback is removed like the others. -/
def pluginDestroy (index : Nat) : LoopM Z Unit :=
  (runCallback reconnectFromEvent index).handle (pure ()) (· == .jump)

/-- This is `loop_config_commit` with the callbacks around it. -/
def loopConfigCommit (commit : Commit) : LoopM Z Unit :=
  unprotected (Program.each commit.checked (runCallback reconnectFromEvent)) >>= fun _ =>
    Program.each commit.finished pluginDestroy >>= fun _ =>
      unprotected
        (configureTarget commit.target >>= fun _ =>
          modify (fun system => { system with plugins := commit.plugins }) >>= fun _ =>
          Program.each commit.accepted (runCallback reconnectFromEvent) >>= fun _ =>
          get >>= fun system =>
            Program.when (commit.newVersions && uplinkConnected system.uplink) sendPluginVersions)

/-- The recovery from a failed plugin has choices of its own. -/
structure Recovery where
  world : World
  commit : Commit

/-- The failed plugin is removed without its finish callback. -/
def recover (recovery : Recovery) : LoopM Z Unit :=
  get >>= fun system =>
    Program.when (match system.phase with | .handling _ => true | _ => false)
      (logTurn .interrupted) >>= fun _ =>
    modify (fun system => { system with phase := .idle, world := recovery.world }) >>= fun _ =>
      loopConfigCommit { recovery.commit with finished := [], target := none }

/-- The loop catches the jump of a failed plugin. -/
def loopProtect (recovery : Recovery) (program : LoopM Z Unit) : LoopM Z Unit :=
  program.handle (recover recovery) (· == .jump)

def fireTimeout (inflater : Inflater Z) (owner : Nat) (callback : Callback) : LoopM Z Unit :=
  match callback with
  | .sendPing => sendPing
  | .reconnectNow => reconnectNow inflater
  | .other => runCallback reconnectFromEvent owner

inductive Event where
  | arrive (bytes : Bytes)
  | remoteClose
  | loopGetNow (now : Nat)
  | uplinkRead
  | receive (world : World) (recovery : Recovery)
  | handle (world : World) (recovery : Recovery)
  | timeout (owner : Nat) (world : World) (recovery : Recovery)
  | plugin (owner : Nat) (world : World) (recovery : Recovery)
  | strayRead (world : World) (recovery : Recovery)
  | reconfigure (world : World) (commit : Commit)

/-- An event cannot happen now, or the program dies in it. -/
inductive Stop where
  | disabled
  | died (death : Death)
  deriving DecidableEq, Repr

/-- A jump that nothing catches ends the program. -/
def finishEvent (program : LoopM Z Unit) (system : System Z) : Except Stop (System Z) :=
  match program.eval system with
  | (.ok _, system) => .ok system
  | (.error .jump, _) => .error (.died .signal)
  | (.error (.died death), _) => .error (.died death)

def System.withWorld (system : System Z) (world : World) : System Z :=
  { system with world := world }

/-- Only bytes arrive while `uplink_read` runs. -/
def System.step (inflater : Inflater Z) (system : System Z) (event : Event) :
    Except Stop (System Z) :=
  match event, system.phase with
  | .arrive bytes, _ =>
    if system.uplink.isOpen && !system.socket.closed then
      .ok { system with
        socket := { system.socket with unread := system.socket.unread ++ bytes } }
    else .error .disabled
  | .remoteClose, _ =>
    if system.uplink.isOpen then
      .ok { system with socket := { system.socket with closed := true } }
    else .error .disabled
  | .loopGetNow now, .idle => .ok { system with now := now }
  | .uplinkRead, .idle =>
    .ok { system with
      phase := if system.uplink.isOpen then .receiving readLimit else .idle }
  | .receive world recovery, .receiving (limit + 1) =>
    finishEvent (loopProtect recovery (uplinkReceive inflater limit)) (system.withWorld world)
  | .handle world recovery, .handling limit =>
    finishEvent (loopProtect recovery (uplinkHandle limit)) (system.withWorld world)
  | .timeout owner world recovery, .idle =>
    match system.timers.timeouts with
    | [] => .error .disabled
    | timeout :: rest =>
      if timeout.due ≤ system.now then
        finishEvent (loopProtect recovery (fireTimeout inflater owner timeout.callback))
          { system with timers := { system.timers with timeouts := rest }, world := world }
      else .error .disabled
  | .plugin owner world recovery, .idle =>
    finishEvent (loopProtect recovery (runCallback reconnectFromEvent owner))
      (system.withWorld world)
  | .strayRead world recovery, .idle =>
    finishEvent (loopProtect recovery errReadStray) (system.withWorld world)
  | .reconfigure world commit, .idle =>
    finishEvent (loopConfigCommit commit) (system.withWorld world)
  | _, _ => .error .disabled

def System.run (inflater : Inflater Z) (system : System Z) : List Event → Except Stop (System Z)
  | [] => .ok system
  | event :: events => system.step inflater event >>= fun next => next.run inflater events

/-- A new uplink is closed, and the first value of its status counts as authenticated. -/
def uplinkCreate (inflateState : Z) : Uplink Z where
  remoteName := none
  service := none
  login := none
  password := none
  cert := none
  buffer := none
  bufferSize := 0
  sizeRest := 0
  hasSize := false
  reconnectTimeout := 0
  pingTimeout := 0
  pingsUnanswered := 0
  pingScheduled := false
  reconnectScheduled := false
  seenData := false
  reconnectId := 0
  isOpen := false
  lastConnect := 0
  authStatus := .authenticated
  loginFailureCount := 0
  inflateState := inflateState
  availIn := []

def World.calm : World where
  depth := 1
  sends := []
  callbacks := []
  disconnects := []
  recv := .ready 0
  connects := true
  chip := none
  garbage := []
  processId := 0

/-- The loop is created with a time, and the uplink is created before it is configured. -/
def System.created (inflateState : Z) (now : Nat) : System Z where
  now := now
  timers := ⟨[], 0⟩
  plugins := []
  uplink := uplinkCreate inflateState
  socket := ⟨[], false⟩
  phase := .idle
  world := .calm
  sentMessages := []
  routed := []
  history := ⟨[], [], [], []⟩

end Ucollect.Core
