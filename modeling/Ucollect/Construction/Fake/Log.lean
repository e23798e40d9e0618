import Ucollect.Construction.Core.UplinkFormat
import Ucollect.Construction.Master.Client

/-
This file models the log of the fake servers: plugins/fake/log.c, and how main.c fills it.
-/

namespace Ucollect.Fake
open Library Core

/-- A failed check kills the plugin. An entry that was never written has no contents. -/
inductive Abort where
  | tooOld
  | addressLength
  | infoCount
  | bufferSpace
  | infoSpace
  | lastInfo
  | unwritten
  | lengthMismatch
  | leftover
  deriving DecidableEq, Repr

inductive EventType where
  | connect
  | disconnect
  | lost
  | connectExtra
  | timeout
  | login
  deriving DecidableEq, Repr

def EventType.code : EventType → Nat
  | .connect => 0
  | .disconnect => 1
  | .lost => 2
  | .connectExtra => 3
  | .timeout => 4
  | .login => 5

inductive InfoType where
  | name
  | password
  | reason
  | last
  deriving DecidableEq, Repr

def InfoType.code : InfoType → Nat
  | .name => 0
  | .password => 1
  | .reason => 2
  | .last => 3

/-- The contents are a string of C, so they have no zero byte. -/
structure EventInfo where
  type : InfoType
  content : Bytes
  deriving DecidableEq, Repr

/-- The array of infos has one entry for each info that is counted. -/
structure LogEvent where
  code : UInt8
  remAddr : Bytes
  locAddr : Bytes
  remPort : Nat
  timestamp : Nat
  addrLen : Nat
  type : EventType
  infoCount : Nat
  extraInfo : List (Option EventInfo)
  deriving DecidableEq, Repr

structure Attempts where
  attemptCount : Nat
  holdbackUntil : Nat
  deriving DecidableEq, Repr

/-- The trie of the login attempts is a finite map. -/
structure Log where
  events : List LogEvent
  limitTrie : Bytes → Option Attempts
  expectedSerializedSize : Nat
  ipLimit : Nat
  sizeLimit : Nat
  throttleHoldback : Nat
  logCredentials : Bool
  attemptsReached : Bool

inductive SendStatus where
  | none
  | send
  | forceSend
  deriving DecidableEq, Repr

/-- Only the times when an attacker may be reported again are kept. -/
def logClean (now : Nat) (log : Log) : Log :=
  { log with
    events := []
    limitTrie := fun loginId => (log.limitTrie loginId).bind fun attempts =>
      if now < attempts.holdbackUntil then some ⟨0, attempts.holdbackUntil⟩ else none
    expectedSerializedSize := 0
    attemptsReached := false }

def logAlloc : Log := ⟨[], fun _ => none, 0, 5, 4096 * 1024, 120000, false, false⟩

def mappedPrefix : Bytes := List.replicate 10 0 ++ [0xFF, 0xFF]

def eventHeaderSize : Nat := 10

/-- The login credentials are skipped unless they are logged. -/
def EventInfo.skipped (credentials : Bool) (info : EventInfo) : Bool :=
  !credentials && (info.type == .name || info.type == .password)

/-- The array ends with a mark. -/
def countInfos (credentials : Bool) (infos : List EventInfo) : Nat :=
  ((infos.takeWhile fun info => info.type ≠ .last).filter fun info =>
    !info.skipped credentials).length

/-- The loop looks at as many of the first infos as were counted. -/
def copyInfos (credentials : Bool) (infos : List EventInfo) : List (Option EventInfo) :=
  (infos.take (countInfos credentials infos)).map fun info =>
    if info.skipped credentials then none else some info

/-- An info has its type and its length in front of it. -/
def infoSize : Option EventInfo → Nat
  | none => 0
  | some info => 5 + info.content.length

/-- This is what a fake server reports. -/
structure Report where
  serverCode : UInt8
  remAddress : Bytes
  locAddress : Bytes
  addrLen : Nat
  remPort : Nat
  type : EventType
  infos : List EventInfo
  deriving DecidableEq, Repr

/-- A mapped address is stored as one of version 4. -/
def Report.unmap (report : Report) : Report :=
  if report.remAddress.take 12 = mappedPrefix then
    { report with
      addrLen := report.addrLen - 12
      remAddress := report.remAddress.drop 12
      locAddress := report.locAddress.drop 12 }
  else report

def Report.event (report : Report) (credentials : Bool) (now : Nat) : LogEvent where
  code := report.serverCode
  remAddr := report.unmap.remAddress.take report.unmap.addrLen
  locAddr := report.unmap.locAddress.take report.unmap.addrLen
  remPort := report.remPort
  timestamp := now
  addrLen := report.unmap.addrLen
  type := report.type
  infoCount := countInfos credentials report.infos
  extraInfo := copyInfos credentials report.infos

def LogEvent.expectedSize (event : LogEvent) : Nat :=
  eventHeaderSize + 2 * event.addrLen + (event.extraInfo.map infoSize).sum

/-- The size limit is doubled as a `uint32_t`. -/
def Log.status (log : Log) : SendStatus :=
  if 2 * log.sizeLimit % 2 ^ 32 ≤ log.expectedSerializedSize then .forceSend
  else if log.attemptsReached ∨ log.sizeLimit ≤ log.expectedSerializedSize then .send
  else .none

/-- The attempts of one address on one server are counted. -/
def Log.attempt (log : Log) (loginId : Bytes) (now : Nat) : Log :=
  let attempts := match log.limitTrie loginId with
    | none => ⟨1, 0⟩
    | some attempts => { attempts with attemptCount := (attempts.attemptCount + 1) % 2 ^ 32 }
  if log.ipLimit ≤ attempts.attemptCount ∧ attempts.holdbackUntil ≤ now then
    { log with
      limitTrie := Function.update log.limitTrie loginId
        (some { attempts with holdbackUntil := now + log.throttleHoldback })
      attemptsReached := true }
  else { log with limitTrie := Function.update log.limitTrie loginId (some attempts) }

def logEvent (log : Log) (report : Report) (now : Nat) : SendStatus × Log :=
  let event := report.event log.logCredentials now
  let log := { log with
    events := log.events ++ [event]
    expectedSerializedSize := log.expectedSerializedSize + event.expectedSize }
  let log := if report.type = .login then
    log.attempt (report.serverCode :: event.remAddr) now else log
  (log.status, log)

/-- Each info that is there is pushed in front of the mark. -/
def pushInfo (infos : List EventInfo) (content : Option Bytes) (type : InfoType) : List EventInfo :=
  match content with
  | none => infos
  | some content => infos.dropLast ++ [⟨type, content⟩, ⟨.last, []⟩]

/-- These are the infos of `log_wrapper`. -/
def wrapperInfos (reason username password : Option Bytes) : List EventInfo :=
  pushInfo (pushInfo (pushInfo [⟨.last, []⟩] reason .reason) username .name) password .password

/-- This is a call of `log_wrapper`. The addresses are those of two IPv6 sockets. -/
structure Call where
  code : UInt8
  remAddress : Bytes
  locAddress : Bytes
  remPort : Nat
  type : EventType
  reason : Option Bytes
  username : Option Bytes
  password : Option Bytes
  deriving DecidableEq, Repr

def Call.report (call : Call) : Report :=
  ⟨call.code, call.remAddress, call.locAddress, 16, call.remPort, call.type,
    wrapperInfos call.reason call.username call.password⟩

/-- The check for space is the one of the output. -/
def putOutput (output : Output) (bytes : Bytes) (abort : Abort) : Except Abort Output :=
  (output.put bytes).mapError fun _ => abort

/-- The length of the string is a `uint32_t`. -/
def dumpInfo (output : Output) (info : Option EventInfo) : Except Abort Output :=
  if output.room = 0 then .error .infoSpace
  else
    match info with
    | none => .error .unwritten
    | some info =>
      if info.type = .last then .error .lastInfo
      else do
        let output ← putOutput output [info.type.code.toUInt8] .infoSpace
        (renderCommand 's' (.string (info.content.take (info.content.length % 2 ^ 32)))
          output).mapError fun _ => .bufferSpace

/-- This is `struct event_header`. The age is a difference of 64-bit numbers. -/
def LogEvent.header (event : LogEvent) (now : Nat) : Bytes :=
  word32 ((now + 2 ^ 64 - event.timestamp) % 2 ^ 64) ++
    ([event.type.code.toUInt8, if event.addrLen = 4 then 0 else 1, event.infoCount.toUInt8,
      event.code] ++ word16 event.remPort)

def dumpEvent (now : Nat) (output : Output) (event : LogEvent) : Except Abort Output :=
  if event.timestamp + 2 ^ 32 ≤ now then .error .tooOld
  else if ¬ (event.addrLen = 4 ∨ event.addrLen = 16) then .error .addressLength
  else if 16 ≤ event.infoCount then .error .infoCount
  else do
    let output ← putOutput output (event.header now ++ (event.remAddr ++ event.locAddr)) .bufferSpace
    event.extraInfo.foldlM dumpInfo output

/-- The result is the message with its size, and an empty log has no message. -/
def logDump (log : Log) (now : Nat) : Except Abort (Option (Bytes × Nat)) :=
  if log.expectedSerializedSize = 0 then .ok none
  else do
    let output ← log.events.foldlM (dumpEvent now) ⟨[], log.expectedSerializedSize⟩
    if output.written.length ≠ log.expectedSerializedSize then .error .lengthMismatch
    else if output.room ≠ 0 then .error .leftover
    else .ok (some (letter 'L' :: output.written, log.expectedSerializedSize + 1))

/-- What happens to the log. -/
inductive LogAction where
  | event (call : Call) (now : Nat)
  | sendCredentials (send : Bool)
  | limits (maxSize maxAttempts throttleHoldback : Nat)
  | clean (now : Nat)
  deriving DecidableEq, Repr

def Log.step (log : Log) : LogAction → Log
  | .event call now => (logEvent log call.report now).2
  | .sendCredentials send => { log with logCredentials := send }
  | .limits maxSize maxAttempts throttleHoldback =>
    { log with
      sizeLimit := maxSize
      ipLimit := maxAttempts
      throttleHoldback := throttleHoldback }
  | .clean now => logClean now log

def Log.run (log : Log) (actions : List LogAction) : Log := actions.foldl step log

end Ucollect.Fake

/-
This file models how the server reads the log: `store_logs` in master/fake_plugin.py.
-/

namespace Ucollect.Fake
open Library

/-- This is the list of the types on the server. -/
def eventTypes : List EventType :=
  [.connect, .disconnect, .lost, .connectExtra, .timeout, .login]

/-- The lengths of the two families of addresses. -/
def familyLengths : List Nat := [4, 16]

structure LogInfos where
  name : Option Bytes
  passwd : Option Bytes
  reason : Option Bytes
  deriving DecidableEq, Repr

/-- The row of an event. An address is known by its bytes, as the two families differ in length. -/
structure LogRow where
  age : Nat
  type : EventType
  remAddress : Bytes
  locAddress : Option Bytes
  remPort : Option Nat
  infos : LogInfos
  code : Nat
  deriving DecidableEq, Repr

/-- An info of another kind is skipped. -/
def LogInfos.put (infos : LogInfos) (kind : Nat) (content : Bytes) : LogInfos :=
  if kind = 0 then { infos with name := some content }
  else if kind = 1 then { infos with passwd := some content }
  else if kind = 2 then { infos with reason := some content }
  else infos

def storeInfos : Nat → LogInfos → Bytes → Option (LogInfos × Bytes)
  | 0, infos, message => some (infos, message)
  | count + 1, infos, message => do
    let (kind, message) ← readNumber 1 message
    let (content, message) ← Master.extractString message
    storeInfos count (infos.put kind content) message

/-- Clients before version 2 send neither the port nor the local address. -/
def sinceVersion2 {A : Type} (version : Nat) (read : Bytes → Option (A × Bytes)) (message : Bytes) :
    Option (Option A × Bytes) :=
  if version ≤ 1 then some (none, message)
  else (read message).map fun result => (some result.1, result.2)

def storeLog (version : Nat) (message : Bytes) : Option (LogRow × Bytes) := do
  let (age, message) ← readNumber 4 message
  let (typeIdx, message) ← readNumber 1 message
  let (familyIdx, message) ← readNumber 1 message
  let (infoCount, message) ← readNumber 1 message
  let (code, message) ← readNumber 1 message
  let (remPort, message) ← sinceVersion2 version (readNumber 2) message
  let type ← eventTypes[typeIdx]?
  let length ← familyLengths[familyIdx]?
  let (remAddress, message) ← cut length message
  let (locAddress, message) ← sinceVersion2 version (cut length) message
  let (infos, message) ← storeInfos infoCount ⟨none, none, none⟩ message
  some (⟨age, type, remAddress, locAddress, remPort, infos, code⟩, message)

/-- There is no result when a part of the message can not be read. -/
def storeLogs (version : Nat) (message : Bytes) : Option (List LogRow) :=
  readAll (storeLog version) message.length message

end Ucollect.Fake
