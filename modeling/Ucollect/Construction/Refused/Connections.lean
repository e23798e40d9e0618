import Ucollect.Construction.Core.Packet
import Ucollect.Library.Tables

/-
This file models plugins/refused/icmp.c and the parts of plugins/refused/refused.c that use it.
-/

namespace Ucollect.Refused

open Ucollect.Core

/-- The loop at the start of `packet` finds the innermost packet. -/
def innermost : PacketInfo → PacketInfo
  | ⟨some next, _, _, _, _, _, _, _, _, _, _, _, _, _, _, _, _⟩ => innermost next
  | packet@⟨none, _, _, _, _, _, _, _, _, _, _, _, _, _, _, _, _⟩ => packet

/-- An ICMP header has eight bytes before the quoted packet. -/
def headerSize : Nat := 8

/-- An ICMP error quotes the first eight bytes behind the IP header. -/
def quotedSize : Nat := 8

/-- These are the outputs of `nak_parse` with the code of the refusal. -/
structure Nak where
  type : Char
  addrLen : Nat
  addr : Nat
  locPort : Nat
  destPort : Nat
  deriving DecidableEq, Repr

/-- The end of `nak_parse` names the refusal of each code. -/
def nakType (appProtocol : Char) (code : Nat) : Option Char :=
  if appProtocol = 'i' then
    if code = 0 ∨ code = 6 then some 'N'
    else if code = 1 ∨ code = 7 then some 'H'
    else if code = 3 then some 'P'
    else if code = 9 ∨ code = 10 ∨ code = 13 then some 'A'
    else if code = 4 then none
    else some 'O'
  else
    if code = 0 then some 'N'
    else if code = 1 then some 'A'
    else if code = 3 then some 'H'
    else if code = 4 then some 'P'
    else some 'O'

/-- The quoted IP header gives the length of the address, the address and its own length. -/
def quotedAddress (memory : PacketMemory) (dataLen ip : Nat) : Option (Nat × Nat × Nat) :=
  if ipVersion memory ip = 4 then
    if word memory (ip + 6) % 2 ^ 13 ≠ 0 then none
    else if memory (ip + 9) ≠ 6 then none
    else some (4, ip + 16, headerSizeUnit * ipIhl memory ip)
  else if ipVersion memory ip = 6 then
    if dataLen < ip6HdrSize then none
    else if memory (ip + 6) ≠ 6 then none
    else some (16, ip + 24, ip6HdrSize)
  else none

/-- The result is empty where `nak_parse` returns a null character. -/
def nakParse (width : Width) (memory : PacketMemory) (packet : PacketInfo) : Option Nak := do
  let dataLen := width.sub packet.length packet.hdrLength
  let data := packet.data + packet.hdrLength
  if dataLen < headerSize then none
  let expected := if packet.appProtocol = 'i' then 3 else 1
  if memory data ≠ expected then none
  let ip := data + headerSize
  if dataLen < headerSize + iphdrSize then none
  let (addrLen, addr, ipLen) ← quotedAddress memory dataLen ip
  if dataLen < headerSize + ipLen + quotedSize then none
  let ports := ip + ipLen
  let type ← nakType packet.appProtocol (memory (data + 1)).toNat
  some ⟨type, addrLen, addr, word memory ports, word memory (ports + 2)⟩

/-- The start of `handle_event` decides how many bytes of the address it copies into the key. -/
def copiedLen (v6 : Bool) : Nat := if v6 then 16 else 4

/-- These are the arguments of `handle_event` for a refusal. -/
structure NakEvent where
  nak : Nak
  v6 : Bool
  deriving DecidableEq, Repr

/-- The last part of `packet` handles the received ICMP packets. -/
def icmpEvent (width : Width) (memory : PacketMemory) (info : PacketInfo) : Option NakEvent :=
  let info := innermost info
  if info.layer = 'I' ∧ (info.ipProtocol = 4 ∨ info.ipProtocol = 6) ∧
      (info.appProtocol = 'i' ∨ info.appProtocol = 'I') ∧ info.direction = .incoming then
    (nakParse width memory info).map fun nak => ⟨nak, info.ipProtocol = 6⟩
  else none

end Ucollect.Refused

/-
This file models the table of connections in plugins/refused/refused.c, with the timeouts of the plugin
and the messages that it sends.
-/

namespace Ucollect.Refused

open Core Library

section Table

inductive EventType where
  | syn
  | ack
  | nak
  | timeout
  deriving DecidableEq, Repr

structure ConnKey where
  address : List UInt8
  locPort : Nat
  remPort : Nat
  deriving DecidableEq, Repr

def ConnKey.size (key : ConnKey) : Nat := key.address.length + 4

/-- This is `struct trie_data` with its key. The identifier is not in the source: it names the
connection for as long as the table has it, wherever it is stored. -/
structure Connection where
  id : Nat
  key : ConnKey
  time : Nat
  syn : Bool
  ack : Bool
  nak : Bool
  timedOut : Bool
  v6 : Bool
  completed : Bool
  transmitted : Bool
  nakType : Char
  deriving DecidableEq, Repr

/-- This is `struct conn_record`, with the identifier of the connection. -/
structure Record where
  id : Nat
  time : Nat
  reason : Char
  family : Nat
  locPort : Nat
  remPort : Nat
  address : List UInt8
  deriving DecidableEq, Repr

/-- These are the assertions and the pointers that must be good. -/
inductive Fault where
  | counter
  | list
  | newTimeout
  | sameHead
  | endless
  | keySize
  | recordSize
  | messageSize
  | noTimeout
  | undecided
  | finished
  | sendV4
  | sendV6
  deriving DecidableEq, Repr

/-- The last fields are not in the source. They are the clock and the pending send timeouts of the loop,
the messages that were sent or forced, and the connections that were completed. -/
structure World where
  active : Bool
  connections : List Connection
  undecided : Nat
  finished : Nat
  sendV4 : Nat
  sendV6 : Nat
  timeoutList : List Nat
  timeout : Nat
  maxAge : Nat
  finishedLimit : Nat
  sendLimit : Nat
  undecidedLimit : Nat
  timeoutScheduled : Bool
  timeoutId : Nat
  configVersion : Nat
  timeoutMissed : Bool
  now : Nat
  pending : List Nat
  nextTimeout : Nat
  created : Nat
  messages : List (List Record)
  history : List Connection
  deriving DecidableEq, Repr

/-- This is `init`. -/
def World.start : World where
  active := false
  connections := []
  undecided := 0
  finished := 0
  sendV4 := 0
  sendV6 := 0
  timeoutList := []
  timeout := 30000
  maxAge := 0
  finishedLimit := 0
  sendLimit := 0
  undecidedLimit := 0
  timeoutScheduled := false
  timeoutId := 0
  configVersion := 0
  timeoutMissed := false
  now := 0
  pending := []
  nextTimeout := 0
  created := 0
  messages := []
  history := []

/-- The trie is walked in some order. -/
structure Walk where
  order : List Connection → List Connection
  perm : ∀ connections, (order connections).Perm connections

/-- The uplink may be connected, and it may take the message. -/
structure Answers where
  connected : Bool
  sent : Bool
  walk : Walk

end Table

section Events

def Connection.see (d : Connection) (type : EventType) (nakType : Char) : Connection :=
  match type with
  | .syn => { d with syn := true }
  | .ack => { d with ack := true }
  | .nak => { d with nak := true, nakType }
  | .timeout => { d with timedOut := true }

def Connection.decided (d : Connection) : Bool := d.timedOut || d.syn && (d.ack || d.nak)

/-- The connection was started, but it was not accepted. -/
def Connection.rejected (d : Connection) : Bool := d.syn && !d.ack

def World.put (world : World) (d : Connection) : World :=
  { world with connections := putRow Connection.id d world.connections }

def World.count (world : World) (d : Connection) : World :=
  if d.rejected then
    if d.v6 then { world with sendV6 := world.sendV6 + 1 }
    else { world with sendV4 := world.sendV4 + 1 }
  else world

def World.complete (world : World) (d : Connection) : Except Fault World :=
  if world.undecided = 0 then .error .counter
  else if d.id ∉ world.timeoutList then .error .list
  else
    .ok ({ world with
      undecided := world.undecided - 1
      finished := world.finished + 1
      timeoutList := world.timeoutList.erase d.id
      history := world.history ++ [d] }.put { d with completed := true })

def World.handleEventFound (world : World) (type : EventType) (nakType : Char) (d : Connection) :
    Except Fault World :=
  let d := d.see type nakType
  if d.decided then (world.count d).complete d else .ok (world.put d)

def World.lookup (world : World) (key : ConnKey) : Option Connection :=
  world.connections.find? fun d => d.key = key

def World.create (world : World) (v6 : Bool) (key : ConnKey) : Connection :=
  { id := world.created
    key
    time := world.now
    syn := false
    ack := false
    nak := false
    timedOut := false
    v6
    completed := false
    transmitted := false
    nakType := '\x00' }

/-- The new connection is the last one to time out. -/
def World.append (world : World) (d : Connection) : World :=
  { world with
    connections := world.connections ++ [d]
    undecided := world.undecided + 1
    timeoutList := world.timeoutList ++ [d.id]
    created := world.created + 1 }

/-- These are the arguments of `handle_event`, and the address is a pointer. -/
structure Seen where
  type : EventType
  nakType : Char
  v6 : Bool
  addr : Nat → UInt8
  locPort : Nat
  remPort : Nat

def Seen.key (seen : Seen) : ConnKey :=
  ⟨(List.range (copiedLen seen.v6)).map seen.addr, seen.locPort, seen.remPort⟩

def World.handleEvent (world : World) (seen : Seen) : Except Fault World :=
  match world.lookup seen.key with
  | none =>
    if seen.type = .timeout then .error .newTimeout
    else if world.undecidedLimit ≤ world.undecided then .ok world
    else
      let d := world.create seen.v6 seen.key
      (world.append d).handleEventFound seen.type seen.nakType d
  | some d => if d.completed then .ok world else world.handleEventFound seen.type seen.nakType d

def World.deref (world : World) (id : Nat) : Option Connection :=
  world.connections.find? fun d => d.id = id

/-- The head of the list must change in each round. -/
def World.advanced (world : World) (id : Nat) : Except Fault World :=
  if world.timeoutList.head? = some id then .error .sameHead else .ok world

/-- The sum of the two times has 64 bits. -/
def World.expired (world : World) (d : Connection) : Bool :=
  (d.time + world.timeout) % 2 ^ 64 < world.now

/-- This is the loop over the heads of the list. -/
def World.timeoutsEvaluate : Nat → World → Except Fault World
  | fuel, world =>
    match world.timeoutList with
    | [] => .ok world
    | id :: _ =>
      match world.deref id with
      | none => .error .list
      | some d =>
        if world.expired d then
          match fuel with
          | 0 => .error .endless
          | fuel + 1 => do
            let world ← world.handleEventFound .timeout '\x00' d
            let world ← world.advanced id
            world.timeoutsEvaluate fuel
        else .ok world

end Events

section Messages

/-- The address follows these fields. -/
def connRecordSize : Nat := 14

structure SerializeParams where
  size : Nat
  records : List Record

def Connection.record (d : Connection) : Record :=
  { id := d.id
    time := d.time
    reason := if d.nak then d.nakType else 'T'
    family := if d.v6 then 6 else 4
    locPort := d.key.locPort
    remPort := d.key.remPort
    address := d.key.address.take (copiedLen d.v6) }

/-- Scraps and accepted connections are only marked. -/
def serializeCallback (params : SerializeParams) (d : Connection) :
    Except Fault (SerializeParams × Connection) :=
  if !d.completed then .ok (params, d)
  else if d.transmitted then .ok (params, d)
  else if !d.syn || d.ack then .ok (params, { d with transmitted := true })
  else
    let addrLen := copiedLen d.v6
    if d.key.size ≠ addrLen + 4 then .error .keySize
    else if params.size < connRecordSize + addrLen then .error .recordSize
    else
      .ok (⟨params.size - (connRecordSize + addrLen), params.records ++ [d.record]⟩,
        { d with transmitted := true })

def serializeAll : SerializeParams → List Connection →
    Except Fault (SerializeParams × List Connection)
  | params, [] => .ok (params, [])
  | params, d :: rest => do
    let (params, d) ← serializeCallback params d
    let (params, rest) ← serializeAll params rest
    pure (params, d :: rest)

def Connection.unmark (d : Connection) : Connection := { d with transmitted := false }

/-- This is `loop_timeout_add`. -/
def World.addTimeout (world : World) : World :=
  { world with
    timeoutId := world.nextTimeout
    pending := world.pending ++ [world.nextTimeout]
    nextTimeout := world.nextTimeout + 1 }

def World.cancelTimeout (world : World) : Except Fault World :=
  if world.timeoutScheduled then
    if world.timeoutId ∈ world.pending then
      .ok { world with pending := world.pending.erase world.timeoutId }
    else .error .noTimeout
  else .ok world

def World.schedule (world : World) : World := { world.addTimeout with timeoutScheduled := true }

def World.messageSize (world : World) : Nat :=
  world.sendV4 * (connRecordSize + 4) + world.sendV6 * (connRecordSize + 16)

/-- A message that may be sent again leaves the connections as they were. -/
def World.finish (world : World) (answers : Answers) (force : Bool) (records : List Record)
    (connections : List Connection) : Bool × World :=
  if !answers.sent && !force then
    (false, { world with connections := connections.map Connection.unmark })
  else
    (true, { world with
      connections := connections
      timeoutMissed := false
      sendV4 := 0
      sendV6 := 0
      messages := world.messages ++ [records] })

def World.send (world : World) (answers : Answers) (force : Bool) :
    Except Fault (Bool × World) := do
  let (params, connections) ← serializeAll ⟨world.messageSize, []⟩
    (answers.walk.order world.connections)
  if params.size ≠ 0 then .error .messageSize
  else .ok (world.finish answers force params.records connections)

def World.transmit (world : World) (answers : Answers) (force : Bool) :
    Except Fault (Bool × World) := do
  let world ← world.cancelTimeout
  let world := world.schedule
  if !force && !answers.connected then .ok (false, world) else world.send answers force

/-- This is the test of `consolidate_callback`. -/
def Connection.useful (d : Connection) : Bool :=
  !d.transmitted && !(d.completed && d.ack) && !(d.completed && !d.syn)

/-- The counters of the kept connections must be the counters of the table. -/
def World.consolidate (world : World) (answers : Answers) : Except Fault World :=
  let kept := (answers.walk.order world.connections).filter Connection.useful
  if !world.timeoutList.all fun id => kept.any fun d => d.id = id then .error .list
  else if world.undecided ≠ kept.countP fun d => !d.completed then .error .undecided
  else if world.finished < kept.countP fun d => d.completed then .error .finished
  else if world.sendV4 ≠ kept.countP fun d => d.completed && !d.v6 then .error .sendV4
  else if world.sendV6 ≠ kept.countP fun d => d.completed && d.v6 then .error .sendV6
  else .ok { world with connections := kept, finished := kept.countP fun d => d.completed }

def World.consolidateIf (world : World) (answers : Answers) (needed : Bool) :
    Except Fault World :=
  if needed then world.consolidate answers else .ok world

/-- Nothing is sent before a limit is reached, and twice the limit has 32 bits. -/
def World.transmitLimit (world : World) (answers : Answers) : Except Fault (Bool × World) :=
  if world.sendLimit ≤ world.sendV4 + world.sendV6 then
    world.transmit answers (world.sendLimit * 2 % 2 ^ 32 ≤ world.sendV4 + world.sendV6)
  else .ok (false, world)

def World.limitsCheck (world : World) (answers : Answers) : Except Fault World := do
  let (success, world) ← world.transmitLimit answers
  world.consolidateIf answers (world.finishedLimit ≤ world.finished || success)

/-- A timeout that could not send makes the next one send by force. -/
def World.miss (world : World) (answers : Answers) (done : Bool) : Except Fault World :=
  if done then world.consolidate answers else .ok { world with timeoutMissed := true }

def World.sendTimeout (world : World) (answers : Answers) : Except Fault World :=
  if world.sendV4 = 0 ∧ world.sendV6 = 0 then .ok world.addTimeout
  else do
    let (done, world) ← { world with timeoutScheduled := false }.transmit answers
      world.timeoutMissed
    world.miss answers done

end Messages

section Callbacks

def tcpSyn : Nat := 1
def tcpReset : Nat := 2
def tcpAck : Nat := 4

/-- A TCP packet may be the start, the acceptance or the refusal of a connection. -/
def tcpEvents (v6 : Bool) (direction : Direction) (flags : Nat) (src dst : Nat → UInt8)
    (ports : Ends Nat) : List Seen :=
  (if direction = .outgoing ∧ flags.testBit tcpSyn ∧ !flags.testBit tcpAck then
    [⟨.syn, '\x00', v6, dst, ports.src, ports.dst⟩] else []) ++
  (if direction = .incoming ∧ flags.testBit tcpSyn ∧ flags.testBit tcpAck then
    [⟨.ack, '\x00', v6, src, ports.dst, ports.src⟩] else []) ++
  (if direction = .incoming ∧ flags.testBit tcpReset then
    [⟨.nak, 'P', v6, src, ports.dst, ports.src⟩] else [])

/-- The parser gives the addresses to every IP packet. -/
def packetEvents (width : Width) (memory : PacketMemory) (info : PacketInfo) : List Seen :=
  let pointer (address : Option Nat) (index : Nat) : UInt8 := memory (address.getD 0 + index)
  (if info.appProtocol = 'T' then
    tcpEvents (info.ipProtocol = 6) info.direction info.tcpFlags (pointer info.addresses.src)
      (pointer info.addresses.dst) info.ports else []) ++
  match icmpEvent width memory info with
  | none => []
  | some event =>
    [⟨.nak, event.nak.type, event.v6, pointer (some event.nak.addr), event.nak.locPort,
      event.nak.destPort⟩]

def World.evaluate (world : World) (answers : Answers) : Except Fault World := do
  let world ← world.timeoutsEvaluate world.timeoutList.length
  world.limitsCheck answers

def World.packet (world : World) (width : Width) (memory : PacketMemory) (info : PacketInfo)
    (answers : Answers) : Except Fault World :=
  let info := innermost info
  if !world.active then .ok world
  else if info.layer ≠ 'I' ∨ (info.ipProtocol ≠ 4 ∧ info.ipProtocol ≠ 6) then .ok world
  else do
    let world ← (packetEvents width memory info).foldlM World.handleEvent world
    world.evaluate answers

structure ConfigPacket where
  version : Nat
  finishedLimit : Nat
  sendLimit : Nat
  undecidedLimit : Nat
  timeout : Nat
  maxAge : Nat
  deriving DecidableEq, Repr

def World.uplinkData (world : World) (packet : ConfigPacket) : Except Fault World :=
  if world.configVersion = packet.version then .ok world
  else do
    let world ← { world with
      configVersion := packet.version
      finishedLimit := packet.finishedLimit
      sendLimit := packet.sendLimit
      undecidedLimit := packet.undecidedLimit
      timeout := packet.timeout
      maxAge := packet.maxAge }.cancelTimeout
    .ok { world with active := true }.schedule

def World.sendMissed (world : World) (answers : Answers) : Except Fault World := do
  let (done, world) ← world.transmit answers false
  world.consolidateIf answers done

def World.connected (world : World) (answers : Answers) : Except Fault World :=
  if !world.active then .ok world
  else if world.timeoutMissed then world.sendMissed answers
  else world.limitsCheck answers

inductive Event where
  | tick (elapsed : Nat)
  | packet (width : Width) (memory : PacketMemory) (info : PacketInfo) (answers : Answers)
  | uplinkData (packet : ConfigPacket)
  | connected (answers : Answers)
  | sendTimeout (answers : Answers)

/-- A pending timeout leaves the loop before it is called. -/
def World.fire (world : World) (answers : Answers) : Except Fault World :=
  match world.pending with
  | [] => .ok world
  | _ :: rest => { world with pending := rest }.sendTimeout answers

def World.step (world : World) : Event → Except Fault World
  | .tick elapsed => .ok { world with now := world.now + elapsed }
  | .packet width memory info answers => world.packet width memory info answers
  | .uplinkData packet => world.uplinkData packet
  | .connected answers => world.connected answers
  | .sendTimeout answers => world.fire answers

def World.run (world : World) (events : List Event) : Except Fault World :=
  events.foldlM World.step world

end Callbacks

end Ucollect.Refused
