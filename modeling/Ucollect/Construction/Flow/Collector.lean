import Ucollect.Construction.Flow.Record

/-
This file models the collection of flows in plugins/flow/main.c.
-/

namespace Ucollect.Flow
open Library Core

inductive Callback where
  | flush
  | other
  deriving DecidableEq, Repr

/-- The uplink takes a message, refuses it, or loses the connection over it. -/
inductive Outcome where
  | delivered
  | refused
  | broken
  deriving DecidableEq, Repr

/-- A message was handed to the uplink with this result. -/
structure Sending where
  message : Bytes
  forced : Bool
  sent : Bool
  deriving DecidableEq, Repr

/-- This is `struct user_data` with the loop and the uplink around it.
A pointer to a flow is its position in the flow pool. -/
structure Collector where
  trie : Trie Nat
  flowPool : List Record
  filter : Filter
  confId : UInt32
  maxFlows : UInt32
  timeout : UInt32
  minPackets : UInt32
  timeoutId : Nat
  configured : Bool
  timeoutScheduled : Bool
  timeoutMissed : Bool
  timers : Timers Callback
  now : Nat
  connected : Bool
  log : List Sending

section Flush

/-- A flow without enough packets is not sent, and neither is an entry without a flow. -/
def isShown (minPackets : UInt32) (flow : Option Record) : Bool :=
  match flow with
  | some flow => minPackets ≤ flow.count.first + flow.count.second
  | none => false

/-- This is `get_size`. -/
def shownSize (minPackets : UInt32) (flow : Option Record) : Nat :=
  match flow with
  | some flow => if isShown minPackets (some flow) then flowSize flow else 0
  | none => 0

/-- This is the walk with `format_flow`, and the sizes are those of the walk before.
The result is the output with the position behind it. -/
def formatFlows (minPackets : UInt32) :
    List (Option Record) → List Nat → Except Abort (Bytes × Nat)
  | [], _ => .ok ([], 0)
  | _ :: _, [] => .error .pastSizes
  | none :: flows, _ :: sizes => formatFlows minPackets flows sizes
  | some flow :: flows, size :: sizes =>
    if isShown minPackets (some flow) then
      (flowRender size flow).bind fun rendered =>
        (formatFlows minPackets flows sizes).map fun (rest, pos) => (rendered ++ rest, size + pos)
    else formatFlows minPackets flows sizes

/-- The data of the visited nodes are pointers into the pool. -/
def loadFlows (flowPool : List Record) : List (Option Nat) → Except Abort (List (Option Record))
  | [] => .ok []
  | none :: pointers => (loadFlows flowPool pointers).map fun flows => none :: flows
  | some pointer :: pointers =>
    match flowPool[pointer]? with
    | none => .error .dangling
    | some flow => (loadFlows flowPool pointers).map fun flows => some flow :: flows

def flushHeader (collector : Collector) : Bytes :=
  letter 'D' :: (word32 collector.confId.toNat ++ word64 collector.now)

/-- The two walks see the same flows. -/
def flushMessage (collector : Collector) : Except Abort Bytes :=
  (loadFlows collector.flowPool ((trieWalk collector.trie).map TrieVisit.data)).bind fun flows =>
    let sizes := flows.map (shownSize collector.minPackets)
    if sizes.length ≠ trieSize collector.trie then .error .wrongCounted
    else
      (formatFlows collector.minPackets flows sizes).bind fun (body, pos) =>
        if flows.length ≠ trieSize collector.trie then .error .wrongFlushed
        else if pos ≠ sizes.sum then .error .wrongSize
        else .ok (flushHeader collector ++ body)

/-- This is `uplink_plugin_send_message`. -/
def Collector.send (collector : Collector) (message : Bytes) (forced : Bool) (outcome : Outcome) :
    Collector × Bool :=
  let sent := collector.connected && outcome == .delivered
  ({ collector with
      connected := collector.connected && outcome != .broken
      log := collector.log ++ [⟨message, forced, sent⟩] }, sent)

/-- The table is empty after a flush that sent or that was forced. -/
def Collector.clear (collector : Collector) : Collector :=
  { collector with
    trie := trieAlloc Nat
    flowPool := []
    timeoutMissed := false }

def flush (collector : Collector) (force : Bool) (outcome : Outcome) :
    Except Abort (Collector × Bool) :=
  if !force && !collector.connected then .ok (collector, false)
  else
    (flushMessage collector).map fun message =>
      match collector.send message force outcome with
      | (collector, sent) =>
        if !sent && !force then (collector, false) else (collector.clear, true)

end Flush

section Timeout

variable (collector : Collector)

def scheduleTimeout : Except Abort Collector :=
  if collector.timeoutScheduled then .error .timeoutExists
  else
    match collector.timers.add .wide collector.now collector.timeout.toNat .flush with
    | none => .error .noTimeoutId
    | some (id, timers) => .ok { collector with timers, timeoutId := id, timeoutScheduled := true }

/-- The check for a timeout and its cancellation stand together in both places. -/
def cancelTimeout : Except Abort Collector :=
  if collector.timeoutScheduled then
    match collector.timers.cancel collector.timeoutId with
    | none => .error .cancelUnknown
    | some timers => .ok { collector with timers, timeoutScheduled := false }
  else .error .missingTimeout

def timeoutFired (outcome : Outcome) : Except Abort Collector :=
  if collector.timeoutScheduled then
    (flush { collector with timeoutScheduled := false } collector.timeoutMissed outcome).bind
      fun (collector, flushed) => scheduleTimeout { collector with timeoutMissed := !flushed }
  else .error .noTimeout

end Timeout

section Configure

variable (collector : Collector)

/-- A configuration with another identifier flushes what the old one collected. -/
def replaceConfig (outcome : Outcome) : Except Abort Collector :=
  (flush collector true outcome).bind fun (collector, _) => cancelTimeout collector

def configure (confId maxFlows timeout minPackets : UInt32) (filterDesc : Bytes)
    (outcome : Outcome) : Except Abort Collector :=
  if collector.configured && collector.confId == confId then .ok collector
  else
    (if collector.configured then replaceConfig collector outcome else .ok collector).bind
      fun collector =>
        let collector := { collector with confId, maxFlows, timeout }
        (if collector.timeoutScheduled then .ok collector else scheduleTimeout collector).bind
          fun collector =>
            match filterParse filterDesc with
            | none => .error .brokenFilter
            | some filter => .ok { collector with filter, minPackets, configured := true }

/-- The numbers stand in front of the filter. -/
def configNumber (data : Bytes) (position : Nat) : UInt32 :=
  UInt32.ofNat (bigEndian ((data.drop (4 * position)).take 4))

def configParse (data : Bytes) (outcome : Outcome) : Except Abort Collector :=
  if data.length < 16 then .error .shortConfig
  else configure collector (configNumber data 0) (configNumber data 1) (configNumber data 2)
    (configNumber data 3) (data.drop 16) outcome

/-- The messages about differential filters do not touch the flows. -/
def communicate (data : Bytes) (outcome : Outcome) : Except Abort Collector :=
  match data with
  | [] => .error .emptyMessage
  | code :: rest =>
    if code = letter 'F' then
      if rest.length ≠ 0 then .error .extraData
      else (flush collector false outcome).map Prod.fst
    else if code = letter 'C' then configParse collector rest outcome
    else .ok collector

end Configure

section PacketHandle

variable (order : ByteOrder) (collector : Collector)

/-- The slot that the trie returns may move with the next operation. -/
def indexFlow (key : Key) : Except Abort (Collector × Nat) :=
  match trieIndex collector.trie key with
  | .error .childKeySize => .error .trieChild
  | .ok (_, none) => .error .trieIndex
  | .ok (trie, some slot) => .ok ({ collector with trie }, slot)

/-- A table without room is flushed, and the timeout starts again. -/
def makeRoom (outcome : Outcome) : Except Abort Collector :=
  (flush collector ((2 * collector.maxFlows).toNat ≤ trieSize collector.trie) outcome).bind
    fun (collector, _) => (cancelTimeout collector).bind scheduleTimeout

/-- The new flow goes to the end of the pool. -/
def createFlow (slot : Nat) (packet : Packet) : Except Abort (Collector × Nat) :=
  match flowParse packet with
  | none => .error .keyDirection
  | some flow =>
    .ok ({ collector with
      trie := collector.trie.store slot (some collector.flowPool.length)
      flowPool := collector.flowPool ++ [flow] }, collector.flowPool.length)

/-- The result is the pointer to the flow of the key. -/
def findFlow (key : Key) (packet : Packet) (outcome : Outcome) :
    Except Abort (Collector × Nat) :=
  (indexFlow collector key).bind fun (collector, slot) =>
    match collector.trie.memory.data slot with
    | some pointer => .ok (collector, pointer)
    | none =>
      if collector.maxFlows.toNat ≤ trieSize collector.trie then
        (makeRoom collector outcome).bind fun collector =>
          (indexFlow collector key).bind fun (collector, slot) =>
            createFlow collector slot packet
      else createFlow collector slot packet

def tcpSyn : UInt8 := 2
def tcpAck : UInt8 := 16

def opensFlow (packet : Packet) : Bool :=
  packet.appProtocol == letter 'T' && packet.tcpFlags &&& tcpSyn != 0 &&
    packet.tcpFlags &&& tcpAck == 0

/-- This adds a packet to the statistics. -/
def Record.add (flow : Record) (now : Nat) (packet : Packet) : Record :=
  { flow with
    count := flow.count.change packet.direction (· + 1)
    size := flow.size.change packet.direction (· + UInt64.ofNat packet.length)
    lastTime := flow.lastTime.change packet.direction fun _ => now
    firstTime := flow.firstTime.change packet.direction fun first =>
      if first = 0 then now else first
    seenFlowStart := flow.seenFlowStart.change packet.direction fun seen =>
      seen || opensFlow packet }

/-- The result is the pointer to the flow that counts the packet. -/
def countPacket (packet : Packet) (outcome : Outcome) : Except Abort (Collector × Nat) :=
  (flowKey order packet).bind fun key =>
    (findFlow collector key packet outcome).bind fun (collector, pointer) =>
      match collector.flowPool[pointer]? with
      | none => .error .dangling
      | some flow =>
        .ok ({ collector with
          flowPool := collector.flowPool.set pointer (flow.add collector.now packet) }, pointer)

/-- A captured packet is the list of its layers, and a layer that is not IP of version 4 or 6 has
nothing that the plugin reads. -/
abbrev Captured := List (Option Packet)

/-- The filter sees the innermost packet when it is tracked. -/
def trackedPacket (captured : Captured) : Option Packet :=
  match captured.getLast? with
  | some (some packet) =>
    if packet.direction = .unknown then none
    else if packet.appProtocol ≠ letter 'T' ∧ packet.appProtocol ≠ letter 'U' then none
    else some packet
  | _ => none

def packetHandle (captured : Captured) (stores : Stores) (outcome : Outcome) :
    Except Abort Collector :=
  if collector.configured then
    match trackedPacket captured with
    | none => .ok collector
    | some packet =>
      match collector.filter.apply order stores packet with
      | none => .error .filterDirection
      | some false => .ok collector
      | some true => (countPacket order collector packet outcome).map Prod.fst
  else .ok collector

end PacketHandle

section System

variable (order : ByteOrder) (collector : Collector)

/-- The callback asks for a configuration and repeats a flush that was missed. -/
def connectedCallback (request outcome : Outcome) : Except Abort Collector :=
  let collector := (collector.send [letter 'C'] false request).1
  if !collector.configured then .ok collector
  else if collector.timeoutMissed || collector.maxFlows.toNat ≤ trieSize collector.trie then
    (flush collector false outcome).map Prod.fst
  else .ok collector

/-- This is the state of a new plugin, and nothing reads the filter before the configuration. -/
def Collector.fresh (timers : Timers Callback) (now : Nat) (connected : Bool) : Collector where
  trie := trieAlloc Nat
  flowPool := []
  filter := .constant true
  confId := 0
  maxFlows := 0
  timeout := 0
  minPackets := 0
  timeoutId := 0
  configured := false
  timeoutScheduled := false
  timeoutMissed := false
  timers
  now
  connected
  log := []

/-- A new plugin asks for a configuration at once. -/
def initCallback (timers : Timers Callback) (now : Nat) (connected : Bool)
    (request outcome : Outcome) : Except Abort Collector :=
  connectedCallback (.fresh timers now connected) request outcome

/-- The array of timeouts keeps room for the one of the plugin. -/
def otherTimeout (after : Nat) : Except Abort Collector :=
  if collector.timers.timeouts.length + 2 < MemPool.Machine.wide.limit then
    match collector.timers.add .wide collector.now after .other with
    | none => .error .noTimeoutId
    | some (_, timers) => .ok { collector with timers }
  else .ok collector

/-- The other timeouts of the loop are cancelled by those who added them. -/
def cancelOther (id : Nat) : Except Abort Collector :=
  if id ∈ (collector.timers.timeouts.filter fun timeout => timeout.callback = .other).map (·.id) then
    match collector.timers.cancel id with
    | none => .error .cancelUnknown
    | some timers => .ok { collector with timers }
  else .ok collector

/-- The loop calls the first timeout when it is due. -/
def fireTimeout (outcome : Outcome) : Except Abort Collector :=
  match collector.timers.timeouts with
  | [] => .ok collector
  | timeout :: rest =>
    if timeout.due ≤ collector.now then
      let collector := { collector with
        timers :=
          { collector.timers with
            timeouts := rest } }
      match timeout.callback with
      | .flush => timeoutFired collector outcome
      | .other => .ok collector
    else .ok collector

/-- The stores of the differential filters may differ from packet to packet. -/
inductive Event where
  | tick (elapsed : Nat)
  | packet (captured : Captured) (stores : Stores) (outcome : Outcome)
  | fire (outcome : Outcome)
  | message (data : Bytes) (outcome : Outcome)
  | connect (request outcome : Outcome)
  | disconnect
  | addOther (after : Nat)
  | cancelOther (id : Nat)

def Collector.step : Event → Except Abort Collector
  | .tick elapsed => .ok { collector with now := collector.now + elapsed }
  | .packet captured stores outcome => packetHandle order collector captured stores outcome
  | .fire outcome => fireTimeout collector outcome
  | .message data outcome => communicate collector data outcome
  | .connect request outcome => connectedCallback { collector with connected := true } request outcome
  | .disconnect => .ok { collector with connected := false }
  | .addOther after => otherTimeout collector after
  | .cancelOther id => cancelOther collector id

def Collector.run (collector : Collector) (events : List Event) : Except Abort Collector :=
  events.foldlM (fun collector event => collector.step order event) collector

end System

end Ucollect.Flow

/-
This file models how the server reads the flows: `store_flows` in master/flow_plugin.py.
-/

namespace Ucollect.Flow
open Library

/-- The row of a flow. An address is known by its family and its bytes, and a time by its distance
from the time of the message. -/
structure FlowRow where
  v6 : Bool
  addrs : Pair Bytes
  ports : Pair Nat
  udp : Bool
  starts : Pair (Option Int)
  stops : Pair (Option Int)
  counts : Pair Nat
  sizes : Pair Nat
  started : Pair Bool
  deriving DecidableEq, Repr

/-- A time of zero is a direction without packets. -/
def timeBack (calibTime time : Nat) : Option Int :=
  if 0 < time then some ((calibTime : Int) - time) else none

/-- A time of more than a day ago is refused. -/
def timeFits (calibTime time : Nat) : Bool :=
  !(0 < time && 86400000 < (calibTime : Int) - time)

/-- This is one round of the loop. The flow is left out when one of its times is refused. -/
def storeFlow (calibTime : Nat) (message : Bytes) : Option (Option FlowRow × Bytes) := do
  let (flow, message) ← cut 61 message
  let (flags, flow) ← readNumber 1 flow
  let (cin, flow) ← readNumber 4 flow
  let (cout, flow) ← readNumber 4 flow
  let (sin, flow) ← readNumber 8 flow
  let (sout, flow) ← readNumber 8 flow
  let (ploc, flow) ← readNumber 2 flow
  let (prem, flow) ← readNumber 2 flow
  let (tbin, flow) ← readNumber 8 flow
  let (tbout, flow) ← readNumber 8 flow
  let (tein, flow) ← readNumber 8 flow
  let (teout, _) ← readNumber 8 flow
  let size := if flags &&& 1 ≠ 0 then 16 else 4
  let (aloc, message) ← cut size message
  let (arem, message) ← cut size message
  let ok := [tbin, tein, tbout, teout].all (timeFits calibTime)
  let row : FlowRow := {
    v6 := flags &&& 1 ≠ 0
    addrs := ⟨aloc, arem⟩
    ports := ⟨ploc, prem⟩
    udp := flags &&& 2 ≠ 0
    starts := ⟨timeBack calibTime tbin, timeBack calibTime tbout⟩
    stops := ⟨timeBack calibTime tein, timeBack calibTime teout⟩
    counts := ⟨cin, cout⟩
    sizes := ⟨sin, sout⟩
    started := ⟨flags &&& 4 ≠ 0, flags &&& 8 ≠ 0⟩ }
  some (if ok then some row else none, message)

/-- The identifier of the configuration is compared with the current one for a warning only. -/
structure StoredFlows where
  confId : Nat
  calibTime : Nat
  rows : List FlowRow
  deriving DecidableEq, Repr

/-- There is no result when a part of the message can not be unpacked. -/
def storeFlows (message : Bytes) : Option StoredFlows := do
  let (confId, message) ← readNumber 4 message
  let (calibTime, message) ← readNumber 8 message
  let rows ← readAll (storeFlow calibTime) message.length message
  some ⟨confId, calibTime, rows.filterMap id⟩

end Ucollect.Flow
