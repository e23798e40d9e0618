import Ucollect.Construction.Refused.Connections
import Ucollect.Construction.Flow.Filter

/-
This file models the header of the packets that plugins/spoof/spoof.c sends.
-/

namespace Ucollect.Spoof
open Library
open Flow (ByteOrder)

section Checksum

variable (order : ByteOrder)

/-- The loop adds the words in the order of the network. -/
def sumWords : Bytes → UInt32 → UInt32
  | high :: low :: data, sum =>
    sumWords data (sum + (order.htons (UInt16.ofNat (order.load [high, low]))).toUInt32)
  | _, sum => sum

/-- The number is cut to 16 bits before its bytes are swapped. An odd size fails the assertion. -/
def ipCheck (data : Bytes) : Option UInt32 :=
  if data.length % 2 ≠ 0 then none
  else
    let sum := sumWords order data 0
    let result : UInt32 := 0xFFFF - ((sum &&& 0xFFFF) + ((sum &&& (0xFFFF0000 : UInt32)) >>> (16 : UInt32)))
    some (order.htons result.toUInt16).toUInt32

end Checksum

section Header

/-- These are the sizes of `struct ip`, `struct udp` and `struct packet_data`. -/
def ipSize : Nat := 20
def udpSize : Nat := 8
def packetDataSize : Nat := 4 + 8 + 1 + 192

variable (order : ByteOrder) (saddr daddr : Bytes)

/-- The bit fields for the version and the size come first. -/
def ipFront : Bytes :=
  [0x45, 0] ++ order.bytes (order.htons (UInt16.ofNat (ipSize + udpSize + packetDataSize))) ++
    order.bytes 0x0102 ++ order.bytes (order.htons 0x4000) ++ [64, 17]

/-- The addresses of the request are in network order. -/
def ipHeader (check : UInt16) : Bytes := ipFront order ++ order.bytes check ++ (saddr ++ daddr)

/-- The sum is computed while the field of the header is zero. -/
def checkedHeader : Option Bytes :=
  (ipCheck order (ipHeader order saddr daddr 0)).map fun check =>
    ipHeader order saddr daddr check.toUInt16

end Header

end Ucollect.Spoof

/-
This file models the rest of plugins/spoof/spoof.c with its server in master/spoof_plugin.py.
-/

namespace Ucollect.Spoof
open Library Core
open Flow (ByteOrder)
open Refused (innermost)

section Client

def magic : Nat := 0x17ACEE43

def mlen : Nat := 192

/-- This text stands at the end of each packet. -/
def messageText : Bytes :=
  ("This is a testing packet from project Turris. More info at http://blackhole.turris.cz. " ++
    "Contact us at info@turris.cz if you have questions.").toList.map letter

/-- This is `strncpy`, which fills the rest of the field with zeros. -/
def strncpy (text : Bytes) (size : Nat) : Bytes := (text ++ List.replicate size 0).take size

@[simp] theorem length_strncpy (text : Bytes) (size : Nat) : (strncpy text size).length = size := by
  simp [strncpy]

/-- This is `struct packet_data`, and the token is in network order. -/
def packetData (token : Bytes) (spoofed : Bool) : Bytes :=
  word32 magic ++ token ++ [if spoofed then 1 else 0] ++ strncpy messageText mlen

theorem length_packetData {token : Bytes} (width : token.length = 8) (spoofed : Bool) :
    (packetData token spoofed).length = packetDataSize := by
  rw [packetData, List.length_append, length_strncpy, List.length_append, List.length_append, width]
  rfl

/-- This is `struct request_v4`. Every field is in network order. -/
structure RequestV4 where
  srcAddress : Bytes
  destAddress : Bytes
  port : Bytes
  token : Bytes
  widths : srcAddress.length = 4 ∧ destAddress.length = 4 ∧ port.length = 2 ∧ token.length = 8

def requestSize : Nat := 18

theorem length_requestFields {data : Bytes} (long : requestSize ≤ data.length) :
    (data.take 4).length = 4 ∧ ((data.drop 4).take 4).length = 4 ∧
      ((data.drop 8).take 2).length = 2 ∧ ((data.drop 10).take 8).length = 8 := by
  unfold requestSize at long
  simp only [List.length_take, List.length_drop]
  omega

/-- The bytes behind the request are ignored. -/
def readRequest (data : Bytes) (long : requestSize ≤ data.length) : RequestV4 where
  srcAddress := data.take 4
  destAddress := (data.drop 4).take 4
  port := (data.drop 8).take 2
  token := (data.drop 10).take 8
  widths := length_requestFields long

/-- This is `struct user_data`. The port is kept in the order of the host. -/
structure UserData where
  expected : Bool
  expectedPacket : Bytes
  request : RequestV4
  port : Nat
  size : expectedPacket.length = packetDataSize

/-- The ordinary packet leaves through a socket of the system. The spoofed packet is written to an
interface as a whole frame. -/
inductive Output where
  | datagram (address port data : Bytes)
  | frame (interface data : Bytes)
  deriving DecidableEq, Repr

/-- A call that fails ends the function. -/
structure OrdinaryCalls where
  socket : Bool
  sendto : Bool

/-- A failure leaves the packet that was expected before. -/
def handleRequestV4 (u : UserData) (request : RequestV4) (calls : OrdinaryCalls) :
    UserData × List Output :=
  if ¬ calls.socket then (u, [])
  else if ¬ calls.sendto then (u, [])
  else
    ({ expected := true
       expectedPacket := packetData request.token false
       request := request
       port := bigEndian request.port
       size := length_packetData request.widths.2.2.2 false },
      [.datagram request.destAddress request.port (packetData request.token false)])

/-- An unknown command and a short request are only logged. -/
def communicate (u : UserData) (data : Bytes) (calls : OrdinaryCalls) : UserData × List Output :=
  match data with
  | [] => (u, [])
  | command :: data =>
    if command = letter '4' then
      if long : requestSize ≤ data.length then handleRequestV4 u (readRequest data long) calls
      else (u, [])
    else (u, [])

def bytesAt (memory : PacketMemory) (offset size : Nat) : Bytes :=
  (List.range size).map fun index => memory (offset + index)

/-- A null pointer has no bytes. -/
def addressAt (memory : PacketMemory) (address : Option Nat) (size : Nat) : Option Bytes :=
  address.map fun offset => bytesAt memory offset size

/-- The loop stops at the ethernet layer, or at the last layer when there is none. -/
def etherLayer : PacketInfo → PacketInfo
  | packet@⟨some next, _, _, _, _, _, _, _, layer, _, _, _, _, _, _, _, _⟩ =>
    if layer ≠ 'E' then etherLayer next else packet
  | packet@⟨none, _, _, _, _, _, _, _, _, _, _, _, _, _, _, _, _⟩ => packet

/-- The innermost packet is the only one without a next packet. -/
def nextIsInnermost (ether : PacketInfo) : Bool := ether.next.any fun next => next.next.isNone

/-- This is the content of `struct packet_raw`, or of `struct packet_raw_tagged` for a frame with a
tag. A failed assertion leaves no frame. -/
def packetRaw (order : ByteOrder) (u : UserData) (ports : Ends Nat) (source dest : Bytes)
    (vlanTag : Nat) : Option Bytes :=
  (checkedHeader order u.request.srcAddress u.request.destAddress).map fun header =>
    let word (number : Nat) : Bytes := order.bytes (order.htons (UInt16.ofNat number))
    let tag := if vlanTag ≠ 0 then word 0x8100 ++ word vlanTag else []
    let udp := word ports.src ++ word ports.dst ++ word (udpSize + packetDataSize) ++ word 0
    dest ++ source ++ tag ++ word 0x0800 ++ header ++ udp ++ u.expectedPacket.set 12 1

structure SpoofedCalls where
  ioctl : Bool
  bind : Bool
  sendto : Bool

def SpoofedCalls.succeed (calls : SpoofedCalls) : Bool :=
  calls.ioctl && calls.bind && calls.sendto

/-- The name of an interface is cut to the size of `ifr_name`. -/
def ifrName (interface : String) : Bytes := (interface.toList.map letter).take 15

variable (order : ByteOrder) (width : Width)

/-- A captured packet is the expected one when its destination and its content are. Reading through
a null pointer has no result. -/
def recognizes (u : UserData) (memory : PacketMemory) (ip : PacketInfo) : Option Bool :=
  if ip.layer ≠ 'I' then some false
  else if ip.appProtocol ≠ 'U' then some false
  else if ip.ports.dst ≠ u.port then some false
  else (addressAt memory ip.addresses.dst 4).map fun dest =>
    dest = u.request.destAddress ∧ width.sub ip.length ip.hdrLength = packetDataSize ∧
      bytesAt memory (ip.data + ip.hdrLength) packetDataSize = u.expectedPacket

/-- The packet is no longer expected even if one of the calls fails. -/
def received (u : UserData) (memory : PacketMemory) (info : PacketInfo) (calls : SpoofedCalls) :
    Option (UserData × List Output) :=
  if ¬ u.expected then some (u, [])
  else if info.direction ≠ .outgoing then some (u, [])
  else do
    let ip := innermost info
    if ¬ (← recognizes width u memory ip) then some (u, [])
    else
      let ether := etherLayer info
      if ¬ nextIsInnermost ether then some (u, [])
      else
        let source ← addressAt memory ether.addresses.src 6
        let dest ← addressAt memory ether.addresses.dst 6
        let frame ← packetRaw order u ip.ports source dest ether.vlanTag
        some ({ u with expected := false },
          if calls.succeed then [.frame (ifrName info.interface) frame] else [])

/-- The plugin sees the packets that the parser returns. -/
def Genuine (memory : PacketMemory) (info : PacketInfo) : Prop :=
  ∃ (capture : Capture) (interface : String) (direction : Direction) (timestamp budget : Nat)
    (pool : Nat → PacketInfo) (datalink : Int), capture.Starts memory ∧
      (ucParsePacket width memory budget pool (capture.packet interface direction timestamp)
        datalink).result = some info

/-- The plugin is called for each message and for each captured packet. -/
inductive Event where
  | message (data : Bytes) (calls : OrdinaryCalls)
  | packet (memory : PacketMemory) (info : PacketInfo) (calls : SpoofedCalls)

def handle (u : UserData) : Event → Option (UserData × List Output)
  | .message data calls => some (communicate u data calls)
  | .packet memory info calls => received order width u memory info calls

/-- The outputs of the whole run are in order. -/
def run (u : UserData) : List Event → Option (UserData × List Output)
  | [] => some (u, [])
  | event :: events => do
    let (u, outputs) ← handle order width u event
    let (u, others) ← run u events
    some (u, outputs ++ others)

end Client

section Server

variable {C A : Type}

/-- The value of a token is its key in the table. -/
structure Token (C : Type) where
  client : C
  time : Nat
  expectSpoofed : Bool
  expectOrdinary : Bool

structure Row (C A : Type) where
  client : C
  batch : Nat
  spoofed : Bool
  addrMatches : Bool
  received : Nat
  ip : A
  deriving DecidableEq, Repr

/-- The requests of one round are sent in bursts. -/
structure Round (C : Type) where
  batch : Finset Nat
  sent : Finset C
  head : Bytes
  now : Nat

/-- The tokens of each finished round wait to be dropped. -/
structure SpoofPlugin (C A : Type) where
  tokens : Nat → Option (Token C)
  srcAddr : A
  round : Option (Round C)
  cleanups : List (Finset Nat)

/-- These are the values that the query for the configuration and the resolver return. -/
structure Config (A : Type) where
  srcAddr : A
  source : Bytes
  dest : Bytes
  port : UInt16
  widths : source.length = 4 ∧ dest.length = 4

def Config.head (config : Config A) : Bytes :=
  letter '4' :: (config.source ++ config.dest ++ word16 config.port.toNat)

variable [DecidableEq C] [DecidableEq A]

/-- The set gives its clients in any order, and the tokens are random numbers. -/
structure Picked (clients sent : Finset C) (picked : List (C × Nat)) : Prop where
  distinct : (picked.map Prod.fst).Nodup
  waiting : ∀ pick ∈ picked, pick.1 ∈ clients \ sent
  count : picked.length = min 5 (clients \ sent).card
  tokens : ∀ pick ∈ picked, pick.2 < 2 ^ 64

def addToken (now : Nat) (tokens : Nat → Option (Token C)) (pick : C × Nat) :
    Nat → Option (Token C) :=
  Function.update tokens pick.2 (some ⟨pick.1, now, true, true⟩)

def doSend (plugin : SpoofPlugin C A) (round : Round C) (clients : Finset C)
    (picked : List (C × Nat)) : SpoofPlugin C A × List (C × Bytes) :=
  let round := { round with
    batch := round.batch ∪ (picked.map Prod.snd).toFinset
    sent := round.sent ∪ (picked.map Prod.fst).toFinset }
  let plugin := { plugin with tokens := picked.foldl (addToken round.now) plugin.tokens }
  let messages := picked.map fun pick => (pick.1, round.head ++ word64 pick.2)
  if clients \ round.sent ≠ ∅ then ({ plugin with round := some round }, messages)
  else ({ plugin with round := none, cleanups := plugin.cleanups ++ [round.batch] }, messages)

/-- A round that still sends its bursts is left alone. -/
def check (plugin : SpoofPlugin C A) (config : Config A) (now : Nat) (due : Bool)
    (clients : Finset C) (picked : List (C × Nat)) : SpoofPlugin C A × List (C × Bytes) :=
  if plugin.round.any fun round => round.sent ≠ ∅ then (plugin, [])
  else
    let plugin := { plugin with srcAddr := config.srcAddr }
    if ¬ due then (plugin, []) else doSend plugin ⟨∅, ∅, config.head, now⟩ clients picked

/-- A token that is no longer in the table does not matter. -/
def cleanup (plugin : SpoofPlugin C A) (batch : Finset Nat) : SpoofPlugin C A :=
  { plugin with
    tokens := fun value => if value ∈ batch then none else plugin.tokens value
    cleanups := plugin.cleanups.erase batch }

/-- These are the three values that the server unpacks. -/
def unpack (dgram : Bytes) : Nat × Nat × Bool :=
  (bigEndian (dgram.take 4), bigEndian ((dgram.drop 4).take 8), dgram.getD 12 0 != 0)

def Token.arrived (token : Token C) (spoofed : Bool) : Token C :=
  if spoofed then { token with expectSpoofed := false } else { token with expectOrdinary := false }

/-- The token is dropped after both packets arrived. -/
def datagramReceived (plugin : SpoofPlugin C A) (now : Nat) (dgram : Bytes) (addr : A) :
    SpoofPlugin C A × List (Row C A) :=
  if dgram.length < 13 then (plugin, [])
  else
    let (found, value, spoofed) := unpack dgram
    if found ≠ magic then (plugin, [])
    else
      match plugin.tokens value with
      | none => (plugin, [])
      | some token =>
        let token := token.arrived spoofed
        let kept := if !token.expectSpoofed && !token.expectOrdinary then none else some token
        ({ plugin with tokens := Function.update plugin.tokens value kept },
          [⟨token.client, token.time, spoofed, !spoofed || addr == plugin.srcAddr, now, addr⟩])

end Server

section System

variable {C A : Type}

/-- The records of a run stand beside the server and the users of the plugin. Each row is kept with
its datagram. -/
structure System (C A : Type) where
  plugin : SpoofPlugin C A
  users : C → UserData
  drawn : List (C × Nat)
  messages : List (C × Bytes)
  sent : List (C × Output)
  rows : List (Row C A × Bytes)

/-- The numbers are random, and no number is drawn twice. -/
def System.Fresh (system : System C A) (picked : List (C × Nat)) : Prop :=
  ((system.drawn ++ picked).map Prod.snd).Nodup

def System.asked (system : System C A) (picked : List (C × Nat))
    (asking : SpoofPlugin C A × List (C × Bytes)) : System C A :=
  { system with
    plugin := asking.1
    drawn := system.drawn ++ picked
    messages := system.messages ++ asking.2 }

def System.arrived (system : System C A) (dgram : Bytes)
    (handled : SpoofPlugin C A × List (Row C A)) : System C A :=
  { system with
    plugin := handled.1
    rows := system.rows ++ handled.2.map fun row => (row, dgram) }

variable [DecidableEq C] [DecidableEq A]

def System.handled (system : System C A) (client : C) (result : UserData × List Output) :
    System C A :=
  { system with
    users := Function.update system.users client result.1
    sent := system.sent ++ result.2.map fun output => (client, output) }

variable (order : C → ByteOrder) (width : C → Width)

/-- Messages are delivered to their clients in any order or not at all, and any datagram can arrive
at the server. -/
inductive Step (system : System C A) : System C A → Prop where
  | check (config : Config A) (now : Nat) (due : Bool) (clients : Finset C)
      (picked : List (C × Nat)) (valid : Picked clients ∅ picked) (fresh : system.Fresh picked) :
      Step system (system.asked picked (check system.plugin config now due clients picked))
  | burst (round : Round C) (clients : Finset C) (picked : List (C × Nat))
      (running : system.plugin.round = some round) (valid : Picked clients round.sent picked)
      (fresh : system.Fresh picked) :
      Step system (system.asked picked (doSend system.plugin round clients picked))
  | cleanup (batch : Finset Nat) (pending : batch ∈ system.plugin.cleanups) :
      Step system { system with plugin := cleanup system.plugin batch }
  | arrive (now : Nat) (dgram : Bytes) (addr : A) :
      Step system (system.arrived dgram (datagramReceived system.plugin now dgram addr))
  | message (client : C) (data : Bytes) (calls : OrdinaryCalls)
      (pending : (client, data) ∈ system.messages) :
      Step system (system.handled client (communicate (system.users client) data calls))
  | packet (client : C) (memory : PacketMemory) (info : PacketInfo) (calls : SpoofedCalls)
      (result : UserData × List Output) (genuine : Genuine (width client) memory info)
      (returned : received (order client) (width client) (system.users client) memory info calls =
        some result) :
      Step system (system.handled client result)

/-- No client expects a packet before it was asked. -/
structure System.Starts (system : System C A) : Prop where
  tokens : ∀ value, system.plugin.tokens value = none
  round : system.plugin.round = none
  cleanups : system.plugin.cleanups = []
  users : ∀ client, (system.users client).expected = false
  records : system.drawn = [] ∧ system.messages = [] ∧ system.sent = [] ∧ system.rows = []

end System

end Ucollect.Spoof
