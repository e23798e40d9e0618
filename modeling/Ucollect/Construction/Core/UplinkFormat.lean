import Ucollect.Library.Readers
import Ucollect.Construction.Core.MemPool
import Ucollect.Construction.Core.UplinkLoop

/-
This file models `uplink_parse` and `uplink_render_alloc` of core/uplink.c.
-/

namespace Ucollect.Core
open Library
open MemPool (Machine pageSize)

/-- A sanity check fails, or the caller passes a wrong argument, or a write leaves its memory. -/
inductive Fault where
  | sanity
  | argument
  | overrun
  deriving DecidableEq, Repr

/-- The client runs on routers of 32 bits and on machines of 64 bits. -/
inductive Platform where
  | bits32
  | bits64
  deriving DecidableEq, Repr

/-- This is `sizeof (size_t)`. -/
def Platform.sizeofSize : Platform → Nat
  | .bits32 => 4
  | .bits64 => 8

def Platform.sizeBits (platform : Platform) : Nat := 8 * platform.sizeofSize

/-- The variable arguments of the rendering functions have these types. -/
inductive Argument where
  | string (bytes : Bytes)
  | number (value : UInt32)
  | bool (value : Bool)
  | char (value : UInt8)
  deriving DecidableEq, Repr

def Argument.command : Argument → Char
  | .string _ => 's'
  | .number _ => 'u'
  | .bool _ => 'b'
  | .char _ => 'c'

/-- Variadic functions store small values as integers. -/
def Argument.promoted : Argument → Option UInt8
  | .string _ => none
  | .number _ => none
  | .bool value => some (if value then 1 else 0)
  | .char value => some value

/-- The rest of the buffer has `room` bytes. -/
structure Output where
  written : Bytes
  room : Nat
  deriving DecidableEq, Repr

def Output.put (output : Output) (bytes : Bytes) : Except Fault Output :=
  if output.room < bytes.length then .error .sanity
  else .ok ⟨output.written ++ bytes, output.room - bytes.length⟩

def renderCommand (command : Char) (argument : Argument) (output : Output) :
    Except Fault Output :=
  if command = 's' then
    match argument with
    | .string bytes => output.put (word32 bytes.length) >>= fun output => output.put bytes
    | _ => .error .argument
  else if command = 'u' then
    match argument with
    | .number value => output.put (word32 value.toNat)
    | _ => .error .argument
  else if command = 'b' ∨ command = 'c' then
    match argument.promoted with
    | some value => output.put [value]
    | none => .error .argument
  else .error .sanity

def vUplinkRender : List Char → List Argument → Output → Except Fault Output
  | [], _, output => .ok output
  | _ :: _, [], _ => .error .argument
  | command :: format, argument :: arguments, output =>
    renderCommand command argument output >>= fun output => vUplinkRender format arguments output

def commandSize (command : Char) (argument : Argument) : Except Fault Nat :=
  if command = 's' then
    match argument with
    | .string bytes => .ok (bytes.length + 4)
    | _ => .error .argument
  else if command = 'u' then
    match argument with
    | .number _ => .ok 4
    | _ => .error .argument
  else if command = 'b' ∨ command = 'c' then
    match argument.promoted with
    | some _ => .ok 1
    | none => .error .argument
  else .error .sanity

/-- The size is a `size_t` and overflows like one. -/
def neededSpace (machine : Machine) : List Char → List Argument → Nat → Except Fault Nat
  | [], _, length => .ok length
  | _ :: _, [], _ => .error .argument
  | command :: format, argument :: arguments, length =>
    commandSize command argument >>= fun size =>
      neededSpace machine format arguments ((length + size) % machine.limit)

/-- This is `page_alloc`, and it says what it leaves available. -/
def carve (machine : Machine) (available size : Nat) : Option Nat :=
  if available < size then none
  else
    let rounded := (size + machine.word - 1) % machine.limit / machine.word * machine.word
    some (available - min rounded available)

/-- This is `mem_pool_alloc` with what is available in the current page of the pool.
The size of another page is a `size_t`, and the system maps no empty page. -/
def memPoolAlloc (machine : Machine) (available size : Nat) : Except Fault Nat :=
  match carve machine available size with
  | some available => .ok available
  | none =>
    let page := (size + machine.header + pageSize - 1) % machine.limit / pageSize * pageSize
    if page = 0 then .error .sanity
    else
      match carve machine (page - machine.header) size with
      | none => .error .sanity
      | some rest => .ok (max available rest)

/-- The result is what is rendered and the length of the whole buffer, which comes from a pool.
The check of the position is an assignment, and it never fails. -/
def uplinkRenderAlloc (machine : Machine) (available extraSpace : Nat) (format : List Char)
    (arguments : List Argument) : Except Fault (Bytes × Nat) :=
  neededSpace machine format arguments extraSpace >>= fun length =>
    memPoolAlloc machine available length >>= fun _ =>
      vUplinkRender format arguments ⟨[], length⟩ >>= fun output =>
        if output.room = extraSpace then .ok (output.written, length) else .error .sanity

/-- A parsed string has a zero byte behind it. -/
inductive ParsedValue where
  | string (text : Bytes) (length : Nat)
  | number (value : UInt32)
  | bool (value : Bool)
  | char (value : UInt8)
  deriving DecidableEq, Repr

def check {A : Type} (value : Option A) : Except Fault A := value.elim (.error .sanity) .ok

/-- The size of the memory for the string is a number of 32 bits. -/
def storeString (machine : Machine) (available : Nat) (string : Bytes) : Except Fault ParsedValue :=
  let text := string ++ [0]
  let size := (string.length + 1) % 2 ^ 32
  memPoolAlloc machine available size >>= fun _ =>
    if size < text.length then .error .overrun
    else .ok (.string text string.length)

/-- Each string comes with a pool, and `pools` says what is available in them. -/
def parseCommand (machine : Machine) (command : Char) (pools : List Nat) (input : Bytes) :
    Except Fault (ParsedValue × List Nat × Bytes) :=
  if command = 's' then
    match pools with
    | [] => .error .argument
    | available :: pools =>
      check (readWord32 input) >>= fun (length, input) =>
        check (cut length input) >>= fun (string, input) =>
          storeString machine available string >>= fun text => .ok (text, pools, input)
  else if command = 'u' then
    check (readWord32 input) >>= fun (value, input) =>
      .ok (.number (UInt32.ofNat value), pools, input)
  else
    match input with
    | [] => .error .sanity
    | byte :: input =>
      if command = 'b' then .ok (.bool (byte != 0), pools, input)
      else if command = 'c' then .ok (.char byte, pools, input)
      else .error .sanity

def uplinkParse (machine : Machine) :
    List Char → List Nat → Bytes → Except Fault (List ParsedValue × Bytes)
  | [], _, input => .ok ([], input)
  | command :: format, pools, input =>
    parseCommand machine command pools input >>= fun (value, pools, input) =>
      uplinkParse machine format pools input >>= fun (values, input) =>
        .ok (value :: values, input)

end Ucollect.Core

/-
This file models the buffers of `send_plugin_versions` and `handle_activation`.
-/

namespace Ucollect.Core
open Library

/-- A copy without a check writes behind a buffer that is too small. -/
def Output.copy (output : Output) (bytes : Bytes) : Except Fault Output :=
  if output.room < bytes.length then .error .overrun
  else .ok ⟨output.written ++ bytes, output.room - bytes.length⟩

/-- The length of the string is passed as a number of 32 bits. -/
def uplinkRenderString (string : Bytes) (output : Output) : Except Fault Output :=
  vUplinkRender ['s'] [.string (string.take (string.length % 2 ^ 32))] output

def Plugin.describedSize (plugin : Plugin) : Nat :=
  2 * lengthSize + 2 + plugin.name.length + hashSize + plugin.libname.length + 1

def Plugin.render (plugin : Plugin) (output : Output) : Except Fault Output :=
  uplinkRenderString plugin.name output >>= fun output =>
    if output.room < 2 then .error .sanity
    else
      output.copy (word16 plugin.version) >>= fun output =>
        output.copy plugin.hash >>= fun output =>
          uplinkRenderString plugin.libname output >>= fun output =>
            output.copy [letter (if plugin.active then 'A' else 'I')]

def renderPlugins : List Plugin → Output → Except Fault Output
  | [], output => .ok output
  | plugin :: plugins, output => plugin.render output >>= fun output => renderPlugins plugins output

/-- This is the message `V` of `send_plugin_versions`, and its size is a `size_t`. -/
def pluginVersions (sizeBits : Nat) (plugins : List Plugin) : Except Fault Bytes :=
  let messageSize := (plugins.map Plugin.describedSize).sum % 2 ^ sizeBits
  renderPlugins plugins ⟨[], messageSize⟩ >>= fun output =>
    if output.room = 0 then .ok output.written else .error .sanity

/-- The loop of `handle_activation` also knows what is left of the message. -/
def readActivations : Nat → Bytes → Option (List Activation × Bytes)
  | 0, buffer => some ([], buffer)
  | amount + 1, buffer =>
    match uplinkParseString buffer with
    | none => none
    | some (name, rest) =>
      if rest.length ≤ hashSize then none
      else
        let activation : Activation :=
          ⟨cString name, rest.take hashSize, rest[hashSize]? == some (letter 'A')⟩
        (readActivations amount (rest.drop (hashSize + 1))).map fun (activations, rest) =>
          (activation :: activations, rest)

/-- This is what `handle_activation` reads from the message `A`. -/
def readActivation (params : Bytes) : Option (List Activation × Bytes) :=
  (readWord32 params).bind fun (amount, rest) => readActivations amount rest

/-- The activations change the list of plugins, and some of them name no plugin of it. -/
structure Switched where
  plugins : List Plugin
  changed : Bool
  missing : List Activation
  deriving DecidableEq, Repr

def switchPlugin (plugins : List Plugin) (activation : Activation) : Switched :=
  match plugins.findIdx? fun plugin =>
    plugin.name == activation.name && plugin.hash == activation.hash with
  | none => ⟨plugins, false, [activation]⟩
  | some index =>
    if plugins[index]?.any (·.active == activation.activate) then ⟨plugins, false, []⟩
    else ⟨plugins.modify index fun plugin => { plugin with active := activation.activate }, true,
      []⟩

/-- This is `loop_plugin_activation` with callbacks that do nothing and before its messages. -/
def switchPlugins (plugins : List Plugin) : List Activation → Switched
  | [] => ⟨plugins, false, []⟩
  | activation :: rest =>
    let first := switchPlugin plugins activation
    let last := switchPlugins first.plugins rest
    ⟨last.plugins, first.changed || last.changed, first.missing ++ last.missing⟩

end Ucollect.Core

/-
This file models the buffers of the two errors that the client reports about plugins it does not have.
-/

namespace Ucollect.Core
open Library

/-- A byte of a message was written for it, or it is left over in the buffer, or it lies behind it. -/
inductive SentByte where
  | written (byte : UInt8)
  | leftOver
  | outside
  deriving DecidableEq, Repr

def SentByte.ofCell : Option UInt8 → SentByte
  | none => .leftOver
  | some byte => .written byte

/-- A cell without a byte was not written since the allocation. -/
structure Buffer where
  cells : List (Option UInt8)
  deriving DecidableEq, Repr

def Buffer.allocate (size : Nat) : Buffer := ⟨List.replicate size none⟩

/-- A write behind the buffer fails. -/
def Buffer.store (buffer : Buffer) (position : Nat) (bytes : Bytes) : Option Buffer :=
  if buffer.cells.length < position + bytes.length then none
  else some ⟨buffer.cells.take position ++ bytes.map some ++
    buffer.cells.drop (position + bytes.length)⟩

/-- These bytes are sent from a position on, and foreign memory follows the buffer. -/
def Buffer.sent (buffer : Buffer) (start size : Nat) : List SentByte :=
  ((buffer.cells.drop start).map SentByte.ofCell ++ List.replicate size SentByte.outside).take size

/-- The message of the server names a plugin. -/
inductive Naming where
  | routed (name : Bytes)
  | activation (name hash : Bytes)
  deriving DecidableEq, Repr

/-- The message has less than 4 GiB. -/
def Naming.Fits : Naming → Prop
  | .routed name => 1 + lengthSize + name.length < 2 ^ 32
  | .activation name hash =>
    1 + lengthSize + lengthSize + name.length + hashSize + 1 < 2 ^ 32 ∧ hash.length = hashSize

/-- The plugin is found by the name up to a zero byte. Data goes to active plugins only. -/
def Naming.found (plugins : List Plugin) : Naming → Bool
  | .routed name => plugins.any fun plugin => plugin.name == cString name && plugin.active
  | .activation name hash =>
    plugins.any fun plugin => plugin.name == cString name && plugin.hash == hash

/-- The size counts a `size_t`, but the length is written with 32 bits. -/
def routeReport (platform : Platform) (name : Bytes) : Option (List SentByte) :=
  let messageSize := (1 + platform.sizeofSize + name.length) % 2 ^ platform.sizeBits
  ((Buffer.allocate messageSize).store 0 [letter 'P']).bind fun buffer =>
    (buffer.store 1 (word32 name.length)).bind fun buffer =>
      (buffer.store (1 + lengthSize) name).map fun buffer => buffer.sent 0 messageSize

/-- The pointer to the buffer moves behind the header, and the position stays in front of it. -/
def activationReport (platform : Platform) (name hash : Bytes) : Option (List SentByte) :=
  let size := (1 + lengthSize + name.length + hashSize) % 2 ^ platform.sizeBits
  ((Buffer.allocate size).store 0 [letter 'A']).bind fun buffer =>
    match uplinkRenderString name ⟨[], size - 1⟩ with
    | .error _ => none
    | .ok output =>
      if output.room ≠ hashSize then none
      else
        (buffer.store 0 output.written).bind fun buffer =>
          (buffer.store output.written.length hash).map fun buffer => buffer.sent 1 size

/-- This is the payload of the message `E` for a plugin that the client does not have. -/
def Naming.report (platform : Platform) (plugins : List Plugin) (naming : Naming) :
    Option (List SentByte) :=
  if naming.found plugins then none
  else
    match naming with
    | .routed name => routeReport platform (cString name)
    | .activation name hash => activationReport platform (cString name) hash

/-- The protocol documents this payload. -/
def Naming.documented : Naming → Bytes
  | .routed name => letter 'P' :: renderString name
  | .activation name hash => letter 'A' :: (renderString name ++ hash)

/-- The other side reads the payload as the protocol documents it. -/
def readReport : Bytes → Option (Naming × Bytes)
  | [] => none
  | kind :: rest =>
    (uplinkParseString rest).bind fun (name, rest) =>
      if kind = letter 'P' then some (.routed name, rest)
      else if kind = letter 'A' then
        (cut hashSize rest).map fun (hash, rest) => (.activation name hash, rest)
      else none

end Ucollect.Core
