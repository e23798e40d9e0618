import Mathlib.Tactic

/-
This file models `Connection` in master/soxy/main.cpp. The two streams of zlib are parameters.
-/

namespace Ucollect.Soxy

section Streams

abbrev Bytes := List UInt8

def compressionBuffsize : Nat := 4096

/-- A call takes bytes of the input and fills at most the output buffer. -/
structure Answer (S : Type) where
  state : S
  consumed : Nat
  output : Bytes

/-- This is a stream of zlib with its function for `Z_SYNC_FLUSH`, which may find a data error. -/
structure Codec (S : Type) where
  start : S
  call : S → Bytes → Option (Answer S)

/-- These are `deflate` and `inflate`, and what can be decompressed from some bytes. -/
structure Zlib where
  Deflate : Type
  Inflate : Type
  deflate : Codec Deflate
  inflate : Codec Inflate
  decompress : Bytes → Bytes

/-- A connection has one direction for each socket that it reads. The buffer is `outBuf` or `inBuf`,
and `ready` is `outReady` or `inReady`. The bytes that were taken and written and the calls of zlib
are not in the source. -/
structure Direction (S : Type) where
  unread : Bytes
  stream : S
  buffer : Bytes
  ready : Bool
  deleted : Bool
  invalid : Bool
  taken : Bytes
  written : Bytes
  calls : List (S × Bytes)

variable {S : Type}

def Direction.start (codec : Codec S) : Direction S where
  unread := []
  stream := codec.start
  buffer := []
  ready := false
  deleted := false
  invalid := false
  taken := []
  written := []
  calls := []

def Direction.produced (d : Direction S) : Bytes := d.written ++ d.buffer

end Streams

section Slots

variable {S : Type}

/-- This is how the loop over the input ends. -/
inductive Exit where
  | drained
  | stuck
  | invalid
  deriving DecidableEq, Repr

/-- This is the loop of `outgoing` and of `incoming`, which ends when the input is consumed. -/
def Direction.pump (codec : Codec S) : Nat → Direction S → Bytes → Option (Exit × Direction S)
  | _, d, [] => some (.drained, d)
  | 0, _, _ :: _ => none
  | fuel + 1, d, byte :: rest =>
    let called := { d with calls := d.calls ++ [(d.stream, byte :: rest)] }
    match codec.call d.stream (byte :: rest) with
    | none => some (.invalid, { called with deleted := true, invalid := true })
    | some answer =>
      let answered := { called with stream := answer.state }
      if answer.output = [] then some (.stuck, answered)
      else
        { answered with buffer := d.buffer ++ answer.output }.pump codec fuel
          ((byte :: rest).drop answer.consumed)

/-- The data are only copied without compression. -/
def Direction.filter (codec : Codec S) (enableCompression : Bool) (fuel : Nat) (d : Direction S)
    (ar : Bytes) : Option (Exit × Direction S) :=
  if enableCompression then d.pump codec fuel ar
  else some (.drained, { d with buffer := d.buffer ++ ar })

/-- This is `tryWriteRemote` or `tryWriteLocal`, and the socket answers with an amount or an error. -/
def Direction.tryWrite (amount : Option Nat) (d : Direction S) : Direction S :=
  if !d.ready then d
  else
    match amount with
    | none => { d with deleted := true }
    | some amount =>
      { d with
        written := d.written ++ d.buffer.take amount
        buffer := d.buffer.drop amount }

/-- This is `local.read` or `remote.read`. -/
def Direction.read (d : Direction S) : Bytes × Direction S :=
  (d.unread.take compressionBuffsize,
    { d with
      unread := d.unread.drop compressionBuffsize
      taken := d.taken ++ d.unread.take compressionBuffsize })

/-- This is `outgoing` or `incoming`, which calls itself in case of more data. -/
def Direction.receive (codec : Codec S) (enableCompression : Bool) (writes : Nat → Option Nat) :
    Nat → Direction S → Option (Direction S)
  | 0, _ => none
  | fuel + 1, d =>
    let (ar, read) := d.read
    if ar = [] then some d
    else
      match read.filter codec enableCompression fuel ar with
      | none => none
      | some (.drained, filtered) =>
        (filtered.tryWrite (writes fuel)).receive codec enableCompression writes fuel
      | some (_, filtered) => some filtered

/-- This is `connectedRemote` or `connectedLocal`. -/
def Direction.connected (amount : Option Nat) (d : Direction S) : Direction S :=
  { d with ready := true }.tryWrite amount

end Slots

section Events

structure World (zlib : Zlib) where
  enableCompression : Bool
  outgoing : Direction zlib.Deflate
  incoming : Direction zlib.Inflate
  deleted : Bool

def World.start (zlib : Zlib) (enableCompression : Bool) : World zlib where
  enableCompression
  outgoing := .start zlib.deflate
  incoming := .start zlib.inflate
  deleted := false

/-- The event loop calls the slots, and it destroys the connection after `deleteLater`. -/
inductive Event where
  | localArrives (bytes : Bytes)
  | remoteArrives (bytes : Bytes)
  | outgoing (writes : Nat → Option Nat)
  | incoming (writes : Nat → Option Nat)
  | connectedRemote (amount : Option Nat)
  | connectedLocal (amount : Option Nat)
  | tryWriteRemote (amount : Option Nat)
  | tryWriteLocal (amount : Option Nat)
  | disconnected

variable {zlib : Zlib}

def World.handle (fuel : Nat) (world : World zlib) : Event → Option (World zlib)
  | .localArrives bytes =>
    some { world with
      outgoing := { world.outgoing with unread := world.outgoing.unread ++ bytes } }
  | .remoteArrives bytes =>
    some { world with
      incoming := { world.incoming with unread := world.incoming.unread ++ bytes } }
  | .outgoing writes =>
    (world.outgoing.receive zlib.deflate world.enableCompression writes fuel).map fun d =>
      { world with outgoing := d }
  | .incoming writes =>
    (world.incoming.receive zlib.inflate world.enableCompression writes fuel).map fun d =>
      { world with incoming := d }
  | .connectedRemote amount => some { world with outgoing := world.outgoing.connected amount }
  | .connectedLocal amount => some { world with incoming := world.incoming.connected amount }
  | .tryWriteRemote amount => some { world with outgoing := world.outgoing.tryWrite amount }
  | .tryWriteLocal amount => some { world with incoming := world.incoming.tryWrite amount }
  | .disconnected => some { world with deleted := true }

def World.gone (world : World zlib) : Bool :=
  world.deleted || world.outgoing.deleted || world.incoming.deleted

def World.step (fuel : Nat) (world : World zlib) (event : Event) : Option (World zlib) :=
  if world.gone then some world else world.handle fuel event

/-- The run has no result where a loop has not ended yet. -/
def World.run (fuel : Nat) (world : World zlib) (events : List Event) : Option (World zlib) :=
  events.foldlM (World.step fuel) world

end Events

end Ucollect.Soxy
