import Ucollect.Proof.Soxy.Transparency

/-
This file contains zlib as it works on data that cannot be compressed. It stores them in blocks.
-/

namespace Ucollect.Soxy
open List Option

section Decoding

/-- The decoder is in the header of the stream, in the header of a block or in its data. -/
inductive Decoder where
  | stream (left : Nat)
  | block (seen : Bytes)
  | data (left : Nat)
  deriving DecidableEq, Repr

/-- What is left of a block decides the state. -/
def Decoder.inside (left : Nat) : Decoder := if left = 0 then .block [] else .data left

/-- The length is in the second and the third byte of the header. -/
def Decoder.size (seen : Bytes) : Nat := (seen.getD 1 0).toNat + (seen.getD 2 0).toNat * 256

def Decoder.next : Decoder → UInt8 → Decoder × Option UInt8
  | .stream left, _ => (if left ≤ 1 then .block [] else .stream (left - 1), none)
  | .block seen, byte =>
    (if seen.length < 4 then .block (seen ++ [byte]) else .inside (size (seen ++ [byte])), none)
  | .data left, byte => (.inside (left - 1), some byte)

def Decoder.decode : Decoder → Bytes → Decoder × Bytes
  | d, [] => (d, [])
  | d, byte :: rest =>
    let (later, bytes) := (d.next byte).1.decode rest
    (later, (d.next byte).2.toList ++ bytes)

/-- Decoding goes on where it stopped. -/
theorem Decoder.decode_append (d : Decoder) (first second : Bytes) :
    d.decode (first ++ second) =
      (((d.decode first).1.decode second).1,
        (d.decode first).2 ++ ((d.decode first).1.decode second).2) := by
  induction first generalizing d with
  | nil => rfl
  | cons byte first ih => simp only [cons_append, Decoder.decode, ih, append_assoc]

/-- The output buffer may end the call before the input does. -/
def Decoder.fill : Nat → Decoder → Bytes → Answer Decoder
  | _, d, [] => ⟨d, 0, []⟩
  | 0, d, _ :: _ => ⟨d, 0, []⟩
  | room + 1, d, byte :: rest =>
    match d.next byte with
    | (d, none) =>
      let answer := d.fill (room + 1) rest
      ⟨answer.state, answer.consumed + 1, answer.output⟩
    | (d, some result) =>
      let answer := d.fill room rest
      ⟨answer.state, answer.consumed + 1, result :: answer.output⟩

theorem Decoder.fill_decode (room : Nat) (d : Decoder) (input : Bytes) :
    d.decode (input.take (d.fill room input).consumed) =
      ((d.fill room input).state, (d.fill room input).output) := by
  induction input generalizing room d with
  | nil => simp [Decoder.fill, Decoder.decode]
  | cons byte rest ih =>
    cases room with
    | zero => rfl
    | succ room =>
      rw [Decoder.fill]
      split
      case h_1 later next => simp only [take_succ_cons, Decoder.decode, next, ih, toList_none,
        nil_append]
      case h_2 later result next => simp only [take_succ_cons, Decoder.decode, next, ih,
        toList_some, singleton_append]

/-- Output space is left only when the input was consumed. -/
theorem Decoder.fill_consumed (room : Nat) (d : Decoder) (input : Bytes)
    (left : (d.fill room input).output.length < room) :
    (d.fill room input).consumed = input.length := by
  induction input generalizing room d with
  | nil => simp [Decoder.fill]
  | cons byte rest ih =>
    cases room with
    | zero => exact absurd left (Nat.not_lt_zero _)
    | succ room =>
      rw [Decoder.fill] at left ⊢
      split at left
      case h_1 later next => exact congrArg Nat.succ (ih (room + 1) later left)
      case h_2 later result next =>
        exact congrArg Nat.succ (ih room later (Nat.lt_of_succ_lt_succ left))

end Decoding

section Blocks

def storedLimit : Nat := 65535

def blockHeader (length : Nat) : Bytes :=
  [0, UInt8.ofNat (length % 256), UInt8.ofNat (length / 256), UInt8.ofNat (255 - length % 256),
    UInt8.ofNat (255 - length / 256)]

/-- An empty block ends the output of a flush. -/
def storedBlock (data : Bytes) : Bytes := blockHeader data.length ++ data ++ blockHeader 0

theorem Decoder.decode_data (data : Bytes) :
    (Decoder.inside data.length).decode data = (.block [], data) := by
  induction data with
  | nil => rfl
  | cons byte rest ih =>
    simp only [Decoder.inside, length_cons, Nat.succ_ne_zero, if_false, Decoder.decode,
      Decoder.next, Nat.add_sub_cancel] at ih ⊢
    rw [ih]
    rfl

theorem Decoder.decode_five (type low high low' high' : UInt8) :
    (Decoder.block []).decode [type, low, high, low', high'] =
      (.inside (low.toNat + high.toNat * 256), []) := rfl

theorem Decoder.decode_header {length : Nat} (small : length ≤ storedLimit) :
    (Decoder.block []).decode (blockHeader length) = (.inside length, []) := by
  have low : (UInt8.ofNat (length % 256)).toNat = length % 256 := by simp
  have high : (UInt8.ofNat (length / 256)).toNat = length / 256 := by
    rw [storedLimit] at small
    simp
    omega
  rw [blockHeader, Decoder.decode_five, low, high, Nat.mod_add_div']

/-- A stored block decodes to its data. -/
theorem Decoder.decode_stored {data : Bytes} (small : data.length ≤ storedLimit) :
    (Decoder.block []).decode (storedBlock data) = (.block [], data) := by
  simp only [storedBlock, Decoder.decode_append, Decoder.decode_header small,
    Decoder.decode_header (Nat.zero_le _), Decoder.decode_data, nil_append, append_nil]
  rfl

end Blocks

section Zlib

/-- The stream has bytes for which there was no room. -/
structure StoredDeflate where
  started : Bool
  pending : Bytes

def StoredDeflate.header (stream : StoredDeflate) : Bytes :=
  if stream.started then [] else [0x78, 0xDA]

def StoredDeflate.decoder (stream : StoredDeflate) : Decoder :=
  if stream.started then .block [] else .stream 2

def StoredDeflate.output (stream : StoredDeflate) (input : Bytes) : Bytes :=
  stream.pending ++ stream.header ++ storedBlock (input.take storedLimit)

def StoredDeflate.call (stream : StoredDeflate) (input : Bytes) : Option (Answer StoredDeflate) :=
  some ⟨⟨true, (stream.output input).drop compressionBuffsize⟩, min storedLimit input.length,
    (stream.output input).take compressionBuffsize⟩

/-- A codec that stores every block as it is. -/
def storedDeflate : Codec StoredDeflate := ⟨⟨false, []⟩, StoredDeflate.call⟩

abbrev storedZlib : Zlib where
  Deflate := StoredDeflate
  Inflate := Decoder
  deflate := storedDeflate
  inflate := ⟨.stream 2, fun d input => some (d.fill compressionBuffsize input)⟩
  decompress := fun bytes => ((Decoder.stream 2).decode bytes).2

/-- The output decodes to the input, whatever part of it is still pending. -/
theorem StoredDeflate.decode_output (stream : StoredDeflate) (input emitted taken : Bytes)
    (before : (Decoder.stream 2).decode (emitted ++ stream.pending) = (stream.decoder, taken)) :
    (Decoder.stream 2).decode (emitted ++ stream.output input) =
      (.block [], taken ++ input.take storedLimit) := by
  have small : (input.take storedLimit).length ≤ storedLimit := length_take_le _ _
  have header : stream.decoder.decode stream.header = (.block [], []) := by
    unfold StoredDeflate.decoder StoredDeflate.header
    cases stream.started <;> rfl
  simp only [StoredDeflate.output, ← append_assoc]
  rw [Decoder.decode_append, Decoder.decode_append, before]
  simp only [header, Decoder.decode_stored small, append_nil]

/-- Output space is left only when the input is short and nothing is pending. -/
theorem StoredDeflate.output_short (stream : StoredDeflate) (input : Bytes)
    (room : ((stream.output input).take compressionBuffsize).length < compressionBuffsize) :
    input.length ≤ storedLimit ∧
      (stream.output input).take compressionBuffsize = stream.output input := by
  have short : (stream.output input).length < compressionBuffsize := by
    rw [length_take] at room
    omega
  constructor
  · simp only [StoredDeflate.output, storedBlock, length_append, length_take,
      compressionBuffsize] at short
    rw [storedLimit] at short ⊢
    omega
  · exact take_of_length_le short.le

def storedDeflateContract :
    Contract storedZlib.deflate fun taken produced => storedZlib.decompress produced = taken where
  follows stream taken emitted :=
    (Decoder.stream 2).decode (emitted ++ stream.pending) = (stream.decoder, taken)
  ended _ := False
  start := rfl
  empty := rfl
  step := by
    intro stream taken emitted input answer follows called
    cases called
    simp only [append_assoc, take_append_drop, ← take_eq_take_min]
    exact stream.decode_output input emitted taken follows
  complete := by
    intro stream taken emitted input answer follows _ called room
    cases called
    obtain ⟨short, whole⟩ := stream.output_short input room
    have decoded := stream.decode_output input emitted taken follows
    rw [take_of_length_le short] at decoded
    simp only [whole, decoded]
  behind := by
    intro stream taken emitted input answer _ called room rest
    cases called
    have short := (stream.output_short input room).1
    exact absurd rest (Nat.not_lt.mpr (Nat.min_eq_right short).ge)
  last := nofun
  silent := nofun

def storedInflateContract :
    Contract storedZlib.inflate fun taken produced => produced = storedZlib.decompress taken where
  follows d taken emitted := (Decoder.stream 2).decode taken = (d, emitted)
  ended _ := False
  start := rfl
  empty := rfl
  step := by
    intro d taken emitted input answer follows called
    cases called
    rw [Decoder.decode_append, follows, Decoder.fill_decode]
  complete := by
    intro d taken emitted input answer follows _ called room
    cases called
    have whole := Decoder.fill_decode compressionBuffsize d input
    rw [Decoder.fill_consumed _ _ _ room, take_length] at whole
    simp only [storedZlib]
    rw [Decoder.decode_append, follows, whole]
  behind := by
    intro d taken emitted input answer _ called room rest
    cases called
    exact absurd (Decoder.fill_consumed _ _ _ room) rest.ne
  last := nofun
  silent := nofun

def storedKeeps : storedZlib.Keeps where
  deflate := storedDeflateContract
  inflate := storedInflateContract
  valid := nofun

end Zlib

section Noise

/-- These bytes look random, so zlib stores them. -/
def noise : Nat → Nat → Bytes
  | 0, _ => []
  | length + 1, seed =>
    let next := (seed * 1103515245 + 12345) % 2 ^ 31
    UInt8.ofNat (next / 2 ^ 16) :: noise length next

@[simp] theorem noise_length (length seed : Nat) : (noise length seed).length = length := by
  induction length generalizing seed with
  | zero => rfl
  | succ length ih => simp only [noise, length_cons, ih]

def StoredDeflate.start : StoredDeflate := ⟨false, []⟩

variable {data : Bytes}

/-- The whole output of the first read has the header of the stream and a block. -/
theorem StoredDeflate.start_output (short : data.length ≤ storedLimit) :
    StoredDeflate.start.output data = [0x78, 0xDA] ++ storedBlock data := by
  rw [StoredDeflate.output, take_of_length_le short]
  rfl

/-- The direction after one read that fills the buffer at most once. -/
def sentOnce (data : Bytes) : Direction StoredDeflate where
  unread := []
  stream := ⟨true, (StoredDeflate.start.output data).drop compressionBuffsize⟩
  buffer := (StoredDeflate.start.output data).take compressionBuffsize
  ready := false
  deleted := false
  invalid := false
  taken := data
  written := []
  calls := [(StoredDeflate.start, data)]

theorem Direction.pump_once {S : Type} {codec : Codec S} {d : Direction S} {input : Bytes}
    {answer : Answer S} (fuel : Nat) (given : input ≠ [])
    (called : codec.call d.stream input = some answer) (output : answer.output ≠ [])
    (all : input.drop answer.consumed = []) :
    d.pump codec (fuel + 1) input = some (.drained, d.answered input answer) := by
  obtain ⟨byte, rest, rfl⟩ := exists_cons_of_ne_nil given
  simp only [Direction.pump, called, if_neg output, all]
  rfl

theorem Direction.receive_step {S : Type} {codec : Codec S} {d filtered : Direction S} {fuel : Nat}
    {enableCompression : Bool} {writes : Nat → Option Nat} (given : d.read.1 ≠ [])
    (went : d.read.2.filter codec enableCompression fuel d.read.1 = some (.drained, filtered)) :
    d.receive codec enableCompression writes (fuel + 1) =
      (filtered.tryWrite (writes fuel)).receive codec enableCompression writes fuel := by
  simp only [Direction.receive, if_neg given, went]

/-- A short read goes through one call, and nothing is written before the remote side is ready. -/
theorem receive_once (given : data ≠ []) (short : data.length ≤ compressionBuffsize)
    (writes : Nat → Option Nat) :
    ({ Direction.start storedDeflate with unread := data }).receive storedDeflate true writes 3 =
      some (sentOnce data) := by
  have consumed : data.drop (min storedLimit data.length) = [] := by
    rw [compressionBuffsize] at short
    rw [storedLimit, drop_eq_nil_iff]
    omega
  have output : (StoredDeflate.start.output data).take compressionBuffsize ≠ [] := nofun
  have pumped := @Direction.pump_once _ storedDeflate
    { Direction.start storedDeflate with taken := data } data _ 1 given rfl output consumed
  have read : ({ Direction.start storedDeflate with unread := data }).read =
      (data, { Direction.start storedDeflate with taken := data }) := by
    simp only [Direction.read, take_of_length_le short, drop_eq_nil_of_le short]
    rfl
  rw [Direction.receive_step (read ▸ given) (by rw [read]; exact pumped)]
  rfl

/-- A short message leaves in one piece. -/
theorem run_once (given : data ≠ []) (short : data.length ≤ compressionBuffsize) :
    (World.start storedZlib true).run 3 [.localArrives data, .outgoing fun _ => none] =
      some ⟨true, sentOnce data, .start storedZlib.inflate, false⟩ := by
  have received := receive_once given short fun _ => none
  change (Option.map (fun d => (⟨true, d, .start storedZlib.inflate, false⟩ : World storedZlib))
    (({ Direction.start storedDeflate with unread := data }).receive storedDeflate true
      (fun _ => none) 3)) >>= _ = _
  rw [received]
  rfl

theorem Decoder.decode_length (d : Decoder) (bytes : Bytes) :
    (d.decode bytes).2.length ≤ bytes.length := by
  induction bytes generalizing d with
  | nil => exact Nat.le_refl _
  | cons byte rest ih =>
    have one : (d.next byte).2.toList.length ≤ 1 := by
      cases (d.next byte).2 <;> simp
    have later := ih (d.next byte).1
    simp only [Decoder.decode, length_append, length_cons]
    omega

/-- A full read of such bytes leaves the last ones inside zlib. -/
theorem sentOnce_held (full : data.length = compressionBuffsize) :
    storedZlib.decompress (sentOnce data).produced ≠ (sentOnce data).taken := by
  intro same
  have small : data.length ≤ storedLimit := full.trans_le (by decide)
  have produced : (sentOnce data).produced =
      [0x78, 0xDA] ++ (storedBlock data).take (compressionBuffsize - 2) := by
    change (StoredDeflate.start.output data).take compressionBuffsize = _
    rw [StoredDeflate.start_output small, take_append]
    rfl
  have decoded : storedZlib.decompress (sentOnce data).produced =
      ((Decoder.block []).decode ((storedBlock data).take (compressionBuffsize - 2))).2 := by
    rw [produced]
    rfl
  have lengths : _ = data.length := congrArg List.length (decoded.symm.trans same)
  have short := (Decoder.block []).decode_length
    ((storedBlock data).take (compressionBuffsize - 2))
  rw [lengths, full, length_take] at short
  have less : compressionBuffsize - 2 < compressionBuffsize := by decide
  omega

/-- The proxy has read all that the server sent, but it did not produce all of it. -/
theorem outgoing_held :
    ∃ world, (World.start storedZlib true).run 3
        [.localArrives (noise 4096 12345), .outgoing fun _ => none] = some world ∧
      world.outgoing.unread = [] ∧
      storedZlib.decompress world.outgoing.produced ≠ world.outgoing.taken := by
  have full : (noise 4096 12345).length = compressionBuffsize := noise_length _ _
  have given : noise 4096 12345 ≠ [] := ne_nil_of_length_pos (full ▸ by decide)
  exact ⟨_, run_once given full.le, rfl, sentOnce_held full⟩

/-- A short read goes through the proxy as a whole. -/
theorem run_transparent_noise :
    ∃ world, (World.start storedZlib true).run 3
        [.localArrives (noise 100 12345), .outgoing fun _ => none] = some world ∧ world.Roomy ∧
      storedZlib.plain true world.outgoing.produced = world.outgoing.taken := by
  have given : noise 100 12345 ≠ [] := nofun
  have ended := run_once given (by decide)
  have roomy : World.Roomy (⟨true, sentOnce (noise 100 12345), .start storedZlib.inflate, false⟩ :
      World storedZlib) := by
    constructor
    · intro call member answer called _
      cases mem_singleton.mp member
      cases called
      decide +kernel
    · exact nofun
  exact ⟨_, ended, roomy, (run_transparent storedKeeps true 3 _ _ ended roomy).1⟩

end Noise

end Ucollect.Soxy
