import Ucollect.Library.Readers
import Ucollect.Proof.Uplink.Moves

namespace Ucollect.Core
open Library List Option

variable {Z : Type}

/-- The receiver puts together a length word or the body of a message. -/
inductive Assembly where
  | idle
  | word (bytes : Bytes)
  | body (size : Nat) (bytes : Bytes)
  | stuck

namespace Assembly
open List Option

variable (assembly : Assembly)

/-- So many bytes are missing. -/
def room : Nat :=
  match assembly with
  | idle => lengthSize
  | word bytes => lengthSize - bytes.length
  | body size bytes => size - bytes.length
  | stuck => 0

/-- These bytes belong to a message that was not dispatched yet. -/
def held : Bytes :=
  match assembly with
  | idle => []
  | word bytes => bytes
  | body size bytes => word32 size ++ bytes
  | stuck => []

def append (output : Bytes) : Assembly :=
  match assembly with
  | idle => word output
  | word bytes => word (bytes ++ output)
  | body size bytes => body size (bytes ++ output)
  | stuck => stuck

/-- No byte can be stored and no message can be completed. -/
def Wedged : Prop :=
  match assembly with
  | body size _ => size = 0
  | stuck => True
  | _ => False

/-- The length word was handled. -/
def sized : Bool :=
  match assembly with
  | body _ _ => true
  | _ => false

theorem room_append {output : Bytes} : (assembly.append output).room = assembly.room - output.length := by
  cases assembly with
  | idle => rfl
  | word bytes =>
    simp only [append, room, length_append]
    omega
  | body size bytes =>
    simp only [append, room, length_append]
    omega
  | stuck => simp [append, room]

/-- A byte that fits is held. -/
theorem held_append {output : Bytes} (fits : output.length ≤ assembly.room) :
    (assembly.append output).held = assembly.held ++ output := by
  cases assembly with
  | idle => rfl
  | word bytes => rfl
  | body size bytes => simp [append, held]
  | stuck =>
    have none : output = [] := eq_nil_of_length_eq_zero (Nat.le_zero.mp fits)
    simp [append, held, none]

end Assembly

/-- The buffer of the receiver holds what is put together. -/
def Receiver.Assembles (receiver : Receiver Z) : Assembly → Prop
  | .idle => receiver.buffer = none ∧ receiver.hasSize = false
  | .word bytes => receiver.buffer = some bytes ∧ receiver.hasSize = false ∧
      bytes.length + receiver.sizeRest = lengthSize
  | .body size bytes => receiver.buffer = some bytes ∧ receiver.hasSize = true ∧
      bytes.length + receiver.sizeRest = size ∧ size < networkHeader.limit ∧
      receiver.bufferSize = size
  | .stuck => receiver.buffer.isSome ∧ receiver.hasSize = true ∧ receiver.sizeRest = 0

/-- The decoded stream is made of the dispatched messages and the bytes that are held. -/
structure Receiver.Framed (receiver : Receiver Z) (assembly : Assembly) : Prop where
  assembles : receiver.Assembles assembly
  stream : receiver.decoded = networkHeader.frames receiver.dispatched ++ assembly.held
  small : ∀ message ∈ receiver.dispatched, message.length < networkHeader.limit

section Growing

variable {inflater : Inflater Z} {before after : Receiver Z} {output : Bytes}

/-- The receiver stores output behind the data in its buffer. -/
structure Receiver.Grows (before after : Receiver Z) (output : Bytes) : Prop where
  buffer : after.buffer = before.buffer.map (· ++ output)
  sizeRest : after.sizeRest = before.sizeRest - output.length
  bufferSize : after.bufferSize = before.bufferSize
  hasSize : after.hasSize = before.hasSize
  dispatched : after.dispatched = before.dispatched
  decoded : after.decoded = before.decoded ++ output
  fits : output.length ≤ before.sizeRest

theorem Receiver.output_fits (bounded : inflater.Bounded) (receiver : Receiver Z) :
    (receiver.output inflater).length ≤ receiver.sizeRest := by
  unfold output
  split
  · exact Nat.zero_le _
  · exact bounded _ _ _

theorem Receiver.pull_grows (bounded : inflater.Bounded) (receiver : Receiver Z) :
    receiver.Grows (receiver.pull inflater) (receiver.output inflater) :=
  ⟨rfl, rfl, rfl, rfl, rfl, rfl, receiver.output_fits bounded⟩

variable {receiver : Receiver Z}

/-- A second call stores its output where a first one stored nothing. -/
theorem Receiver.Grows.after_idle {input : Bytes}
    (grows : ({ receiver.pull inflater with availIn := input } : Receiver Z).Grows after output)
    (idle : receiver.output inflater = []) : receiver.Grows after output := by
  rw [Receiver.pull_idle _ idle] at grows
  obtain ⟨buffer, sizeRest, bufferSize, hasSize, dispatched, decoded, fits⟩ := grows
  refine ⟨buffer, sizeRest, bufferSize, hasSize, dispatched, ?_, fits⟩
  rw [decoded]
  simp [drain, idle]

theorem Receiver.fill_grows (bounded : inflater.Bounded) (receiver : Receiver Z)
    (chunk : Option Bytes) : ∃ output, receiver.Grows (receiver.fill inflater chunk) output := by
  have pulled := receiver.pull_grows bounded
  unfold fill
  dsimp only
  split
  · exact ⟨_, pulled⟩
  case isFalse dry =>
    have idle : receiver.output inflater = [] := by
      by_contra output
      exact dry (.inr output)
    split
    · cases chunk with
      | none => exact ⟨_, pulled⟩
      | some bytes =>
        have again := ({ receiver.pull inflater with availIn := bytes } :
          Receiver Z).pull_grows bounded
        exact ⟨_, again.after_idle idle⟩
    · have again := (receiver.pull inflater).pull_grows bounded
      exact ⟨_, again.after_idle idle⟩

variable {assembly : Assembly}

/-- The buffer has as much room as is missing. -/
theorem Receiver.Assembles.sizeRest_eq (assembles : receiver.Assembles assembly)
    (some : receiver.buffer.isSome) :
    receiver.sizeRest = assembly.room := by
  cases assembly with
  | idle => simp [assembles.1] at some
  | word bytes =>
    have missing := assembles.2.2
    simp only [Assembly.room]
    omega
  | body size bytes =>
    have missing := assembles.2.2.1
    simp only [Assembly.room]
    omega
  | stuck => exact assembles.2.2

theorem Receiver.prepare_isSome (receiver : Receiver Z) : receiver.prepare.buffer.isSome := by
  unfold prepare
  cases buffer : receiver.buffer with
  | none => rfl
  | some bytes => simp [buffer]

theorem Receiver.Framed.prepare (framed : receiver.Framed assembly) :
    receiver.prepare.Framed (assembly.append []) := by
  obtain ⟨assembles, stream, small⟩ := framed
  have held : (assembly.append []).held = assembly.held := by
    rw [assembly.held_append (Nat.zero_le _), append_nil]
  have keeps : receiver.prepare.decoded = receiver.decoded ∧
      receiver.prepare.dispatched = receiver.dispatched := by
    unfold Receiver.prepare
    split <;> exact ⟨rfl, rfl⟩
  refine ⟨?_, by rw [keeps.1, keeps.2, held, stream], by rw [keeps.2]; exact small⟩
  cases assembly with
  | idle =>
    simp only [Receiver.prepare, assembles.1]
    exact ⟨rfl, assembles.2, rfl⟩
  | word bytes =>
    simp only [Receiver.prepare, assembles.1, Assembly.append, append_nil]
    exact assembles
  | body size bytes =>
    simp only [Receiver.prepare, assembles.1, Assembly.append, append_nil]
    exact assembles
  | stuck =>
    obtain ⟨bytes, stored⟩ := isSome_iff_exists.mp assembles.1
    simp only [Receiver.prepare, stored]
    exact assembles

/-- Output that fits goes on with the message. -/
theorem Receiver.Grows.framed (grows : before.Grows after output) (framed : before.Framed assembly)
    (some : before.buffer.isSome) :
    after.Framed (assembly.append output) := by
  have room := framed.assembles.sizeRest_eq some
  obtain ⟨assembles, stream, small⟩ := framed
  have fits : output.length ≤ assembly.room := by
    rw [← room]
    exact grows.fits
  refine ⟨?_, ?_, by rw [grows.dispatched]; exact small⟩
  · cases assembly with
    | idle => simp [assembles.1] at some
    | word bytes =>
      refine ⟨by rw [grows.buffer, assembles.1]; rfl, grows.hasSize.trans assembles.2.1, ?_⟩
      have missing := assembles.2.2
      rw [grows.sizeRest, length_append]
      have bound := grows.fits
      omega
    | body size bytes =>
      refine ⟨by rw [grows.buffer, assembles.1]; rfl, grows.hasSize.trans assembles.2.1, ?_,
        assembles.2.2.2.1, grows.bufferSize.trans assembles.2.2.2.2⟩
      have missing := assembles.2.2.1
      rw [grows.sizeRest, length_append]
      have bound := grows.fits
      omega
    | stuck =>
      refine ⟨by rw [grows.buffer, isSome_map]; exact some,
        grows.hasSize.trans assembles.2.1, ?_⟩
      rw [grows.sizeRest, assembles.2.2, Nat.zero_sub]
  · rw [grows.decoded, grows.dispatched, stream, assembly.held_append fits, append_assoc]

theorem Assembly.append_append (assembly : Assembly) (first second : Bytes) :
    (assembly.append first).append second = assembly.append (first ++ second) := by
  cases assembly <;> simp [append]

theorem Assembly.room_prepared (assembly : Assembly) :
    (assembly.append []).room = assembly.room := by
  rw [room_append]
  rfl

/-- A turn of the loop goes on with the message. -/
theorem Receiver.receive_framed (bounded : inflater.Bounded) (framed : receiver.Framed assembly)
    (chunk : Option Bytes) :
    ∃ output, (receiver.receive inflater chunk).Framed (assembly.append output) ∧
      output.length ≤ assembly.room ∧
      (receiver.receive inflater chunk).decoded = receiver.decoded ++ output ∧
      (receiver.receive inflater chunk).sizeRest = (assembly.append output).room := by
  obtain ⟨output, grows⟩ := receiver.prepare.fill_grows bounded chunk
  have some := receiver.prepare_isSome
  have room := framed.prepare.assembles.sizeRest_eq some
  have appended := grows.framed framed.prepare some
  rw [Assembly.append_append, nil_append] at appended
  refine ⟨output, appended, ?_, ?_, ?_⟩
  · rw [← assembly.room_prepared, ← room]
    exact grows.fits
  · rw [← receiver.prepare_decoded]
    exact grows.decoded
  · apply appended.assembles.sizeRest_eq
    rw [grows.buffer, isSome_map]
    exact some

end Growing

section Handling

variable {receiver : Receiver Z} {assembly : Assembly}

/-- A complete length word announces a body, and a complete body is dispatched. -/
def Assembly.next : Assembly → Assembly
  | .word bytes => .body (bigEndian bytes) []
  | _ => .idle

/-- The handler runs for these assemblies only. -/
def Assembly.Complete (assembly : Assembly) : Prop := assembly.room = 0 ∧ assembly ≠ .stuck

variable {bytes : Bytes}

theorem Receiver.Framed.dispatched {size : Nat} (framed : receiver.Framed (.body size bytes))
    (complete : size - bytes.length = 0) :
    receiver.decoded = networkHeader.frames receiver.dispatch.dispatched ∧
      ∀ message ∈ receiver.dispatch.dispatched, message.length < networkHeader.limit := by
  obtain ⟨⟨buffer, -, missing, small, -⟩, stream, others⟩ := framed
  have contents : receiver.contents = bytes := by
    rw [Receiver.contents, buffer, getD_some]
  have length : bytes.length = size := by omega
  constructor
  · rw [stream, Receiver.dispatch, contents, Header.frames_snoc, Header.frame, length]
    rfl
  · intro message member
    rw [Receiver.dispatch, contents, mem_append, mem_singleton] at member
    obtain member | rfl := member
    · exact others message member
    · rw [length]
      exact small

/-- A dispatched message leaves the buffer empty. -/
theorem Receiver.Framed.cleared {size : Nat} (framed : receiver.Framed (.body size bytes))
    (complete : size - bytes.length = 0) :
    receiver.dispatch.cleared.Framed .idle := by
  obtain ⟨stream, small⟩ := framed.dispatched complete
  refine ⟨⟨rfl, rfl⟩, ?_, small⟩
  rw [Assembly.held, append_nil]
  exact stream

theorem Receiver.Framed.handle (framed : receiver.Framed assembly) (complete : assembly.Complete) :
    receiver.handle.Framed assembly.next := by
  obtain ⟨full, moving⟩ := complete
  cases assembly with
  | idle => cases full
  | word bytes =>
    obtain ⟨⟨buffer, hasSize, missing⟩, stream, small⟩ := framed
    have contents : receiver.contents = bytes := by
      rw [Receiver.contents, buffer, getD_some]
    have length : bytes.length = 4 := by
      simp only [Assembly.room] at full
      change bytes.length + _ = 4 at missing
      change 4 - _ = 0 at full
      omega
    simp only [Receiver.handle, hasSize, contents]
    refine ⟨⟨rfl, rfl, Nat.zero_add _, bigEndian_lt length, rfl⟩, ?_, small⟩
    rw [Assembly.next, Assembly.held, append_nil, word32_bigEndian length]
    exact stream
  | body size bytes =>
    rw [Receiver.handle, if_pos framed.assembles.2.1]
    exact framed.cleared full
  | stuck => exact absurd rfl moving

/-- A complete message with its length word is in the buffer. -/
theorem Receiver.Framed.sized (framed : receiver.Framed assembly) (complete : assembly.Complete)
    (sized : receiver.hasSize = true) : ∃ size bytes, assembly = .body size bytes := by
  obtain ⟨full, moving⟩ := complete
  cases assembly with
  | idle => cases full
  | word bytes => exact absurd (sized.symm.trans framed.assembles.2.1) (by decide)
  | body size bytes => exact ⟨size, bytes, rfl⟩
  | stuck => exact absurd rfl moving

/-- A handler without a reset of the buffer leaves a part of the message there. -/
theorem Receiver.Framed.dispatching {size : Nat} (framed : receiver.Framed (.body size bytes))
    (complete : size - bytes.length = 0) :
    receiver.dispatching.Framed .stuck := by
  obtain ⟨stream, small⟩ := framed.dispatched complete
  obtain ⟨buffer, sized, missing, -⟩ := framed.assembles
  have room : receiver.sizeRest = 0 := by omega
  rw [← append_nil (networkHeader.frames _)] at stream
  unfold Receiver.dispatching
  split
  · refine ⟨⟨?_, sized, room⟩, stream, small⟩
    show receiver.buffer.isSome
    rw [buffer]
    rfl
  · exact ⟨⟨rfl, sized, room⟩, stream, small⟩

end Handling

end Ucollect.Core
