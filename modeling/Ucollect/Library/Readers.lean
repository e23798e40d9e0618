import Mathlib.Tactic
import Ucollect.Library.Bytes

/-
This file contains streams of messages, where a header of fixed width tells the length of the
message behind it.
-/

namespace Ucollect.Library
open List Option

variable {α : Type}

/-- A header of fixed width encodes the length of a message. -/
structure Header (α : Type) where
  width : Nat
  limit : Nat
  encode : Nat → List α
  decode : List α → Nat
  positive : 0 < width
  encode_length : ∀ size, (encode size).length = width
  decode_encode : ∀ size < limit, decode (encode size) = size
  encode_decode : ∀ word, word.length = width → encode (decode word) = word
  decode_lt : ∀ word, word.length = width → decode word < limit

namespace Header
open List Option

variable (header : Header α)

def frame (message : List α) : List α := header.encode message.length ++ message

def frames (messages : List (List α)) : List α := messages.flatMap header.frame

/-- The fuel bounds the number of messages. -/
def unframe : Nat → List α → List (List α)
  | 0, _ => []
  | fuel + 1, stream =>
    if stream.length < header.width then []
    else
      let size := header.decode (stream.take header.width)
      let body := stream.drop header.width
      if body.length < size then [] else body.take size :: unframe fuel (body.drop size)

/-- These are the messages that are complete in the stream. -/
def messages (stream : List α) : List (List α) := header.unframe stream.length stream
@[simp] theorem frames_nil : header.frames [] = [] := rfl

theorem frames_append (first second : List (List α)) :
    header.frames (first ++ second) = header.frames first ++ header.frames second :=
  flatMap_append

theorem frames_snoc (first : List (List α)) (message : List α) :
    header.frames (first ++ [message]) = header.frames first ++ header.frame message := by
  rw [frames_append]
  simp [frames]

theorem frames_cons (message : List α) (rest : List (List α)) :
    header.frames (message :: rest) = header.frame message ++ header.frames rest := rfl

theorem length_frame (message : List α) :
    (header.frame message).length = header.width + message.length := by
  rw [frame, length_append, header.encode_length]

variable {stream : List α}

theorem unframe_short (short : stream.length < header.width) (fuel : Nat) :
    header.unframe fuel stream = [] := by
  cases fuel with
  | zero => rfl
  | succ fuel => exact if_pos short

/-- A body that is not complete is no message. -/
theorem unframe_partial {size : Nat} (small : size < header.limit) {body : List α}
    (short : body.length < size) (fuel : Nat) :
    header.unframe fuel (header.encode size ++ body) = [] := by
  have width := header.encode_length size
  cases fuel with
  | zero => rfl
  | succ fuel =>
    rw [unframe, if_neg (by simp [width])]
    simp only [take_left' width, drop_left' width, header.decode_encode size small]
    exact if_pos short

/-- A complete message comes first. -/
theorem unframe_frame {message : List α} (small : message.length < header.limit) (rest : List α)
    (fuel : Nat) :
    header.unframe (fuel + 1) (header.frame message ++ rest) =
      message :: header.unframe fuel rest := by
  have width := header.encode_length message.length
  rw [frame, append_assoc, unframe, if_neg (by simp [width])]
  simp only [take_left' width, drop_left' width, header.decode_encode _ small]
  rw [if_neg (by simp), take_left' rfl, drop_left' rfl]

/-- A stream starts with a complete message or has none. -/
theorem frame_or_none (stream : List α) :
    (∀ fuel, header.unframe fuel stream = []) ∨
      ∃ message rest, message.length < header.limit ∧ stream = header.frame message ++ rest := by
  by_cases short : stream.length < header.width
  · exact .inl (header.unframe_short short)
  have width : (stream.take header.width).length = header.width := by
    rw [length_take]
    omega
  have small := header.decode_lt _ width
  have split : stream = header.encode (header.decode (stream.take header.width)) ++
      stream.drop header.width := by
    rw [header.encode_decode _ width, take_append_drop]
  by_cases incomplete : (stream.drop header.width).length <
      header.decode (stream.take header.width)
  · left
    rw [split]
    exact header.unframe_partial small incomplete
  · right
    refine ⟨(stream.drop header.width).take (header.decode (stream.take header.width)),
      (stream.drop header.width).drop (header.decode (stream.take header.width)), ?_, ?_⟩
    · rw [length_take]
      omega
    · have size : ((stream.drop header.width).take
          (header.decode (stream.take header.width))).length =
          header.decode (stream.take header.width) := by
        rw [length_take]
        omega
      rw [frame, size, append_assoc, take_append_drop]
      exact split

/-- More fuel than elements changes nothing. -/
theorem unframe_enough {fuel : Nat} (enough : stream.length ≤ fuel) :
    header.unframe fuel stream = header.messages stream := by
  have agree : ∀ first second : Nat, ∀ stream : List α, stream.length ≤ first →
      stream.length ≤ second → header.unframe first stream = header.unframe second stream := by
    intro first
    induction first with
    | zero =>
      intro second stream none _
      have short : stream.length < header.width := by
        have positive := header.positive
        omega
      rw [header.unframe_short short, header.unframe_short short]
    | succ first ih =>
      intro second stream left right
      obtain none | ⟨message, rest, small, rfl⟩ := header.frame_or_none stream
      · rw [none, none]
      · have positive := header.positive
        rw [length_append, length_frame] at left right
        cases second with
        | zero => omega
        | succ second =>
          rw [header.unframe_frame small, header.unframe_frame small,
            ih second rest (by omega) (by omega)]
  exact agree fuel stream.length stream enough le_rfl

theorem messages_short (short : stream.length < header.width) :
    header.messages stream = [] := header.unframe_short short _

theorem messages_partial {size : Nat} (small : size < header.limit) {body : List α}
    (short : body.length < size) : header.messages (header.encode size ++ body) = [] :=
  header.unframe_partial small short _

theorem messages_frame {message : List α} (small : message.length < header.limit)
    (rest : List α) :
    header.messages (header.frame message ++ rest) = message :: header.messages rest := by
  have positive := header.positive
  have long : (header.frame message ++ rest).length =
      (header.width - 1 + message.length + rest.length) + 1 := by
    rw [length_append, length_frame]
    omega
  rw [messages, long, header.unframe_frame small, header.unframe_enough (by omega)]

theorem messages_frames {messages : List (List α)}
    (small : ∀ message ∈ messages, message.length < header.limit) (rest : List α) :
    header.messages (header.frames messages ++ rest) = messages ++ header.messages rest := by
  induction messages with
  | nil => rfl
  | cons message others ih =>
    rw [frames_cons, append_assoc, header.messages_frame (small message mem_cons_self),
      ih fun other member => small other (mem_cons_of_mem _ member)]
    rfl

/-- A stream is a frame and a stream, or it has no complete message. -/
theorem stream_induction {motive : List α → Prop}
    (none : ∀ stream, header.messages stream = [] → motive stream)
    (framed : ∀ message rest, message.length < header.limit → motive rest →
      motive (header.frame message ++ rest)) (stream : List α) : motive stream := by
  induction size : stream.length using Nat.strong_induction_on generalizing stream with
  | _ length ih =>
    obtain stops | ⟨message, rest, small, rfl⟩ := header.frame_or_none stream
    · exact none stream (stops _)
    · have positive := header.positive
      rw [length_append, length_frame] at size
      exact framed message rest small (ih rest.length (by omega) rest rfl)

/-- The end of a stream takes no message away. -/
theorem messages_prefix (stream rest : List α) :
    header.messages stream <+: header.messages (stream ++ rest) := by
  induction stream using header.stream_induction with
  | none stream stops =>
    rw [stops]
    exact nil_prefix
  | framed message stream small ih =>
    rw [append_assoc, header.messages_frame small, header.messages_frame small]
    exact (prefix_cons_inj message).mpr ih

end Header

theorem bigEndian_word32 {number : Nat} (small : number < 2 ^ 32) :
    bigEndian (word32 number) = number := by
  simp only [bigEndian, word32, foldl_cons, foldl_nil, Nat.toUInt8_eq, UInt8.toNat_ofNat']
  omega

theorem word32_bigEndian {word : Bytes} (width : word.length = 4) :
    word32 (bigEndian word) = word := by
  match word, width with
  | [first, second, third, fourth], _ =>
    have bounds := And.intro (And.intro first.toNat_lt second.toNat_lt)
      (And.intro third.toNat_lt fourth.toNat_lt)
    simp only [bigEndian, word32, foldl_cons, foldl_nil, List.cons.injEq, ← UInt8.toNat_inj,
      Nat.toUInt8_eq, UInt8.toNat_ofNat', and_true]
    omega

theorem bigEndian_lt {word : Bytes} (width : word.length = 4) : bigEndian word < 2 ^ 32 := by
  match word, width with
  | [first, second, third, fourth], _ =>
    have bounds := And.intro (And.intro first.toNat_lt second.toNat_lt)
      (And.intro third.toNat_lt fourth.toNat_lt)
    simp only [bigEndian, foldl_cons, foldl_nil]
    omega

/-- The header is a word of 32 bits in network order. -/
def networkHeader : Header UInt8 where
  width := 4
  limit := 2 ^ 32
  encode := word32
  decode := bigEndian
  positive := by decide
  encode_length _ := rfl
  decode_encode _ small := bigEndian_word32 small
  encode_decode _ width := word32_bigEndian width
  decode_lt _ width := bigEndian_lt width

end Ucollect.Library

/-
This file contains readers that take their values from the front of a string of bytes.
-/

namespace Ucollect.Library
open List Option

/-- A reader fails when there are too few bytes. -/
def cut (amount : Nat) (input : Bytes) : Option (Bytes × Bytes) :=
  if input.length < amount then none else some (input.take amount, input.drop amount)

theorem cut_append {amount : Nat} {front : Bytes} (rest : Bytes) (size : front.length = amount) :
    cut amount (front ++ rest) = some (front, rest) := by
  have enough : ¬ (front ++ rest).length < amount := by
    rw [length_append]
    omega
  rw [cut, if_neg enough, take_left' size, drop_left' size]

theorem cut_eq_some {amount : Nat} {input front rest : Bytes}
    (cuts : cut amount input = some (front, rest)) : front.length = amount ∧ input = front ++ rest := by
  rw [cut] at cuts
  split at cuts
  · cases cuts
  · cases cuts
    rw [length_take, take_append_drop]
    exact ⟨by omega, rfl⟩

/-- The number stands in network order. -/
def readWord32 (input : Bytes) : Option (Nat × Bytes) :=
  (cut 4 input).map fun pair => (bigEndian pair.1, pair.2)

variable {number : Nat}

theorem readWord32_append (rest : Bytes) (small : number < 2 ^ 32) :
    readWord32 (word32 number ++ rest) = some (number, rest) := by
  have size : (word32 number).length = 4 := rfl
  rw [readWord32, cut_append rest size, map_some, bigEndian_word32 small]

/-- The numbers stand one after another in network order. -/
def readWords32 : Nat → Bytes → List Nat
  | 0, _ => []
  | count + 1, input => bigEndian (input.take 4) :: readWords32 count (input.drop 4)

theorem readWords32_append {numbers : List Nat} (small : ∀ number ∈ numbers, number < 2 ^ 32)
    (rest : Bytes) : readWords32 numbers.length (numbers.flatMap word32 ++ rest) = numbers := by
  induction numbers with
  | nil => rfl
  | cons number numbers ih =>
    have size : (word32 number).length = 4 := rfl
    rw [length_cons, readWords32, flatMap_cons, append_assoc, take_left' size, drop_left' size,
      bigEndian_word32 (small number mem_cons_self),
      ih fun other member => small other (mem_cons_of_mem _ member)]

theorem length_flatMap_word32 (numbers : List Nat) :
    (numbers.flatMap word32).length = 4 * numbers.length := by
  induction numbers with
  | nil => rfl
  | cons number numbers ih =>
    rw [flatMap_cons, length_append, ih, length_cons]
    show 4 + 4 * numbers.length = 4 * (numbers.length + 1)
    omega

theorem bigEndian_word64 (small : number < 2 ^ 64) : bigEndian (word64 number) = number := by
  simp only [bigEndian, word64, word32, foldl_append, foldl_cons, foldl_nil, Nat.toUInt8_eq,
    UInt8.toNat_ofNat']
  omega

theorem bigEndian_word16 (small : number < 2 ^ 16) : bigEndian (word16 number) = number := by
  simp only [bigEndian, word16, foldl_cons, foldl_nil, Nat.toUInt8_eq, UInt8.toNat_ofNat']
  omega

/-- The number has this many bytes in network order. -/
def readNumber (width : Nat) (input : Bytes) : Option (Nat × Bytes) :=
  (cut width input).map fun pair => (bigEndian pair.1, pair.2)

theorem readNumber_append {width number : Nat} {front : Bytes} (rest : Bytes)
    (size : front.length = width) (value : bigEndian front = number) :
    readNumber width (front ++ rest) = some (number, rest) := by
  rw [readNumber, cut_append rest size, map_some, value]

theorem readNumber_byte (byte : UInt8) (rest : Bytes) :
    readNumber 1 (byte :: rest) = some (byte.toNat, rest) := by
  apply @readNumber_append 1 byte.toNat [byte] rest rfl
  rw [bigEndian, foldl_cons, foldl_nil, Nat.mul_zero, Nat.zero_add]

theorem readNumber_word16 (rest : Bytes) (small : number < 2 ^ 16) :
    readNumber 2 (word16 number ++ rest) = some (number, rest) :=
  readNumber_append rest rfl (bigEndian_word16 small)

theorem readNumber_word32 (rest : Bytes) (small : number < 2 ^ 32) :
    readNumber 4 (word32 number ++ rest) = some (number, rest) :=
  readNumber_append rest rfl (bigEndian_word32 small)

theorem readNumber_word64 (rest : Bytes) (small : number < 2 ^ 64) :
    readNumber 8 (word64 number ++ rest) = some (number, rest) :=
  readNumber_append rest rfl (bigEndian_word64 small)

section Items

variable {A B : Type}

/-- One line of a reader is done. -/
theorem reads_next {result : Option A} {value : A} {next : A → Option B}
    (reads : result = some value) : (result >>= next) = next value := by
  rw [reads]
  rfl

/-- The items follow each other to the end of the input. -/
def readAll (read : Bytes → Option (B × Bytes)) : Nat → Bytes → Option (List B)
  | _, [] => some []
  | 0, _ :: _ => none
  | fuel + 1, byte :: input => do
    let (item, rest) ← read (byte :: input)
    let items ← readAll read fuel rest
    some (item :: items)

/-- Items that are read one by one are read in a row. -/
theorem readAll_flatMap {read : Bytes → Option (B × Bytes)} {write : A → Bytes} {image : A → B}
    {items : List A}
    (reads : ∀ item ∈ items, ∀ rest, read (write item ++ rest) = some (image item, rest))
    (filled : ∀ item ∈ items, write item ≠ []) {fuel : Nat} (enough : items.length ≤ fuel) :
    readAll read fuel (items.flatMap write) = some (items.map image) := by
  induction items generalizing fuel with
  | nil =>
    rw [flatMap_nil, readAll]
    rfl
  | cons item items ih =>
    cases fuel with
    | zero => cases enough
    | succ fuel =>
      have later := ih (fun other member => reads other (mem_cons_of_mem _ member))
        (fun other member => filled other (mem_cons_of_mem _ member))
        (Nat.le_of_succ_le_succ enough)
      have first := reads item mem_cons_self (items.flatMap write)
      rw [flatMap_cons]
      cases whole : write item ++ items.flatMap write with
      | nil => exact absurd (append_eq_nil_iff.mp whole).1 (filled item mem_cons_self)
      | cons byte input =>
        rw [whole] at first
        rw [readAll, first]
        show (readAll read fuel (items.flatMap write)).bind _ = _
        rw [later]
        rfl

/-- Each item has a byte at least. -/
theorem length_flatMap_ge {write : A → Bytes} {items : List A}
    (filled : ∀ item ∈ items, write item ≠ []) : items.length ≤ (items.flatMap write).length := by
  induction items with
  | nil => exact le_rfl
  | cons item items ih =>
    have later := ih fun other member => filled other (mem_cons_of_mem _ member)
    have first := length_pos_iff.mpr (filled item mem_cons_self)
    rw [flatMap_cons, length_append, length_cons]
    omega

end Items

end Ucollect.Library
