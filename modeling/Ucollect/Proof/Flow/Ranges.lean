import Mathlib.Data.Nat.Bitwise
import Ucollect.Proof.Flow.Language

/-
This file proves that a masked comparison of addresses compares the bits of the prefix.
-/

namespace Ucollect.Flow
open Library FilterTree List Option

/-- The highest bit comes first. -/
def byteBits (byte : UInt8) : List Bool :=
  (List.range 8).map fun position => byte.toNat.testBit (7 - position)

theorem bits_cons (byte : UInt8) (bytes : Bytes) : bits (byte :: bytes) = byteBits byte ++ bits bytes :=
  rfl

theorem bits_append (first second : Bytes) : bits (first ++ second) = bits first ++ bits second :=
  flatMap_append

@[simp] theorem length_byteBits (byte : UInt8) : (byteBits byte).length = 8 := rfl

theorem length_bits (bytes : Bytes) : (bits bytes).length = 8 * bytes.length := by
  induction bytes with
  | nil => rfl
  | cons byte bytes ih =>
    rw [bits_cons, length_append, length_byteBits, ih, length_cons]
    omega

/-- The first bits of two bytes are equal when their high bits are. -/
theorem take_byteBits_iff (first second : UInt8) (count : Nat) (small : count ≤ 8) :
    (byteBits first).take count = (byteBits second).take count ↔
      ∀ position, 8 - count ≤ position → position < 8 →
        first.toNat.testBit position = second.toNat.testBit position := by
  rw [byteBits, byteBits, ← map_take, ← map_take, map_inj_left]
  constructor
  · intro same position above below
    have member : 7 - position ∈ (List.range 8).take count := by
      rw [take_range, mem_range]
      omega
    have found := same (7 - position) member
    rwa [show 7 - (7 - position) = position from by omega] at found
  · intro same position member
    rw [take_range, mem_range] at member
    exact same (7 - position) (by omega) (by omega)

variable {position : Nat}

/-- A byte has eight bits. -/
theorem testBit_large (byte : UInt8) (large : 8 ≤ position) : byte.toNat.testBit position = false :=
  Nat.testBit_lt_two_pow (lt_of_lt_of_le byte.toNat_lt (Nat.pow_le_pow_right (by decide) large))

/-- The bits determine the byte. -/
theorem byteBits_injective {first second : UInt8} (same : byteBits first = byteBits second) :
    first = second := by
  have whole := (take_byteBits_iff first second 8 le_rfl).mp (congrArg (List.take 8) same)
  apply UInt8.toNat_inj.mp
  apply Nat.eq_of_testBit_eq
  intro position
  by_cases small : position < 8
  · exact whole position (by omega) small
  · rw [testBit_large first (by omega), testBit_large second (by omega)]

/-- The bits determine bytes of a known number. -/
theorem bits_injective {first second : Bytes} (length : first.length = second.length)
    (same : bits first = bits second) : first = second := by
  induction first generalizing second with
  | nil => exact (length_eq_zero_iff.mp length.symm).symm
  | cons byte bytes ih =>
    match second, length with
    | other :: others, length =>
      rw [bits_cons, bits_cons] at same
      obtain ⟨head, tail⟩ := append_inj same rfl
      rw [byteBits_injective head, ih (Nat.succ.inj length) tail]

/-- The mask of the last byte of a prefix has ones in front. -/
def lastMask (count : Nat) : UInt8 := (0xFF * 2 ^ (8 - count)).toUInt8

variable {count : Nat}

/-- The last mask has its ones at the highest positions. -/
theorem testBit_lastMask (some : 0 < count) (few : count ≤ 8) (small : position < 8) :
    (lastMask count).toNat.testBit position = decide (8 - count ≤ position) := by
  have all : ∀ count ∈ List.range 9, ∀ position ∈ List.range 8, 0 < count →
      (lastMask count).toNat.testBit position = decide (8 - count ≤ position) := by decide
  exact all count (mem_range.mpr (by omega)) position (mem_range.mpr small) some

/-- Two masked bytes are equal when their first bits agree. -/
theorem masked_eq_iff (first second : UInt8) (some : 0 < count) (few : count ≤ 8) :
    first &&& lastMask count = second &&& lastMask count ↔
      (byteBits first).take count = (byteBits second).take count := by
  rw [take_byteBits_iff first second count few, ← UInt8.toNat_inj, UInt8.toNat_and, UInt8.toNat_and]
  constructor
  · intro same position above below
    have bit := congrArg (Nat.testBit · position) same
    simp only [Nat.testBit_and, testBit_lastMask some few below, above, decide_true,
      Bool.and_true] at bit
    exact bit
  · intro same
    apply Nat.eq_of_testBit_eq
    intro position
    rw [Nat.testBit_and, Nat.testBit_and]
    by_cases small : position < 8
    · by_cases above : 8 - count ≤ position
      · rw [same position above small]
      · rw [testBit_lastMask some few small, decide_eq_false above, Bool.and_false, Bool.and_false]
    · rw [testBit_large (lastMask count) (by omega), Bool.and_false, Bool.and_false]

/-- A mask of ones keeps the bytes. -/
theorem zipWith_and_ones (bytes : Bytes) :
    List.zipWith (fun byte mask => byte &&& mask) bytes (List.replicate bytes.length 0xFF) =
      bytes := by
  induction bytes with
  | nil => rfl
  | cons byte bytes ih =>
    rw [length_cons, replicate_succ, zipWith_cons_cons, ih]
    congr 1
    exact UInt8.and_neg_one

/-- A mask of zeros clears the bytes. -/
theorem zipWith_and_zeros (bytes : Bytes) :
    List.zipWith (fun byte mask => byte &&& mask) bytes (List.replicate bytes.length 0) =
      List.replicate bytes.length 0 := by
  induction bytes with
  | nil => rfl
  | cons byte bytes ih => rw [length_cons, replicate_succ, zipWith_cons_cons, ih, UInt8.and_zero]

/-- A list of some items is split before its item at the position. -/
theorem split_position {A : Type} {items : List A} (small : position < items.length) :
    ∃ front item back,
      items = front ++ item :: back ∧ front.length = position :=
  ⟨items.take position, items[position], items.drop (position + 1),
    by rw [getElem_cons_drop, take_append_drop],
    length_take_of_le (le_of_lt small)⟩

/-- A prefix ends inside one byte. -/
theorem take_bits (front back : Bytes) (byte : UInt8) (few : count ≤ 8) :
    (bits (front ++ byte :: back)).take (8 * front.length + count) =
      bits front ++ (byteBits byte).take count := by
  rw [bits_append, bits_cons, ← length_bits, take_length_add_append, take_append_of_le_length few]

variable {addrLen : Nat}

/-- A mask has ones, one cut byte and zeros. -/
theorem prefixMask_eq {full : Nat} (some : 0 < count) (few : count ≤ 8) :
    prefixMask addrLen (8 * full + count) = List.replicate full 0xFF ++ lastMask count ::
      List.replicate (addrLen - (full + 1)) 0 := by
  have length : (8 * full + count + 7) / 8 = full + 1 := by omega
  have shift : (8 - (8 * full + count) % 8) % 8 = 8 - count := by omega
  simp only [prefixMask, length, shift, Nat.add_sub_cancel, append_assoc, singleton_append]
  rfl

/-- An address has its bytes, one masked byte and zeros. -/
theorem prefixAddress_eq {addrLen count : Nat} (some : 0 < count) (few : count ≤ 8) (front : Bytes)
    (last : UInt8) :
    prefixAddress addrLen (8 * front.length + count) (front ++ [last]) =
      front ++ (last &&& lastMask count) :: List.replicate (addrLen - (front.length + 1)) 0 := by
  have length : (8 * front.length + count + 7) / 8 = front.length + 1 := by omega
  have shift : (8 - (8 * front.length + count) % 8) % 8 = 8 - count := by omega
  simp only [prefixAddress, length, shift, dropLast_concat, List.getLast?_concat, toList_some,
    map_cons, map_nil, append_assoc, singleton_append]
  rfl

theorem zipWith_prefixMask (some : 0 < count) (few : count ≤ 8) (front back : Bytes) (byte : UInt8)
    (length : (front ++ byte :: back).length = addrLen) :
    List.zipWith (fun byte mask => byte &&& mask) (front ++ byte :: back)
        (prefixMask addrLen (8 * front.length + count)) =
      front ++ (byte &&& lastMask count) :: List.replicate back.length 0 := by
  have rest : addrLen - (front.length + 1) = back.length := by
    rw [← length, length_append, length_cons]
    omega
  rw [prefixMask_eq some few, rest, zipWith_append (by rw [length_replicate]), zipWith_and_ones,
    zipWith_cons_cons, zipWith_and_zeros]

/-- The masked words are equal exactly when the bits of the prefix are. -/
theorem matchesMasked_eq {own bytes : Bytes} {netmask : Nat} (length : own.length = addrLen)
    (some : 0 < netmask) (few : netmask ≤ 8 * addrLen) (size : bytes.length = (netmask + 7) / 8) :
    matchesMasked own (prefixAddress addrLen netmask bytes) (prefixMask addrLen netmask) =
      ((bits own).take netmask == (bits bytes).take netmask) := by
  obtain ⟨full, count, rfl, some, few'⟩ : ∃ full count, netmask = 8 * full + count ∧ 0 < count ∧
      count ≤ 8 := ⟨(netmask - 1) / 8, (netmask - 1) % 8 + 1, by omega, by omega, by omega⟩
  have whole : bytes.length = full + 1 := by omega
  obtain ⟨front, byte, back, rfl, frontLength⟩ : ∃ front byte back, own = front ++ byte :: back ∧
      front.length = full := split_position (by omega)
  obtain ⟨first, last, none, rfl, firstLength⟩ : ∃ first last none, bytes = first ++ last :: none ∧
      first.length = full := split_position (by omega)
  have empty : none = [] := by
    rw [length_append, length_cons, firstLength] at whole
    exact length_eq_zero_iff.mp (by omega)
  subst empty
  have rest : addrLen - (full + 1) = back.length := by
    rw [← length, length_append, length_cons]
    omega
  have masked := zipWith_prefixMask some few' front back byte length
  have expected := @prefixAddress_eq addrLen count some few' first last
  have ownBits := take_bits front back byte few'
  have prefixBits := take_bits first [] last few'
  rw [frontLength] at masked ownBits
  rw [firstLength] at expected prefixBits
  rw [rest] at expected
  rw [matchesMasked, masked, expected, ownBits, prefixBits, Bool.eq_iff_iff, beq_iff_eq, beq_iff_eq]
  have lengths : front.length = first.length := frontLength.trans firstLength.symm
  constructor
  · intro same
    obtain ⟨head, tail⟩ := append_inj same lengths
    rw [head, (masked_eq_iff byte last some few').mp (List.cons.inj tail).1]
  · intro same
    obtain ⟨head, tail⟩ := append_inj same (by rw [length_bits, length_bits, lengths])
    rw [bits_injective lengths head, (masked_eq_iff byte last some few').mpr tail]

end Ucollect.Flow

/-
This file proves how a host of either byte order sees the numbers of the network.
-/

namespace Ucollect.Flow
open Library List Option

variable {order : ByteOrder} {first second : Bytes}

/-- The bytes of the port change their places. -/
theorem toNat_swap (port : UInt16) :
    (swap port).toNat = 256 * (port.toNat % 256) + port.toNat / 256 := by
  have bound := port.toNat_lt
  rw [swap, UInt16.toNat_ofNat', Nat.mod_eq_of_lt]
  omega

theorem swap_swap (port : UInt16) : swap (swap port) = port := by
  have bound := port.toNat_lt
  apply UInt16.toNat_inj.mp
  rw [toNat_swap, toNat_swap]
  omega

/-- The host with the other order of bytes sees the other number. -/
theorem reverse_word16 (port : UInt16) :
    (word16 port.toNat).reverse = word16 (swap port).toNat := by
  have bound := port.toNat_lt
  have high : (256 * (port.toNat % 256) + port.toNat / 256) / 256 = port.toNat % 256 := by omega
  have low : (256 * (port.toNat % 256) + port.toNat / 256) % 256 = port.toNat / 256 := by omega
  rw [toNat_swap]
  simp only [word16, reverse_cons, reverse_nil, nil_append, singleton_append, List.cons.injEq,
    ← UInt8.toNat_inj, Nat.toUInt8_eq, UInt8.toNat_ofNat', and_true,
    Nat.reducePow]
  omega

/-- A port in network order is stored with its high byte first. -/
theorem bytes_htons (port : UInt16) : order.bytes (order.htons port) = word16 port.toNat := by
  cases order with
  | little => rw [ByteOrder.bytes, ByteOrder.htons, reverse_word16, swap_swap]
  | big => rfl

theorem bigEndian_concat (front : Bytes) (byte : UInt8) :
    bigEndian (front ++ [byte]) = 256 * bigEndian front + byte.toNat := by
  rw [bigEndian, foldl_append, foldl_cons, foldl_nil, bigEndian]

/-- The number determines bytes of a known number. -/
theorem bigEndian_injective (length : first.length = second.length)
    (same : bigEndian first = bigEndian second) : first = second := by
  induction first using List.reverseRecOn generalizing second with
  | nil => exact (length_eq_zero_iff.mp length.symm).symm
  | append_singleton front byte ih =>
    induction second using List.reverseRecOn with
    | nil => simp at length
    | append_singleton other last =>
      have small := byte.toNat_lt
      have few := last.toNat_lt
      rw [bigEndian_concat, bigEndian_concat] at same
      rw [length_append, length_append] at length
      rw [ih (Nat.add_right_cancel length) (by omega),
        UInt8.toNat_inj.mp (show byte.toNat = last.toNat by omega)]

/-- The lowest byte is masked on its own. -/
theorem shifted_and (high low mask part : Nat) (small : low < 2 ^ 8) (few : part < 2 ^ 8) :
    (256 * high + low) &&& (256 * mask + part) = 256 * (high &&& mask) + (low &&& part) := by
  change (2 ^ 8 * high + low) &&& (2 ^ 8 * mask + part) = 2 ^ 8 * (high &&& mask) + (low &&& part)
  apply Nat.eq_of_testBit_eq
  intro position
  rw [Nat.testBit_and, Nat.testBit_two_pow_mul_add _ small, Nat.testBit_two_pow_mul_add _ few,
    Nat.testBit_two_pow_mul_add _ (Nat.and_lt_two_pow _ few)]
  split
  · rw [Nat.testBit_and]
  · rw [Nat.testBit_and]

section

variable (length : first.length = second.length)
include length

/-- Two numbers are masked byte by byte. -/
theorem bigEndian_and :
    bigEndian first &&& bigEndian second =
      bigEndian (List.zipWith (fun byte mask => byte &&& mask) first second) := by
  induction first using List.reverseRecOn generalizing second with
  | nil => exact Nat.zero_and _
  | append_singleton front byte ih =>
    induction second using List.reverseRecOn with
    | nil => simp at length
    | append_singleton other last =>
      rw [length_append, length_append] at length
      have shorter := Nat.add_right_cancel length
      rw [zipWith_append shorter, zipWith_cons_cons, zipWith_nil_left, bigEndian_concat,
        bigEndian_concat, bigEndian_concat, ← ih shorter,
        shifted_and _ _ _ _ byte.toNat_lt last.toNat_lt, UInt8.toNat_and]

/-- A host of either order tells different words apart. -/
theorem load_injective (same : order.load first = order.load second) : first = second := by
  cases order with
  | little =>
    exact reverse_injective
      (bigEndian_injective (by rw [length_reverse, length_reverse, length]) same)
  | big => exact bigEndian_injective length same

/-- A mask acts on each byte, wherever the host looks for it. -/
theorem load_and :
    order.load first &&& order.load second =
      order.load (List.zipWith (fun byte mask => byte &&& mask) first second) := by
  cases order with
  | little =>
    rw [ByteOrder.load, ByteOrder.load, ByteOrder.load, reverse_zipWith length]
    exact bigEndian_and (by rw [length_reverse, length_reverse, length])
  | big => exact bigEndian_and length

end

/-- The network order of a word is the number that the host means. -/
theorem htons_load (high low : UInt8) :
    order.htons (UInt16.ofNat (order.load [high, low])) = UInt16.ofNat (bigEndian [high, low]) := by
  cases order with
  | little =>
    have small := high.toNat_lt
    have few := low.toNat_lt
    apply UInt16.toNat_inj.mp
    simp only [ByteOrder.htons, ByteOrder.load, toNat_swap, bigEndian, reverse_cons, reverse_nil,
      nil_append, singleton_append, foldl_cons, foldl_nil,
      UInt16.toNat_ofNat']
    have swapped : 256 * (256 * 0 + low.toNat) + high.toNat < 2 ^ 16 := by omega
    have straight : 256 * (256 * 0 + high.toNat) + low.toNat < 2 ^ 16 := by omega
    rw [Nat.mod_eq_of_lt swapped, Nat.mod_eq_of_lt straight]
    omega
  | big => rfl

end Ucollect.Flow
