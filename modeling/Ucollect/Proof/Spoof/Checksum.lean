import Ucollect.Construction.Spoof.Exchange
import Ucollect.Library.OnesComplement
import Ucollect.Proof.Flow.Ranges

/-
This file proves when the checksum of a header is right.
-/

namespace Ucollect.Spoof
open Library List Option
open Flow (ByteOrder bytes_htons htons_load)

variable {order : ByteOrder} {front back : Bytes}

section Sums

/-- These are the words of a block in network order. -/
def words : Bytes → List Nat
  | high :: low :: data => bigEndian [high, low] :: words data
  | _ => []

theorem bigEndian_pair (high low : UInt8) : bigEndian [high, low] = 256 * high.toNat + low.toNat := by
  simp [bigEndian]

theorem words_le {data : Bytes} : ∀ word ∈ words data, word ≤ 65535 := by
  fun_induction words data with
  | case1 high low data rest =>
    rw [forall_mem_cons, bigEndian_pair]
    have small := high.toNat_lt
    have few := low.toNat_lt
    exact ⟨by omega, rest⟩
  | case2 => exact fun _ member => absurd member not_mem_nil

theorem words_append (even : front.length % 2 = 0) : words (front ++ back) = words front ++ words back := by
  fun_induction words front with
  | case1 high low data rest =>
    rw [length_cons, length_cons] at even
    rw [cons_append, cons_append, words, rest (by omega), cons_append]
  | case2 data short =>
    match data, short with
    | [], _ => rfl
    | [_], _ => cases even
    | high :: low :: data, short => exact absurd rfl (short high low data)

theorem length_words (data : Bytes) : (words data).length = data.length / 2 := by
  fun_induction words data with
  | case1 high low data rest =>
    rw [length_cons, rest, length_cons, length_cons]
    omega
  | case2 data short =>
    match data, short with
    | [], _ => rfl
    | [_], _ => simp
    | high :: low :: data, short => exact absurd rfl (short high low data)

theorem toNat_sumWords (data : Bytes) (sum : UInt32) :
    (sumWords order data sum).toNat = (sum.toNat + (words data).sum) % 2 ^ 32 := by
  fun_induction words data generalizing sum with
  | case1 high low data rest =>
    have small := high.toNat_lt
    have few := low.toNat_lt
    rw [sumWords, rest, htons_load, UInt32.toNat_add, UInt16.toNat_toUInt32, UInt16.toNat_ofNat',
      bigEndian_pair, sum_cons]
    omega
  | case2 data short =>
    have bound := sum.toNat_lt
    rw [sumWords.eq_2 _ _ _ short, sum_nil, Nat.add_zero, Nat.mod_eq_of_lt bound]

end Sums

/-- The high and the low half of the sum are added once. -/
def singleFold (sum : Nat) : Nat := sum % 2 ^ 16 + sum / 2 ^ 16

theorem toNat_masked (sum : UInt32) :
    ((sum &&& 0xFFFF) + ((sum &&& (0xFFFF0000 : UInt32)) >>> (16 : UInt32))).toNat = singleFold sum.toNat := by
  have bound := sum.toNat_lt
  have low : sum.toNat &&& 0xFFFF = sum.toNat % 2 ^ 16 := Nat.and_two_pow_sub_one_eq_mod _ 16
  have high : (sum.toNat &&& 0xFFFF0000) >>> 16 = sum.toNat / 2 ^ 16 := by
    rw [Nat.shiftRight_and_distrib, Nat.shiftRight_eq_div_pow]
    change sum.toNat / 2 ^ 16 &&& 2 ^ 16 - 1 = _
    rw [Nat.and_two_pow_sub_one_eq_mod, Nat.mod_eq_of_lt (by omega)]
  rw [UInt32.toNat_add, UInt32.toNat_shiftRight, UInt32.toNat_and, UInt32.toNat_and]
  change ((sum.toNat &&& 0xFFFF) + (sum.toNat &&& 0xFFFF0000) >>> 16) % 2 ^ 32 = _
  rw [low, high, singleFold, Nat.mod_eq_of_lt (by omega)]

section Installing

variable (order front back)

/-- These are the words of a block with a zeroed field. -/
def blockSum (front back : Bytes) : Nat := (words front).sum + (words back).sum

/-- With the result in the field, the words add up to ones only. -/
def Completes : Prop :=
  ∃ check, ipCheck order (front ++ order.bytes 0 ++ back) = some check ∧
    onesSum 0xFFFF (words (front ++ order.bytes check.toUInt16 ++ back)) = 0xFFFF

/-- The sum loses a carry at 32 bits, and the fold can lose one more. -/
def lostCarries (sum : Nat) : Nat := sum / 2 ^ 32 + singleFold (sum % 2 ^ 32) / 2 ^ 16

variable {order front back}

theorem even_bytes (number : UInt16) : (order.bytes number).length % 2 = 0 := by
  cases order <;> simp [ByteOrder.bytes, word16]

theorem words_word16 (number : UInt16) : words (word16 number.toNat) = [number.toNat] := by
  simp only [word16, words]
  exact congrArg (· :: []) (bigEndian_word16 number.toNat_lt)

theorem sum_words_block (even : front.length % 2 = 0) (number : UInt16) :
    (words (front ++ order.bytes (order.htons number) ++ back)).sum = blockSum front back + number.toNat := by
  rw [append_assoc, words_append even, words_append (even_bytes _), bytes_htons, words_word16,
    sum_append, sum_append, sum_singleton, blockSum]
  omega

theorem bytes_zero : order.bytes 0 = order.bytes (order.htons 0) := by
  cases order <;> rfl

/-- The result before its bytes are swapped. -/
def complement (sum : Nat) : Nat := (2 ^ 32 - singleFold sum + 0xFFFF) % 2 ^ 16

theorem complement_lt (sum : Nat) : complement sum < 2 ^ 16 := Nat.mod_lt _ (by decide)

theorem toUInt16_complement (sum : UInt32) :
    (0xFFFF - ((sum &&& 0xFFFF) + ((sum &&& (0xFFFF0000 : UInt32)) >>> (16 : UInt32)))).toUInt16 =
      UInt16.ofNat (complement sum.toNat) := by
  apply UInt16.toNat_inj.mp
  rw [UInt32.toNat_toUInt16, UInt32.toNat_sub, toNat_masked, UInt16.toNat_ofNat', complement,
    Nat.mod_mod, Nat.mod_mod_of_dvd _ (by decide)]
  rfl

theorem ipCheck_block (evenFront : front.length % 2 = 0) (evenBack : back.length % 2 = 0) :
    ipCheck order (front ++ order.bytes 0 ++ back) =
      some (order.htons (UInt16.ofNat (complement (blockSum front back % 2 ^ 32)))).toUInt32 := by
  have even : (front ++ order.bytes 0 ++ back).length % 2 = 0 := by
    have middle := @even_bytes order 0
    rw [length_append, length_append]
    omega
  have sum : (sumWords order (front ++ order.bytes 0 ++ back) 0).toNat =
      blockSum front back % 2 ^ 32 := by
    rw [toNat_sumWords, bytes_zero, sum_words_block evenFront, UInt32.toNat_zero, UInt16.toNat_zero,
      Nat.zero_add, Nat.add_zero]
  rw [ipCheck, if_neg (by rw [even]; decide)]
  dsimp only
  rw [toUInt16_complement, sum]

theorem singleFold_le (sum : Nat) : singleFold (sum % 2 ^ 32) ≤ 2 * 0xFFFF := by
  have low := Nat.mod_lt (sum % 2 ^ 32) (show 0 < 2 ^ 16 by decide)
  have high : sum % 2 ^ 32 / 2 ^ 16 < 2 ^ 16 := by omega
  rw [singleFold]
  omega

/-- The sum with its complement misses a multiple of all ones by the lost carries. -/
theorem complete_iff (sum : Nat) :
    0xFFFF ∣ sum + complement (sum % 2 ^ 32) ∧ 0 < sum + complement (sum % 2 ^ 32) ↔
      0xFFFF ∣ lostCarries sum := by
  have bound := singleFold_le sum
  have fold : singleFold (sum % 2 ^ 32) = sum % 2 ^ 32 % 2 ^ 16 + sum % 2 ^ 32 / 2 ^ 16 := rfl
  rw [complement, lostCarries]
  generalize singleFold (sum % 2 ^ 32) = folded at bound fold
  by_cases carry : folded < 2 ^ 16
  · have value : (2 ^ 32 - folded + 0xFFFF) % 2 ^ 16 = 0xFFFF - folded := by omega
    have none : folded / 2 ^ 16 = 0 := by omega
    rw [value, none]
    omega
  · have value : (2 ^ 32 - folded + 0xFFFF) % 2 ^ 16 = 0x1FFFF - folded := by omega
    have one : folded / 2 ^ 16 = 1 := by omega
    rw [value, one]
    omega

theorem completes_iff (evenFront : front.length % 2 = 0) (evenBack : back.length % 2 = 0) :
    Completes order front back ↔ 0xFFFF ∣ lostCarries (blockSum front back) := by
  rw [Completes, ipCheck_block evenFront evenBack, ← complete_iff]
  simp only [Option.some.injEq, exists_eq_left', UInt16.toUInt16_toUInt32]
  rw [onesSum_eq_top (by decide) words_le, sum_words_block evenFront, UInt16.toNat_ofNat',
    Nat.mod_eq_of_lt (complement_lt _)]

theorem sum_words_le (data : Bytes) : (words data).sum ≤ 0xFFFF * (data.length / 2) := by
  have bound := sum_le_card_nsmul (words data) 0xFFFF words_le
  rw [length_words, smul_eq_mul] at bound
  omega

/-- A block of at most 64 KiB loses no carry at 32 bits. -/
theorem blockSum_lt (small : front.length + 2 + back.length ≤ 2 ^ 16) :
    blockSum front back < 2 ^ 32 := by
  have first := sum_words_le front
  have second := sum_words_le back
  rw [blockSum]
  omega

/-- The checksum is right when the carries that get lost cancel each other. In a block of at most
64 KiB that means that the single fold has no carry. -/
theorem ipCheck_completes (evenFront : front.length % 2 = 0) (evenBack : back.length % 2 = 0) :
    (Completes order front back ↔ 0xFFFF ∣ lostCarries (blockSum front back)) ∧
      (front.length + 2 + back.length ≤ 2 ^ 16 →
        blockSum front back < 2 ^ 32 ∧
          (Completes order front back ↔ singleFold (blockSum front back) < 2 ^ 16)) := by
  refine ⟨completes_iff evenFront evenBack, fun small => ?_⟩
  have fits := blockSum_lt small
  have bound := singleFold_le (blockSum front back)
  refine ⟨fits, ?_⟩
  rw [Nat.mod_eq_of_lt fits] at bound
  rw [completes_iff evenFront evenBack, lostCarries, Nat.mod_eq_of_lt fits, Nat.div_eq_of_lt fits]
  generalize singleFold (blockSum front back) = folded at bound
  omega

/-- The header of the plugin goes from 192.168.1.1 to 198.51.100.7. -/
theorem ipCheck_completes_header :
    (Completes .little (ipFront .little) [192, 168, 1, 1, 198, 51, 100, 7] ↔
        0xFFFF ∣ lostCarries (blockSum (ipFront .little) [192, 168, 1, 1, 198, 51, 100, 7])) ∧
      ((ipFront .little).length + 2 + [192, 168, 1, 1, 198, 51, 100, (7 : UInt8)].length ≤ 2 ^ 16 →
        blockSum (ipFront .little) [192, 168, 1, 1, 198, 51, 100, 7] < 2 ^ 32 ∧
          (Completes .little (ipFront .little) [192, 168, 1, 1, 198, 51, 100, 7] ↔
            singleFold (blockSum (ipFront .little) [192, 168, 1, 1, 198, 51, 100, 7]) < 2 ^ 16)) :=
  ipCheck_completes (by decide) (by decide)

/-- The plugin sends a header from 192.168.1.1 to 10.0.108.91. -/
theorem header_incomplete :
    ¬ ∃ header, checkedHeader .little [192, 168, 1, 1] [10, 0, 108, 91] = some header ∧
      onesSum 0xFFFF (words header) = 0xFFFF := by
  rintro ⟨header, built, complete⟩
  obtain ⟨check, checked, rfl⟩ := map_eq_some_iff.mp built
  have completes : Completes .little (ipFront .little) ([192, 168, 1, 1] ++ [10, 0, 108, 91]) :=
    ⟨check, checked, complete⟩
  rw [completes_iff (by decide) (by decide)] at completes
  exact absurd completes (by decide)

end Installing

end Ucollect.Spoof
