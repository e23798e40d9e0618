import Ucollect.Construction.Majordomo.Traffic
import Ucollect.Library.Outcomes
import Ucollect.Proof.Flow.Ranges

/-
This file proves that a comparison of addresses compares the bits of the prefix.
-/

namespace Ucollect.Majordomo.Subnets
open Library List Option
open Flow (ByteOrder prefixMask bits_append bits_injective length_bits load_and load_injective
  split_position take_bits zipWith_prefixMask masked_eq_iff)
open Flow.FilterTree (bits)

variable {order : ByteOrder} {first second : Bytes}

section Words

variable {count : Nat}

/-- Two masked addresses are equal when they agree on the bits of the prefix. -/
theorem masked_prefix_iff {size : Nat} (length : first.length = size) (other : second.length = size)
    (some : 0 < count) (few : count ≤ 8 * size) :
    List.zipWith (fun byte mask => byte &&& mask) first (prefixMask size count) =
        List.zipWith (fun byte mask => byte &&& mask) second (prefixMask size count) ↔
      (bits first).take count = (bits second).take count := by
  obtain ⟨full, rest, rfl, some, few'⟩ : ∃ full rest, count = 8 * full + rest ∧ 0 < rest ∧
      rest ≤ 8 := ⟨(count - 1) / 8, (count - 1) % 8 + 1, by omega, by omega, by omega⟩
  obtain ⟨front, byte, back, rfl, frontLength⟩ : ∃ front byte back, first = front ++ byte :: back ∧
      front.length = full := split_position (by omega)
  obtain ⟨head, last, tail, rfl, headLength⟩ : ∃ head last tail, second = head ++ last :: tail ∧
      head.length = full := split_position (by omega)
  have masked := zipWith_prefixMask some few' front back byte length
  have expected := zipWith_prefixMask some few' head tail last other
  have ownBits := take_bits front back byte few'
  have otherBits := take_bits head tail last few'
  have lengths : front.length = head.length := frontLength.trans headLength.symm
  have rests : back.length = tail.length := by
    rw [length_append, length_cons] at length other
    omega
  rw [frontLength] at masked ownBits
  rw [headLength] at expected otherBits
  rw [masked, expected, ownBits, otherBits, rests]
  constructor
  · intro same
    obtain ⟨heads, tails⟩ := append_inj same lengths
    rw [heads, (masked_eq_iff byte last some few').mp (List.cons.inj tails).1]
  · intro same
    obtain ⟨heads, tails⟩ := append_inj same (by rw [length_bits, length_bits, lengths])
    rw [bits_injective lengths heads, (masked_eq_iff byte last some few').mpr tails]

/-- The bytes of a mask are the same on every host. -/
theorem precomputeMasks_get : ∀ count ≤ 32, 0 < count →
    (precomputeMasks order)[count]? = some (order.load (prefixMask 4 count)) := by
  cases order <;> decide

theorem length_prefixMask : ∀ count ≤ 32, 0 < count → (prefixMask 4 count).length = 4 := by decide

theorem masked_word_iff (length : first.length = 4) (other : second.length = 4) (some : 0 < count)
    (few : count ≤ 32) :
    order.load first &&& order.load (prefixMask 4 count) =
        order.load second &&& order.load (prefixMask 4 count) ↔
      (bits first).take count = (bits second).take count := by
  have size := length_prefixMask count few some
  rw [← masked_prefix_iff length other some few, load_and (by rw [length, size]),
    load_and (by rw [other, size])]
  constructor
  · exact load_injective (by simp only [length_zipWith, length, other])
  · exact congrArg order.load

/-- The first bits of an address are in its first word. -/
theorem take_bits_word (few : count ≤ 32) (long : 4 ≤ first.length) :
    (bits (first.take 4)).take count = (bits first).take count := by
  have size : (bits (first.take 4)).length = 32 := by
    rw [length_bits, length_take_of_le long]
  conv_rhs => rw [← take_append_drop 4 first, bits_append]
  rw [take_append_of_le_length (by omega)]

theorem take_bits_rest (count : Nat) (long : 4 ≤ first.length) :
    (bits first).take (32 + count) = bits (first.take 4) ++ (bits (first.drop 4)).take count := by
  have size : (bits (first.take 4)).length = 32 := by
    rw [length_bits, length_take_of_le long]
  conv_lhs => rw [← take_append_drop 4 first, bits_append, ← size, take_length_add_append]

theorem firstWord_eq (long : 4 ≤ first.length) : firstWord order first = some (order.load (first.take 4)) :=
  if_neg (by omega)

end Words

theorem bitcmp_rest {count : Nat} (wide : 32 < count) (long : 4 ≤ first.length)
    (long' : 4 ≤ second.length) :
    bitcmp order first second count =
      if order.load (first.take 4) ≠ order.load (second.take 4) then some false
      else bitcmp order (first.drop 4) (second.drop 4) (count - 32) := by
  rw [bitcmp, if_pos wide, firstWord_eq long, firstWord_eq long', bind_eq_bind, bind_some,
    bind_some]

theorem bitcmp_last {count : Nat} (positive : 0 < count) (narrow : ¬ 32 < count)
    (long : 4 ≤ first.length) (long' : 4 ≤ second.length) :
    bitcmp order first second count =
      some (order.load (first.take 4) &&& order.load (prefixMask 4 count) ==
        order.load (second.take 4) &&& order.load (prefixMask 4 count)) := by
  rw [bitcmp, if_neg narrow, firstWord_eq long, firstWord_eq long',
    precomputeMasks_get count (by omega) positive, bind_eq_bind, bind_some,
    bind_some, bind_some]

/-- The comparison reads only words of the two addresses and answers whether they agree on the
prefix. -/
theorem bitcmp_words {count : Nat} (words : first.length % 4 = 0) (words' : second.length % 4 = 0)
    (positive : 0 < count) (few : count ≤ 8 * first.length) (few' : count ≤ 8 * second.length) :
    bitcmp order first second count =
      some (decide ((bits first).take count = (bits second).take count)) := by
  induction count using Nat.strongRecOn generalizing first second with
  | ind count ih =>
    have long : 4 ≤ first.length := by omega
    have long' : 4 ≤ second.length := by omega
    have sizes : (first.take 4).length = (second.take 4).length := by
      rw [length_take_of_le long, length_take_of_le long']
    by_cases wide : 32 < count
    · obtain ⟨rest, rfl⟩ := Nat.exists_eq_add_of_le wide.le
      rw [bitcmp_rest wide long long', take_bits_rest _ long, take_bits_rest _ long',
        Nat.add_sub_cancel_left]
      by_cases same : first.take 4 = second.take 4
      · have answer := @ih rest (by omega) (first.drop 4) (second.drop 4)
          (by rw [length_drop]; omega) (by rw [length_drop]; omega) (by omega)
          (by rw [length_drop]; omega) (by rw [length_drop]; omega)
        rw [same, if_neg (not_not_intro rfl), answer]
        simp only [append_cancel_left_eq]
      · have differ : ¬ bits (first.take 4) ++ (bits (first.drop 4)).take rest =
            bits (second.take 4) ++ (bits (second.drop 4)).take rest := by
          intro equal
          exact same (bits_injective sizes
            (append_inj equal (by rw [length_bits, length_bits, sizes])).1)
        rw [if_pos (fun equal => same (load_injective sizes equal)), decide_eq_false differ]
    · rw [bitcmp_last positive wide long long', ← take_bits_word (by omega) long,
        ← take_bits_word (by omega) long']
      congr 1
      rw [Bool.eq_iff_iff, beq_iff_eq, decide_eq_true_eq]
      exact masked_word_iff (length_take_of_le long) (length_take_of_le long') positive
        (by omega)

section Configured

/-- These are the lengths of a prefix that the configuration accepts. -/
def Accepted (family count : Nat) : Prop := 0 < count ∧ count ≤ if family = 4 then 32 else 128

instance (family count : Nat) : Decidable (Accepted family count) := inferInstanceAs (Decidable (_ ∧ _))

variable {inetPton : Nat → Bytes → Option Bytes} {family : Nat}

/-- Every subnet of the configuration has an accepted prefix of an address of its family. -/
theorem parseOption_accepted {line : Bytes} {rule : FilterRule}
    (sizes : ∀ family text address, inetPton family text = some address → address.length = addressSize family)
    (parsed : parseOption inetPton line = some rule) :
    Accepted rule.family rule.prefixLength ∧ rule.addr.length = addressSize rule.family := by
  unfold parseOption at parsed
  split at parsed
  case isFalse => cases parsed
  case isTrue =>
    split at parsed
    case h_1 => cases parsed
    case h_2 addr family read =>
      obtain ⟨within, made⟩ := ite_none_left_eq_some.mp parsed
      cases made
      rw [not_or, Nat.not_lt] at within
      refine ⟨⟨Nat.pos_of_ne_zero within.1, within.2⟩, ?_⟩
      unfold parseAddress at read
      split at read
      case h_1 address found =>
        cases read
        exact sizes 4 _ _ found
      case h_2 =>
        obtain ⟨address, found, same⟩ := map_eq_some_iff.mp read
        cases same
        exact sizes 6 _ _ found

/-- The comparison of two addresses of a family is exact for every accepted prefix. -/
theorem bitcmp_exact {count : Nat} (length : first.length = addressSize family)
    (length' : second.length = addressSize family) (accepted : Accepted family count) :
    bitcmp order first second count =
      some (decide ((bits first).take count = (bits second).take count)) := by
  obtain ⟨positive, few⟩ := accepted
  by_cases four : family = 4
  · rw [addressSize, if_pos four] at length length'
    rw [if_pos four] at few
    exact bitcmp_words (by omega) (by omega) positive (by omega) (by omega)
  · rw [addressSize, if_neg four] at length length'
    rw [if_neg four] at few
    exact bitcmp_words (by omega) (by omega) positive (by omega) (by omega)

/-- The address 10.0.3.1 is in the subnet 10.0.0.0/22. -/
theorem bitcmp_exact_v4 :
    bitcmp .little [10, 0, 3, 1] [10, 0, 0, 0] 22 =
      some (decide ((bits [10, 0, 3, 1]).take 22 = (bits [10, 0, 0, 0]).take 22)) :=
  @bitcmp_exact .little [10, 0, 3, 1] [10, 0, 0, 0] 4 22 rfl rfl (by decide)

variable {filter : List FilterRule} {addr : Bytes}

/-- An address is ignored exactly when it is in one of the subnets. -/
theorem filterAddress_prefixes
    (valid : ∀ rule ∈ filter, Accepted rule.family rule.prefixLength ∧
      rule.addr.length = addressSize rule.family) (size : addr.length = addressSize family) :
    filterAddress order filter addr family = some (decide (∃ rule ∈ filter, rule.family = family ∧
      (bits addr).take rule.prefixLength = (bits rule.addr).take rule.prefixLength)) := by
  induction filter with
  | nil => rfl
  | cons rule rules ih =>
    rw [forall_mem_cons] at valid
    have rest := ih valid.2
    simp only [filterAddress, rest]
    by_cases same : family = rule.family
    · subst same
      have length := valid.1.2
      obtain ⟨positive, few⟩ := valid.1.1
      have whole : addr.take (addressSize rule.family) = addr := by rw [← size, take_length]
      have compared : bitcmp order addr rule.addr rule.prefixLength =
          some (decide ((bits addr).take rule.prefixLength =
            (bits rule.addr).take rule.prefixLength)) := by
        by_cases four : rule.family = 4
        · rw [addressSize, if_pos four] at size length
          rw [if_pos four] at few
          exact bitcmp_words (by omega) (by omega) positive (by omega) (by omega)
        · rw [addressSize, if_neg four] at size length
          rw [if_neg four] at few
          exact bitcmp_words (by omega) (by omega) positive (by omega) (by omega)
      rw [if_pos rfl, whole, compared, bind_eq_bind, bind_some]
      by_cases found : (bits addr).take rule.prefixLength = (bits rule.addr).take rule.prefixLength
      · simp [found]
      · simp [found]
    · rw [if_neg same]
      simp [Ne.symm same]

theorem subnets_followed {values : List Bytes} {filter : List FilterRule}
    (sizes : ∀ family text address, inetPton family text = some address → address.length = addressSize family)
    (read : readSubnets inetPton values = some filter) {addr : Bytes}
    (size : addr.length = addressSize family) :
    filterAddress order filter addr family = some (decide (∃ rule ∈ filter, rule.family = family ∧
      (bits addr).take rule.prefixLength = (bits rule.addr).take rule.prefixLength)) := by
  refine filterAddress_prefixes (fun rule member => ?_) size
  obtain ⟨line, _, parsed⟩ := exists_of_mapM read member
  exact parseOption_accepted sizes parsed

/-- The system knows these two texts. -/
def sampleTable : List (Nat × Bytes × Bytes) :=
  [(4, "10.0.0.0".toList.map letter, [10, 0, 0, 0]),
    (6, "2001:db8::".toList.map letter, [32, 1, 13, 184, 0, 0, 0, 0, 0, 0, 0, 0, 0, 0, 0, 0])]

def samplePton (family : Nat) (text : Bytes) : Option Bytes :=
  (sampleTable.find? fun entry => entry.1 = family ∧ entry.2.1 = text).map fun entry => entry.2.2

def sampleRules : List FilterRule :=
  [⟨[10, 0, 0, 0], 22, 4⟩, ⟨[32, 1, 13, 184, 0, 0, 0, 0, 0, 0, 0, 0, 0, 0, 0, 0], 33, 6⟩]

/-- These are the subnets 10.0.0.0/22 and 2001:db8::/33. -/
theorem subnets_followed_mixed :
    readSubnets samplePton ["10.0.0.0/22".toList.map letter, "2001:db8::/33".toList.map letter] =
        some sampleRules ∧
      filterAddress .little sampleRules [10, 0, 3, 1] 4 =
        some (decide (∃ rule ∈ sampleRules, rule.family = 4 ∧
          (bits [10, 0, 3, 1]).take rule.prefixLength = (bits rule.addr).take rule.prefixLength)) := by
  have read : readSubnets samplePton ["10.0.0.0/22".toList.map letter,
      "2001:db8::/33".toList.map letter] = some sampleRules := rfl
  refine ⟨read, @subnets_followed .little samplePton 4 _ _ (fun family text address found => ?_) read
    _ rfl⟩
  obtain ⟨entry, place, rfl⟩ := map_eq_some_iff.mp found
  have sizes : ∀ entry ∈ sampleTable, entry.2.2.length = addressSize entry.1 := by decide
  have same : entry.1 = family ∧ entry.2.1 = text := by simpa using List.find?_some place
  rw [sizes entry (mem_of_find?_eq_some place), same.1]

end Configured

end Ucollect.Majordomo.Subnets
