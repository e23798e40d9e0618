import Ucollect.Construction.Core.MemPool

/-
This file proves what a dump of bytes writes.
-/

namespace Ucollect.Hex
open Library List

variable {memory : Nat → UInt8} {front : Bytes}

/-- Groups of two digits have one separator between them. -/
def hexText : Nat → Bytes → Bytes
  | _, [] => []
  | _, [byte] => hexByte byte
  | position, byte :: next :: data =>
    hexByte byte ++ separator position :: hexText (position + 1) (next :: data)

/-- No write leaves the buffer, and the buffer then holds the text with its terminator. -/
structure Dumped (data : Bytes) : Prop where
  inside : ∀ write ∈ memPoolHex data, write.Inside (allocated data)
  shows : ∀ memory, Shows (applyWrites memory (memPoolHex data)) (hexText 0 data ++ [0])
  closed : 0 ∉ hexText 0 data

theorem hexDigit_ne_zero : ∀ value < 16, hexDigit value ≠ 0 := by decide

theorem zero_notMem_hexByte (byte : UInt8) : 0 ∉ hexByte byte := by
  have small := byte.toNat_lt
  intro member
  rw [hexByte, mem_cons, mem_singleton] at member
  rcases member with high | low
  · exact hexDigit_ne_zero _ (by omega) high.symm
  · exact hexDigit_ne_zero _ (by omega) low.symm

theorem separator_ne_zero (position : Nat) : separator position ≠ 0 := by
  unfold separator
  split <;> decide

theorem zero_notMem_hexText (position : Nat) (data : Bytes) : 0 ∉ hexText position data := by
  fun_induction hexText position data with
  | case1 => exact not_mem_nil
  | case2 position byte => exact zero_notMem_hexByte byte
  | case3 position byte next data rest =>
    rw [mem_append, mem_cons, not_or, not_or]
    exact ⟨zero_notMem_hexByte byte, (separator_ne_zero position).symm, rest⟩

theorem length_hexText {data : Bytes} (nonempty : data ≠ []) (position : Nat) :
    (hexText position data).length + 1 = 3 * data.length := by
  fun_induction hexText position data with
  | case1 => exact absurd rfl nonempty
  | case2 position byte => rfl
  | case3 position byte next data rest =>
    have tail := rest (cons_ne_nil next data)
    have digits : (hexByte byte).length = 2 := rfl
    simp only [length_append, length_cons, digits] at tail ⊢
    omega

/-- The loop leaves the last separator and the last terminator behind the text. -/
theorem shows_sprintfs {data : Bytes} (nonempty : data ≠ []) {position : Nat} {back : Bytes}
    (shows : Shows memory (front ++ back)) (place : front.length = 3 * position) :
    ∃ separator, Shows (applyWrites memory (sprintfs position data))
      (front ++ (hexText position data ++ [separator, 0])) := by
  induction data generalizing memory front back position with
  | nil => exact absurd rfl nonempty
  | cons byte data ih =>
    have written := shows.write place.symm (hexByte byte ++ [separator position, 0])
    cases data with
    | nil => exact ⟨separator position, written⟩
    | cons next data =>
      have split : front ++ (hexByte byte ++ [separator position, 0]) =
          (front ++ (hexByte byte ++ [separator position])) ++ [0] := by
        simp only [append_assoc, cons_append, nil_append]
      rw [split] at written
      have moved : (front ++ (hexByte byte ++ [separator position])).length =
          3 * (position + 1) := by
        rw [length_append, length_append, place]
        change 3 * position + (2 + 1) = _
        omega
      obtain ⟨last, shown⟩ := ih (cons_ne_nil next data) written moved
      refine ⟨last, ?_⟩
      rw [sprintfs, applyWrites_cons, sprintf, hexText]
      simpa only [append_assoc, cons_append, nil_append] using shown

/-- The terminator of the last group stands one place behind all groups. -/
theorem exists_sprintfs_end {data : Bytes} (nonempty : data ≠ []) (position : Nat) :
    ∃ write ∈ sprintfs position data,
      write.offset + write.items.length = 3 * (position + data.length) + 1 := by
  induction data generalizing position with
  | nil => exact absurd rfl nonempty
  | cons byte data ih =>
    cases data with
    | nil => exact ⟨sprintf position byte, mem_singleton_self _, rfl⟩
    | cons next data =>
      obtain ⟨write, member, ends⟩ :=
        ih (cons_ne_nil next data) (position + 1)
      refine ⟨write, mem_cons_of_mem _ member, ?_⟩
      simp only [ends, length_cons]
      omega

theorem exists_outside (data : Bytes) : ∃ write ∈ memPoolHex data, ¬ write.Inside (allocated data) := by
  by_cases empty : data = []
  · subst empty
    exact ⟨⟨0, [0]⟩, by decide, by decide⟩
  · obtain ⟨write, member, ends⟩ := exists_sprintfs_end empty 0
    refine ⟨write, mem_append_left _ member, ?_⟩
    rw [Write.Inside, allocated, ends]
    omega

theorem shows_memPoolHex (data : Bytes) (memory : Nat → UInt8) :
    Shows (applyWrites memory (memPoolHex data)) (hexText 0 data ++ [0]) := by
  rw [memPoolHex, applyWrites_append, applyWrites_cons]
  by_cases empty : data = []
  · subst empty
    exact (shows_nil memory).write rfl [0]
  · have start : Shows memory ([] ++ []) := shows_nil memory
    obtain ⟨last, shown⟩ := @shows_sprintfs memory [] data empty 0 [] start rfl
    have text := length_hexText empty 0
    have terminated : Shows _ (hexText 0 data ++ [last, 0]) := shown
    apply terminated.write
    rw [if_pos (by rwa [ne_eq, length_eq_zero_iff])]
    omega

/-- The text is right, and no dump stays in its buffer. -/
theorem memPoolHex_outside (data : Bytes) :
    ¬ Dumped data ∧ (∀ memory, Shows (applyWrites memory (memPoolHex data)) (hexText 0 data ++ [0])) ∧
      0 ∉ hexText 0 data := by
  refine ⟨fun dumped => ?_, shows_memPoolHex data, zero_notMem_hexText 0 data⟩
  obtain ⟨write, member, outside⟩ := exists_outside data
  exact outside (dumped.inside write member)

/-- The dump of one byte has three places, and its first terminator is the fourth. -/
theorem byte_dump_outside : ¬ ∀ data : Bytes, Dumped data := by
  intro dumped
  exact absurd ((dumped [171]).inside ⟨0, [65, 66, 58, 0]⟩ (by decide)) (by decide)

end Ucollect.Hex
