import Mathlib.Algebra.Ring.Nat
import Mathlib.Algebra.BigOperators.Group.List.Basic

/-
This file contains sums in one's complement arithmetic, where a carry is added again at the end.
-/

namespace Ucollect.Library
open List

variable {top : Nat} {words : List Nat}

/-- One addition with the end-around carry. -/
def onesAdd (top first second : Nat) : Nat :=
  if first + second ≤ top then first + second else first + second - top

/-- The sum of a list of words. -/
def onesSum (top : Nat) (words : List Nat) : Nat := words.foldl (onesAdd top) 0

/-- A sum of two words is a word. -/
theorem onesAdd_le {first second : Nat} (inside : first ≤ top) (fits : second ≤ top) :
    onesAdd top first second ≤ top := by
  unfold onesAdd
  split
  · assumption
  · omega

/-- The carry keeps the sum modulo the top word. -/
theorem onesAdd_mod (top first second : Nat) : onesAdd top first second % top = (first + second) % top := by
  unfold onesAdd
  split
  · rfl
  · exact (Nat.mod_eq_sub_mod (by omega)).symm

/-- Only the sum of zeros is zero. -/
theorem onesAdd_eq_zero {first second : Nat} : onesAdd top first second = 0 ↔ first + second = 0 := by
  unfold onesAdd
  split
  · exact Iff.rfl
  · omega

/-- The three facts hold of a whole list. -/
theorem foldl_onesAdd (fits : ∀ word ∈ words, word ≤ top) {start : Nat} (inside : start ≤ top) :
    words.foldl (onesAdd top) start ≤ top ∧
      words.foldl (onesAdd top) start % top = (start + words.sum) % top ∧
      (words.foldl (onesAdd top) start = 0 ↔ start + words.sum = 0) := by
  induction words generalizing start with
  | nil => exact ⟨inside, rfl, Iff.rfl⟩
  | cons word words ih =>
    rw [forall_mem_cons] at fits
    obtain ⟨bound, residue, zero⟩ := ih fits.2 (onesAdd_le inside fits.1)
    refine ⟨bound, ?_, ?_⟩
    · rw [foldl_cons, residue, Nat.add_mod, onesAdd_mod, ← Nat.add_mod, sum_cons, Nat.add_assoc]
    · have added := @onesAdd_eq_zero top start word
      rw [foldl_cons, zero, sum_cons]
      omega

/-- The sum has only ones when the plain sum is a positive multiple. -/
theorem onesSum_eq_top (positive : 0 < top) (fits : ∀ word ∈ words, word ≤ top) :
    onesSum top words = top ↔ top ∣ words.sum ∧ 0 < words.sum := by
  obtain ⟨bound, residue, zero⟩ := foldl_onesAdd fits (Nat.zero_le top)
  rw [Nat.zero_add] at residue zero
  rw [onesSum, Nat.dvd_iff_mod_eq_zero, ← residue]
  constructor
  · intro full
    rw [full, Nat.mod_self]
    exact ⟨rfl, by omega⟩
  · rintro ⟨divides, some⟩
    have multiple := Nat.dvd_of_mod_eq_zero divides
    exact Nat.le_antisymm bound (Nat.le_of_dvd (by omega) multiple)

end Ucollect.Library
