import Mathlib.Order.Bounds.Basic
import Mathlib.Data.Nat.ModEq

/-
This file contains rings that hold a moving part of an endless tape, and the maxima over it.
-/

namespace Ucollect.Library
open List Option Function

section Rings

variable {A : Type} {slots : List A} {tape : Nat → A} {base position : Nat}

/-- The ring holds the positions of the tape from its base on. -/
def Holds (slots : List A) (tape : Nat → A) (base : Nat) : Prop :=
  ∀ position, base ≤ position → position < base + slots.length →
    slots[position % slots.length]? = some (tape position)

/-- Two positions of the held part share no slot. -/
theorem slot_unique {size other : Nat} (lower : base ≤ position) (upper : position < base + size)
    (otherLower : base ≤ other) (otherUpper : other < base + size)
    (same : position % size = other % size) : position = other := by
  rcases Nat.le_total position other with before | after
  · have divides : size ∣ other - position := (Nat.modEq_iff_dvd' before).mp same
    have zero := Nat.eq_zero_of_dvd_of_lt divides (by omega)
    omega
  · have divides : size ∣ position - other := (Nat.modEq_iff_dvd' after).mp same.symm
    have zero := Nat.eq_zero_of_dvd_of_lt divides (by omega)
    omega

/-- The slot of the base is reused for the position behind the held part. -/
theorem Holds.advance (holds : Holds slots tape base) {blank : A}
    (fresh : tape (base + slots.length) = blank) :
    Holds (slots.set (base % slots.length) blank) tape (base + 1) := by
  intro position lower upper
  rw [length_set] at upper ⊢
  have size : 0 < slots.length := by omega
  rw [List.getElem?_set]
  by_cases last : position = base + slots.length
  · subst last
    rw [Nat.add_mod_right, if_pos rfl, if_pos (Nat.mod_lt _ size), fresh]
  · have other : base % slots.length ≠ position % slots.length := by
      intro same
      have eq := slot_unique (Nat.le_refl base) (by omega) (by omega) (by omega) same
      omega
    rw [if_neg other]
    exact holds position (by omega) (by omega)

/-- A change of one held position changes its slot. -/
theorem Holds.modify (holds : Holds slots tape base) (change : A → A) (lower : base ≤ position)
    (upper : position < base + slots.length) :
    Holds (slots.modify (position % slots.length) change)
      (update tape position (change (tape position))) base := by
  intro other otherLower otherUpper
  rw [length_modify] at otherUpper ⊢
  rw [List.getElem?_modify, holds other otherLower otherUpper, Option.map_eq_map, map_some]
  by_cases same : other = position
  · subst same
    simp
  · have slots : position % slots.length ≠ other % slots.length := fun equal =>
      same (slot_unique lower upper otherLower otherUpper equal).symm
    rw [update_of_ne same, if_neg slots]

theorem Holds.getD (holds : Holds slots tape base) (default : A) (lower : base ≤ position)
    (upper : position < base + slots.length) :
    slots.getD (position % slots.length) default = tape position := by
  rw [getD_eq_getElem?_getD, holds position lower upper, getD_some]

end Rings

section Peaks

variable {A : Type} [LinearOrder A] [OrderBot A] {value : Nat → A} {first last : Nat} {peak : A}

/-- The peak is the maximum over a range, and bottom for a range without a greater value. -/
structure Peak (value : Nat → A) (first last : Nat) (peak : A) : Prop where
  bound : ∀ position, first ≤ position → position < last → value position ≤ peak
  reached : peak = ⊥ ∨ ∃ position, first ≤ position ∧ position < last ∧ value position = peak

theorem peak_empty (value : Nat → A) (first : Nat) : Peak value first first ⊥ where
  bound position lower upper := absurd lower (by omega)
  reached := .inl rfl

/-- A running maximum extends the range by one position. -/
theorem Peak.extend (holds : Peak value first last peak) (order : first ≤ last) :
    Peak value first (last + 1) (if peak < value last then value last else peak) := by
  by_cases higher : peak < value last
  · rw [if_pos higher]
    constructor
    case bound =>
      intro position lower upper
      rcases Nat.lt_succ_iff_lt_or_eq.mp upper with before | rfl
      · exact (holds.bound position lower before).trans higher.le
      · exact le_rfl
    case reached => exact .inr ⟨last, order, by omega, rfl⟩
  · rw [if_neg higher]
    constructor
    case bound =>
      intro position lower upper
      rcases Nat.lt_succ_iff_lt_or_eq.mp upper with before | rfl
      · exact holds.bound position lower before
      · exact not_lt.mp higher
    case reached =>
      rcases holds.reached with zero | ⟨position, lower, upper, same⟩
      · exact .inl zero
      · exact .inr ⟨position, lower, by omega, same⟩

theorem Peak.congr {other : Nat → A} (holds : Peak value first last peak)
    (same : ∀ position, first ≤ position → position < last → value position = other position) :
    Peak other first last peak where
  bound position lower upper := by
    rw [← same position lower upper]
    exact holds.bound position lower upper
  reached := by
    rcases holds.reached with zero | ⟨position, lower, upper, equal⟩
    · exact .inl zero
    · exact .inr ⟨position, lower, upper, by rw [← same position lower upper, equal]⟩

/-- Behind the range nothing is greater, so the peak is the maximum of everything from its start. -/
theorem Peak.isGreatest (holds : Peak value first last peak)
    (empty : ∀ position, last ≤ position → value position = ⊥) :
    IsGreatest {amount | ∃ position, first ≤ position ∧ value position = amount} peak := by
  constructor
  · rcases holds.reached with zero | ⟨position, lower, -, same⟩
    · exact ⟨max first last, le_max_left _ _, by rw [zero, empty _ (le_max_right _ _)]⟩
    · exact ⟨position, lower, same⟩
  · rintro amount ⟨position, lower, rfl⟩
    rcases Nat.lt_or_ge position last with upper | behind
    · exact holds.bound position lower upper
    · rw [empty position behind]
      exact bot_le

end Peaks

end Ucollect.Library
