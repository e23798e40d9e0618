import Mathlib.Data.List.Basic

/-
This file contains writes to the bytes of a buffer.
-/

namespace Ucollect.Library
open List Option

/-- The items go to the places from the offset on. -/
structure Write (A : Type) where
  offset : Nat
  items : List A
  deriving DecidableEq, Repr

variable {A : Type} {memory : Nat → A} {front back : List A}

/-- The write stays in the first places of the buffer. -/
def Write.Inside (write : Write A) (limit : Nat) : Prop := write.offset + write.items.length ≤ limit

instance (write : Write A) (limit : Nat) : Decidable (write.Inside limit) :=
  inferInstanceAs (Decidable (_ ≤ _))

/-- What a memory holds after one write. -/
def Write.apply (write : Write A) (memory : Nat → A) (place : Nat) : A :=
  if write.offset ≤ place then (write.items[place - write.offset]?).getD (memory place)
  else memory place

/-- What it holds after a list of writes, in order. -/
def applyWrites (memory : Nat → A) (writes : List (Write A)) : Nat → A :=
  writes.foldl (fun memory write => write.apply memory) memory

/-- The buffer starts with the items. -/
def Shows (memory : Nat → A) (items : List A) : Prop :=
  ∀ place (inside : place < items.length), memory place = items[place]

theorem applyWrites_cons (memory : Nat → A) (write : Write A) (writes : List (Write A)) :
    applyWrites memory (write :: writes) = applyWrites (write.apply memory) writes := rfl

theorem applyWrites_append (memory : Nat → A) (first second : List (Write A)) :
    applyWrites memory (first ++ second) = applyWrites (applyWrites memory first) second :=
  foldl_append

theorem shows_nil (memory : Nat → A) : Shows memory [] := fun _ inside => absurd inside (Nat.not_lt_zero _)

/-- A write replaces what follows its offset. -/
theorem Shows.write (shows : Shows memory (front ++ back)) {offset : Nat}
    (position : offset = front.length) (items : List A) :
    Shows ((Write.mk offset items).apply memory) (front ++ items) := by
  intro place inside
  rw [length_append] at inside
  rcases Nat.lt_or_ge place front.length with before | after
  · have kept := shows place (by rw [length_append]; omega)
    rw [getElem_append_left before] at kept
    rw [Write.apply, if_neg (by dsimp only; omega), kept, getElem_append_left before]
  · rw [Write.apply, if_pos (by dsimp only; omega), position, getElem_append_right after,
      List.getElem?_eq_getElem (show place - front.length < items.length by omega), getD_some]

end Ucollect.Library
