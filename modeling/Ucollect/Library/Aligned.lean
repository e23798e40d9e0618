import Mathlib.Tactic

/-
This file contains sums of lists that are aligned at their ends.
-/

namespace Ucollect.Library
open List Option

variable {M : Type} [AddCommMonoid M] {items more : List M} {columns others : List (List M)}

/-- The value that stands as far from the end of the list. It is zero in front of the list. -/
def fromEnd (items : List M) (age : Nat) : M := (items.reverse[age]?).getD 0
@[simp] theorem fromEnd_nil (age : Nat) : fromEnd ([] : List M) age = 0 := rfl

/-- Past the front there is nothing. -/
theorem fromEnd_front {age : Nat} (late : items.length ≤ age) : fromEnd items age = 0 := by
  simp [fromEnd, late]

/-- A list is known from its length and its values. -/
theorem ext_fromEnd (length : items.length = more.length)
    (same : ∀ age < items.length, fromEnd items age = fromEnd more age) : items = more := by
  apply reverse_injective
  apply ext_getElem (by simpa using length)
  intro age inItems inMore
  have equal := same age (by simpa using inItems)
  rw [fromEnd, fromEnd, List.getElem?_eq_getElem inItems, List.getElem?_eq_getElem inMore] at equal
  exact equal

/-- Padding in front changes nothing. -/
theorem fromEnd_pad (count : Nat) (items : List M) (age : Nat) :
    fromEnd (List.replicate count 0 ++ items) age = fromEnd items age := by
  rw [fromEnd, fromEnd, reverse_append, reverse_replicate]
  rcases lt_or_ge age items.reverse.length with inside | front
  · rw [List.getElem?_append_left inside]
  · rw [List.getElem?_append_right front, List.getElem?_eq_none front, List.getElem?_replicate]
    split <;> rfl

/-- Lists of one length add position by position. -/
theorem fromEnd_zipWith (same : items.length = more.length) (age : Nat) :
    fromEnd (List.zipWith (· + ·) items more) age = fromEnd items age + fromEnd more age := by
  rw [fromEnd, fromEnd, fromEnd, reverse_zipWith same]
  rcases lt_or_ge age items.reverse.length with inside | front
  · have other : age < more.reverse.length := by simpa [same] using inside
    simp [List.getElem?_zipWith, List.getElem?_eq_getElem inside, List.getElem?_eq_getElem other]
  · have other : more.reverse.length ≤ age := by simpa [same] using front
    simp [List.getElem?_zipWith, List.getElem?_eq_none front, List.getElem?_eq_none other]

/-- The longest list gives the sum its length. -/
def alignedSum (columns : List (List M)) : List M :=
  (List.range ((columns.map List.length).foldr max 0)).map fun slot =>
    (columns.map fun column =>
      fromEnd column ((columns.map List.length).foldr max 0 - 1 - slot)).sum

/-- The sum is as long as the longest column. -/
theorem length_alignedSum (columns : List (List M)) :
    (alignedSum columns).length = (columns.map List.length).foldr max 0 := by
  rw [alignedSum, length_map, length_range]

omit [AddCommMonoid M] in
theorem le_longest {column : List M} (member : column ∈ columns) :
    column.length ≤ (columns.map List.length).foldr max 0 := by
  induction columns with
  | nil => cases member
  | cons first rest ih =>
    rw [map_cons, foldr_cons]
    rcases mem_cons.mp member with rfl | later
    · exact le_max_left _ _
    · exact (ih later).trans (le_max_right _ _)

/-- Every age is the sum over the columns. -/
theorem fromEnd_alignedSum (columns : List (List M)) (age : Nat) :
    fromEnd (alignedSum columns) age = (columns.map fun column => fromEnd column age).sum := by
  rcases lt_or_ge age (alignedSum columns).length with inside | front
  · have length := length_alignedSum columns
    rw [fromEnd, List.getElem?_eq_getElem (by simpa using inside), getElem_reverse]
    simp only [getD_some, alignedSum, getElem_map, getElem_range, length_map, length_range]
    rw [length] at inside
    congr 1
    apply map_congr_left
    intro column _
    congr 1
    omega
  · rw [fromEnd_front front]
    symm
    apply sum_eq_zero
    intro value member
    obtain ⟨column, listed, rfl⟩ := List.mem_map.mp member
    apply fromEnd_front
    rw [length_alignedSum] at front
    exact (le_longest listed).trans front

/-- The order of the columns does not matter. -/
theorem alignedSum_perm (perm : columns.Perm others) : alignedSum columns = alignedSum others := by
  have length : (columns.map List.length).foldr max 0 = (others.map List.length).foldr max 0 :=
    (perm.map List.length).foldr_eq 0
  apply ext_fromEnd
  · rw [length_alignedSum, length_alignedSum, length]
  · intro age _
    rw [fromEnd_alignedSum, fromEnd_alignedSum]
    exact (perm.map _).sum_eq

end Ucollect.Library
