import Mathlib.Data.Finset.Basic

/-
This file contains changes of a finite set, where the last change of a key decides.
-/

namespace Ucollect.Library
open List Option

/-- A key to add or to remove. -/
structure Change (K : Type) where
  key : K
  add : Bool
  deriving DecidableEq, Repr

variable {K : Type} [DecidableEq K]

def Change.apply (set : Finset K) (change : Change K) : Finset K :=
  if change.add then insert change.key set else set.erase change.key

/-- The set after a list of changes, in order. -/
def applyChanges (set : Finset K) (changes : List (Change K)) : Finset K :=
  changes.foldl Change.apply set

/-- This is what the last change of the key does. -/
def lastChange (key : K) : List (Change K) → Option Bool
  | [] => none
  | change :: changes =>
    (lastChange key changes).or (if change.key = key then some change.add else none)

/-- Only the last change of each key stays. -/
def lastChanges : List (Change K) → List (Change K)
  | [] => []
  | change :: changes =>
    if changes.any fun later => later.key = change.key then lastChanges changes
    else change :: lastChanges changes

variable {key : K} {set : Finset K} {first second changes : List (Change K)}

/-- A change decides its own key only. -/
theorem mem_apply (change : Change K) :
    key ∈ change.apply set ↔ if change.key = key then change.add = true else key ∈ set := by
  rw [Change.apply]
  by_cases same : change.key = key
  · subst same
    cases change.add with
    | true => simp
    | false => simp
  · cases change.add with
    | true => simp [same, Ne.symm same]
    | false => simp [same, Ne.symm same]

/-- The last change of a key decides about it, and a key without a change stays. -/
theorem mem_applyChanges (set : Finset K) (changes : List (Change K)) :
    key ∈ applyChanges set changes ↔ (lastChange key changes).getD (decide (key ∈ set)) = true := by
  induction changes generalizing set with
  | nil => simp [applyChanges, lastChange]
  | cons change changes ih =>
    rw [applyChanges, foldl_cons, ← applyChanges, ih, lastChange]
    cases lastChange key changes with
    | some add => rfl
    | none =>
      rw [none_or, getD_none, decide_eq_true_eq, mem_apply]
      split
      · rfl
      · rw [getD_none, decide_eq_true_eq]

theorem applyChanges_append (set : Finset K) (first second : List (Change K)) :
    applyChanges set (first ++ second) = applyChanges (applyChanges set first) second :=
  foldl_append

/-- Two lists with the same last changes have the same effect. -/
theorem applyChanges_congr (same : ∀ key, lastChange key first = lastChange key second) :
    applyChanges set first = applyChanges set second := by
  ext key
  rw [mem_applyChanges, mem_applyChanges, same]

theorem lastChange_eq_none : lastChange key changes = none ↔ ∀ change ∈ changes, change.key ≠ key := by
  induction changes with
  | nil => exact iff_of_true rfl nofun
  | cons change changes ih =>
    rw [lastChange, or_eq_none_iff, ih, forall_mem_cons, and_comm]
    refine and_congr ?_ Iff.rfl
    split
    · next same => exact iff_of_false nofun (not_not_intro same)
    · next different => exact iff_of_true rfl different

/-- The reduced list decides every key alike. -/
theorem lastChange_lastChanges (key : K) (changes : List (Change K)) :
    lastChange key (lastChanges changes) = lastChange key changes := by
  induction changes with
  | nil => rfl
  | cons change changes ih =>
    rw [lastChanges]
    split
    · next again =>
        rw [lastChange, ih]
        split
        · next same =>
            obtain ⟨later, member, sameKey⟩ := List.any_eq_true.mp again
            cases found : lastChange key changes with
            | some add => rfl
            | none =>
              have absent := lastChange_eq_none.mp found later member
              exact absurd ((of_decide_eq_true sameKey).trans same) absent
        · rw [or_none]
    · rw [lastChange, lastChange, ih]

theorem mem_lastChanges {change : Change K} (member : change ∈ lastChanges changes) :
    change ∈ changes := by
  induction changes with
  | nil => exact member
  | cons head changes ih =>
    rw [lastChanges] at member
    split at member
    · exact mem_cons_of_mem _ (ih member)
    · rcases mem_cons.mp member with rfl | later
      · exact mem_cons_self
      · exact mem_cons_of_mem _ (ih later)

theorem lastChanges_nodup (changes : List (Change K)) :
    ((lastChanges changes).map Change.key).Nodup := by
  induction changes with
  | nil => exact nodup_nil
  | cons change changes ih =>
    rw [lastChanges]
    split
    · exact ih
    · next last =>
        rw [map_cons, nodup_cons]
        refine ⟨fun member => last ?_, ih⟩
        obtain ⟨later, inside, same⟩ := List.mem_map.mp member
        exact List.any_eq_true.mpr ⟨later, mem_lastChanges inside, decide_eq_true same⟩

/-- With one change for each key the last change is the only one. -/
theorem lastChange_of_nodup (distinct : (changes.map Change.key).Nodup) (add : Bool) :
    lastChange key changes = some add ↔ ⟨key, add⟩ ∈ changes := by
  induction changes with
  | nil => exact iff_of_false nofun not_mem_nil
  | cons change changes ih =>
    rw [map_cons, nodup_cons] at distinct
    have rest := ih distinct.2
    rw [lastChange, mem_cons, or_eq_some_iff, rest]
    constructor
    · rintro (later | ⟨-, here⟩)
      · exact .inr later
      · split at here
        · next same =>
            left
            rw [← same, ← Option.some.inj here]
        · cases here
    · rintro (rfl | later)
      · right
        refine ⟨lastChange_eq_none.mpr fun other member same => distinct.1 ?_, if_pos rfl⟩
        exact List.mem_map.mpr ⟨other, member, same⟩
      · exact .inl later

/-- With distinct keys the order does not matter. -/
theorem lastChange_perm (distinct : (first.map Change.key).Nodup) (order : second.Perm first)
    (key : K) : lastChange key second = lastChange key first := by
  have distinctSecond : (second.map Change.key).Nodup := (order.map _).nodup_iff.mpr distinct
  apply Option.ext
  intro add
  rw [lastChange_of_nodup distinct, lastChange_of_nodup distinctSecond, order.mem_iff]

/-- The last changes in any order have the effect of all changes. -/
theorem applyChanges_last (order : first.Perm (lastChanges changes)) :
    applyChanges set first = applyChanges set changes := by
  apply applyChanges_congr
  intro key
  rw [lastChange_perm (lastChanges_nodup changes) order, lastChange_lastChanges]

/-- An empty set needs no removals. -/
theorem applyChanges_adds (order : first.Perm (lastChanges changes)) :
    applyChanges ∅ (first.filter Change.add) = applyChanges ∅ changes := by
  have distinct : (first.map Change.key).Nodup :=
    (order.map _).nodup_iff.mpr (lastChanges_nodup changes)
  have distinctAdds : ((first.filter Change.add).map Change.key).Nodup :=
    distinct.sublist (filter_sublist.map _)
  rw [← applyChanges_last order]
  ext key
  rw [mem_applyChanges, mem_applyChanges]
  have empty : decide (key ∈ (∅ : Finset K)) = false := decide_eq_false (Finset.notMem_empty key)
  have getD_false : ∀ found : Option Bool, found.getD false = true ↔ found = some true := by
    intro found
    cases found with
    | none => exact iff_of_false nofun nofun
    | some add => exact (some_inj).symm
  rw [empty, getD_false, getD_false, lastChange_of_nodup distinctAdds, lastChange_of_nodup distinct,
    mem_filter]
  exact and_iff_left rfl

end Ucollect.Library
