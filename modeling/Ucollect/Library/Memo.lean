import Mathlib.Data.List.Basic

/-
This file contains a memo that keeps the results of a function which may fail.
-/

namespace Ucollect.Library
open List

variable {K V : Type} {compute later : K → Option V} {memo : List (K × V)}

/-- The memo holds what the function would compute now. -/
def Faithful (compute : K → Option V) (memo : List (K × V)) : Prop :=
  ∀ entry ∈ memo, compute entry.1 = some entry.2

theorem faithful_nil : Faithful compute [] := fun _ member => absurd member not_mem_nil

/-- The function may change where the memo is empty. -/
theorem Faithful.change (faithful : Faithful compute memo)
    (same : ∀ entry ∈ memo, later entry.1 = compute entry.1) : Faithful later memo :=
  fun entry member => (same entry member).trans (faithful entry member)

variable [DecidableEq K]

/-- Only a result is kept, and a failure is computed again. -/
def memoize (compute : K → Option V) (memo : List (K × V)) (key : K) : Option V × List (K × V) :=
  match memo.lookup key with
  | some value => (some value, memo)
  | none =>
    match compute key with
    | none => (none, memo)
    | some value => (some value, memo ++ [(key, value)])

theorem mem_of_lookup {key : K} {value : V} (found : memo.lookup key = some value) :
    (key, value) ∈ memo := by
  obtain ⟨before, after, parts, -⟩ := lookup_eq_some_iff.mp found
  rw [parts]
  exact mem_append_right _ mem_cons_self

/-- A faithful memo can not be noticed. -/
theorem memoize_value (faithful : Faithful compute memo) (key : K) :
    (memoize compute memo key).1 = compute key := by
  rw [memoize]
  cases found : memo.lookup key with
  | some value => exact (faithful _ (mem_of_lookup found)).symm
  | none => cases compute key <;> rfl

theorem memoize_faithful (faithful : Faithful compute memo) (key : K) :
    Faithful compute (memoize compute memo key).2 := by
  rw [memoize]
  cases memo.lookup key with
  | some value => exact faithful
  | none =>
    cases computed : compute key with
    | none => exact faithful
    | some value =>
      intro entry member
      rcases mem_append.mp member with known | added
      · exact faithful entry known
      · cases mem_singleton.mp added
        exact computed

/-- Only the key that was asked for is added. -/
theorem mem_memoize {key : K} {entry : K × V} (member : entry ∈ (memoize compute memo key).2) :
    entry ∈ memo ∨ entry.1 = key := by
  rw [memoize] at member
  split at member
  · exact .inl member
  · split at member
    · exact .inl member
    · rcases mem_append.mp member with known | added
      · exact .inl known
      · exact .inr (congrArg Prod.fst (mem_singleton.mp added))

end Ucollect.Library
