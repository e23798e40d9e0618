import Mathlib.Data.List.Nodup
import Mathlib.Data.Nat.Basic
import Mathlib.Order.Basic

/-
This file contains numbered tokens, each of which waits at one place until it is used.
-/

namespace Ucollect.Library
open List Function

/-- Each token that was made waits at no more than one place, or it has been used once. -/
structure Once {P : Type} (count : Nat) (places : P → List Nat) (used : List Nat) : Prop where
  usedOnce : used.Nodup
  placedOnce : ∀ place, (places place).Nodup
  usedKnown : ∀ token ∈ used, token < count
  placedKnown : ∀ place, ∀ token ∈ places place, token < count
  unused : ∀ place, ∀ token ∈ places place, token ∉ used
  apart : ∀ first second token, token ∈ places first → token ∈ places second → first = second

variable {P : Type} {count : Nat} {places : P → List Nat} {used : List Nat}

theorem once_start : Once 0 (fun _ : P => []) [] where
  usedOnce := nodup_nil
  placedOnce _ := nodup_nil
  usedKnown _ member := absurd member not_mem_nil
  placedKnown _ _ member := absurd member not_mem_nil
  unused _ _ member := absurd member not_mem_nil
  apart _ _ _ member := absurd member not_mem_nil

/-- A new token is used at once. -/
theorem Once.spend (once : Once count places used) : Once (count + 1) places (used ++ [count]) where
  usedOnce := by
    refine nodup_append.mpr ⟨once.usedOnce, nodup_singleton _, ?_⟩
    intro token known other new
    cases mem_singleton.mp new
    exact (once.usedKnown token known).ne
  placedOnce := once.placedOnce
  usedKnown token member := by
    rcases mem_append.mp member with known | new
    · exact (once.usedKnown token known).trans (Nat.lt_succ_self _)
    · cases mem_singleton.mp new
      exact Nat.lt_succ_self _
  placedKnown place token member := (once.placedKnown place token member).trans (Nat.lt_succ_self _)
  unused place token member again := by
    rcases mem_append.mp again with known | new
    · exact once.unused place token member known
    · cases mem_singleton.mp new
      exact (once.placedKnown place _ member).false
  apart := once.apart

variable [DecidableEq P]

theorem mem_update {place other : P} {tokens : List Nat} {token : Nat} :
    token ∈ update places place tokens other ↔
      if other = place then token ∈ tokens else token ∈ places other := by
  rw [update_apply]
  split <;> rfl

/-- A new token waits behind the ones of a place. -/
theorem Once.put (once : Once count places used) (place : P) :
    Once (count + 1) (update places place (places place ++ [count])) used := by
  have member : ∀ other token,
      token ∈ update places place (places place ++ [count]) other →
        token ∈ places other ∨ token = count ∧ other = place := by
    intro other token member
    rw [mem_update] at member
    split at member
    · next same =>
        rcases mem_append.mp member with known | new
        · exact .inl (same ▸ known)
        · exact .inr ⟨mem_singleton.mp new, same⟩
    · exact .inl member
  constructor
  case usedOnce => exact once.usedOnce
  case placedOnce =>
    intro other
    rw [update_apply]
    split
    · refine nodup_append.mpr ⟨once.placedOnce place, nodup_singleton _, ?_⟩
      intro token known other new
      cases mem_singleton.mp new
      exact (once.placedKnown place token known).ne
    · exact once.placedOnce other
  case usedKnown => exact fun token known => (once.usedKnown token known).trans (Nat.lt_succ_self _)
  case placedKnown =>
    intro other token waits
    rcases member other token waits with known | ⟨rfl, -⟩
    · exact (once.placedKnown other token known).trans (Nat.lt_succ_self _)
    · exact Nat.lt_succ_self _
  case unused =>
    intro other token waits again
    rcases member other token waits with known | ⟨rfl, -⟩
    · exact once.unused other token known again
    · exact (once.usedKnown _ again).false
  case apart =>
    intro first second token here there
    rcases member first token here with known | ⟨rfl, rfl⟩
    · rcases member second token there with also | ⟨rfl, rfl⟩
      · exact once.apart first second token known also
      · exact absurd (once.placedKnown first _ known) (lt_irrefl _)
    · rcases member second _ there with also | ⟨-, rfl⟩
      · exact absurd (once.placedKnown second _ also) (lt_irrefl _)
      · rfl

/-- The tokens of a place are used, or they are lost. -/
theorem Once.take (once : Once count places used) (place : P) {taken : List Nat}
    (part : taken.Sublist (places place)) :
    Once count (update places place []) (used ++ taken) := by
  have member : ∀ other token, token ∈ update places place [] other →
      token ∈ places other ∧ other ≠ place := by
    intro other token member
    rw [mem_update] at member
    split at member
    · cases member
    · next different => exact ⟨member, different⟩
  constructor
  case usedOnce =>
    refine nodup_append.mpr ⟨once.usedOnce, (once.placedOnce place).sublist part, ?_⟩
    intro token known other new same
    exact once.unused place other (part.subset new) (same ▸ known)
  case placedOnce =>
    intro other
    rw [update_apply]
    split
    · exact nodup_nil
    · exact once.placedOnce other
  case usedKnown =>
    intro token known
    rcases mem_append.mp known with old | new
    · exact once.usedKnown token old
    · exact once.placedKnown place token (part.subset new)
  case placedKnown => exact fun other token waits => once.placedKnown other token (member other token waits).1
  case unused =>
    intro other token waits again
    obtain ⟨known, different⟩ := member other token waits
    rcases mem_append.mp again with old | new
    · exact once.unused other token known old
    · exact different (once.apart other place token known (part.subset new))
  case apart =>
    exact fun first second token here there =>
      once.apart first second token (member first token here).1 (member second token there).1

end Ucollect.Library
