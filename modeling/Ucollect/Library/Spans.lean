import Mathlib.Tactic

/-
This file contains spans of addresses, and what cutting a span into pieces keeps.
-/

namespace Ucollect.Library
open List

/-- The span holds the addresses from its start, as many as its size. -/
structure Span where
  start : Nat
  size : Nat
  deriving DecidableEq, Repr

namespace Span
open List

variable {span other whole piece left : Span} {spans : List Span}

/-- No address belongs to both spans. -/
def Apart (span other : Span) : Prop :=
  span.start + span.size ≤ other.start ∨ other.start + other.size ≤ span.start

def Inside (piece whole : Span) : Prop :=
  whole.start ≤ piece.start ∧ piece.start + piece.size ≤ whole.start + whole.size

instance : DecidableRel Apart := fun span other =>
  inferInstanceAs (Decidable (span.start + span.size ≤ other.start ∨
    other.start + other.size ≤ span.start))

instance : DecidableRel Inside := fun piece whole =>
  inferInstanceAs (Decidable (whole.start ≤ piece.start ∧
    piece.start + piece.size ≤ whole.start + whole.size))

theorem Apart.symm (apart : span.Apart other) : other.Apart span := Or.symm apart

theorem Inside.refl (span : Span) : span.Inside span := ⟨le_rfl, le_rfl⟩

theorem Inside.trans (inner : piece.Inside span) (outer : span.Inside whole) : piece.Inside whole :=
  ⟨outer.1.trans inner.1, inner.2.trans outer.2⟩

/-- A span that is not empty is not apart from itself. -/
theorem Apart.ne (apart : span.Apart other) (positive : 0 < span.size) : span ≠ other := by
  rintro rfl
  unfold Apart at apart
  omega

/-- Pieces of two spans are as far from each other as the spans are. -/
theorem Apart.inside {part : Span} (apart : span.Apart other) (inner : piece.Inside span)
    (outer : part.Inside other) : piece.Apart part := by
  unfold Apart Inside at *
  omega

theorem pairwise_perm {others : List Span} (same : spans.Perm others) (apart : spans.Pairwise Apart) :
    others.Pairwise Apart :=
  (same.pairwise_iff fun holds => Apart.symm holds).mp apart

/-- A span is cut into a piece and a rest, and the other spans do not notice it. -/
theorem pairwise_cut (apart : (whole :: spans).Pairwise Apart) (inner : piece.Inside whole)
    (rest : left.Inside whole) (cut : left.Apart piece) :
    (left :: piece :: spans).Pairwise Apart := by
  have away : ∀ span ∈ spans, whole.Apart span := (pairwise_cons.mp apart).1
  refine pairwise_cons.mpr ⟨?_, pairwise_cons.mpr ⟨?_, apart.of_cons⟩⟩
  · intro span member
    rcases mem_cons.mp member with same | known
    · exact same ▸ cut
    · exact (away span known).inside rest (Inside.refl span)
  · intro span member
    exact (away span member).inside inner (Inside.refl span)

/-- Spans in groups are apart when each group lies in spans that are apart from the other groups'. -/
theorem pairwise_groups {G : Type} {groups : List G} {pieces areas : G → List Span}
    (apart : (groups.flatMap areas).Pairwise Apart)
    (own : ∀ group ∈ groups, (pieces group).Pairwise Apart)
    (inner : ∀ group ∈ groups, ∀ piece ∈ pieces group, ∃ area ∈ areas group, piece.Inside area) :
    (groups.flatMap pieces).Pairwise Apart := by
  rw [pairwise_flatMap] at apart ⊢
  refine ⟨own, List.Pairwise.imp_of_mem ?_ apart.2⟩
  intro group fellow known present away piece member part belongs
  obtain ⟨area, around, inside⟩ := inner group known piece member
  obtain ⟨field, about, within⟩ := inner fellow present part belongs
  exact (away area around field about).inside inside within

end Span

/-- The item with a key stands for all the items with it when the keys are different. -/
theorem perm_cons_filter {A K : Type} [DecidableEq K] {key : A → K} {items : List A} {item : A}
    (distinct : (items.map key).Nodup) (member : item ∈ items) :
    items.Perm (item :: items.filter fun other => key other ≠ key item) := by
  induction items with
  | nil => cases member
  | cons first rest ih =>
    rw [map_cons, nodup_cons] at distinct
    rcases mem_cons.mp member with rfl | inside
    · have others : ∀ other ∈ rest, key other ≠ key item := fun other known same =>
        distinct.1 (same ▸ List.mem_map_of_mem known)
      have stay : (rest.filter fun other => key other ≠ key item) = rest :=
        filter_eq_self.mpr fun other known => by simpa using others other known
      rw [filter_cons_of_neg (by simp), stay]
    · have different : key first ≠ key item := fun same =>
        distinct.1 (same ▸ List.mem_map_of_mem inside)
      rw [filter_cons_of_pos (by simpa using different)]
      exact ((ih distinct.2 inside).cons first).trans (List.Perm.swap item first _)

end Ucollect.Library
