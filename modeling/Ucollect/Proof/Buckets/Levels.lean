import Mathlib.Data.List.GetD
import Ucollect.Library.Aligned
import Ucollect.Proof.Buckets.Transfer

/-
This file proves what the levels of aggregation contain.
-/

namespace Ucollect.Buckets
open Library Finset List

variable {M : Type} [AddCommMonoid M] {what : List M}

section Pairs

/-- Neighbours are added, and an item without a neighbour stays. -/
def pairUp : List M → List M
  | first :: second :: rest => (first + second) :: pairUp rest
  | rest => rest

theorem length_pairUp (what : List M) : (pairUp what).length = (what.length + 1) / 2 := by
  fun_induction pairUp what with
  | case1 first second rest tail =>
    rw [length_cons, tail, length_cons, length_cons]
    omega
  | case2 rest short =>
    match rest, short with
    | [], _ => simp
    | [_], _ => simp
    | first :: second :: rest, short => exact absurd rfl (short first second rest)

theorem sum_pairUp (what : List M) : (pairUp what).sum = what.sum := by
  fun_induction pairUp what with
  | case1 first second rest tail =>
    rw [List.sum_cons, tail, List.sum_cons, List.sum_cons, add_assoc]
  | case2 rest short => rfl

theorem getD_pairUp (what : List M) (j : Nat) :
    (pairUp what).getD j 0 = what.getD (2 * j) 0 + what.getD (2 * j + 1) 0 := by
  fun_induction pairUp what generalizing j with
  | case1 first second rest tail =>
    cases j with
    | zero => rfl
    | succ j =>
      rw [getD_cons_succ, tail, show 2 * (j + 1) = 2 * j + 1 + 1 by omega, getD_cons_succ,
        getD_cons_succ, getD_cons_succ, getD_cons_succ]
  | case2 rest short =>
    match rest, short with
    | [], _ => simp
    | [item], _ =>
      cases j with
      | zero => simp
      | succ j => simp
    | first :: second :: rest, short => exact absurd rfl (short first second rest)

end Pairs

section Rounds

theorem positions_eq {place : Nat → Nat} {limit : Nat} (inside : ∀ i < limit, place i < what.length) :
    positions what place limit = some ((List.range limit).map fun i => what.getD (place i) 0) := by
  apply mapM_some
  intro i member
  have small := inside i (List.mem_range.mp member)
  rw [List.getElem?_eq_getElem small, getD_eq_getElem _ _ small]

/-- The odd positions are filled with one zero up to the even positions. -/
theorem odd_positions (what : List M) :
    (if what.length % 2 = 1 then
        (List.range (what.length / 2)).map (fun i => what.getD (2 * i + 1) 0) ++ [0]
      else (List.range (what.length / 2)).map fun i => what.getD (2 * i + 1) 0) =
      (List.range (levelLimit what.length)).map fun i => what.getD (2 * i + 1) 0 := by
  unfold levelLimit
  split
  case isTrue odd =>
    rw [List.range_succ, List.map_append, List.map_singleton,
      getD_eq_default _ _ (show what.length ≤ 2 * (what.length / 2) + 1 by omega)]
  case isFalse => rfl

/-- A round of the loop adds the neighbours. -/
theorem level_eq (what : List M) : level what what.length = some (pairUp what) := by
  have half : levelLimit what.length = (what.length + 1) / 2 := by
    unfold levelLimit
    split <;> omega
  rw [level, positions_eq (fun i small => by omega), Option.bind_eq_bind, Option.bind_some]
  dsimp only
  rw [odd_positions, positions_eq (fun i small => by omega), Option.bind_some, zipWith_map_left,
    zipWith_map_right]
  congr 1
  apply ext_getElem
  · rw [length_zipWith, length_range, length_pairUp, Nat.min_self, half]
  · intro j inside small
    have pair := getD_pairUp what j
    rw [getD_eq_getElem _ _ small] at pair
    rw [pair, getElem_zipWith, getElem_range, add_comm]

end Rounds

section Levels

/-- This is the size of a level over a list with the size. -/
def levelSize (size k : Nat) : Nat := (size + 2 ^ k - 1) / 2 ^ k

theorem length_iterate (what : List M) (k : Nat) :
    (pairUp^[k] what).length = levelSize what.length k := by
  induction k with
  | zero => simp [levelSize]
  | succ k ih =>
    have positive := Nat.two_pow_pos k
    rw [Function.iterate_succ_apply', length_pairUp, ih, levelSize, levelSize,
      ← Nat.add_div_right _ positive, Nat.div_div_eq_div_mul, ← Nat.pow_succ]
    congr 1
    rw [Nat.pow_succ]
    omega

theorem sum_iterate (what : List M) (k : Nat) : (pairUp^[k] what).sum = what.sum := by
  induction k with
  | zero => rfl
  | succ k ih => rw [Function.iterate_succ_apply', sum_pairUp, ih]

theorem getD_iterate (what : List M) (k j : Nat) :
    (pairUp^[k] what).getD j 0 = ∑ i ∈ Ico (j * 2 ^ k) ((j + 1) * 2 ^ k), what.getD i 0 := by
  induction k generalizing j with
  | zero => simp
  | succ k ih =>
    rw [Function.iterate_succ_apply', getD_pairUp, ih, ih,
      Finset.sum_Ico_consecutive _ (Nat.mul_le_mul_right _ (by omega))
        (Nat.mul_le_mul_right _ (by omega))]
    congr 2
    · rw [Nat.pow_succ]
      ring
    · rw [Nat.pow_succ]
      ring

/-- The loop ends, and it has appended the iterated sums down to a level of at most two items. -/
theorem aggregateFrom_eq (what : List M) : ∃ rest, aggregateFrom what what.length = some rest ∧
    (∀ k level, (what :: rest)[k]? = some level → level = pairUp^[k] what) ∧
    (2 ≤ what.length → ∃ last, (what :: rest).getLast? = some last ∧ last.length = 2) := by
  induction length : what.length using Nat.strongRecOn generalizing what with
  | ind l ih =>
    subst length
    rw [aggregateFrom]
    by_cases more : 2 < what.length
    · have shorter := length_pairUp what
      have half : levelLimit what.length = (pairUp what).length := by
        rw [shorter, levelLimit]
        split <;> omega
      obtain ⟨rest, done, levels, last⟩ :=
        ih (pairUp what).length (by omega) (pairUp what) rfl
      rw [dif_pos more, level_eq, Option.bind_eq_bind, Option.bind_some, half, done]
      refine ⟨pairUp what :: rest, rfl, ?_, fun _ => ?_⟩
      · intro k level found
        cases k with
        | zero => exact (Option.some.inj found).symm
        | succ k =>
          rw [List.getElem?_cons_succ] at found
          rw [levels k level found, Function.iterate_succ_apply]
      · rw [List.getLast?_cons_cons]
        exact last (by omega)
    · rw [dif_neg more]
      refine ⟨[], rfl, ?_, fun two => ⟨what, rfl, by omega⟩⟩
      intro k level found
      cases k with
      | zero => exact (Option.some.inj found).symm
      | succ k => cases found

/-- The levels are the sums over the intervals of each power of two, down to a level with two
items. -/
theorem aggregate_levels (two : 2 ≤ what.length) : ∃ levels, aggregate what = some levels ∧
    levels[0]? = some what ∧
    (∀ k level, levels[k]? = some level →
      level.length = levelSize what.length k ∧ level.sum = what.sum ∧
        ∀ j, level.getD j 0 = ∑ i ∈ Ico (j * 2 ^ k) ((j + 1) * 2 ^ k), what.getD i 0) ∧
    ∃ last, levels.getLast? = some last ∧ last.length = 2 := by
  obtain ⟨rest, done, levels, last⟩ := aggregateFrom_eq what
  refine ⟨what :: rest, by rw [aggregate, done, Option.map_some], rfl, ?_, last two⟩
  intro k level found
  rw [levels k level found]
  exact ⟨length_iterate what k, sum_iterate what k, getD_iterate what k⟩

/-- Five slots give levels of five, three and two items. -/
theorem aggregate_levels_five : ∃ levels, aggregate [1, 2, 3, 4, 5] = some levels ∧
    levels[0]? = some [1, 2, 3, 4, 5] ∧
    (∀ k level, levels[k]? = some level →
      level.length = levelSize 5 k ∧ level.sum = 15 ∧
        ∀ j, level.getD j 0 = ∑ i ∈ Ico (j * 2 ^ k) ((j + 1) * 2 ^ k), [1, 2, 3, 4, 5].getD i 0) ∧
    ∃ last, levels.getLast? = some last ∧ last.length = 2 :=
  @aggregate_levels Nat _ [1, 2, 3, 4, 5] (by decide)

end Levels

end Ucollect.Buckets

/-
A group adds up the counts of its clients, newest slot to newest slot, whatever the order of the
messages is.
-/

namespace Ucollect.Buckets
open Library List

variable {hashCount bucketCount : Nat} {batch : SlotCounts} {batches others : List SlotCounts}

/-- Each slot of the batch has a line for each hash with a count for each bucket. -/
def Formed (hashCount bucketCount : Nat) (batch : SlotCounts) : Prop :=
  ∀ slot ∈ batch, slot.length = hashCount ∧ ∀ line ∈ slot, line.length = bucketCount

/-- The counts of one bucket from the oldest slot to the newest. -/
def column (hash bucket : Nat) (batch : SlotCounts) : List Nat :=
  batch.map fun slot => (cell slot hash bucket).getD 0

def tabulate (hashCount bucketCount : Nat) (counts : Nat → Nat → List Nat) : GroupCounts :=
  (List.range hashCount).map fun hash => (List.range bucketCount).map fun bucket =>
    counts hash bucket

/-- The counts of all the batches, aligned at their newest slots. -/
def merged (hashCount bucketCount : Nat) (batches : List SlotCounts) : GroupCounts :=
  tabulate hashCount bucketCount fun hash bucket => alignedSum (batches.map (column hash bucket))

theorem emptyData_tabulate (hashCount bucketCount : Nat) :
    emptyData hashCount bucketCount = tabulate hashCount bucketCount fun _ _ => [] := by
  simp [emptyData, tabulate, map_const']

section

variable (formed : Formed hashCount bucketCount batch)
include formed

theorem Formed.cell {slot : List (List Nat)} (member : slot ∈ batch) {hash bucket : Nat}
    (inLine : hash < hashCount) (inBucket : bucket < bucketCount) :
    cell slot hash bucket = some ((cell slot hash bucket).getD 0) := by
  obtain ⟨height, width⟩ := formed slot member
  have inSlot : hash < slot.length := by omega
  have inCells : bucket < slot[hash].length := by
    rw [width _ (getElem_mem inSlot)]
    exact inBucket
  simp [Buckets.cell, inSlot, inCells]

theorem Formed.transposed :
    transposed hashCount bucketCount batch =
      some (tabulate hashCount bucketCount fun hash bucket => column hash bucket batch) := by
  apply mapM_some
  intro hash inLine
  apply mapM_some
  intro bucket inBucket
  apply mapM_some
  intro slot member
  exact formed.cell member (mem_range.mp inLine) (mem_range.mp inBucket)

/-- One batch is added to each bucket of the group. -/
theorem Formed.groupMerge (counts : Nat → Nat → List Nat) :
    groupMerge hashCount bucketCount (tabulate hashCount bucketCount counts) batch =
      some (tabulate hashCount bucketCount fun hash bucket =>
        addSlots (counts hash bucket) (column hash bucket batch)) := by
  have height (values : Nat → Nat → List Nat) :
      (tabulate hashCount bucketCount values).length = hashCount := by
    rw [tabulate, length_map, length_range]
  rw [Buckets.groupMerge, formed.transposed]
  simp only [Option.bind_eq_bind, Option.bind_some, height, and_self, if_true]
  rw [tabulate, tabulate, zip_map', mapM_map]
  apply mapM_some
  intro hash _
  simp [zipWith_map, zipWith_self]

end

theorem length_addSlots (current new : List Nat) :
    (addSlots current new).length = max current.length new.length := by
  simp only [addSlots, length_zipWith, length_append, length_replicate]
  omega

theorem fromEnd_addSlots (current new : List Nat) (age : Nat) :
    fromEnd (addSlots current new) age = fromEnd current age + fromEnd new age := by
  rw [addSlots, fromEnd_zipWith, fromEnd_pad, fromEnd_pad]
  simp only [length_append, length_replicate]
  omega

/-- The batches before this one were added up already. -/
theorem addSlots_alignedSum (columns : List (List Nat)) (new : List Nat) :
    addSlots (alignedSum columns) new = alignedSum (columns ++ [new]) := by
  apply ext_fromEnd
  case length =>
    rw [length_addSlots, length_alignedSum, length_alignedSum,
      (perm_append_comm.map List.length).foldr_eq 0]
    exact max_comm _ _
  case same =>
    intro age _
    rw [fromEnd_addSlots, fromEnd_alignedSum, fromEnd_alignedSum, map_append, sum_append]
    simp

/-- In every order the batches of the clients give the same group. -/
theorem merge_order (formed : ∀ batch ∈ batches, Formed hashCount bucketCount batch)
    (perm : others.Perm batches) :
    others.foldlM (groupMerge hashCount bucketCount) (emptyData hashCount bucketCount) =
      some (merged hashCount bucketCount batches) := by
  have same : merged hashCount bucketCount batches = merged hashCount bucketCount others := by
    simp only [merged, alignedSum_perm (perm.map (column _ _))]
  rw [same]
  replace formed : ∀ batch ∈ others, Formed hashCount bucketCount batch :=
    fun batch member => formed batch (perm.mem_iff.mp member)
  clear same perm
  induction others using List.reverseRecOn with
  | nil => rw [emptyData_tabulate]; rfl
  | append_singleton others batch ih =>
    rw [foldlM_append, ih fun batch member => formed batch (by simp [member])]
    have added := (formed batch (by simp)).groupMerge fun hash bucket =>
      alignedSum (others.map (column hash bucket))
    simp only [addSlots_alignedSum] at added
    simpa [merged] using added

/-- The second client starts one slot later. -/
theorem merge_order_sample :
    [[[[5, 6]]], [[[1, 2]], [[3, 4]]]].foldlM (groupMerge 1 2) (emptyData 1 2) =
      some [[[1, 8], [2, 10]]] :=
  @merge_order 1 2 [[[[1, 2]], [[3, 4]]], [[[5, 6]]]] [[[[5, 6]]], [[[1, 2]], [[3, 4]]]]
    (by unfold Formed; decide) (List.Perm.swap _ _ _)

end Ucollect.Buckets
