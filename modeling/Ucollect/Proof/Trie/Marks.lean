import Ucollect.Library.Changes
import Ucollect.Proof.Trie.Refinement

/-
This file proves that a trie with marks in its slots is a finite set.
-/

namespace Ucollect.Core
open Library List Option Function

/-- No key of the list ends inside an edge between the keys that came before it. -/
def Uncut (known : List Key) : List Key → Prop
  | [] => True
  | key :: keys => (key ≠ [] → ¬ CutsEdge known key) ∧ Uncut (known ++ [key]) keys

/-- The keys of the set have a mark, and the slots of the other keys are empty. -/
def marks (keys : List Key) (set : Finset Key) : FiniteMap Unit := fun key =>
  if key ∈ keys.toFinset then some (if key ∈ set then some () else none) else none

/-- Each key is indexed with a mark. -/
def marking (keys : List Key) : List (TrieOp Unit) := keys.map fun key => .index key (some ())

variable {known keys : List Key} {set next : Finset Key} {key : Key} {trie : Trie Unit}

theorem uncut_append {more : List Key} :
    Uncut known (keys ++ more) ↔ Uncut known keys ∧ Uncut (known ++ keys) more := by
  induction keys generalizing known with
  | nil => simp [Uncut]
  | cons key keys ih => simp [Uncut, ih, and_assoc]

/-- Keys of one length are never prefixes of each other. -/
theorem uncut_of_length {size : Nat} (alike : ∀ key ∈ known ++ keys, key.length = size) :
    Uncut known keys := by
  induction keys generalizing known with
  | nil => trivial
  | cons key keys ih =>
    refine ⟨fun _ => not_cutsEdge_of_length fun longer member => ?_, ih ?_⟩
    · rw [alike longer (by simp [member]), alike key (by simp)]
    · simpa using alike

theorem marks_isSome (key : Key) : (marks keys set key).isSome = true ↔ key ∈ keys := by
  rw [← List.mem_toFinset]
  unfold marks
  split <;> simp [*]

theorem join_marks (inside : ∀ key ∈ set, key ∈ keys) (key : Key) :
    (marks keys set key).join = if key ∈ set then some () else none := by
  unfold marks
  split
  · rfl
  · next absent => rw [if_neg fun member => absent (List.mem_toFinset.mpr (inside key member)), join_none]

/-- A slot that is written belongs to a key from then on. -/
theorem update_marks (others : ∀ other, other ≠ key → (other ∈ next ↔ other ∈ set)) :
    update (marks keys set) key (some (if key ∈ next then some () else none)) =
      marks (keys ++ [key]) next := by
  funext other
  by_cases same : other = key
  · subst same
    simp [marks]
  · simp [marks, same, others other same]

/-- An indexed key has a slot with its mark, and a written slot marks it or not. -/
theorem Trie.Represents.mark (represents : trie.Represents (marks keys set))
    (inside : ∀ key ∈ set, key ∈ keys) (uncut : key ≠ [] → ¬ CutsEdge keys key) :
    ∃ after slot, trieIndex trie key = .ok (after, some slot) ∧
      after.memory.data slot = (if key ∈ set then some () else none) ∧
      after.Represents (marks (keys ++ [key]) set) ∧
      ∀ add, (after.store slot (if add = true then some () else none)).Represents
        (marks (keys ++ [key]) (Change.apply set ⟨key, add⟩)) := by
  have edges : key ≠ [] → ¬ CutsEdge trie.root.keys key := fun nonempty cuts =>
    uncut nonempty ((cutsEdge_congr (fun other => by
      rw [represents.mem_keys_iff, marks_isSome]) key).mp cuts)
  obtain ⟨after, slot, indexed, data, between, stores⟩ := represents.index_slot key edges
  rw [join_marks inside] at data between
  rw [update_marks fun _ _ => Iff.rfl] at between
  refine ⟨after, slot, indexed, data, between, fun add => ?_⟩
  have written := stores (if key ∈ Change.apply set ⟨key, add⟩ then some () else none)
  rw [update_marks fun other different => by rw [mem_apply, if_neg (Ne.symm different)]] at written
  simpa [mem_apply] using written

/-- A lookup finds the marked keys. -/
theorem Trie.Represents.find (represents : trie.Represents (marks keys set))
    (inside : ∀ key ∈ set, key ∈ keys) (key : Key) :
    ∃ after, trieLookup trie key = .ok (after, if key ∈ set then some () else none) ∧
      after.Represents (marks keys set) := by
  have looked := represents.lookup key
  rwa [join_marks inside] at looked

theorem trieAlloc_marks : (trieAlloc Unit).Represents (marks [] ∅) := trieAlloc_represents

/-- A trie with marks for all its keys is the list of the keys. -/
def Indexed (keys : List Key) : Prop :=
  ∃ trie, runOps (trieAlloc Unit) (marking keys) = .ok trie ∧
    ∀ key, ∃ after, trieLookup trie key = .ok (after, if key ∈ keys.toFinset then some () else none)

theorem runOps_marking (uncut : Uncut known keys)
    (represents : trie.Represents (marks known known.toFinset)) :
    ∃ after, runOps trie (marking keys) = .ok after ∧
      after.Represents (marks (known ++ keys) (known ++ keys).toFinset) := by
  induction keys generalizing known trie with
  | nil => exact ⟨trie, rfl, by rwa [append_nil]⟩
  | cons key keys ih =>
    obtain ⟨middle, slot, indexed, -, -, stores⟩ :=
      represents.mark (fun _ => List.mem_toFinset.mp) uncut.1
    have marked := stores true
    rw [Change.apply, if_pos rfl, show insert key known.toFinset = (known ++ [key]).toFinset by
      ext; simp] at marked
    obtain ⟨after, ran, whole⟩ := ih uncut.2 marked
    refine ⟨after, ?_, by simpa using whole⟩
    rw [marking, map_cons, runOps, foldlM_cons, TrieOp.run, indexed]
    exact ran

/-- Keys that cut no edge are all found. -/
theorem indexed_of_uncut (uncut : Uncut [] keys) : Indexed keys := by
  obtain ⟨trie, ran, represents⟩ := runOps_marking uncut trieAlloc_marks
  refine ⟨trie, ran, fun key => ?_⟩
  obtain ⟨after, looked, -⟩ := represents.find (fun _ => List.mem_toFinset.mp) key
  exact ⟨after, by simpa using looked⟩

end Ucollect.Core
