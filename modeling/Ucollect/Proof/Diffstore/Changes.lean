import Ucollect.Construction.Diffstore.Store
import Ucollect.Construction.Master.DiffCache

/-
This file proves that a diff of the server moves the store from one version to another.
-/

namespace Ucollect.Diffstore
open Library Master List Option

section History

variable {history : History} {batch : Batch} {fromVersion toVersion : Nat} {change : Change Bytes}

/-- Two neighbouring ranges of versions make one. -/
theorem rows_append_rows (inside : fromVersion ≤ toVersion) :
    history.rows 0 fromVersion ++ history.rows fromVersion toVersion = history.rows 0 toVersion := by
  rw [History.rows, History.rows, History.rows, drop_zero, drop_zero, ← flatMap_append]
  congr 1
  conv_rhs => rw [← take_append_drop fromVersion (history.take toVersion)]
  rw [take_take, Nat.min_eq_left inside]

theorem diffQuery_perm (history : History) (fromVersion toVersion : Nat) :
    (history.diffQuery fromVersion toVersion).Perm
      (lastChanges (history.rows fromVersion toVersion)) :=
  perm_insertionSort _ _

/-- The difference of two versions leads from one set to the other. -/
theorem applyChanges_diffQuery (inside : fromVersion ≤ toVersion) :
    applyChanges (history.setAt fromVersion) (history.diffQuery fromVersion toVersion) =
      history.setAt toVersion := by
  rw [applyChanges_last (diffQuery_perm history fromVersion toVersion), History.setAt,
    ← applyChanges_append, rows_append_rows inside, History.setAt]

theorem applyChanges_fullQuery (history : History) (toVersion : Nat) :
    applyChanges ∅ ((history.diffQuery 0 toVersion).filter Change.add) = history.setAt toVersion :=
  applyChanges_adds (diffQuery_perm history 0 toVersion)

theorem diffQuery_legal (member : change ∈ history.diffQuery fromVersion toVersion) :
    change.key.length ∈ [4, 6, 16, 18] := by
  have row := mem_lastChanges ((diffQuery_perm history fromVersion toVersion).mem_iff.mp member)
  obtain ⟨batch, -, inside⟩ := mem_flatMap.mp row
  exact batch.legal change inside

theorem rows_concat (known : toVersion ≤ history.length) :
    History.rows (history ++ [batch]) fromVersion toVersion = history.rows fromVersion toVersion := by
  rw [History.rows, History.rows, take_append_of_le_length known]

/-- A new version does not change the old ones. -/
theorem setAt_concat (known : toVersion ≤ history.length) :
    History.setAt (history ++ [batch]) toVersion = history.setAt toVersion := by
  rw [History.setAt, History.setAt, rows_concat known]

theorem diffUpdate_concat (full : Bool) (known : toVersion ≤ history.length) :
    History.diffUpdate (history ++ [batch]) full fromVersion toVersion =
      history.diffUpdate full fromVersion toVersion := by
  rw [History.diffUpdate, History.diffUpdate, History.diffQuery, History.diffQuery,
    rows_concat known]

theorem setAt_zero (history : History) : history.setAt 0 = ∅ := by
  rw [History.setAt, History.rows, take_zero]
  rfl

end History

section Loop

variable {store : Store} {changes : List (Change Bytes)}

/-- The changes of a list are made one after another. -/
def Store.changeAll (store : Store) : List (Change Bytes) → Store × List Hook
  | [] => (store, [])
  | change :: changes =>
    let changed := store.change change.key change.add
    let rest := changed.1.changeAll changes
    (rest.1, changed.2 ++ rest.2)

theorem flags_length {length : Nat} (legal : length ∈ [4, 6, 16, 18]) (add : Bool) :
    ((length + add.toNat).toUInt8 &&& sizeMask).toNat = length := by
  simp only [mem_cons, not_mem_nil, or_false] at legal
  rcases legal with rfl | rfl | rfl | rfl <;> cases add <;> decide

theorem flags_add {length : Nat} (legal : length ∈ [4, 6, 16, 18]) (add : Bool) :
    ((length + add.toNat).toUInt8 &&& addMask != 0) = add := by
  simp only [mem_cons, not_mem_nil, or_false] at legal
  rcases legal with rfl | rfl | rfl | rfl <;> cases add <;> decide

/-- The loop finds the changes that the server has packed. -/
theorem applyLoop_pack {fuel : Nat}
    (legal : ∀ change ∈ changes, change.key.length ∈ [4, 6, 16, 18])
    (enough : (changes.flatMap packAddress).length ≤ fuel) :
    applyLoop fuel (changes.flatMap packAddress) store = some (store.changeAll changes) := by
  induction changes generalizing store fuel with
  | nil => cases fuel <;> rfl
  | cons change changes ih =>
    rw [forall_mem_cons] at legal
    rw [flatMap_cons, packAddress, cons_append] at enough ⊢
    rw [length_cons, length_append] at enough
    match fuel, enough with
    | fuel + 1, enough =>
      have rest := @ih (store.change change.key change.add).1 fuel legal.2
        (by omega)
      have long : ¬ (change.key ++ changes.flatMap packAddress).length < change.key.length := by
        rw [length_append]
        omega
      rw [applyLoop, flags_length legal.1, flags_add legal.1]
      simp only [if_neg long, take_left', drop_left', rest, map_some]
      rfl

/-- These are the changes in the bytes of a diff, if no address is cut off. -/
def diffChanges : Nat → Bytes → Option (List (Change Bytes))
  | _, [] => some []
  | 0, _ :: _ => none
  | fuel + 1, flags :: diff =>
    let addrLen := (flags &&& sizeMask).toNat
    if diff.length < addrLen then none
    else
      (diffChanges fuel (diff.drop addrLen)).map fun changes =>
        ⟨diff.take addrLen, flags &&& addMask != 0⟩ :: changes

/-- The loop makes the changes of the diff. -/
theorem applyLoop_eq (fuel : Nat) (diff : Bytes) (store : Store) :
    applyLoop fuel diff store = (diffChanges fuel diff).map store.changeAll := by
  induction fuel generalizing diff store with
  | zero => cases diff <;> rfl
  | succ fuel ih =>
    cases diff with
    | nil => rfl
    | cons flags diff =>
      rw [applyLoop, diffChanges]
      dsimp only
      split
      · rfl
      · rw [ih, Option.map_map, Option.map_map]
        rfl

theorem change_trie (store : Store) (address : Bytes) (add : Bool) :
    (store.change address add).1.trie = Change.apply store.trie ⟨address, add⟩ := by
  rw [Store.change, Change.apply]
  cases add with
  | true =>
    by_cases known : address ∈ store.trie
    · simp only [if_true, if_pos known, Finset.insert_eq_of_mem known]
    · simp only [if_true, if_neg known]
  | false =>
    by_cases known : address ∈ store.trie
    · simp only [Bool.false_eq_true, if_false, if_pos known]
    · simp only [Bool.false_eq_true, if_false, if_neg known, Finset.erase_eq_of_notMem known]

/-- The changes of a diff apply to the set in order. -/
theorem changeAll_trie (store : Store) (changes : List (Change Bytes)) :
    (store.changeAll changes).1.trie = applyChanges store.trie changes := by
  induction changes generalizing store with
  | nil => rfl
  | cons change changes ih =>
    rw [Store.changeAll, ih, change_trie]
    rfl

/-- The counters tell how many addresses are in the store. -/
def Store.Balanced (store : Store) : Prop := store.added = store.deleted + store.trie.card

theorem Store.Balanced.change (balanced : store.Balanced) (address : Bytes) (add : Bool) :
    (store.change address add).1.Balanced := by
  rw [Balanced] at balanced
  cases add with
  | true =>
    by_cases known : address ∈ store.trie
    · simp only [Store.change, if_true, if_pos known]
      exact balanced
    · simp only [Store.change, if_true, if_neg known, Balanced, Finset.card_insert_of_notMem known]
      omega
  | false =>
    by_cases known : address ∈ store.trie
    · simp only [Store.change, Bool.false_eq_true, if_false, if_pos known, Balanced,
        Finset.card_erase_of_mem known]
      have some := Finset.card_pos.mpr ⟨address, known⟩
      omega
    · simp only [Store.change, Bool.false_eq_true, if_false, if_neg known]
      exact balanced

theorem Store.Balanced.changeAll (balanced : store.Balanced) (changes : List (Change Bytes)) :
    (store.changeAll changes).1.Balanced := by
  induction changes generalizing store with
  | nil => exact balanced
  | cons change changes ih => exact ih (balanced.change change.key change.add)

/-- A full update starts with no address, whatever the counters are. -/
theorem Store.Balanced.reset (balanced : store.Balanced) :
    store.reset.trie = ∅ ∧ store.reset.Balanced := by
  rw [Balanced] at balanced
  rw [Store.reset]
  split
  · exact ⟨rfl, by rw [Balanced, Finset.card_empty]; rfl⟩
  · next equal =>
      have empty : store.trie = ∅ := Finset.card_eq_zero.mp (by omega)
      exact ⟨empty, balanced⟩

end Loop

section Apply

variable {store : Store} {history : History} {epoch fromVersion toVersion : Nat}

/-- The changes of an update in the order of the message. -/
def History.updates (history : History) (full : Bool) (fromVersion toVersion : Nat) :
    List (Change Bytes) :=
  (history.diffQuery fromVersion toVersion).filter fun change => change.add || !full

theorem updates_legal {full : Bool} : ∀ change ∈ History.updates history full fromVersion toVersion,
    change.key.length ∈ [4, 6, 16, 18] :=
  fun _ member => diffQuery_legal (mem_filter.mp member).1

/-- The client reads back what the server wrote. -/
theorem applyLoop_diffUpdate (store : Store) (history : History) (full : Bool)
    (fromVersion toVersion : Nat) :
    applyLoop (history.diffUpdate full fromVersion toVersion).length
        (history.diffUpdate full fromVersion toVersion) store =
      some (store.changeAll (History.updates history full fromVersion toVersion)) :=
  applyLoop_pack updates_legal (le_refl _)

/-- A full update replaces the addresses between two calls of the user. -/
theorem apply_full (store : Store) (history : History) (epoch fromVersion toVersion : Nat) :
    diffAddrStoreApply store true epoch fromVersion toVersion
        (history.diffUpdate true fromVersion toVersion) =
      some ({ (store.reset.changeAll (History.updates history true fromVersion toVersion)).1 with
          epoch
          version := toVersion }, .noAction,
        .replaceStart ::
          (store.reset.changeAll (History.updates history true fromVersion toVersion)).2 ++
            [.replaceEnd]) := by
  rw [diffAddrStoreApply, if_neg (by simp), if_neg (by simp), if_pos rfl, applyLoop_diffUpdate]
  rfl

theorem apply_incremental (history : History) (sameEpoch : epoch = store.epoch)
    (sameVersion : fromVersion = store.version) :
    diffAddrStoreApply store false epoch fromVersion toVersion
        (history.diffUpdate false fromVersion toVersion) =
      some ({ (store.changeAll (History.updates history false fromVersion toVersion)).1 with
          epoch
          version := toVersion }, .noAction,
        (store.changeAll (History.updates history false fromVersion toVersion)).2) := by
  rw [diffAddrStoreApply, if_neg (by simp [sameEpoch]), if_neg (by simp [sameVersion]),
    if_neg (by decide), applyLoop_diffUpdate]
  rfl

/-- A full update gives the set of its version. -/
theorem updates_full_trie (balanced : store.Balanced) :
    (store.reset.changeAll (History.updates history true 0 toVersion)).1.trie =
      history.setAt toVersion := by
  rw [changeAll_trie, balanced.reset.1, ← applyChanges_fullQuery, History.updates]
  simp only [Bool.not_true, Bool.or_false]

/-- An incremental one leads from version to version. -/
theorem updates_trie (start : store.trie = history.setAt fromVersion)
    (inside : fromVersion ≤ toVersion) :
    (store.changeAll (History.updates history false fromVersion toVersion)).1.trie =
      history.setAt toVersion := by
  have all : History.updates history false fromVersion toVersion =
      history.diffQuery fromVersion toVersion := by
    simp only [History.updates, Bool.not_false, Bool.or_true, filter_true]
  rw [changeAll_trie, all, start, applyChanges_diffQuery inside]

end Apply

end Ucollect.Diffstore
