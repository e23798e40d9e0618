import Ucollect.Proof.Diffstore.Changes

/-
This file proves that the counters of a store, its trie and the calls of its hooks tell the same,
over every sequence of diffs.
-/

namespace Ucollect.Diffstore
open Library List Option

/-- These are the diffs that do not end inside an address. -/
inductive WellFormed : Bytes → Prop
  | nil : WellFormed []
  | cons (flags : UInt8) {address diff : Bytes} (size : address.length = (flags &&& sizeMask).toNat)
      (rest : WellFormed diff) : WellFormed (flags :: (address ++ diff))

/-- The diff belongs to another epoch, or it starts at another version. -/
def Diff.Refused (diff : Diff) (store : Store) : Prop :=
  diff.full = false ∧ (diff.epoch ≠ store.epoch ∨ diff.fromVersion ≠ store.version)

/-- The diffs come one after another, and the hooks are called in this order. -/
def Store.receiveAll (store : Store) : List Diff → Option (Store × List Hook)
  | [] => some (store, [])
  | diff :: diffs => do
    let (store, first) ← store.receive diff
    let (store, rest) ← store.receiveAll diffs
    some (store, first ++ rest)

/-- The user keeps a set of its own. It is only told to add what is absent, and to remove what is
present. -/
def Hook.replay (set : Finset Bytes) : Hook → Option (Finset Bytes)
  | .replaceStart => some ∅
  | .add address => if address ∈ set then none else some (insert address set)
  | .remove address => if address ∈ set then some (set.erase address) else none
  | .replaceEnd => some set

def replayAll (set : Finset Bytes) (hooks : List Hook) : Option (Finset Bytes) :=
  hooks.foldlM Hook.replay set

section Bookkeeping

variable {store : Store} {diff : Diff} {first second : List Hook} {set middle : Finset Bytes}

theorem WellFormed.changes {body : Bytes} (formed : WellFormed body) {fuel : Nat}
    (enough : body.length ≤ fuel) : ∃ changes, diffChanges fuel body = some changes := by
  induction formed generalizing fuel with
  | nil => exact ⟨[], by cases fuel <;> rfl⟩
  | @cons flags address body size rest ih =>
    rw [length_cons, length_append] at enough
    obtain ⟨fuel, rfl⟩ : ∃ less, fuel = less + 1 := ⟨fuel - 1, by omega⟩
    obtain ⟨changes, found⟩ := @ih fuel (by omega)
    have long : ¬(address ++ body).length < address.length := by simp
    rw [diffChanges]
    simp only [← size, if_neg long, drop_left', take_left', found, map_some]
    exact ⟨_, rfl⟩

theorem replayAll_append (one : replayAll set first = some middle) :
    replayAll set (first ++ second) = replayAll middle second := by
  rw [replayAll] at one ⊢
  rw [foldlM_append, one]
  rfl

/-- A change of the store is the change that its hook reports. -/
theorem replay_change (store : Store) (address : Bytes) (add : Bool) :
    replayAll store.trie (store.change address add).2 =
      some (store.change address add).1.trie := by
  unfold Store.change
  cases add with
  | true =>
    by_cases known : address ∈ store.trie
    · simp [known, replayAll]
    · simp [known, replayAll, Hook.replay]
  | false =>
    by_cases known : address ∈ store.trie
    · simp [known, replayAll, Hook.replay]
    · simp [known, replayAll]

theorem replay_changeAll (store : Store) (changes : List (Change Bytes)) :
    replayAll store.trie (store.changeAll changes).2 = some (store.changeAll changes).1.trie := by
  induction changes generalizing store with
  | nil => rfl
  | cons change changes ih =>
    rw [Store.changeAll, replayAll_append (replay_change store change.key change.add)]
    exact ih _

/-- A refused diff changes nothing, and no hook is called. -/
theorem receive_refused (refused : diff.Refused store) : store.receive diff = some (store, []) := by
  obtain ⟨partial', differs⟩ := refused
  unfold Store.receive diffAddrStoreApply
  by_cases epoch : diff.epoch = store.epoch
  · have version := differs.resolve_left (not_not.mpr epoch)
    simp [partial', epoch, version]
  · simp [partial', epoch]

/-- These are the store and the hooks after the changes of a diff. -/
def Store.moved (store : Store) (diff : Diff) (changes : List (Change Bytes)) : Store × List Hook :=
  let changed := (if diff.full then store.reset else store).changeAll changes
  ({ changed.1 with epoch := diff.epoch, version := diff.toVersion },
    if diff.full then .replaceStart :: changed.2 ++ [.replaceEnd] else changed.2)

theorem receive_accepted (accepted : ¬diff.Refused store) :
    store.receive diff = (diffChanges diff.body.length diff.body).map (store.moved diff) := by
  unfold Diff.Refused at accepted
  cases full : diff.full with
  | true =>
    simp only [Store.receive, diffAddrStoreApply, full, Bool.true_eq_false, and_false, if_false,
      if_true, applyLoop_eq, Option.map_map]
    congr 1
    funext changes
    simp [Store.moved, full]
  | false =>
    rw [full] at accepted
    have epoch : diff.epoch = store.epoch := by tauto
    have version : diff.fromVersion = store.version := by tauto
    simp only [Store.receive, diffAddrStoreApply, full, epoch, version, ne_eq, not_true_eq_false,
      false_and, if_false, Bool.false_eq_true, applyLoop_eq, Option.map_map]
    congr 1
    funext changes
    simp [Store.moved, full, epoch]

/-- A diff keeps the counters, and its hooks report the difference. -/
theorem moved_kept (balanced : store.Balanced) (changes : List (Change Bytes)) :
    (store.moved diff changes).1.Balanced ∧
      replayAll store.trie (store.moved diff changes).2 = some (store.moved diff changes).1.trie := by
  cases full : diff.full with
  | true =>
    have reset := balanced.reset
    have replayed := replay_changeAll store.reset changes
    rw [reset.1] at replayed
    simp only [Store.moved, full, if_true]
    exact ⟨reset.2.changeAll changes, @replayAll_append _ [.replaceEnd] _ _ replayed⟩
  | false =>
    simp only [Store.moved, full, Bool.false_eq_true, if_false]
    exact ⟨balanced.changeAll changes, replay_changeAll store changes⟩

theorem receive_kept (balanced : store.Balanced) (formed : WellFormed diff.body) :
    ∃ next hooks, store.receive diff = some (next, hooks) ∧ next.Balanced ∧
      replayAll store.trie hooks = some next.trie := by
  by_cases refused : diff.Refused store
  · exact ⟨store, [], receive_refused refused, balanced, rfl⟩
  · obtain ⟨changes, found⟩ := formed.changes le_rfl
    refine ⟨(store.moved diff changes).1, (store.moved diff changes).2, ?_,
      moved_kept balanced changes⟩
    rw [receive_accepted refused, found]
    rfl

theorem receiveAll_kept (balanced : store.Balanced) (diffs : List Diff)
    (formed : ∀ diff ∈ diffs, WellFormed diff.body) :
    ∃ next hooks, store.receiveAll diffs = some (next, hooks) ∧ next.Balanced ∧
      replayAll store.trie hooks = some next.trie := by
  induction diffs generalizing store with
  | nil => exact ⟨store, [], rfl, balanced, rfl⟩
  | cons diff diffs ih =>
    obtain ⟨here, others⟩ := forall_mem_cons.mp formed
    obtain ⟨middle, first, received, kept, replayed⟩ := receive_kept balanced here
    obtain ⟨next, rest, more, last, ends⟩ := ih kept others
    refine ⟨next, first ++ rest, ?_, last, ?_⟩
    · rw [Store.receiveAll, received]
      simp [more]
    · rw [replayAll_append replayed, ends]

end Bookkeeping

section Copy

variable {source target : Store}

/-- The walk visits the nodes of the trie. A deleted address has a node without the mark. -/
def Store.Walk (store : Store) (walk : List (Bytes × Bool)) : Prop :=
  (walk.map Prod.fst).Nodup ∧ ∀ address, (address, true) ∈ walk ↔ address ∈ store.trie

/-- This is `das_cp`. -/
def dasCp (target : Store) (node : Bytes × Bool) : Store :=
  if node.2 then { target with added := target.added + 1, trie := insert node.1 target.trie }
  else target

/-- This is `diff_addr_store_cp`. A target that is not empty fails a check. -/
def diffAddrStoreCopy (target source : Store) (walk : List (Bytes × Bool)) : Option Store :=
  if target.added = 0 then
    some (walk.foldl dasCp { target with epoch := source.epoch, version := source.version })
  else none

theorem foldl_dasCp (walk : List (Bytes × Bool)) (distinct : (walk.map Prod.fst).Nodup)
    (absent : ∀ address ∈ walk.map Prod.fst, address ∉ target.trie) :
    walk.foldl dasCp target =
      { target with
        added := target.added + ((walk.filter Prod.snd).map Prod.fst).length
        trie := target.trie ∪ ((walk.filter Prod.snd).map Prod.fst).toFinset } := by
  induction walk generalizing target with
  | nil => simp
  | cons node walk ih =>
    rw [map_cons, nodup_cons] at distinct
    rw [map_cons, forall_mem_cons] at absent
    have away : ∀ address ∈ walk.map Prod.fst, address ∉ (dasCp target node).trie := by
      intro address member
      unfold dasCp
      split
      · rw [Finset.mem_insert, not_or]
        exact ⟨fun same => distinct.1 (same ▸ member), absent.2 address member⟩
      · exact absent.2 address member
    rw [foldl_cons, ih distinct.2 away]
    obtain ⟨address, active⟩ := node
    cases active with
    | true =>
      simp only [dasCp, if_true, filter_cons_of_pos, map_cons, length_cons, toFinset_cons,
        Finset.insert_union, Finset.union_insert]
      congr 1
      omega
    | false => simp [dasCp]

/-- Whatever the order of the walk is, the copy of a store has its addresses and no deleted one. -/
theorem copy_eq (walk : List (Bytes × Bool)) (visits : source.Walk walk) :
    diffAddrStoreCopy .init source walk = some (diffAddrStoreCp source) := by
  have active : ((walk.filter Prod.snd).map Prod.fst).toFinset = source.trie := by
    ext address
    rw [← visits.2 address]
    simp
  have distinct : ((walk.filter Prod.snd).map Prod.fst).Nodup :=
    visits.1.sublist (filter_sublist.map _)
  have size : ((walk.filter Prod.snd).map Prod.fst).length = source.trie.card := by
    rw [← active, toFinset_card_of_nodup distinct]
  rw [diffAddrStoreCopy, if_pos (show Store.init.added = 0 from rfl),
    foldl_dasCp walk visits.1 (by simp [Store.init])]
  simp only [Store.init, diffAddrStoreCp, active, size, Nat.zero_add, Finset.empty_union]

end Copy

/-- After any diffs the counters give the number of addresses, the hooks give the addresses, a refused
diff changes nothing and a copy has the same addresses. -/
theorem store_booked (diffs : List Diff) (formed : ∀ diff ∈ diffs, WellFormed diff.body) :
    ∃ store hooks, Store.init.receiveAll diffs = some (store, hooks) ∧
      store.deleted ≤ store.added ∧ store.added - store.deleted = store.trie.card ∧
      replayAll ∅ hooks = some store.trie ∧
      (∀ diff : Diff, diff.Refused store → store.receive diff = some (store, [])) ∧
      ∀ walk, store.Walk walk → diffAddrStoreCopy .init store walk =
        some ⟨store.epoch, store.version, store.trie, store.trie.card, 0⟩ := by
  have start : Store.init.Balanced := rfl
  obtain ⟨store, hooks, received, balanced, replayed⟩ := receiveAll_kept start diffs formed
  unfold Store.Balanced at balanced
  exact ⟨store, hooks, received, by omega, by omega, replayed, fun diff => receive_refused,
    fun walk visits => copy_eq walk visits⟩

/-- The second diff replaces the addresses of the first one. -/
theorem store_booked_sample :
    ∃ store hooks, Store.init.receiveAll [⟨true, 1, 0, 1, [5, 10, 0, 0, 1]⟩,
        ⟨false, 1, 1, 2, [4, 10, 0, 0, 1]⟩, ⟨false, 2, 1, 3, []⟩] = some (store, hooks) ∧
      store.deleted ≤ store.added ∧ store.added - store.deleted = store.trie.card ∧
      replayAll ∅ hooks = some store.trie ∧
      (∀ diff : Diff, diff.Refused store → store.receive diff = some (store, [])) ∧
      ∀ walk, store.Walk walk → diffAddrStoreCopy .init store walk =
        some ⟨store.epoch, store.version, store.trie, store.trie.card, 0⟩ := by
  refine store_booked [⟨true, 1, 0, 1, [5, 10, 0, 0, 1]⟩, ⟨false, 1, 1, 2, [4, 10, 0, 0, 1]⟩,
    ⟨false, 2, 1, 3, []⟩] ?_
  simp only [forall_mem_cons]
  exact ⟨@WellFormed.cons 5 [10, 0, 0, 1] [] rfl .nil, @WellFormed.cons 4 [10, 0, 0, 1] [] rfl .nil,
    .nil, forall_mem_nil _⟩

end Ucollect.Diffstore
