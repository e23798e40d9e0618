import Ucollect.Proof.Fwup.Entries

/-
This file proves that the content of a set is replaced through the temporary set.
-/

namespace Ucollect.Fwup
open Library Diffstore List Option Function

/-- The temporary set has this name. -/
def IpSet.repName (set : IpSet) : Name := set.name ++ repSuffix

/-- This is the set of the kernel after the content was replaced. -/
def IpSet.filled (set : IpSet) (trie : Finset Bytes) : KernelSet where
  desc := set.type.desc
  family := set.type.family
  hashSize := set.hashSize
  maxSize := set.maxSize
  entries := set.type.mirror trie

/-- The temporary name is free, and the set is listed or has its size already. -/
def Ipset.Replaceable (ipset : Ipset) (existing : Existing) (kernel : Kernel) (set : IpSet) : Prop :=
  existing set.repName = false ∧ kernel set.repName = none ∧
    ipset.creatable set.repName set.type.desc set.type.family set.hashSize set.maxSize = true ∧
    (existing set.name = true ∨ (kernel set.name).any fun kset =>
      kset.hashSize = set.hashSize ∧ kset.maxSize = set.maxSize)

variable {ipset : Ipset} {existing : Existing} {kernel : Kernel} {set : IpSet} {store : Store}
  {kset : KernelSet}

theorem Ipset.Replaceable.congr {next : Kernel} (free : ipset.Replaceable existing kernel set)
    (sameRep : next set.repName = kernel set.repName) (same : next set.name = kernel set.name) :
    ipset.Replaceable existing next set := by
  rw [Ipset.Replaceable, sameRep, same]
  exact free

theorem shows_filled (set : IpSet) (trie : Finset Bytes) :
    Shows set.type trie (set.filled trie) :=
  ⟨rfl, rfl, rfl⟩

theorem repName_ne (set : IpSet) : set.repName ≠ set.name := by
  intro same
  have lengths := congrArg List.length same
  rw [IpSet.repName, length_append] at lengths
  have positive : 0 < repSuffix.length := by decide
  omega

/-- A set that the list does not show is created once more with the same sizes. -/
theorem run_setCreate (there : kernel set.name = some kset) (desc : kset.desc = set.type.desc)
    (family : kset.family = set.type.family) (free : ipset.Replaceable existing kernel set) :
    runAll ipset.run kernel (setCreate existing set) = some kernel := by
  rw [setCreate]
  split
  · rfl
  · next hidden =>
      obtain ⟨-, -, -, listed | sized⟩ := free
      · exact absurd listed hidden
      · rw [there, any_some, decide_eq_true_eq] at sized
        rw [IpSet.create, ← desc, ← family, ← sized.1, ← sized.2, runAll_cons,
          ipset.create_same there]
        rfl

theorem runHook_replaceStart (idle : set.tmpName = none)
    (free : ipset.Replaceable existing kernel set) :
    runHook existing set .replaceStart =
      some ({ set with tmpName := some set.repName },
        setCreate existing set ++ [set.create set.repName]) := by
  have absent : existing (set.name ++ repSuffix) = false := free.1
  rw [runHook, replaceStart, idle]
  simp only [absent, Bool.false_eq_true, if_false, append_nil]
  rfl

/-- The swap moves the new content to the name of the set. -/
theorem run_replaceEnd {old new : KernelSet} (there : kernel set.name = some old)
    (filled : kernel set.repName = some new) (desc : old.desc = new.desc)
    (family : old.family = new.family) :
    runAll ipset.run kernel [.swap set.name set.repName, .destroy set.repName] =
      some (update (update kernel set.name (some new)) set.repName none) := by
  rw [runAll_cons, ipset.swap_sets there filled desc family, bind_some, runAll_cons,
    ipset.destroy_set (update_self _ _ _), bind_some, update_idem]
  rfl

theorem run_replacement {changes : List (Change Bytes)} (idle : set.tmpName = none)
    (there : kernel set.name = some kset) (desc : kset.desc = set.type.desc)
    (family : kset.family = set.type.family) (free : ipset.Replaceable existing kernel set)
    (empty : store.trie = ∅) (fits : ipset.Fits set.name set.type set.maxSize ∅ changes) :
    ∃ commands, runHooks existing set
        (.replaceStart :: (store.changeAll changes).2 ++ [.replaceEnd]) = some (set, commands) ∧
      runAll ipset.run kernel commands =
        some (update kernel set.name (some (set.filled (applyChanges ∅ changes)))) := by
  have created : runAll ipset.run kernel (setCreate existing set ++ [set.create set.repName]) =
      some (update kernel set.repName (some (set.filled ∅))) := by
    apply runAll_trans (run_setCreate there desc family free)
    rw [IpSet.create, runAll_cons, ipset.create_new free.2.1 free.2.2.1, IpSet.filled, mirror_empty]
    rfl
  obtain ⟨commands, hooked, ran⟩ := @run_changes ipset existing
    (update kernel set.repName (some (set.filled ∅)))
    { set with tmpName := some set.repName } store (set.filled ∅) changes
    (update_self _ _ _)
    (by rw [empty]; exact shows_filled set ∅)
    (by rw [empty]; exact fun _ member => absurd member (Finset.notMem_empty _))
    chooseProtocol_rep
    (by rw [empty]; exact fits)
  have filling : runAll ipset.run (update kernel set.repName (some (set.filled ∅)))
      commands = some (update kernel set.repName
        (some (set.filled (applyChanges ∅ changes)))) := by
    rw [ran, empty]
    exact congrArg some (update_idem _ _ _)
  have whole : ({ set with tmpName := none } : IpSet) = set := by rw [← idle]
  have ended : runHooks existing { set with tmpName := some set.repName } [.replaceEnd] =
      some (set, [.swap set.name set.repName, .destroy set.repName]) := by
    conv_rhs => rw [← whole]
    rfl
  refine ⟨_, runHooks_cons (runHook_replaceStart idle free) (runHooks_append hooked ended), ?_⟩
  apply runAll_trans created
  apply runAll_trans filling
  -- The temporary name is free again at the end, as it was before.
  have restored (value : Option KernelSet) :
      update (update (update kernel set.repName value) set.name value)
        set.repName none = update kernel set.name value := by
    rw [update_comm (repName_ne set).symm, update_idem, ← free.2.1, update_eq_self]
  rw [← restored]
  apply run_replaceEnd
  · rw [update_of_ne (repName_ne set).symm]
    exact there
  · exact update_self _ _ _
  · exact desc
  · exact family

section Reload

/-- A walk of the store adds its addresses. -/
def additions (addrs : List Bytes) : List (Change Bytes) := addrs.map fun addr => ⟨addr, true⟩

theorem changeAll_additions {addrs : List Bytes} (distinct : addrs.Nodup)
    (fresh : ∀ addr ∈ addrs, addr ∉ store.trie) :
    (store.changeAll (additions addrs)).2 = addrs.map .add := by
  induction addrs generalizing store with
  | nil => rfl
  | cons addr addrs ih =>
    rw [nodup_cons] at distinct
    rw [forall_mem_cons] at fresh
    have rest : ∀ later ∈ addrs, later ∉ (store.change addr true).1.trie := by
      intro later member
      rw [change_trie, mem_apply]
      have different : addr ≠ later := fun same => distinct.1 (same ▸ member)
      rw [if_neg different]
      exact fresh.2 later member
    have hooks : (store.change addr true).2 = [.add addr] := by
      rw [Store.change, if_pos rfl, if_neg fresh.1]
    rw [additions, map_cons, ← additions, Store.changeAll, hooks, ih distinct.2 rest]
    rfl

theorem applyChanges_additions (trie : Finset Bytes) (addrs : List Bytes) :
    applyChanges trie (additions addrs) = trie ∪ addrs.toFinset := by
  induction addrs generalizing trie with
  | nil => exact (Finset.union_empty trie).symm
  | cons addr addrs ih =>
    have first : Change.apply trie ⟨addr, true⟩ = insert addr trie := if_pos rfl
    rw [additions, map_cons, ← additions, applyChanges, foldl_cons, ← applyChanges, first, ih,
      toFinset_cons, Finset.union_insert, Finset.insert_union]

theorem fits_additions {name : Name} {type : SetType} {maxSize : Nat} {trie : Finset Bytes}
    {addrs : List Bytes} (accepted : ∀ addr ∈ addrs, ipset.Accepts name type addr)
    (room : (type.mirror (trie ∪ addrs.toFinset)).card ≤ maxSize) :
    ipset.Fits name type maxSize trie (additions addrs) := by
  induction addrs generalizing trie with
  | nil => trivial
  | cons addr addrs ih =>
    rw [forall_mem_cons] at accepted
    have first : Change.apply trie ⟨addr, true⟩ = insert addr trie := if_pos rfl
    have same : insert addr trie ∪ addrs.toFinset = trie ∪ (addr :: addrs).toFinset := by
      rw [toFinset_cons, Finset.union_insert, Finset.insert_union]
    rw [← same] at room
    have smaller : type.mirror (insert addr trie) ⊆
        type.mirror (insert addr trie ∪ addrs.toFinset) := mirror_mono Finset.subset_union_left
    refine ⟨⟨accepted.1.2.1, fun _ => ⟨accepted.1, ?_⟩⟩, ?_⟩
    · rw [first]
      exact (Finset.card_le_card smaller).trans room
    · rw [first]
      exact ih accepted.2 room

/-- These are the commands of a reload. -/
def reloadCommands (existing : Existing) (walk : Walk) (set : IpSet) : List Command :=
  ((setReload existing set walk).map Prod.snd).getD []

/-- A reload puts the addresses of the store in the kernel. -/
theorem run_setReload {walk : Walk} (idle : set.tmpName = none)
    (complete : ∀ name trie, (walk name trie).Nodup ∧ (walk name trie).toFinset = trie)
    (there : kernel set.name = some kset) (desc : kset.desc = set.type.desc)
    (family : kset.family = set.type.family) (free : ipset.Replaceable existing kernel set)
    (accepted : ∀ addr ∈ set.store.trie, ipset.Accepts set.name set.type addr)
    (room : (set.type.mirror set.store.trie).card ≤ set.maxSize) :
    setReload existing set walk = some (set, reloadCommands existing walk set) ∧
      runAll ipset.run kernel (reloadCommands existing walk set) =
        some (update kernel set.name (some (set.filled set.store.trie))) := by
  obtain ⟨distinct, all⟩ := complete set.name set.store.trie
  have total : ∅ ∪ (walk set.name set.store.trie).toFinset = set.store.trie := by
    rw [all, Finset.empty_union]
  have fits : ipset.Fits set.name set.type set.maxSize ∅
      (additions (walk set.name set.store.trie)) := by
    apply fits_additions
    · intro addr member
      rw [← all] at accepted
      exact accepted addr (List.mem_toFinset.mpr member)
    · rw [total]
      exact room
  obtain ⟨commands, hooked, ran⟩ := @run_replacement ipset existing kernel set .init kset _ idle there
    desc family free rfl fits
  rw [applyChanges_additions, total] at ran
  rw [changeAll_additions distinct fun _ _ => Finset.notMem_empty _] at hooked
  have reloaded : setReload existing set walk = some (set, commands) := hooked
  rw [reloadCommands, reloaded]
  exact ⟨rfl, ran⟩

end Reload

end Ucollect.Fwup
