import Ucollect.Proof.Fwup.Tracking

/-
This file proves that a new configuration keeps the kernel and the sets together.
-/

namespace Ucollect.Fwup
open Library Diffstore List Option Function

section Carried

/-- This is the set of the old configuration with the same name and type. -/
def priorOf (olds : List IpSet) (set : IpSet) : Option IpSet := olds.find? set.corresponds

/-- The content of a valid set is replaced when its sizes change. -/
def Reloads (olds : List IpSet) (set : IpSet) : Bool :=
  (priorOf olds set).any fun old => old.state = .valid ∧ set.resized old

/-- This is the new set with what it gets from the old one. -/
def carried (olds : List IpSet) (set : IpSet) : IpSet :=
  match priorOf olds set with
  | none => set
  | some old =>
    if old.state = .valid then { set with store := diffAddrStoreCp old.store, state := .valid }
    else { set with state := .pending }

/-- A set without an old one is created. -/
def createdSet (olds : List IpSet) (set : IpSet) : IpSet :=
  match priorOf olds set with
  | none => { set with state := .pending }
  | some _ => carried olds set

variable {olds news : List IpSet} {old set : IpSet}

theorem prior_some (found : priorOf olds set = some old) :
    old ∈ olds ∧ set.name = old.name ∧ set.type = old.type := by
  rw [priorOf] at found
  have corresponds := List.find?_some found
  rw [IpSet.corresponds, decide_eq_true_eq] at corresponds
  exact ⟨mem_of_find?_eq_some found, corresponds⟩

theorem prior_none (missing : priorOf olds set = none) (member : old ∈ olds)
    (named : set.name = old.name) : set.type ≠ old.type := by
  intro typed
  have different := List.find?_eq_none.mp missing old member
  rw [IpSet.corresponds, decide_eq_true_eq] at different
  exact different ⟨named, typed⟩

theorem carried_name : (carried olds set).name = set.name := by
  rw [carried]
  split
  · rfl
  · split
    · rfl
    · rfl

theorem createdSet_name : (createdSet olds set).name = set.name := by
  rw [createdSet]
  split
  · rfl
  · exact carried_name

/-- Marking the sets as dead does not change what is found. -/
theorem find_dead (mark : IpSet → IpSet)
    (same : ∀ old, (mark old).name = old.name ∧ (mark old).type = old.type) :
    (olds.map mark).find? set.corresponds = (priorOf olds set).map mark := by
  rw [List.find?_map, priorOf]
  congr 2
  funext old
  rw [comp_apply, IpSet.corresponds, IpSet.corresponds, (same old).1, (same old).2]

end Carried

section Kernels

/-- The kernel after the sets with new sizes are replaced. -/
def afterReloads (kernel : Kernel) (olds news : List IpSet) : Kernel :=
  writeEach IpSet.name (fun set => some ((carried olds set).filled (carried olds set).store.trie))
    kernel (news.filter (Reloads olds))

/-- The kernel after the sets without a new one are destroyed. -/
def afterDestroys (kernel : Kernel) (olds news : List IpSet) : Kernel :=
  writeEach IpSet.name
    (fun old => if news.any fun set => set.corresponds old then kernel old.name else none)
    kernel olds

/-- The kernel after the sets without an old one are created. -/
def afterCreates (kernel : Kernel) (olds news : List IpSet) : Kernel :=
  writeEach IpSet.name
    (fun set => if (priorOf olds set).isSome then kernel set.name else some (set.filled ∅))
    kernel news

variable {ipset : Ipset} {existing : Existing} {kernel : Kernel} {olds news : List IpSet}
  {old set : IpSet} {name : Name}

theorem corresponds_iff : (news.any fun set => set.corresponds old) = true ↔
    ∃ set ∈ news, set.name = old.name ∧ set.type = old.type := by
  rw [List.any_eq_true]
  simp only [IpSet.corresponds, decide_eq_true_eq]

theorem reloads_distinct (distinct : (news.map IpSet.name).Nodup) :
    ((news.filter (Reloads olds)).map IpSet.name).Nodup :=
  distinct.sublist (filter_sublist.map _)

theorem afterReloads_of_mem (distinct : (news.map IpSet.name).Nodup) (member : set ∈ news) :
    afterReloads kernel olds news set.name =
      if Reloads olds set then some ((carried olds set).filled (carried olds set).store.trie)
      else kernel set.name := by
  split
  · next reloads =>
      exact writeEach_of_mem (reloads_distinct distinct) (mem_filter.mpr ⟨member, reloads⟩)
  · next stays =>
      apply writeEach_of_notMem
      intro written
      obtain ⟨other, inside, named⟩ := List.mem_map.mp written
      obtain ⟨otherMember, reloads⟩ := mem_filter.mp inside
      have same := inj_on_of_nodup_map distinct otherMember member named
      exact stays (same ▸ reloads)

theorem afterReloads_of_notMem (absent : name ∉ news.map IpSet.name) :
    afterReloads kernel olds news name = kernel name :=
  writeEach_of_notMem fun written => absent ((filter_sublist.map _).subset written)

section

variable (tracks : Tracks ipset kernel olds)
include tracks

/-- A set that goes away is untouched by the replacements. -/
theorem afterReloads_gone (distinct : (news.map IpSet.name).Nodup) (member : old ∈ olds)
    (gone : (news.any fun set => set.corresponds old) = false) :
    afterReloads kernel olds news old.name = kernel old.name := by
  by_cases again : old.name ∈ news.map IpSet.name
  · obtain ⟨set, inside, named⟩ := List.mem_map.mp again
    have typed : set.type ≠ old.type := by
      intro typed
      have kept := corresponds_iff.mpr ⟨set, inside, named, typed⟩
      rw [gone] at kept
      cases kept
    have alone : priorOf olds set = none := by
      cases found : priorOf olds set with
      | none => rfl
      | some other =>
        obtain ⟨otherMember, sameName, sameType⟩ := prior_some found
        have same := inj_on_of_nodup_map tracks.distinct otherMember member
          (sameName.symm.trans named)
        exact absurd (same ▸ sameType) typed
    rw [← named, afterReloads_of_mem distinct inside, Reloads, alone]
    rfl
  · exact afterReloads_of_notMem again

/-- A name that is not configured any more is free. -/
theorem afterDestroys_absent (absent : name ∉ news.map IpSet.name) :
    afterDestroys (afterReloads kernel olds news) olds news name = none := by
  by_cases known : name ∈ olds.map IpSet.name
  · obtain ⟨old, member, rfl⟩ := List.mem_map.mp known
    have gone : ¬ (news.any fun set => set.corresponds old) = true := by
      intro kept
      obtain ⟨set, inside, named, -⟩ := corresponds_iff.mp kept
      exact absent (named ▸ List.mem_map_of_mem inside)
    rw [afterDestroys, writeEach_of_mem tracks.distinct member, if_neg gone]
  · rw [afterDestroys, writeEach_of_notMem known, afterReloads_of_notMem absent]
    exact tracks.absent name known

/-- The name of a set without an old one is free. -/
theorem afterDestroys_new (distinct : (news.map IpSet.name).Nodup) (member : set ∈ news)
    (alone : priorOf olds set = none) :
    afterDestroys (afterReloads kernel olds news) olds news set.name = none := by
  by_cases known : set.name ∈ olds.map IpSet.name
  · obtain ⟨old, inside, named⟩ := List.mem_map.mp known
    have gone : ¬ (news.any fun set => set.corresponds old) = true := by
      intro kept
      obtain ⟨other, otherMember, otherNamed, typed⟩ := corresponds_iff.mp kept
      have same := inj_on_of_nodup_map distinct otherMember member (otherNamed.trans named)
      exact prior_none alone inside named.symm (same ▸ typed)
    rw [← named, afterDestroys, writeEach_of_mem tracks.distinct inside, if_neg gone]
  · rw [afterDestroys, writeEach_of_notMem known, afterReloads_of_mem distinct member, Reloads,
      alone]
    exact tracks.absent _ known

/-- A set with an old one keeps what the replacements gave it. -/
theorem afterDestroys_kept (distinct : (news.map IpSet.name).Nodup) (member : set ∈ news)
    (found : priorOf olds set = some old) :
    afterDestroys (afterReloads kernel olds news) olds news set.name =
      if Reloads olds set then some ((carried olds set).filled (carried olds set).store.trie)
      else kernel set.name := by
  obtain ⟨inside, named, typed⟩ := prior_some found
  have kept : (news.any fun set => set.corresponds old) = true :=
    corresponds_iff.mpr ⟨set, member, named, typed⟩
  rw [named, afterDestroys, writeEach_of_mem tracks.distinct inside, if_pos kept, ← named,
    afterReloads_of_mem distinct member]

end

end Kernels

section Phases

/-- A created set is not listed, and a replaced one can be replaced by the old content. -/
def Ipset.SetsFit (ipset : Ipset) (existing : Existing) (kernel : Kernel)
    (olds news : List IpSet) : Prop :=
  ∀ set ∈ news,
    match priorOf olds set with
    | none =>
      existing set.name = false ∧
        ipset.creatable set.name set.type.desc set.type.family set.hashSize set.maxSize = true
    | some old =>
      old.state = .valid → set.resized old = true →
        ipset.Replaceable existing kernel set ∧
          (set.type.mirror old.store.trie).card ≤ set.maxSize

/-- This is a set that was just parsed. -/
structure Newborn (set : IpSet) : Prop where
  idle : set.tmpName = none
  state : set.state = .newborn
  store : set.store = .init

variable {ipset : Ipset} {existing : Existing} {kernel : Kernel} {olds news : List IpSet}
  {old set : IpSet} {name : Name} {walk : Walk}

theorem reloads_iff : Reloads olds set = true ↔
    ∃ old, priorOf olds set = some old ∧ old.state = .valid ∧ set.resized old = true := by
  rw [Reloads, Option.any_eq_true]
  simp only [decide_eq_true_eq]

theorem carried_valid (found : priorOf olds set = some old) (valid : old.state = .valid) :
    carried olds set = { set with store := diffAddrStoreCp old.store, state := .valid } := by
  rw [carried, found]
  exact if_pos valid

theorem carried_pending (found : priorOf olds set = some old) (pending : old.state ≠ .valid) :
    carried olds set = { set with state := .pending } := by
  rw [carried, found]
  exact if_neg pending

/-- The old content goes to a set of the new size. -/
theorem run_carried (complete : ∀ name trie, (walk name trie).Nodup ∧ (walk name trie).toFinset = trie)
    (tracks : Tracks ipset kernel olds) (fits : ipset.SetsFit existing kernel olds news)
    (member : set ∈ news) (newborn : Newborn set) (reloads : Reloads olds set = true)
    {current : Kernel} (sameRep : current set.repName = kernel set.repName)
    (same : current set.name = kernel set.name) :
    setReload existing (carried olds set) walk =
        some (carried olds set, reloadCommands existing walk (carried olds set)) ∧
      runAll ipset.run current (reloadCommands existing walk (carried olds set)) =
        some (update current set.name
          (some ((carried olds set).filled (carried olds set).store.trie))) := by
  obtain ⟨old, found, valid, resized⟩ := reloads_iff.mp reloads
  obtain ⟨inside, named, typed⟩ := prior_some found
  have held := tracks.held old inside
  obtain ⟨kset, there, desc, family, -⟩ := held.there
  have fit := fits set member
  rw [found] at fit
  obtain ⟨free, room⟩ := fit valid resized
  have accepted := held.accepted
  rw [← named, ← typed] at accepted
  rw [← typed] at desc family
  rw [← named, ← same] at there
  rw [carried_valid found valid]
  exact @run_setReload ipset existing current
    { set with store := diffAddrStoreCp old.store, state := .valid } kset walk newborn.idle complete
    there desc family (free.congr sameRep same) accepted room

/-- The content of the sets with new sizes is replaced first. -/
def carryCommands (existing : Existing) (walk : Walk) (olds : List IpSet) (set : IpSet) :
    List Command :=
  if Reloads olds set then reloadCommands existing walk (carried olds set) else []

theorem flatMap_carryCommands : news.flatMap (carryCommands existing walk olds) =
    (news.filter (Reloads olds)).flatMap fun set =>
      reloadCommands existing walk (carried olds set) := by
  induction news with
  | nil => rfl
  | cons set news ih =>
    rw [flatMap_cons, filter_cons, carryCommands, ih]
    split
    · rw [flatMap_cons]
    · rfl

theorem run_reloads (complete : ∀ name trie, (walk name trie).Nodup ∧ (walk name trie).toFinset = trie)
    (tracks : Tracks ipset kernel olds) (fits : ipset.SetsFit existing kernel olds news)
    (distinct : (news.map IpSet.name).Nodup) (newborn : ∀ set ∈ news, Newborn set) :
    runAll ipset.run kernel (news.flatMap (carryCommands existing walk olds)) =
      some (afterReloads kernel olds news) := by
  rw [flatMap_carryCommands]
  apply runAll_each _ (reloads_distinct distinct)
  intro set filtered current same
  obtain ⟨member, reloads⟩ := mem_filter.mp filtered
  apply (run_carried complete tracks fits member (newborn set member) reloads _
    (same _ fun _ _ _ => rfl)).2
  apply same
  -- A set that is replaced is in the kernel, so its name is not the temporary one.
  intro later inside taken
  obtain ⟨old, found, valid, resized⟩ := reloads_iff.mp reloads
  have fit := fits set member
  rw [found] at fit
  obtain ⟨other, otherFound, -⟩ := reloads_iff.mp (mem_filter.mp inside).2
  obtain ⟨otherMember, named, -⟩ := prior_some otherFound
  obtain ⟨kset, there, -⟩ := (tracks.held other otherMember).there
  rw [← named, taken, (fit valid resized).1.2.1] at there
  cases there

/-- This destroys an old set that has no new one. -/
def destroyCommands (news : List IpSet) (old : IpSet) : List Command :=
  if news.any fun set => set.corresponds old then [] else [.destroy old.name]

theorem run_destroys (tracks : Tracks ipset kernel olds) (distinct : (news.map IpSet.name).Nodup) :
    runAll ipset.run (afterReloads kernel olds news) (olds.flatMap (destroyCommands news)) =
      some (afterDestroys (afterReloads kernel olds news) olds news) := by
  apply runAll_each _ tracks.distinct
  intro old member current same
  have here : current old.name = afterReloads kernel olds news old.name := same _ fun _ _ _ => rfl
  rw [destroyCommands]
  split
  · rw [← here, update_eq_self]
    rfl
  · next gone =>
      obtain ⟨kset, there, -⟩ := (tracks.held old member).there
      rw [afterReloads_gone tracks distinct member (Bool.not_eq_true _ ▸ gone), there] at here
      rw [runAll_cons, ipset.destroy_set here]
      rfl

/-- This creates a set that has no old one. -/
def createCommands (olds : List IpSet) (set : IpSet) : List Command :=
  if (priorOf olds set).isSome then [] else [set.create set.name]

theorem run_creates (tracks : Tracks ipset kernel olds)
    (fits : ipset.SetsFit existing kernel olds news) (distinct : (news.map IpSet.name).Nodup) :
    runAll ipset.run (afterDestroys (afterReloads kernel olds news) olds news)
        (news.flatMap (createCommands olds)) =
      some (afterCreates (afterDestroys (afterReloads kernel olds news) olds news) olds news) := by
  apply runAll_each _ distinct
  intro set member current same
  have here := same set.name fun _ _ _ => rfl
  rw [createCommands]
  split
  · rw [← here, update_eq_self]
    rfl
  · next alone =>
      have missing : priorOf olds set = none := not_isSome_iff_eq_none.mp alone
      have fit := fits set member
      rw [missing] at fit
      rw [afterDestroys_new tracks distinct member missing] at here
      rw [IpSet.create, runAll_cons, ipset.create_new here fit.2, IpSet.filled, mirror_empty]
      rfl

/-- A set with an old one is held by the kernel with the old content. -/
theorem held_carried (tracks : Tracks ipset kernel olds) (newborn : Newborn set)
    (found : priorOf olds set = some old) {next : Kernel}
    (there : next set.name =
      if Reloads olds set then some ((carried olds set).filled (carried olds set).store.trie)
      else kernel set.name) :
    Held ipset next (carried olds set) := by
  obtain ⟨inside, named, typed⟩ := prior_some found
  have held := tracks.held old inside
  obtain ⟨kset, known, desc, family, content⟩ := held.there
  rw [← named] at known
  rw [← typed] at desc family content
  by_cases valid : old.state = .valid
  · have accepted := held.accepted
    rw [← named, ← typed] at accepted
    have balanced : (diffAddrStoreCp old.store).Balanced := by
      rw [Store.Balanced, diffAddrStoreCp, Nat.zero_add]
    rw [carried_valid found valid] at there ⊢
    split at there
    · exact ⟨newborn.idle, .inl rfl, balanced, accepted, _, there, rfl, rfl, fun _ => rfl⟩
    · exact ⟨newborn.idle, .inl rfl, balanced, accepted, kset, there.trans known, desc, family,
        fun _ => content valid⟩
  · have stays : ¬ Reloads olds set = true := by
      intro reloads
      obtain ⟨other, otherFound, otherValid, -⟩ := reloads_iff.mp reloads
      rw [found] at otherFound
      exact valid (Option.some.inj otherFound ▸ otherValid)
    rw [if_neg stays] at there
    rw [carried_pending found valid]
    refine ⟨newborn.idle, .inr rfl, ?_, ?_, kset, there.trans known, desc, family,
      SetState.noConfusion⟩
    · rw [newborn.store]
      rfl
    · rw [newborn.store]
      exact fun _ member => absurd member (Finset.notMem_empty _)

/-- A new configuration leaves the kernel with its sets. -/
theorem tracks_created (tracks : Tracks ipset kernel olds) (distinct : (news.map IpSet.name).Nodup)
    (newborn : ∀ set ∈ news, Newborn set) :
    Tracks ipset (afterCreates (afterDestroys (afterReloads kernel olds news) olds news) olds news)
      (news.map (createdSet olds)) := by
  have names : (news.map (createdSet olds)).map IpSet.name = news.map IpSet.name := by
    rw [List.map_map]
    exact map_congr_left fun set _ => createdSet_name
  constructor
  · rw [names]
    exact distinct
  · intro created member
    obtain ⟨set, inside, rfl⟩ := List.mem_map.mp member
    have born := newborn set inside
    have there := @writeEach_of_mem Name (Option KernelSet) IpSet _ IpSet.name
      (fun set => if (priorOf olds set).isSome then
        afterDestroys (afterReloads kernel olds news) olds news set.name else some (set.filled ∅))
      (afterDestroys (afterReloads kernel olds news) olds news) news distinct set inside
    rw [createdSet]
    split
    · next missing =>
        rw [missing] at there
        refine ⟨born.idle, .inr rfl, ?_, ?_, set.filled ∅, there, rfl, rfl, nofun⟩
        · rw [born.store]
          rfl
        · rw [born.store]
          exact fun _ known => absurd known (Finset.notMem_empty _)
    · next old found =>
        rw [found, afterDestroys_kept tracks distinct inside found] at there
        exact held_carried tracks born found there
  · intro name absent
    rw [names] at absent
    rw [afterCreates, writeEach_of_notMem absent]
    exact afterDestroys_absent tracks absent

end Phases

section Parsing

variable {ipset : Ipset} {existing : Existing} {kernel : Kernel} {olds news : List IpSet}
  {old set : IpSet} {walk : Walk} {user : UserData} {config : Config}

/-- This is the old set while the new configuration is made. -/
def deadOf (old : IpSet) : IpSet :=
  { old with state := if old.state = .valid then .dead else .deadPending }

theorem markDead_eq (settled : old.state = .valid ∨ old.state = .pending) :
    markDead old = some (deadOf old) := by
  rcases settled with state | state
  · rw [markDead, deadOf, state]
    rfl
  · rw [markDead, deadOf, state]
    rfl

theorem destroyOld_eq :
    destroyOld (markCopied news (deadOf old)) = some (destroyCommands news old) := by
  have same : (news.any fun set => set.corresponds (deadOf old)) =
      news.any fun set => set.corresponds old := rfl
  rw [markCopied, destroyCommands, same]
  split
  · rfl
  · by_cases valid : old.state = .valid
    · rw [deadOf, if_pos valid]
      rfl
    · rw [deadOf, if_neg valid]
      rfl

theorem carryOver_eq (complete : ∀ name trie, (walk name trie).Nodup ∧ (walk name trie).toFinset = trie)
    (tracks : Tracks ipset kernel olds) (fits : ipset.SetsFit existing kernel olds news)
    (member : set ∈ news) (newborn : Newborn set) :
    carryOver existing walk (olds.map deadOf) set =
      some (carried olds set, carryCommands existing walk olds set) := by
  rw [carryOver, find_dead deadOf fun _ => ⟨rfl, rfl⟩, carryCommands]
  cases found : priorOf olds set with
  | none =>
    rw [map_none, carried, found, Reloads, found]
    rfl
  | some old =>
    rw [map_some]
    dsimp only
    by_cases valid : old.state = .valid
    · have dead : (deadOf old).state = .dead := if_pos valid
      have sized : set.resized (deadOf old) = Reloads olds set := by
        rw [Reloads, found, any_some]
        simp only [valid, true_and, Bool.decide_eq_true]
        rfl
      rw [dead]
      dsimp only
      rw [sized]
      by_cases reloads : Reloads olds set = true
      · have ran := (run_carried complete tracks fits member newborn reloads rfl rfl).1
        rw [carried_valid found valid] at ran ⊢
        rw [if_pos reloads, if_pos reloads]
        exact ran
      · rw [if_neg reloads, if_neg reloads, carried_valid found valid]
        rfl
    · have dead : (deadOf old).state = .deadPending := if_neg valid
      have stays : ¬ Reloads olds set = true := by
        rw [Reloads, found, any_some]
        simp only [valid, false_and, decide_false, Bool.false_eq_true, not_false_eq_true]
      rw [dead, if_neg stays, carried_pending found valid]

theorem createNew_eq (fits : ipset.SetsFit existing kernel olds news) (member : set ∈ news)
    (newborn : Newborn set) :
    createNew existing (carried olds set) = some (createdSet olds set, createCommands olds set) := by
  rw [createdSet, createCommands]
  cases found : priorOf olds set with
  | none =>
    have fit := fits set member
    rw [found] at fit
    have alone : carried olds set = set := by rw [carried, found]
    rw [alone, createNew, newborn.state, setCreate, fit.1]
    rfl
  | some old =>
    by_cases valid : old.state = .valid
    · rw [carried_valid found valid]
      rfl
    · rw [carried_pending found valid]
      rfl

/-- The sets of a configuration that have a known type. -/
def Config.newSets (config : Config) : List IpSet := config.sets.filterMap setParse

theorem newSets_newborn (member : set ∈ config.newSets) : Newborn set := by
  obtain ⟨parsed, -, found⟩ := mem_filterMap.mp member
  obtain ⟨type, -, rfl⟩ := map_eq_some_iff.mp found
  exact ⟨rfl, rfl, rfl⟩

theorem newSets_distinct (config : Config) : (config.newSets.map IpSet.name).Nodup := by
  have sublist : ∀ sets : List SetConfig,
      ((sets.filterMap setParse).map IpSet.name).Sublist (sets.map SetConfig.name) := by
    intro sets
    induction sets with
    | nil => exact List.Sublist.refl _
    | cons set sets ih =>
      rw [filterMap_cons, map_cons]
      split
      · exact ih.cons _
      · next parsed found =>
          obtain ⟨type, -, rfl⟩ := map_eq_some_iff.mp found
          exact ih.cons_cons _
  exact config.distinct.sublist (sublist config.sets)

theorem resizing_eq :
    (news.any fun set => ((olds.map deadOf).find? set.corresponds).any fun old =>
      decide (old.state = .dead ∧ set.resized old = true)) = news.any (Reloads olds) := by
  congr 1
  funext set
  rw [find_dead deadOf fun _ => ⟨rfl, rfl⟩, Reloads]
  cases found : priorOf olds set with
  | none => rfl
  | some old =>
    have same : (deadOf old).state = .dead ↔ old.state = .valid := by
      by_cases valid : old.state = .valid
      · exact iff_of_true (if_pos valid) valid
      · have dead : (deadOf old).state = .deadPending := if_neg valid
        rw [dead]
        exact iff_of_false nofun valid
    rw [map_some, any_some, any_some]
    exact decide_eq_decide.mpr (and_congr same Iff.rfl)

theorem flatMap_carryCommands_nil (stays : ¬ news.any (Reloads olds) = true) :
    news.flatMap (carryCommands existing walk olds) = [] := by
  rw [flatMap_carryCommands]
  have unwritten : news.filter (Reloads olds) = [] :=
    filter_eq_nil_iff.mpr fun set member reloads =>
      stays (List.any_eq_true.mpr ⟨set, member, reloads⟩)
  rw [unwritten]
  rfl

/-- A configuration with another version replaces, destroys and creates sets. -/
theorem configParse_tracks
    (complete : ∀ name trie, (walk name trie).Nodup ∧ (walk name trie).toFinset = trie)
    (tracks : Tracks ipset kernel user.sets) (other : user.configVersion ≠ config.version)
    (fits : ipset.SetsFit existing kernel user.sets config.newSets) :
    ∃ reaction middle after commands requests last, configParse walk config user = some reaction ∧
      runAll ipset.run kernel reaction.early = some middle ∧
      reaction.late existing = some (after, commands, requests) ∧
      runAll ipset.run middle commands = some last ∧ Tracks ipset last after.sets := by
  have distinct := newSets_distinct config
  have newborn : ∀ set ∈ config.newSets, Newborn set := fun set => newSets_newborn
  have dead : user.sets.mapM markDead = some (user.sets.map deadOf) :=
    mapM_some fun old member => markDead_eq (tracks.held old member).settled
  have destroys : ((user.sets.map deadOf).map (markCopied config.newSets)).mapM destroyOld =
      some (user.sets.map (destroyCommands config.newSets)) := by
    rw [List.map_map, mapM_map]
    exact mapM_some fun old _ => destroyOld_eq
  have carries : config.newSets.mapM (carryOver existing walk (user.sets.map deadOf)) =
      some (config.newSets.map fun set =>
        (carried user.sets set, carryCommands existing walk user.sets set)) :=
    mapM_some fun set member => carryOver_eq complete tracks fits member (newborn set member)
  have creates : ((config.newSets.map fun set =>
      (carried user.sets set, carryCommands existing walk user.sets set)).map Prod.fst).mapM
        (createNew existing) =
      some (config.newSets.map fun set =>
        (createdSet user.sets set, createCommands user.sets set)) := by
    rw [List.map_map, mapM_map]
    exact mapM_some fun set member => createNew_eq fits member (newborn set member)
  have ranReloads := run_reloads complete tracks fits distinct newborn
  have ranDestroys := @run_destroys ipset kernel user.sets config.newSets tracks distinct
  have ranCreates := run_creates tracks fits distinct
  have tracked := tracks_created tracks distinct newborn
  have sets : config.sets.filterMap setParse = config.newSets := rfl
  simp only [configParse, if_neg other, sets, dead, destroys, resizing_eq, bind_eq_bind, bind_some,
    Option.pure_def]
  by_cases resizing : config.newSets.any (Reloads user.sets) = true
  · simp only [if_pos resizing]
    refine ⟨_, kernel, ⟨config.version, config.newSets.map (createdSet user.sets)⟩,
      config.newSets.flatMap (carryCommands existing walk user.sets) ++
        user.sets.flatMap (destroyCommands config.newSets) ++
        config.newSets.flatMap (createCommands user.sets),
      versionAsk (config.newSets.map (createdSet user.sets)), _, rfl, rfl, ?_,
      runAll_trans (runAll_trans ranReloads ranDestroys) ranCreates, tracked⟩
    simp only [carries, creates, bind_some]
    simp only [List.map_map, flatMap_def]
    rfl
  · rw [flatMap_carryCommands_nil resizing] at ranReloads
    have unchanged : kernel = afterReloads kernel user.sets config.newSets :=
      Option.some.inj ranReloads
    simp only [if_neg resizing]
    refine ⟨_, _, ⟨config.version, config.newSets.map (createdSet user.sets)⟩,
      config.newSets.flatMap (createCommands user.sets),
      versionAsk (config.newSets.map (createdSet user.sets)), _, rfl, ?_, ?_, ranCreates, tracked⟩
    · rw [← flatMap_def]
      conv_lhs => rw [unchanged]
      exact ranDestroys
    · simp only [carries, creates, bind_some]
      simp only [List.map_map, flatMap_map]
      rfl

end Parsing

end Ucollect.Fwup
