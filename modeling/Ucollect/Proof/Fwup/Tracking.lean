import Ucollect.Proof.Fwup.Replacement

/-
This file proves that offers, diffs and reloads keep the kernel and the sets together.
-/

namespace Ucollect.Fwup
open Library Diffstore List Option Function

/-- The kernel has the set with its type, and a valid set has the content of its store. -/
structure Held (ipset : Ipset) (kernel : Kernel) (set : IpSet) : Prop where
  idle : set.tmpName = none
  settled : set.state = .valid ∨ set.state = .pending
  balanced : set.store.Balanced
  accepted : ∀ addr ∈ set.store.trie, ipset.Accepts set.name set.type addr
  there : ∃ kset, kernel set.name = some kset ∧ kset.desc = set.type.desc ∧
    kset.family = set.type.family ∧
    (set.state = .valid → kset.entries = set.type.mirror set.store.trie)

/-- The kernel has the configured sets and no other. -/
structure Tracks (ipset : Ipset) (kernel : Kernel) (sets : List IpSet) : Prop where
  distinct : (sets.map IpSet.name).Nodup
  held : ∀ set ∈ sets, Held ipset kernel set
  absent : ∀ name, name ∉ sets.map IpSet.name → kernel name = none

/-- The set of the kernel has the content of the store, whatever the state says. -/
def Mirrored (kernel : Kernel) (set : IpSet) : Prop :=
  (kernel set.name).any fun kset => kset.entries = set.type.mirror set.store.trie

variable {ipset : Ipset} {existing : Existing} {kernel next : Kernel} {user : UserData} {set : IpSet}
  {name : Name} {epoch version : Nat}

section Sets

theorem mirrored_iff {kset : KernelSet} (there : kernel set.name = some kset) :
    Mirrored kernel set ↔ kset.entries = set.type.mirror set.store.trie := by
  rw [Mirrored, there, any_some, decide_eq_true_eq]

section

variable (held : Held ipset kernel set)
include held

theorem Held.congr (same : next set.name = kernel set.name) : Held ipset next set := by
  refine ⟨held.idle, held.settled, held.balanced, held.accepted, ?_⟩
  rw [same]
  exact held.there

/-- A set that is mirrored may become valid. -/
theorem Held.valid (mirrored : Mirrored kernel set) :
    Held ipset kernel { set with state := .valid } := by
  obtain ⟨kset, there, desc, family, -⟩ := held.there
  refine ⟨held.idle, .inl rfl, held.balanced, held.accepted, kset, there, desc, family, fun _ => ?_⟩
  exact (mirrored_iff there).mp mirrored

theorem Held.pending : Held ipset kernel { set with state := .pending } := by
  obtain ⟨kset, there, desc, family, -⟩ := held.there
  exact ⟨held.idle, .inr rfl, held.balanced, held.accepted, kset, there, desc, family, nofun⟩

/-- A copy of the store has the same addresses. -/
theorem Held.copy : Held ipset kernel set.copy := by
  refine ⟨held.idle, held.settled, ?_, held.accepted, held.there⟩
  rw [Store.Balanced, IpSet.copy, diffAddrStoreCp, Nat.zero_add]

/-- A new content of the store is held when the kernel has it. -/
theorem Held.refill {store : Store} {kset : KernelSet} (balanced : store.Balanced)
    (accepted : ∀ addr ∈ store.trie, ipset.Accepts set.name set.type addr)
    (there : next set.name = some kset) (showing : Shows set.type store.trie kset) :
    Held ipset next { set with store } ∧ Mirrored next { set with store } := by
  constructor
  · exact ⟨held.idle, held.settled, balanced, accepted, kset, there, showing.desc, showing.family,
      fun _ => showing.entries⟩
  · exact (@mirrored_iff next { set with store } kset there).mpr showing.entries

end

theorem setFind_some (found : setFind user name = some set) :
    set ∈ user.sets ∧ set.name = name := by
  rw [setFind] at found
  have named := List.find?_some found
  exact ⟨mem_of_find?_eq_some found, of_decide_eq_true named⟩

theorem setFind_known (known : name ∈ user.sets.map IpSet.name) :
    ∃ set, setFind user name = some set := by
  obtain ⟨set, member, same⟩ := List.mem_map.mp known
  exact isSome_iff_exists.mp
    (List.find?_isSome.mpr ⟨set, member, decide_eq_true same⟩)

/-- A name belongs to one set. -/
theorem Tracks.unique (tracks : Tracks ipset kernel user.sets) (found : setFind user name = some set)
    {other : IpSet} (member : other ∈ user.sets) (same : other.name = name) : other = set := by
  obtain ⟨inside, named⟩ := setFind_some found
  exact inj_on_of_nodup_map tracks.distinct member inside (same.trans named.symm)

theorem mem_modify (change : IpSet → IpSet) {found : IpSet} :
    found ∈ (user.modify name change).sets ↔
      ∃ set ∈ user.sets, (if set.name = name then change set else set) = found :=
  List.mem_map

/-- Only one set changes, and the kernel changes only there. -/
theorem Tracks.modify (tracks : Tracks ipset kernel user.sets)
    (known : name ∈ user.sets.map IpSet.name) (change : IpSet → IpSet)
    (elsewhere : ∀ other, other ≠ name → next other = kernel other)
    (changed : ∀ set ∈ user.sets, set.name = name →
      (change set).name = name ∧ Held ipset next (change set)) :
    Tracks ipset next (user.modify name change).sets := by
  have names : (user.modify name change).sets.map IpSet.name = user.sets.map IpSet.name := by
    rw [UserData.modify, List.map_map]
    apply map_congr_left
    intro set member
    rw [comp_apply]
    split
    · next same => exact ((changed set member same).1).trans same.symm
    · rfl
  refine ⟨names ▸ tracks.distinct, ?_, ?_⟩
  · intro found member
    obtain ⟨set, inside, rfl⟩ := (mem_modify change).mp member
    split
    · next same => exact (changed set inside same).2
    · next different => exact (tracks.held set inside).congr (elsewhere _ different)
  · intro other outside
    rw [names] at outside
    have different : other ≠ name := fun same => outside (same ▸ known)
    rw [elsewhere other different]
    exact tracks.absent other outside

end Sets

section Actions

variable {action : Action}

/-- A copy of the sets has no addresses to forget. -/
theorem action_copy (store : Store) :
    diffAddrStoreAction (diffAddrStoreCp store) epoch version ≠ .configReload := by
  rw [diffAddrStoreAction, diffAddrStoreCp]
  dsimp only
  split
  · nofun
  · rw [if_neg (by omega)]
    split
    · nofun
    · nofun

theorem action_epoch {store : Store} (other : epoch ≠ store.epoch)
    (found : diffAddrStoreAction store epoch version = action) :
    action = .full ∨ action = .configReload := by
  rw [diffAddrStoreAction, if_neg fun same => other same.1, if_pos other] at found
  dsimp only at found
  split at found
  · exact .inr found.symm
  · exact .inl found.symm

theorem handleUpdate_tracks (tracks : Tracks ipset kernel user.sets)
    (known : name ∈ user.sets.map IpSet.name) (once : action ≠ .configReload)
    (mirrored : action ≠ .full → ∀ set ∈ user.sets, set.name = name → Mirrored kernel set) :
    ∃ after requests, handleUpdate user name action epoch version = some (after, requests) ∧
      Tracks ipset kernel after.sets := by
  have valid (ready : action ≠ .full) :
      Tracks ipset kernel (user.modify name fun set => { set with state := .valid }).sets :=
    tracks.modify known _ (fun _ _ => rfl) fun set member same =>
      ⟨same, (tracks.held set member).valid (mirrored ready set member same)⟩
  cases action with
  | incremental oldVersion => exact ⟨_, _, rfl, valid nofun⟩
  | full =>
    exact ⟨_, _, rfl, tracks.modify known _ (fun _ _ => rfl) fun set member same =>
      ⟨same, (tracks.held set member).pending⟩⟩
  | configReload => exact absurd rfl once
  | noAction => exact ⟨_, _, rfl, valid nofun⟩

theorem copySets_names : user.copySets.sets.map IpSet.name = user.sets.map IpSet.name := by
  rw [UserData.copySets, List.map_map]
  rfl

theorem Tracks.copySets (tracks : Tracks ipset kernel user.sets) :
    Tracks ipset kernel user.copySets.sets := by
  constructor
  · rw [copySets_names]
    exact tracks.distinct
  · intro copied member
    obtain ⟨set, inside, rfl⟩ := List.mem_map.mp member
    exact (tracks.held set inside).copy
  · rw [copySets_names]
    exact tracks.absent

/-- An action keeps the sets when the set that becomes valid is mirrored. -/
theorem handleAction_tracks (tracks : Tracks ipset kernel user.sets)
    (known : name ∈ user.sets.map IpSet.name)
    (mirrored : ∀ set ∈ user.sets, set.name = name → action ≠ .full →
      (action = .configReload → epoch = set.store.epoch) → Mirrored kernel set) :
    ∃ after requests, handleAction user name action epoch version = some (after, requests) ∧
      Tracks ipset kernel after.sets := by
  by_cases reload : action = .configReload
  · subst reload
    have copied := tracks.copySets
    rw [← copySets_names] at known
    obtain ⟨found, look⟩ := setFind_known known
    obtain ⟨inside, named⟩ := setFind_some look
    obtain ⟨set, member, rfl⟩ := List.mem_map.mp inside
    rw [handleAction, look]
    apply handleUpdate_tracks copied known (action_copy set.store)
    intro ready other otherMember same
    obtain rfl := copied.unique look otherMember same
    apply mirrored set member named nofun
    intro _
    by_contra different
    have other : epoch ≠ (diffAddrStoreCp set.store).epoch := different
    rcases action_epoch other rfl with full | reload
    · exact ready full
    · exact action_copy set.store reload
  · have direct : handleAction user name action epoch version =
        handleUpdate user name action epoch version := by
      rw [handleAction]
      exact reload
    rw [direct]
    apply handleUpdate_tracks tracks known reload
    intro ready set member same
    exact mirrored set member same ready fun again => absurd again reload

end Actions

section Messages

/-- The message reaches a set that becomes valid only when the kernel has its content. -/
def OfferFits (kernel : Kernel) (user : UserData) (configVersion : Nat) (name : Name)
    (epoch : Nat) : Prop :=
  user.configVersion = configVersion → ∀ set ∈ user.sets, set.name = name →
    epoch = set.store.epoch → Mirrored kernel set

theorem versionReceived_tracks {configVersion : Nat} (tracks : Tracks ipset kernel user.sets)
    (fits : OfferFits kernel user configVersion name epoch) :
    ∃ after requests, versionReceived configVersion name epoch version user =
        some (after, requests) ∧ Tracks ipset kernel after.sets := by
  rw [versionReceived]
  split
  · exact ⟨user, [], rfl, tracks⟩
  · next same =>
      cases found : setFind user name with
      | none => exact ⟨user, [], rfl, tracks⟩
      | some set =>
        obtain ⟨member, named⟩ := setFind_some found
        apply handleAction_tracks tracks (named ▸ List.mem_map_of_mem member)
        intro other inside otherNamed ready reload
        obtain rfl := tracks.unique found inside otherNamed
        apply fits (not_not.mp same) other member named
        by_contra different
        rcases action_epoch different rfl with full | again
        · exact ready full
        · exact different (reload again)

/-- The addresses of the diff fit in a set of this size. -/
def Ipset.DiffFits (ipset : Ipset) (set : IpSet) (maxSize : Nat) (trie : Finset Bytes)
    (data : Bytes) : Prop :=
  match diffChanges data.length data with
  | none => False
  | some changes => ipset.Fits set.name set.type maxSize trie changes

/-- This is how many entries the set of the kernel can have. -/
def Kernel.room (kernel : Kernel) (name : Name) : Nat := (kernel name).elim 0 KernelSet.maxSize

/-- A full diff replaces the content, and another one changes the content that is there. -/
def Ipset.SetFits (ipset : Ipset) (existing : Existing) (kernel : Kernel) (set : IpSet)
    (full : Bool) (epoch fromVersion : Nat) (data : Bytes) : Prop :=
  if full then ipset.Replaceable existing kernel set ∧ ipset.DiffFits set set.maxSize ∅ data
  else
    epoch = set.store.epoch → Mirrored kernel set ∧
      (fromVersion = set.store.version →
        ipset.DiffFits set (kernel.room set.name) set.store.trie data)

def Ipset.UpdateFits (ipset : Ipset) (existing : Existing) (kernel : Kernel) (user : UserData)
    (configVersion : Nat) (name : Name) (full : Bool) (epoch fromVersion : Nat)
    (data : Bytes) : Prop :=
  user.configVersion = configVersion → ∀ set ∈ user.sets, set.name = name →
    ipset.SetFits existing kernel set full epoch fromVersion data

theorem DiffFits_some {maxSize : Nat} {trie : Finset Bytes} {data : Bytes}
    (fits : ipset.DiffFits set maxSize trie data) :
    ∃ changes, diffChanges data.length data = some changes ∧
      ipset.Fits set.name set.type maxSize trie changes := by
  rw [Ipset.DiffFits] at fits
  split at fits
  · exact fits.elim
  · next changes found => exact ⟨changes, found, fits⟩

/-- What an update does to the store, it does to the kernel. -/
def Ipset.Applies (ipset : Ipset) (existing : Existing) (kernel : Kernel) (set : IpSet)
    (applied : Option (Store × Action × List Hook)) : Prop :=
  ∃ store action hooks commands after, applied = some (store, action, hooks) ∧
    runHooks existing set hooks = some (set, commands) ∧
    runAll ipset.run kernel commands = some after ∧
    (∀ other, other ≠ set.name → after other = kernel other) ∧
    Held ipset after { set with store } ∧ action ≠ .configReload ∧
    (action ≠ .full → Mirrored after { set with store })

variable {fromVersion toVersion : Nat} {data : Bytes}

/-- The store after the changes is held by a kernel with the same changes. -/
theorem applies_changed {store : Store} {hooks : List Hook} {commands : List Command}
    {kset : KernelSet} (held : Held ipset kernel set)
    (hooked : runHooks existing set hooks = some (set, commands))
    (ran : runAll ipset.run kernel commands =
      some (update kernel set.name (some kset)))
    (balanced : store.Balanced)
    (accepted : ∀ addr ∈ store.trie, ipset.Accepts set.name set.type addr)
    (showing : Shows set.type store.trie kset) :
    ipset.Applies existing kernel set (some (store, .noAction, hooks)) := by
  obtain ⟨heldAfter, mirrored⟩ :=
    held.refill balanced accepted (update_self _ _ _) showing
  refine ⟨store, .noAction, hooks, commands, _, rfl, hooked, ran, ?_, heldAfter, nofun,
    fun _ => mirrored⟩
  intro other different
  exact update_of_ne different _ _

theorem applies_full (held : Held ipset kernel set) (free : ipset.Replaceable existing kernel set)
    (fits : ipset.DiffFits set set.maxSize ∅ data) :
    ipset.Applies existing kernel set
      (diffAddrStoreApply set.store true epoch 0 toVersion data) := by
  obtain ⟨kset, there, desc, family, -⟩ := held.there
  obtain ⟨changes, decoded, fitting⟩ := DiffFits_some fits
  obtain ⟨empty, balanced⟩ := held.balanced.reset
  obtain ⟨commands, hooked, ran⟩ := run_replacement held.idle there desc family free empty fitting
  have trie : (set.store.reset.changeAll changes).1.trie = applyChanges ∅ changes := by
    rw [changeAll_trie, empty]
  have accepted : ∀ addr ∈ (set.store.reset.changeAll changes).1.trie,
      ipset.Accepts set.name set.type addr := by
    rw [trie]
    exact fitting.accepts fun _ known => absurd known (Finset.notMem_empty _)
  have showing : Shows set.type (set.store.reset.changeAll changes).1.trie
      (set.filled (applyChanges ∅ changes)) := by
    rw [trie]
    exact shows_filled set _
  rw [diffAddrStoreApply, if_neg (by simp), if_neg (by simp), if_pos rfl, applyLoop_eq, decoded]
  exact @applies_changed ipset existing kernel set
    { (set.store.reset.changeAll changes).1 with epoch, version := toVersion } _ commands _ held
    hooked ran (balanced.changeAll changes) accepted showing

theorem applies_incremental (held : Held ipset kernel set) (mirrored : Mirrored kernel set)
    (fits : ipset.DiffFits set (kernel.room set.name) set.store.trie data) :
    ipset.Applies existing kernel set
      (diffAddrStoreApply set.store false set.store.epoch set.store.version toVersion data) := by
  obtain ⟨kset, there, desc, family, -⟩ := held.there
  rw [Kernel.room, there, elim_some] at fits
  obtain ⟨changes, decoded, fitting⟩ := DiffFits_some fits
  have target : set.target = set.name := by rw [IpSet.target, held.idle, getD_none]
  have showing : Shows set.type set.store.trie kset :=
    ⟨desc, family, (mirrored_iff there).mp mirrored⟩
  obtain ⟨commands, hooked, ran⟩ := @run_changes ipset existing kernel set set.store kset changes
    (target ▸ there) showing held.accepted (target ▸ id) fitting
  rw [target] at ran
  have accepted : ∀ addr ∈ (set.store.changeAll changes).1.trie,
      ipset.Accepts set.name set.type addr := by
    rw [changeAll_trie]
    exact fitting.accepts held.accepted
  have changed : Shows set.type (set.store.changeAll changes).1.trie
      { kset with entries := set.type.mirror (applyChanges set.store.trie changes) } := by
    rw [changeAll_trie]
    exact ⟨desc, family, rfl⟩
  rw [diffAddrStoreApply, if_neg (by simp), if_neg (by simp), if_neg Bool.false_ne_true,
    applyLoop_eq, decoded]
  exact @applies_changed ipset existing kernel set
    { (set.store.changeAll changes).1 with epoch := set.store.epoch, version := toVersion } _
    commands _ held hooked ran (held.balanced.changeAll changes) accepted changed

/-- A diff that does not fit the store is dropped. -/
theorem applies_dropped {action : Action} (held : Held ipset kernel set)
    (once : action ≠ .configReload) (mirrored : action ≠ .full → Mirrored kernel set) :
    ipset.Applies existing kernel set (some (set.store, action, [])) :=
  ⟨set.store, action, [], [], kernel, rfl, rfl, rfl, fun _ _ => rfl, held, once, mirrored⟩

theorem applies_update {full : Bool} (held : Held ipset kernel set)
    (fits : ipset.SetFits existing kernel set full epoch fromVersion data) :
    ipset.Applies existing kernel set
      (diffAddrStoreApply set.store full epoch (if full then 0 else fromVersion) toVersion data) := by
  cases full with
  | true => exact applies_full held fits.1 fits.2
  | false =>
    rw [Ipset.SetFits, if_neg Bool.false_ne_true] at fits
    rw [if_neg Bool.false_ne_true]
    by_cases sameEpoch : epoch = set.store.epoch
    · obtain ⟨mirrored, sized⟩ := fits sameEpoch
      by_cases sameVersion : fromVersion = set.store.version
      · rw [sameEpoch, sameVersion]
        exact applies_incremental held mirrored (sized sameVersion)
      · rw [diffAddrStoreApply, if_neg fun other => other.1 sameEpoch, if_pos ⟨sameVersion, rfl⟩]
        exact applies_dropped held (fun impossible => by cases impossible) fun _ => mirrored
    · rw [diffAddrStoreApply, if_pos ⟨sameEpoch, rfl⟩]
      exact applies_dropped held (fun impossible => by cases impossible) fun other => absurd rfl other

/-- A diff changes the kernel together with the store. -/
theorem diffReceived_tracks {configVersion : Nat} {full : Bool}
    (tracks : Tracks ipset kernel user.sets)
    (fits : ipset.UpdateFits existing kernel user configVersion name full epoch fromVersion data) :
    ∃ after commands requests last,
      diffReceived existing configVersion name full epoch fromVersion toVersion data user =
        some (after, commands, requests) ∧
      runAll ipset.run kernel commands = some last ∧ Tracks ipset last after.sets := by
  rw [diffReceived]
  split
  · exact ⟨user, [], [], kernel, rfl, rfl, tracks⟩
  · next same =>
      cases found : setFind user name with
      | none => exact ⟨user, [], [], kernel, rfl, rfl, tracks⟩
      | some set =>
        obtain ⟨member, rfl⟩ := setFind_some found
        have known := List.mem_map_of_mem (f := IpSet.name) member
        obtain ⟨store, action, hooks, commands, last, applied, hooked, ran, elsewhere, held, once,
          mirrored⟩ := @applies_update ipset existing kernel set epoch fromVersion toVersion data full
            (tracks.held set member) (fits (not_not.mp same) set member rfl)
        have modified : Tracks ipset last (user.modify set.name fun _ => { set with store }).sets :=
          tracks.modify known _ elsewhere fun _ _ _ => ⟨rfl, held⟩
        have knownAfter : set.name ∈
            (user.modify set.name fun _ => { set with store }).sets.map IpSet.name := by
          apply List.mem_map.mpr
          exact ⟨{ set with store }, (mem_modify _).mpr ⟨set, member, if_pos rfl⟩, rfl⟩
        obtain ⟨after, requests, handled, tracksAfter⟩ :=
          @handleAction_tracks ipset last (user.modify set.name fun _ => { set with store })
            set.name epoch toVersion action modified knownAfter (by
              intro other inside named ready _
              obtain ⟨old, -, rfl⟩ := (mem_modify _).mp inside
              split
              · exact mirrored ready
              · next different => exact absurd (by rwa [if_neg different] at named) different)
        refine ⟨after, commands, requests, last, ?_, ran, tracksAfter⟩
        simp only [applied, hooked, handled, bind_eq_bind, bind_some, Option.pure_def]

/-- Every set is replaced by the addresses of its store. -/
def Ipset.ReloadFits (ipset : Ipset) (existing : Existing) (kernel : Kernel)
    (user : UserData) : Prop :=
  ∀ set ∈ user.sets, ipset.Replaceable existing kernel set ∧
    (set.type.mirror set.store.trie).card ≤ set.maxSize

theorem setsReload_tracks {walk : Walk}
    (complete : ∀ name trie, (walk name trie).Nodup ∧ (walk name trie).toFinset = trie)
    (tracks : Tracks ipset kernel user.sets) (fits : ipset.ReloadFits existing kernel user) :
    ∃ commands last, setsReload existing walk user = some (user, commands) ∧
      runAll ipset.run kernel commands = some last ∧ Tracks ipset last user.sets := by
  have reloads : ∀ set ∈ user.sets, ∀ current : Kernel,
      current set.repName = kernel set.repName → current set.name = kernel set.name →
        setReload existing set walk = some (set, reloadCommands existing walk set) ∧
        runAll ipset.run current (reloadCommands existing walk set) =
          some (update current set.name (some (set.filled set.store.trie))) := by
    intro set member current sameRep same
    have held := tracks.held set member
    obtain ⟨kset, there, desc, family, -⟩ := held.there
    exact run_setReload held.idle complete (same.trans there) desc family
      ((fits set member).1.congr sameRep same) held.accepted (fits set member).2
  have ran := @runAll_each Name (Option KernelSet) Command IpSet _ ipset.run IpSet.name
    (fun set => some (set.filled set.store.trie)) kernel user.sets (reloadCommands existing walk)
    tracks.distinct (by
      intro set member current same
      apply (reloads set member current _ (same _ fun _ _ _ => rfl)).2
      apply same
      intro later inside taken
      obtain ⟨kset, there, -⟩ := (tracks.held later inside).there
      rw [taken, (fits set member).1.2.1] at there
      cases there)
  refine ⟨_, _, ?_, ran, tracks.distinct, ?_, ?_⟩
  · rw [setsReload, mapM_some fun set member => (reloads set member kernel rfl rfl).1]
    simp only [bind_eq_bind, bind_some, Option.pure_def, List.map_map, flatMap_map]
    simp only [comp_def, List.map_id']
  · intro set member
    have held := tracks.held set member
    refine ⟨held.idle, held.settled, held.balanced, held.accepted, set.filled set.store.trie, ?_,
      rfl, rfl, fun _ => rfl⟩
    exact writeEach_of_mem tracks.distinct member
  · intro name outside
    rw [writeEach_of_notMem outside]
    exact tracks.absent name outside

end Messages

end Ucollect.Fwup
