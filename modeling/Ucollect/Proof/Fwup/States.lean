import Ucollect.Proof.Fwup.Callbacks

namespace Ucollect.Fwup.Callbacks
open Library Diffstore List Function

section Sets

variable {bad : Fault → Prop} {pool : PoolId} {array : Nat} (answers : Answers)

/-- Only the store of the set is different. -/
def Restored (set : PooledSet) (final : PooledSet) : Prop :=
  ∃ store, final = { set with store := store }

theorem Restored.trans {first second third : PooledSet} (early : Restored first second)
    (late : Restored second third) : Restored first third := by
  obtain ⟨_, rfl⟩ := early
  obtain ⟨store, rfl⟩ := late
  exact ⟨store, rfl⟩

/-- The set allocates its blocks with this array in this pool. -/
def PooledSet.In (pool : PoolId) (array : Nat) (set : PooledSet) : Prop :=
  set.pool = pool ∧ set.array = array

variable {set : PooledSet}

theorem allocate_in (inside : set.In pool array) (use : Use) :
    Keeps bad pool array (allocate set.pool ⟨set.array, use⟩) fun _ => True := by
  rw [inside.1, inside.2]
  exact allocate_keeps use

theorem applyEntry_keeps (inside : set.In pool array) (address : Bytes) (add : Bool) :
    Keeps Fault.Expected pool array (applyEntry set address add) (Restored set) := by
  apply Keeps.bind (allocate_in inside .nodes)
  intro _ _
  apply Keeps.bind
  · apply Keeps.each
    intro hook _
    cases hook with
    | replaceStart => exact .pure trivial
    | add address => exact enqueueAll_keeps _
    | remove address => exact enqueueAll_keeps _
    | replaceEnd => exact .pure trivial
  · intro _ _
    exact .pure ⟨_, rfl⟩

theorem applyEntries_keeps (fuel : Nat) (diff : Bytes) (inside : set.In pool array) :
    Keeps Fault.Expected pool array (applyEntries fuel diff set) (Restored set) := by
  induction fuel generalizing diff set with
  | zero =>
    cases diff with
    | nil => exact .pure ⟨_, rfl⟩
    | cons flags diff => exact .throw (Or.inl rfl)
  | succ fuel ih =>
    cases diff with
    | nil => exact .pure ⟨_, rfl⟩
    | cons flags diff =>
      rw [applyEntries]
      split
      · exact .throw (Or.inl rfl)
      · apply Keeps.bind (applyEntry_keeps inside _ _)
        rintro _ ⟨store, rfl⟩
        have still : ({ set with store := store } : PooledSet).In pool array := inside
        exact (ih _ still).weaken fun _ restored => .trans ⟨store, rfl⟩ restored

section

variable (inside : set.In pool array)
include inside

theorem storeReset_keeps : Keeps bad pool array (storeReset set) (Restored set) := by
  apply Keeps.bind (.when (allocate_in inside .trie))
  intro _ _
  exact .pure ⟨_, rfl⟩

theorem applyFull_keeps (idle : set.tmpName = none) (diff : Bytes) :
    Keeps Fault.Expected pool array (applyFull answers diff set) (Restored set) := by
  apply Keeps.bind (replaceStart_keeps answers idle)
  rintro started rfl
  let busy : PooledSet := { set with tmpName := some (set.name ++ repSuffix) }
  have placed : busy.In pool array := inside
  apply Keeps.bind (storeReset_keeps placed)
  rintro _ ⟨emptied, rfl⟩
  have still : ({ busy with store := emptied } : PooledSet).In pool array := inside
  apply Keeps.bind (applyEntries_keeps _ _ still)
  rintro _ ⟨store, rfl⟩
  apply (replaceEnd_keeps rfl).weaken
  rintro _ rfl
  exact ⟨store, by rw [← idle]⟩

theorem applyDiff_keeps (idle : set.tmpName = none) (full : Bool) (diff : Bytes) :
    Keeps Fault.Expected pool array (applyDiff answers full diff set) (Restored set) := by
  cases full with
  | true => exact applyFull_keeps answers inside idle diff
  | false => exact applyEntries_keeps _ _ inside

/-- A diff never asks for a reload of the configuration. -/
theorem storeApply_keeps (idle : set.tmpName = none) (full : Bool)
    (epoch fromVersion toVersion : Nat) (diff : Bytes) :
    Keeps Fault.Expected pool array (storeApply answers set full epoch fromVersion toVersion diff)
      fun applied => Restored set applied.1 ∧ applied.2 ≠ .configReload := by
  rw [storeApply]
  split
  · exact .pure ⟨⟨_, rfl⟩, by simp⟩
  · split
    · exact .pure ⟨⟨_, rfl⟩, by simp⟩
    · apply Keeps.bind (applyDiff_keeps answers inside idle full diff)
      rintro _ ⟨store, rfl⟩
      exact .pure ⟨⟨_, rfl⟩, by simp⟩

end

/-- An empty store takes over another store without its deleted addresses. -/
theorem storeCopy_keeps {target : PooledSet} (inside : target.In pool array)
    (empty : target.store = .init) (source : Store) :
    Keeps bad pool array (storeCopy answers target source)
      fun copied => copied = { target with store := diffAddrStoreCp source } := by
  rw [storeCopy, empty]
  apply Keeps.bind (check_keeps (by simp [Store.init]) .copyTarget)
  intro _ _
  apply Keeps.bind (.each fun _ _ => allocate_in inside .nodes)
  intro _ _
  apply Keeps.pure
  simp [Store.init, diffAddrStoreCp]

end Sets

section Configuration

variable {bad : Fault → Prop} {pool : PoolId} {array : Nat} (answers : Answers)

/-- This is a set as the configuration describes it. -/
structure PooledSet.Newborn (pool : PoolId) (array : Nat) (set : PooledSet) : Prop where
  state : set.state = .newborn
  idle : set.tmpName = none
  empty : set.store = .init
  inside : set.In pool array

/-- Between two messages a set is valid or waits for data, and it is not being replaced. -/
structure PooledSet.Settled (set : PooledSet) : Prop where
  state : set.state = .valid ∨ set.state = .pending
  idle : set.tmpName = none

def names (sets : List PooledSet) : List Name := sets.map fun set => set.name

theorem storeInit_keeps : Keeps bad pool array (storeInit pool array) fun store => store = .init := by
  apply Keeps.bind (allocate_keeps .store)
  intro _ _
  apply Keeps.bind (allocate_keeps .trie)
  intro _ _
  exact .pure rfl

theorem setParse_keeps (config : SetConfig) : Keeps bad pool array (setParse pool array config)
    fun parsed => ∀ set ∈ parsed, set.Newborn pool array ∧ set.name = config.name := by
  apply Keeps.bind (allocate_keeps .name)
  intro _ _
  cases setTypes config.type with
  | none => exact .pure (by simp)
  | some type =>
    apply Keeps.bind storeInit_keeps
    rintro _ rfl
    apply Keeps.pure
    rintro set ⟨⟩
    exact ⟨⟨rfl, rfl, rfl, rfl, rfl⟩, rfl⟩

/-- The parsed sets are new, and their names come from the configuration. -/
theorem parseSets_keeps (configs : List SetConfig) : Keeps bad pool array (parseSets pool array configs)
    fun sets => (∀ set ∈ sets, set.Newborn pool array) ∧
      (names sets).Sublist (configs.map SetConfig.name) := by
  induction configs with
  | nil => exact .pure (by simp [names])
  | cons config configs ih =>
    apply Keeps.bind (setParse_keeps config)
    intro parsed first
    apply Keeps.bind ih
    rintro sets ⟨rest, order⟩
    cases parsed with
    | none => exact .pure ⟨by simpa using rest, order.cons _⟩
    | some set =>
      obtain ⟨newborn, name⟩ := first set rfl
      apply Keeps.pure
      refine ⟨by simpa using ⟨newborn, rest⟩, ?_⟩
      simpa [names, name] using order

/-- A set of the old configuration is about to disappear. -/
def PooledSet.Dying (set : PooledSet) : Prop := set.state = .dead ∨ set.state = .deadPending

theorem deadState_keeps {state : SetState} (settled : state = .valid ∨ state = .pending) :
    Keeps bad pool array (deadState state) fun state => state = .dead ∨ state = .deadPending := by
  rcases settled with rfl | rfl
  · exact .pure (Or.inl rfl)
  · exact .pure (Or.inr rfl)

variable {olds : List PooledSet}

theorem markDead_keeps (settled : ∀ old ∈ olds, old.Settled) :
    Keeps bad pool array (markDead olds)
      fun dead => (∀ old ∈ dead, old.Dying) ∧ names dead = names olds := by
  induction olds with
  | nil => exact .pure (by simp)
  | cons old olds ih =>
    rw [forall_mem_cons] at settled
    rw [markDead]
    apply Keeps.bind (deadState_keeps settled.1.state)
    intro state dying
    apply Keeps.bind (ih settled.2)
    rintro dead ⟨rest, same⟩
    apply Keeps.pure
    simp only [forall_mem_cons]
    exact ⟨⟨dying, rest⟩, by simpa [names] using same⟩

/-- A set of the new configuration may have the content of an old one. -/
structure PooledSet.Carried (pool : PoolId) (array : Nat) (set : PooledSet) : Prop where
  state : set.state = .newborn ∨ set.state = .valid ∨ set.state = .pending
  idle : set.tmpName = none
  inside : set.In pool array

variable {set : PooledSet}

theorem PooledSet.Newborn.carried (newborn : set.Newborn pool array) : set.Carried pool array :=
  ⟨Or.inl newborn.state, newborn.idle, newborn.inside⟩

/-- The search for old sets keeps what identifies a set. -/
def Alike (set final : PooledSet) : Prop := final.name = set.name ∧ final.type = set.type

theorem Alike.corresponds {final : PooledSet} (alike : Alike set final) (old : PooledSet) :
    final.toIpSet.corresponds old.toIpSet = set.toIpSet.corresponds old.toIpSet := by
  simp only [IpSet.corresponds, alike.1, alike.2]

variable {old : PooledSet}

theorem copyFrom_keeps (newborn : set.Newborn pool array) (dying : old.Dying) :
    Keeps Fault.Expected pool array (copyFrom answers set old)
      fun final => final.Carried pool array ∧ Alike set final := by
  rw [copyFrom]
  rcases dying with dead | pending
  · rw [dead]
    apply Keeps.bind (storeCopy_keeps answers newborn.inside newborn.empty old.store)
    rintro _ rfl
    dsimp only
    split
    · apply (setReload_keeps answers (by exact newborn.idle)).weaken
      rintro _ rfl
      exact ⟨⟨Or.inr (Or.inl rfl), newborn.idle, newborn.inside⟩, rfl, rfl⟩
    · exact .pure ⟨⟨Or.inr (Or.inl rfl), newborn.idle, newborn.inside⟩, rfl, rfl⟩
  · rw [pending]
    exact .pure ⟨⟨Or.inr (Or.inr rfl), newborn.idle, newborn.inside⟩, rfl, rfl⟩

/-- The old set that a new set was copied from is left alone in the kernel. -/
def copied (set old : PooledSet) : PooledSet :=
  if set.toIpSet.corresponds old.toIpSet then { old with state := .copied } else old

theorem copyOlds_none (none : ∀ old ∈ olds, set.toIpSet.corresponds old.toIpSet = false) :
    Keeps bad pool array (copyOlds answers set olds) fun found => found = (set, olds) := by
  induction olds with
  | nil => exact .pure rfl
  | cons old olds ih =>
    rw [forall_mem_cons] at none
    rw [copyOlds, copyFound, none.1]
    apply Keeps.bind (.pure rfl : Keeps bad pool array _ fun copied => copied = (set, old))
    rintro _ rfl
    apply Keeps.bind (ih none.2)
    rintro _ rfl
    exact .pure rfl

/-- At most one old set has the name of a new set. -/
theorem copyOlds_keeps (newborn : set.Newborn pool array) (distinct : (names olds).Nodup)
    (dying : ∀ old ∈ olds, set.toIpSet.corresponds old.toIpSet → old.Dying) :
    Keeps Fault.Expected pool array (copyOlds answers set olds) fun found =>
      found.1.Carried pool array ∧ Alike set found.1 ∧ found.2 = olds.map (copied set) := by
  induction olds with
  | nil => exact .pure ⟨newborn.carried, ⟨rfl, rfl⟩, rfl⟩
  | cons old olds ih =>
    rw [forall_mem_cons] at dying
    obtain ⟨away, rest⟩ := nodup_cons.mp distinct
    rw [copyOlds, copyFound]
    cases found : set.toIpSet.corresponds old.toIpSet with
    | false =>
      apply Keeps.bind (.pure rfl : Keeps Fault.Expected pool array _ fun copied => copied = (set, old))
      rintro _ rfl
      apply Keeps.bind (ih rest dying.2)
      rintro ⟨final, others⟩ ⟨carried, alike, rfl⟩
      exact .pure ⟨carried, alike, by simp [copied, found]⟩
    | true =>
      have name : set.name = old.name := by
        simp only [IpSet.corresponds, decide_eq_true_eq] at found
        exact found.1
      have none : ∀ other ∈ olds, set.toIpSet.corresponds other.toIpSet = false := by
        intro other member
        have differs : set.name ≠ other.name := fun same =>
          away (List.mem_map.mpr ⟨other, member, by rw [← same, name]⟩)
        simp [IpSet.corresponds, differs]
      have same : olds.map (copied set) = olds := by
        conv_rhs => rw [← List.map_id olds]
        exact map_congr_left fun other member => by simp [copied, none other member]
      simp only [if_true, bind_assoc]
      apply Keeps.bind (copyFrom_keeps answers newborn (dying.1 found))
      rintro final ⟨carried, alike⟩
      simp only [pure_bind]
      apply Keeps.bind (copyOlds_none answers
        fun other member => (alike.corresponds other).trans (none other member))
      rintro _ rfl
      exact .pure ⟨carried, alike, by simp [copied, found, same]⟩

theorem names_copied (set : PooledSet) (olds : List PooledSet) :
    names (olds.map (copied set)) = names olds := by
  rw [names, List.map_map]
  apply map_congr_left
  intro old _
  simp only [comp_apply, copied]
  split <;> rfl

/-- An old set is dying or was copied. -/
def PooledSet.Old (set : PooledSet) : Prop := set.Dying ∨ set.state = .copied

theorem copied_old (known : old.Old) : (copied set old).Old := by
  unfold copied
  split
  · exact Or.inr rfl
  · exact known

theorem copied_other {other : PooledSet} (differ : set.name ≠ other.name)
    (found : other.toIpSet.corresponds (copied set old).toIpSet) :
    copied set old = old ∧ other.toIpSet.corresponds old.toIpSet := by
  unfold copied at found ⊢
  split at found
  · rename_i matched
    simp only [IpSet.corresponds, decide_eq_true_eq] at matched found
    exact absurd (matched.1.trans found.1.symm) differ
  · rename_i unmatched
    exact ⟨if_neg unmatched, found⟩

/-- Every new set is looked for while its old set is still dying. -/
theorem copyAll_keeps {sets : List PooledSet} (newborn : ∀ set ∈ sets, set.Newborn pool array)
    (distinct : (names sets).Nodup) (others : (names olds).Nodup) (old : ∀ old ∈ olds, old.Old)
    (dying : ∀ set ∈ sets, ∀ old ∈ olds, set.toIpSet.corresponds old.toIpSet → old.Dying) :
    Keeps Fault.Expected pool array (copyAll answers sets olds) fun found =>
      (∀ set ∈ found.1, set.Carried pool array) ∧ names found.1 = names sets ∧
        ∀ old ∈ found.2, old.Old := by
  induction sets generalizing olds with
  | nil => exact .pure ⟨by simp, rfl, old⟩
  | cons set sets ih =>
    rw [forall_mem_cons] at newborn dying
    obtain ⟨away, rest⟩ := nodup_cons.mp distinct
    apply Keeps.bind (copyOlds_keeps answers newborn.1 others dying.1)
    rintro ⟨final, marked⟩ ⟨carried, alike, rfl⟩
    have still : ∀ other ∈ sets, ∀ old ∈ olds.map (copied set),
        other.toIpSet.corresponds old.toIpSet → old.Dying := by
      intro other member marked known found
      obtain ⟨old, inside, rfl⟩ := List.mem_map.mp known
      have differ : set.name ≠ other.name := fun same =>
        away (List.mem_map.mpr ⟨other, member, same.symm⟩)
      obtain ⟨same, matched⟩ := copied_other differ found
      rw [same]
      exact dying.2 other member old inside matched
    have also : ∀ old ∈ olds.map (copied set), old.Old := by
      intro marked known
      obtain ⟨before, inside, rfl⟩ := List.mem_map.mp known
      exact copied_old (old before inside)
    apply Keeps.bind (ih newborn.2 rest (by rwa [names_copied]) also still)
    rintro ⟨finals, ends⟩ ⟨all, same, known⟩
    apply Keeps.pure
    refine ⟨?_, ?_, known⟩
    · simp only [forall_mem_cons]
      exact ⟨carried, all⟩
    · simp only [names, map_cons] at same ⊢
      rw [same, alike.1]

theorem destroyOld_keeps (known : old.Old) :
    Keeps bad pool array (destroyOld old) fun _ => True := by
  rw [destroyOld]
  rcases known with (dead | pending) | copied
  · rw [dead]
    exact enqueue_keeps _
  · rw [pending]
    exact enqueue_keeps _
  · rw [copied]
    exact .pure trivial

theorem createNew_keeps (carried : set.Carried pool array) :
    Keeps bad pool array (createNew answers set) fun final =>
      (final.Settled ∧ final.In pool array) ∧ final.name = set.name := by
  rw [createNew]
  rcases carried.state with newborn | valid | pending
  · rw [newborn]
    apply Keeps.bind (setCreate_keeps answers set)
    intro _ _
    apply Keeps.bind (send_keeps _)
    intro _ _
    exact .pure ⟨⟨⟨Or.inr rfl, carried.idle⟩, carried.inside⟩, rfl⟩
  · rw [valid]
    apply Keeps.bind (send_keeps _)
    intro _ _
    exact .pure ⟨⟨⟨Or.inl valid, carried.idle⟩, carried.inside⟩, rfl⟩
  · rw [pending]
    apply Keeps.bind (send_keeps _)
    intro _ _
    exact .pure ⟨⟨⟨Or.inr pending, carried.idle⟩, carried.inside⟩, rfl⟩

/-- An action on each set keeps the names and makes each set good. -/
theorem keeps_sets {act : List PooledSet → Action (List PooledSet)}
    {each : PooledSet → Action PooledSet} {good : PooledSet → Prop}
    (nil : act [] = pure [])
    (cons : ∀ set sets, act (set :: sets) = do
      let final ← each set
      let finals ← act sets
      pure (final :: finals)) {sets : List PooledSet}
    (keeps : ∀ set ∈ sets, Keeps bad pool array (each set) fun final =>
      good final ∧ final.name = set.name) :
    Keeps bad pool array (act sets) fun finals =>
      (∀ final ∈ finals, good final) ∧ names finals = names sets := by
  induction sets with
  | nil =>
    rw [nil]
    exact .pure ⟨by simp, rfl⟩
  | cons set sets ih =>
    rw [forall_mem_cons] at keeps
    rw [cons]
    apply Keeps.bind keeps.1
    rintro final ⟨first, name⟩
    apply Keeps.bind (ih keeps.2)
    rintro finals ⟨rest, same⟩
    apply Keeps.pure
    refine ⟨forall_mem_cons.mpr ⟨first, rest⟩, ?_⟩
    simp only [names, map_cons] at same ⊢
    rw [same, name]

/-- The passes of a configuration end with settled sets in the new pool. -/
theorem newSets_keeps {configs : List SetConfig} (distinct : (configs.map SetConfig.name).Nodup)
    (settled : ∀ old ∈ olds, old.Settled) (others : (names olds).Nodup) :
    Keeps Fault.Expected pool array (newSets answers pool array configs olds) fun sets =>
      (∀ set ∈ sets, set.Settled ∧ set.In pool array) ∧ (names sets).Nodup := by
  apply Keeps.bind (parseSets_keeps configs)
  rintro sets ⟨newborn, order⟩
  have single : (names sets).Nodup := distinct.sublist order
  apply Keeps.bind (markDead_keeps settled)
  rintro dead ⟨dying, same⟩
  apply Keeps.bind (copyAll_keeps answers newborn single (same ▸ others)
    (fun old member => Or.inl (dying old member)) fun _ _ old member _ => dying old member)
  rintro ⟨carried, marked⟩ ⟨all, kept, known⟩
  apply Keeps.bind (.each fun old member => destroyOld_keeps (known old member))
  intro _ _
  have created := @keeps_sets Fault.Expected pool array (createAll answers) (createNew answers)
    (fun set => set.Settled ∧ set.In pool array) rfl (fun _ _ => rfl) carried
    fun set member => createNew_keeps answers (all set member)
  apply created.weaken
  rintro finals ⟨good, last⟩
  exact ⟨good, by rw [last, kept]; exact single⟩

end Configuration

end Ucollect.Fwup.Callbacks
