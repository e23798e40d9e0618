import Ucollect.Proof.Fwup.States

namespace Ucollect.Fwup.Callbacks
open Library Diffstore List Function

section Updates

variable (answers : Answers)

/-- This holds between two callbacks. -/
structure World.Resting (world : World) : Prop where
  settled : ∀ set ∈ world.sets, set.Settled ∧ set.In world.confPool world.array
  distinct : (names world.sets).Nodup
  pools : world.confPool ≠ world.standbyPool
  held : world.sets ≠ [] → world.blocks world.confPool ≠ []
  source : world.source ≤ world.callback

/-- The pool of the configuration gets more blocks of its array. -/
structure Grows (first second : World) : Prop where
  array : second.array = first.array
  confPool : second.confPool = first.confPool
  standbyPool : second.standbyPool = first.standbyPool
  standby : second.blocks first.standbyPool = first.blocks first.standbyPool
  conf : Appends first.array (first.blocks first.confPool) (second.blocks first.confPool)

/-- The pools change their roles, and the new sets are behind what the standby pool held. -/
structure Exchanges (left : List Block) (first second : World) : Prop where
  array : second.array = first.array + 1
  confPool : second.confPool = first.standbyPool
  standbyPool : second.standbyPool = first.confPool
  standby : second.blocks first.confPool = left
  conf : Appends (first.array + 1) (first.blocks first.standbyPool)
    (second.blocks first.standbyPool)

/-- A part of a callback starts in the world and ends in a world at rest. -/
def Ends (bad : Fault → Prop) (start : World) (program : Action Unit)
    (after : World → Prop) : Prop :=
  Meets (fun world => world = start) program
    (fun _ world => world.Resting ∧ Looks start world ∧ after world)
    (fun fault world => Looks start world ∧ bad fault)

variable {bad : Fault → Prop} {world : World}

theorem Grows.refl (world : World) : Grows world world :=
  ⟨rfl, rfl, rfl, rfl, .refl _ _⟩

variable {first second third : World}

theorem Grows.trans (early : Grows first second) (late : Grows second third) :
    Grows first third := by
  have conf := late.conf
  rw [early.confPool, early.array] at conf
  constructor
  case array => exact late.array.trans early.array
  case confPool => exact late.confPool.trans early.confPool
  case standbyPool => exact late.standbyPool.trans early.standbyPool
  case standby => rw [← early.standby, ← early.standbyPool, late.standby]
  case conf => exact early.conf.trans conf

/-- The pools may grow after they have changed their roles. -/
theorem Exchanges.grows {left : List Block} (early : Exchanges left first second)
    (late : Grows second third) :
    Exchanges left first third := by
  have conf := late.conf
  rw [early.confPool, early.array] at conf
  constructor
  case array => exact late.array.trans early.array
  case confPool => exact late.confPool.trans early.confPool
  case standbyPool => exact late.standbyPool.trans early.standbyPool
  case standby => rw [← early.standby, ← early.standbyPool, late.standby]
  case conf => exact early.conf.trans conf

variable {final : World}

theorem Quiet.grows (quiet : Quiet world.confPool world.array world final)
    (pools : world.confPool ≠ world.standbyPool) : Grows world final :=
  ⟨quiet.current, quiet.confPool, quiet.standbyPool, quiet.others _ pools.symm, quiet.blocks⟩

theorem Looks.source_le (looks : Looks world final) (source : world.source ≤ world.callback) :
    final.source ≤ final.callback := by
  rw [looks.source, looks.callback]
  exact source

/-- A quiet part of a callback leaves the world at rest. -/
theorem World.Resting.quiet (resting : world.Resting)
    (quiet : Quiet world.confPool world.array world final) : final.Resting := by
  constructor
  case settled =>
    rw [quiet.sets, quiet.confPool, quiet.current]
    exact resting.settled
  case distinct =>
    rw [quiet.sets]
    exact resting.distinct
  case pools =>
    rw [quiet.confPool, quiet.standbyPool]
    exact resting.pools
  case held =>
    rw [quiet.sets, quiet.confPool]
    exact fun some => quiet.blocks.ne_nil (resting.held some)
  case source => exact quiet.looks.source_le resting.source

/-- The sets may be replaced by settled sets with the same names. -/
theorem World.Resting.change (resting : world.Resting) {sets : List PooledSet}
    (settled : ∀ set ∈ sets, set.Settled ∧ set.In world.confPool world.array)
    (same : names sets = names world.sets) : { world with sets := sets }.Resting := by
  constructor
  case settled => exact settled
  case distinct => exact same ▸ resting.distinct
  case pools => exact resting.pools
  case source => exact resting.source
  case held =>
    intro some
    apply resting.held
    rintro none
    rw [none] at same
    exact some (map_eq_nil_iff.mp same)

theorem Keeps.ends {program : Action Unit} {result : Unit → Prop} (resting : world.Resting)
    (keeps : Keeps bad world.confPool world.array program result) :
    Ends bad world program fun final => Grows world final ∧ final.sets = world.sets :=
  (keeps world).weaken (fun _ same => same)
    (fun _ _ ended => ⟨resting.quiet ended.1, ended.1.looks, ended.1.grows resting.pools,
      ended.1.sets⟩)
    (fun _ _ left => ⟨left.1.looks, left.2⟩)

variable {after : World → Prop}

theorem Ends.weaken {program : Action Unit} {weaker : World → Prop}
    (ends : Ends bad world program after) (implies : ∀ final, after final → weaker final) :
    Ends bad world program weaker :=
  Meets.weaken ends (fun _ same => same)
    (fun _ final ended => ⟨ended.1, ended.2.1, implies final ended.2.2⟩) (fun _ _ left => left)

/-- A part of a callback that ends at rest may be followed by another one. -/
theorem Ends.bind {program : Action Unit} {next : Unit → Action Unit}
    {middle after : World → Prop} (first : Ends bad world program middle)
    (rest : ∀ between, between.Resting → middle between →
      Ends bad between (next ()) after) : Ends bad world (program >>= next) after := by
  apply Meets.bind first
  intro _
  apply meets_pointwise
  rintro between ⟨resting, early, holds⟩
  exact Meets.weaken (rest between resting holds) (fun _ same => same)
    (fun _ _ ended => ⟨ended.1, early.trans ended.2.1, ended.2.2⟩)
    (fun _ _ left => ⟨early.trans left.1, left.2⟩)

theorem ends_modify {update : World → World} (resting : (update world).Resting)
    (looks : Looks world (update world)) (holds : after (update world)) :
    Ends bad world (modify update) after :=
  meets_modify fun _ same => by
    rw [same]
    exact ⟨resting, looks, holds⟩

theorem ends_get {next : World → Action Unit} (rest : Ends bad world (next world) after) :
    Ends bad world (get >>= next) after :=
  meets_get fun _ same => same ▸ rest

variable {pool : PoolId} {array : Nat}

/-- A result of a quiet part may be used by the rest. -/
theorem Keeps.bind_ends {A : Type} {program : Action A} {result : A → Prop} {next : A → Action Unit}
    (first : Keeps bad pool array program result)
    (rest : ∀ value between, result value → Quiet pool array world between →
      Ends bad between (next value) after) : Ends bad world (program >>= next) after := by
  apply Meets.bind ((first world).weaken (fun _ same => same) (fun _ _ ended => ended)
    fun _ _ left => ⟨left.1.looks, left.2⟩)
  intro value
  apply meets_pointwise
  rintro between ⟨early, holds⟩
  exact Meets.weaken (rest value between holds early) (fun _ same => same)
    (fun _ _ ended => ⟨ended.1, early.looks.trans ended.2.1, ended.2.2⟩)
    (fun _ _ left => ⟨early.looks.trans left.1, left.2⟩)

/-- After an allocation the pool is not empty. -/
theorem allocate_ends {use : Use} {next : Unit → Action Unit}
    (rest : ∀ between, between.blocks pool ≠ [] → Quiet pool array world between →
      Ends bad between (next ()) after) :
    Ends bad world (allocate pool ⟨array, use⟩ >>= next) after := by
  have first : Meets (fun start => start = world) (allocate pool ⟨array, use⟩)
      (fun _ between => between.blocks pool ≠ [] ∧ Quiet pool array world between)
      (fun fault final => Looks world final ∧ bad fault) := by
    apply meets_modify
    rintro _ rfl
    exact ⟨by simp, allocate_quiet use _⟩
  apply Meets.bind first
  intro _
  apply meets_pointwise
  rintro between ⟨filled, early⟩
  exact Meets.weaken (rest between filled early) (fun _ same => same)
    (fun _ _ ended => ⟨ended.1, early.looks.trans ended.2.1, ended.2.2⟩)
    (fun _ _ left => ⟨early.looks.trans left.1, left.2⟩)

/-- The change of the set that `set_find` returns keeps all names and every settled set. -/
theorem changeFirst_settled {pool : PoolId} {array : Nat} {name : Name}
    {change : PooledSet → PooledSet} {sets : List PooledSet}
    (settled : ∀ set ∈ sets, set.Settled ∧ set.In pool array)
    (changed : ∀ set ∈ sets, set.name = name →
      ((change set).Settled ∧ (change set).In pool array) ∧ (change set).name = set.name) :
    (∀ set ∈ changeFirst name change sets, set.Settled ∧ set.In pool array) ∧
      names (changeFirst name change sets) = names sets := by
  induction sets with
  | nil => exact ⟨by simp [changeFirst], rfl⟩
  | cons set sets ih =>
    rw [forall_mem_cons] at settled changed
    rw [changeFirst]
    by_cases found : set.name = name
    · obtain ⟨good, same⟩ := changed.1 found
      rw [if_pos found]
      exact ⟨forall_mem_cons.mpr ⟨good, settled.2⟩, by simp [names, same]⟩
    · obtain ⟨rest, same⟩ := ih settled.2 changed.2
      rw [if_neg found]
      refine ⟨forall_mem_cons.mpr ⟨settled.1, rest⟩, ?_⟩
      simp only [names, map_cons] at same ⊢
      rw [same]

variable {name : Name}

theorem setFind_isSome {sets : List PooledSet} :
    (setFind sets name).isSome ↔ name ∈ names sets := by
  simp [setFind, names]

/-- What an update keeps is the names of the sets and the array. -/
def Updated (first second : World) : Prop :=
  Grows first second ∧ names second.sets = names first.sets

theorem Updated.trans (early : Updated first second) (late : Updated second third) :
    Updated first third :=
  ⟨early.1.trans late.1, late.2.trans early.2⟩

theorem setState_ends (resting : world.Resting) (known : name ∈ names world.sets) {state : SetState}
    (settles : state = .valid ∨ state = .pending) :
    Ends bad world (setState name state) (Updated world) := by
  apply ends_get
  cases found : setFind world.sets name with
  | none =>
    rw [← setFind_isSome, found] at known
    cases known
  | some set =>
    obtain ⟨settled, same⟩ := @changeFirst_settled _ _ name (fun set => { set with state }) _
      resting.settled fun set member _ =>
        ⟨⟨⟨settles, (resting.settled set member).1.idle⟩, (resting.settled set member).2⟩, rfl⟩
    exact ends_modify (resting.change settled same)
      ⟨rfl, rfl, rfl, fun _ member => Or.inl member, fun _ member => member⟩
      ⟨⟨rfl, rfl, rfl, rfl, .refl _ _⟩, same⟩

/-- An update needs a set with the name, and no action but the reload fails. -/
theorem handleUpdate_ends (resting : world.Resting) (known : name ∈ names world.sets)
    {action : Diffstore.Action} (updates : action ≠ .configReload) (epoch newVersion : Nat) :
    Ends bad world (handleUpdate name action epoch newVersion) (Updated world) := by
  have sent {between : World} (request : Request) (rests : between.Resting)
      (updated : Updated world between) : Ends bad between (send request) (Updated world) :=
    ((send_keeps request).ends rests).weaken fun _ ended =>
      updated.trans ⟨ended.1, by rw [ended.2]⟩
  cases action with
  | noAction => exact setState_ends resting known (Or.inl rfl)
  | full => exact (setState_ends resting known (Or.inr rfl)).bind fun _ rests => sent _ rests
  | incremental version =>
    exact (setState_ends resting known (Or.inl rfl)).bind fun _ rests => sent _ rests
  | configReload => exact absurd rfl updates

theorem copySet_keeps {set : PooledSet} (settled : set.Settled) :
    Keeps bad pool array (copySet answers pool array set) fun copy =>
      ((copy.Settled ∧ copy.In pool array) ∧ copy.store.deleted = 0) ∧ copy.name = set.name := by
  apply Keeps.bind (allocate_keeps .name)
  intro _ _
  apply Keeps.bind (check_keeps (by rw [settled.idle]; rfl) .reconfigure)
  intro _ _
  apply Keeps.bind storeInit_keeps
  rintro _ rfl
  apply (storeCopy_keeps answers ⟨rfl, rfl⟩ rfl set.store).weaken
  rintro _ rfl
  exact ⟨⟨⟨⟨settled.state, settled.idle⟩, rfl, rfl⟩, rfl⟩, rfl⟩

/-- A reload changes the roles of the pools and leaves the old sets in the standby pool. -/
def Reloaded (first second : World) : Prop :=
  Exchanges (first.blocks first.confPool) first second ∧ names second.sets = names first.sets

theorem configReload_ends (resting : world.Resting) :
    Ends bad world (configReload answers) fun final =>
      Reloaded world final ∧ ∀ set ∈ final.sets, set.store.deleted = 0 := by
  apply ends_get
  apply allocate_ends
  intro first some early
  have copies := @keeps_sets bad world.standbyPool (world.array + 1)
    (copySets answers world.standbyPool (world.array + 1))
    (copySet answers world.standbyPool (world.array + 1))
    (fun copy => (copy.Settled ∧ copy.In world.standbyPool (world.array + 1)) ∧
      copy.store.deleted = 0) rfl (fun _ _ => rfl) world.sets
    fun set member => copySet_keeps answers (resting.settled set member).1
  apply Keeps.bind_ends copies
  rintro sets second ⟨good, same⟩ late
  have quiet := early.trans late
  have filled := late.blocks.ne_nil some
  refine ends_modify ?_ ⟨rfl, rfl, rfl, fun _ member => Or.inl member, fun _ member => member⟩
    ⟨⟨?_, ?_⟩, ?_⟩
  · constructor
    case settled =>
      simp only [World.exchange, quiet.standbyPool, quiet.current]
      exact fun set member => (good set member).1
    case distinct => exact same ▸ resting.distinct
    case pools =>
      simp only [World.exchange, quiet.standbyPool, quiet.confPool]
      exact resting.pools.symm
    case held =>
      simp only [World.exchange, quiet.standbyPool]
      exact fun _ => filled
    case source => exact quiet.looks.source_le resting.source
  · exact ⟨by simp [World.exchange, quiet.current], quiet.standbyPool, quiet.confPool,
      quiet.others _ resting.pools, quiet.blocks⟩
  · exact same
  · exact fun set member => (good set member).2

/-- A store without deleted addresses asks for no reload. -/
theorem diffAddrStoreAction_fresh {store : Store} (none : store.deleted = 0) (epoch version : Nat) :
    diffAddrStoreAction store epoch version ≠ .configReload := by
  rw [diffAddrStoreAction, none]
  split_ifs <;> simp

/-- After the reload the same request is handled again, and no second reload is asked for. -/
theorem handleReload_ends (resting : world.Resting) (known : name ∈ names world.sets)
    (epoch newVersion : Nat) :
    Ends bad world (handleAction answers name .configReload epoch newVersion)
      (Reloaded world) := by
  rw [handleAction]
  apply (configReload_ends answers resting).bind
  rintro between rests ⟨⟨exchanged, same⟩, fresh⟩
  apply ends_get
  have still : name ∈ names between.sets := same ▸ known
  cases found : setFind between.sets name with
  | none =>
    rw [← setFind_isSome, found] at still
    cases still
  | some set =>
    have none := fresh set (mem_of_find?_eq_some found)
    apply (handleUpdate_ends rests still (diffAddrStoreAction_fresh none epoch newVersion) epoch
      newVersion).weaken
    rintro final ⟨grows, last⟩
    exact ⟨exchanged.grows grows, last.trans same⟩

theorem handleAction_ends (resting : world.Resting) (known : name ∈ names world.sets)
    {action : Diffstore.Action} (updates : action ≠ .configReload) (epoch newVersion : Nat) :
    Ends bad world (handleAction answers name action epoch newVersion) (Updated world) := by
  have update : Ends bad world (handleUpdate name action epoch newVersion) (Updated world) :=
    handleUpdate_ends resting known updates epoch newVersion
  cases action with
  | configReload => exact absurd rfl updates
  | _ => exact update

/-- The offer of a version makes the plugin reload its sets. -/
def Triggers (world : World) (configVersion : Nat) (name : Name) (epoch version : Nat) : Prop :=
  world.configVersion = configVersion ∧ ∃ set ∈ setFind world.sets name,
    diffAddrStoreAction set.store epoch version = .configReload

instance (world : World) (configVersion : Nat) (name : Name) (epoch version : Nat) :
    Decidable (Triggers world configVersion name epoch version) := by
  unfold Triggers
  infer_instance

theorem Updated.refl (world : World) : Updated world world := ⟨.refl world, rfl⟩

section

variable (resting : world.Resting)
include resting

theorem Ends.stay : Ends bad world (pure ()) (Updated world) := by
  rintro _ rfl
  exact ⟨resting, .refl _, .refl _⟩

theorem versionReceived_ends (configVersion : Nat) (name : Name) (epoch version : Nat) :
    Ends bad world (versionReceived answers configVersion name epoch version)
      (if Triggers world configVersion name epoch version then Reloaded world
        else Updated world) := by
  apply ends_get
  by_cases differs : world.configVersion ≠ configVersion
  · rw [if_pos differs, if_neg (fun triggers => differs triggers.1)]
    exact .stay resting
  rw [if_neg differs]
  cases found : setFind world.sets name with
  | none =>
    rw [if_neg (by simp [Triggers, found])]
    exact .stay resting
  | some set =>
    have known : name ∈ names world.sets := by simp [← setFind_isSome, found]
    dsimp only
    by_cases reload : diffAddrStoreAction set.store epoch version = .configReload
    · rw [if_pos ⟨not_not.mp differs, set, found, reload⟩, reload]
      exact handleReload_ends answers resting known epoch version
    · have calm : ¬ Triggers world configVersion name epoch version := by
        simp [Triggers, found, reload]
      rw [if_neg calm]
      exact handleAction_ends answers resting known reload epoch version

theorem diffReceived_ends (configVersion : Nat) (name : Name) (full : Bool)
    (epoch fromVersion toVersion : Nat) (data : Bytes) :
    Ends Fault.Expected world (diffReceived answers configVersion name full epoch fromVersion
      toVersion data) (Updated world) := by
  apply ends_get
  split
  · exact .stay resting
  cases found : setFind world.sets name with
  | none => exact .stay resting
  | some set =>
    have member : set ∈ world.sets := mem_of_find?_eq_some found
    obtain ⟨settled, inside⟩ := resting.settled set member
    apply Keeps.bind_ends (storeApply_keeps answers inside settled.idle full epoch _ toVersion data)
    rintro ⟨final, action⟩ between ⟨⟨store, rfl⟩, updates⟩ quiet
    have rests := resting.quiet quiet
    have own : set.name = name := by simpa using List.find?_some found
    obtain ⟨calm, same⟩ := @changeFirst_settled _ _ name (fun _ => { set with store := store }) _
      rests.settled fun other _ equal =>
        ⟨⟨⟨settled.state, settled.idle⟩, quiet.confPool ▸ quiet.current ▸ inside⟩,
          own.trans equal.symm⟩
    have stored : Ends Fault.Expected between (modify fun current => { current with
        sets := changeFirst name (fun _ => { set with store := store }) current.sets })
        (Updated between) :=
      ends_modify (rests.change calm same)
        ⟨rfl, rfl, rfl, fun _ member => Or.inl member, fun _ member => member⟩
        ⟨⟨rfl, rfl, rfl, rfl, .refl _ _⟩, same⟩
    have grown : Updated world between := ⟨quiet.grows resting.pools, by rw [quiet.sets]⟩
    apply stored.bind
    intro last ended updated
    have total := grown.trans updated
    have known : name ∈ names last.sets := by
      rw [total.2, ← own]
      exact List.mem_map_of_mem member
    exact (handleAction_ends answers ended known updates epoch toVersion).weaken fun _ =>
      total.trans

theorem setsReload_ends : Ends Fault.Expected world (setsReload answers) (Updated world) := by
  apply ends_get
  have reloaded := @keeps_sets Fault.Expected world.confPool world.array (reloadAll answers)
    (setReload answers) (fun set => set.Settled ∧ set.In world.confPool world.array) rfl
    (fun _ _ => rfl) world.sets fun set member =>
      (setReload_keeps answers (resting.settled set member).1.idle).weaken fun _ same => by
        rw [same]
        exact ⟨resting.settled set member, rfl⟩
  apply Keeps.bind_ends reloaded
  rintro sets between ⟨settled, same⟩ quiet
  have rests := resting.quiet quiet
  have grown := quiet.grows resting.pools
  refine ends_modify (rests.change ?_ ?_)
    ⟨rfl, rfl, rfl, fun _ member => Or.inl member, fun _ member => member⟩
    ⟨⟨grown.array, grown.confPool, grown.standbyPool, grown.standby, grown.conf⟩, same⟩
  · rw [quiet.confPool, quiet.current]
    exact settled
  · rw [quiet.sets]
    exact same

/-- A configuration leaves nothing in the standby pool. -/
theorem configParse_ends (config : Config) :
    Ends Fault.Expected world (configParse answers config)
      fun final => Grows world final ∨ Exchanges [] world final := by
  apply ends_get
  split
  · have asked : Keeps Fault.Expected world.confPool world.array
        (Program.each world.sets fun set => send (.ask set.name)) fun _ => True :=
      .each fun set _ => send_keeps _
    exact (asked.ends resting).weaken fun _ ended => Or.inl ended.1
  · apply allocate_ends
    intro first filled early
    have settled : ∀ old ∈ world.sets, old.Settled := fun old member =>
      (resting.settled old member).1
    apply Keeps.bind_ends (newSets_keeps answers config.distinct settled resting.distinct)
    rintro sets second ⟨good, distinct⟩ late
    have quiet := early.trans late
    have away : world.standbyPool ≠ world.confPool := resting.pools.symm
    have some := late.blocks.ne_nil filled
    refine ends_modify ?_ ⟨rfl, rfl, rfl, fun _ member => Or.inl member, fun _ member => member⟩
      (Or.inr ?_)
    · constructor
      case settled =>
        simp only [World.switch, quiet.standbyPool, quiet.current]
        exact good
      case distinct => exact distinct
      case pools =>
        simp only [World.switch, quiet.standbyPool, quiet.confPool]
        exact away
      case held =>
        simp only [World.switch, quiet.standbyPool, quiet.confPool]
        rw [update_of_ne away]
        exact fun _ => some
      case source => exact quiet.looks.source_le resting.source
    · refine ⟨by simp [World.switch, quiet.current], quiet.standbyPool, quiet.confPool, ?_, ?_⟩
      · simp [World.switch, quiet.confPool]
      · simp only [World.switch, quiet.confPool]
        rw [update_of_ne away]
        exact quiet.blocks

end

end Updates

end Ucollect.Fwup.Callbacks
