import Ucollect.Proof.Pools.Blocks

/-
This file proves that the index of each pool is its position in the registry, also after another
pool takes the place of a dropped one.
-/

namespace Ucollect.MemPool
open Library List Function

/-- The positions of the registry and the indices of the pools belong to each other. -/
def Registered (registry : List Nat) (pools : List Pool) : Prop :=
  ∀ index address, registry[index]? = some address ↔
    ∃ pool ∈ pools, pool.address = address ∧ pool.poolIndex = index

section Registry

variable {registry : List Nat} {pools others : List Pool} {pool first second : Pool}
  {world : World}

theorem Registered.position (registered : Registered registry pools) (member : pool ∈ pools) :
    registry[pool.poolIndex]? = some pool.address :=
  (registered pool.poolIndex pool.address).mpr ⟨pool, member, rfl, rfl⟩

/-- The order of the control structures in the memory does not matter. -/
theorem Registered.perm (registered : Registered registry pools) (same : pools.Perm others) :
    Registered registry others := by
  intro index address
  rw [registered index address]
  simp only [same.mem_iff]

/-- A pool is written anew, and its place is the same. -/
theorem Registered.rewrite (registered : Registered registry (first :: others))
    (address : second.address = first.address) (position : second.poolIndex = first.poolIndex) :
    Registered registry (second :: others) := by
  intro index known
  rw [registered index known]
  simp only [exists_mem_cons_iff, address, position]

/-- The next pool gets the next place. -/
theorem Registered.append (registered : Registered registry pools) :
    Registered (registry ++ [pool.address])
      ({ pool with poolIndex := registry.length } :: pools) := by
  intro index address
  simp only [exists_mem_cons_iff]
  rcases Nat.lt_trichotomy index registry.length with before | rfl | behind
  · rw [List.getElem?_append_left before, registered index address]
    constructor
    · exact Or.inr
    · rintro (⟨_, here⟩ | known)
      · omega
      · exact known
  · have free : ¬∃ other ∈ pools, other.address = address ∧
        other.poolIndex = registry.length := by
      rw [← registered registry.length address]
      simp
    simp [free]
  · have outside : registry.length + 1 ≤ index := behind
    have free : ¬∃ other ∈ pools, other.address = address ∧ other.poolIndex = index := by
      rw [← registered index address, List.getElem?_eq_none behind.le]
      simp
    rw [List.getElem?_eq_none (by simpa using outside)]
    simp only [free, or_false]
    constructor
    · rintro ⟨⟩
    · rintro ⟨_, here⟩
      omega

theorem same_pool (distinct : (pools.map Pool.address).Nodup) (one : first ∈ pools)
    (two : second ∈ pools) (address : first.address = second.address) : first = second :=
  inj_on_of_nodup_map distinct one two address

/-- The control structure of the last pool gets the new index. -/
def moved (last position : Nat) (other : Pool) : Pool :=
  if other.address = last then { other with poolIndex := position } else other

@[simp] theorem moved_address (last position : Nat) (other : Pool) :
    (moved last position other).address = other.address := by
  unfold moved
  split <;> rfl

@[simp] theorem moved_pages (last position : Nat) (other : Pool) :
    (moved last position other).pages = other.pages := by
  unfold moved
  split <;> rfl

theorem moved_index (last position : Nat) (other : Pool) :
    (moved last position other).poolIndex =
      if other.address = last then position else other.poolIndex := by
  unfold moved
  split <;> rfl

/-- The last pool takes the place of the dropped one. -/
theorem Registered.drop (registered : Registered registry pools)
    (distinct : (pools.map Pool.address).Nodup) (member : pool ∈ pools) {last : Nat}
    (final : registry[registry.length - 1]? = some last) :
    Registered (registry.set pool.poolIndex last).dropLast
      ((pools.filter fun other => other.address ≠ pool.address).map
        (moved last pool.poolIndex)) := by
  have place := registered.position member
  have inRange := (List.getElem?_eq_some_iff.mp place).1
  obtain ⟨owner, known, named, ends⟩ := (registered _ last).mp final
  intro index address
  have read : (registry.set pool.poolIndex last).dropLast[index]? =
      if index < registry.length - 1 then
        if pool.poolIndex = index then some last else registry[index]? else none := by
    rw [List.getElem?_dropLast, length_set, List.getElem?_set]
    simp only [if_pos inRange]
  rw [read]
  simp only [List.mem_map, exists_exists_and_eq_and, mem_filter, decide_eq_true_eq, moved_address,
    moved_index]
  constructor
  · intro found
    by_cases before : index < registry.length - 1
    · rw [if_pos before] at found
      by_cases here : pool.poolIndex = index
      · rw [if_pos here, Option.some.injEq] at found
        refine ⟨owner, ⟨known, fun same => ?_⟩, named.trans found, by rw [if_pos named, here]⟩
        have equal := same_pool distinct known member same
        subst equal
        omega
      · rw [if_neg here] at found
        obtain ⟨other, present, called, indexed⟩ := (registered index address).mp found
        refine ⟨other, ⟨present, fun same => ?_⟩, called, ?_⟩
        · exact here (same_pool distinct present member same ▸ indexed)
        · rw [if_neg ?_, indexed]
          intro same
          have equal := same_pool distinct present known (same.trans named.symm)
          subst equal
          omega
    · rw [if_neg before] at found
      cases found
  · rintro ⟨other, ⟨present, different⟩, called, indexed⟩
    have position := registered.position present
    have inside := (List.getElem?_eq_some_iff.mp position).1
    by_cases same : other.address = last
    · rw [if_pos same] at indexed
      have before : index < registry.length - 1 := by
        by_contra behind
        have equal : pool.poolIndex = registry.length - 1 := by omega
        rw [equal, final, Option.some.injEq] at place
        exact different (same.trans place)
      rw [if_pos before, if_pos indexed, ← called, same]
    · rw [if_neg same] at indexed
      subst indexed
      have before : other.poolIndex < registry.length - 1 := by
        by_contra behind
        have equal : other.poolIndex = registry.length - 1 := by omega
        rw [equal, final, Option.some.injEq] at position
        exact same position.symm
      have apart : pool.poolIndex ≠ other.poolIndex := by
        intro equal
        rw [equal, position, Option.some.injEq] at place
        exact different place
      rw [if_pos before, if_neg apart, position, called]

/-- The assertions of `drop` hold. -/
theorem World.drop_ok (registered : Registered world.registry world.pools)
    (distinct : (world.pools.map Pool.address).Nodup) (member : pool ∈ world.pools) :
    ∃ last registry, world.drop pool = .ok
        { world with registry, pools := world.pools.map (moved last pool.poolIndex) } ∧
      Registered registry
        ((world.others pool.address).map (moved last pool.poolIndex)) := by
  have place := registered.position member
  have inRange := (List.getElem?_eq_some_iff.mp place).1
  have final : world.registry[world.registry.length - 1]? =
      some (world.registry.getLastD pool.address) := by
    rw [← List.getLast?_eq_getElem?, getLastD_eq_getLast?]
    have present : world.registry ≠ [] := ne_nil_of_length_pos (by omega)
    rw [List.getLast?_eq_some_getLast present]
    rfl
  refine ⟨_, _, ?_, registered.drop distinct member final⟩
  unfold World.drop
  rw [if_neg (by omega), if_neg (not_not.mpr place)]
  rfl

end Registry

end Ucollect.MemPool

/-
This file proves that the blocks of the memory pools never overlap, over every run of calls.
-/

namespace Ucollect.MemPool
open Library List Function

/-- This is what each call keeps. -/
structure World.Formed (machine : Machine) (world : World) : Prop where
  memory : world.memory.Holds machine (world.pools.flatMap Pool.pages)
  pools : ∀ pool ∈ world.pools, pool.Formed machine
  registered : Registered world.registry world.pools

namespace World
open List Function

variable {machine : Machine} {world : World} {memory : Memory} {pool : Pool} {page : Span}
  {offer : Option Nat} {size nameLength : Nat}

/-- Each pool has its own first page, and the control structure is there. -/
theorem Formed.distinct (formed : world.Formed machine) :
    (world.pools.map Pool.address).Nodup := by
  have spread := (pairwise_append.mp formed.memory.spread).1
  rw [pairwise_flatMap] at spread
  rw [List.Nodup, pairwise_map]
  refine spread.2.imp_of_mem ?_
  intro first second one two away same
  have apart := away first.first mem_cons_self second.first mem_cons_self
  have firstSize := (formed.pools first one).single
  have secondSize := (formed.pools second two).single
  rw [(formed.pools first one).place, (formed.pools second two).place] at same
  simp only [data, Span.Apart, firstSize, secondSize, pageSize] at same apart
  omega

theorem Formed.split (formed : world.Formed machine) (member : pool ∈ world.pools) :
    world.pools.Perm (pool :: world.others pool.address) :=
  perm_cons_filter formed.distinct member

theorem Formed.pages (formed : world.Formed machine) (member : pool ∈ world.pools) :
    world.memory.Holds machine
      (pool.pages ++ (world.others pool.address).flatMap Pool.pages) :=
  formed.memory.perm ((formed.split member).flatMap_right _)

/-- A changed pool is written in the place of the old one. -/
theorem Formed.put (formed : world.Formed machine) (member : pool ∈ world.pools) {changed : Pool}
    (address : changed.address = pool.address) (position : changed.poolIndex = pool.poolIndex)
    (sound : changed.Formed machine)
    (holds : memory.Holds machine
      (changed.pages ++ (world.others pool.address).flatMap Pool.pages)) :
    (world.put memory changed).Formed machine := by
  unfold World.put
  rw [address]
  refine ⟨holds, ?_, (formed.registered.perm (formed.split member)).rewrite address position⟩
  intro other known
  rcases mem_cons.mp known with rfl | behind
  · exact sound
  · exact formed.pools other (mem_of_mem_filter behind)

/-- The assertions hold, and the name of the pool fits. -/
theorem create_concludes (formed : world.Formed machine)
    (short : machine.header + machine.control + (1 + nameLength) < pageSize) :
    Concludes (Formed machine) (· = .mapFailed) (world.create machine nameLength offer) := by
  unfold create
  rw [if_neg (by omega)]
  refine (Memory.pageGet_concludes formed.memory dvd_rfl).bind ?_
  rintro ⟨page, memory⟩ ⟨holds, single⟩
  have whole := holds.known mem_cons_self
  obtain ⟨carved, result, start, fresh⟩ := pageAlloc_control whole single short
  simp only [result]
  refine ⟨holds, ?_, formed.registered.append⟩
  intro pool known
  rcases mem_cons.mp known with rfl | behind
  · exact fresh _ start rfl rfl rfl rfl rfl rfl
  · exact formed.pools pool behind

/-- A rounded request has room for the block behind the header, and a sum that wraps asks the system
for nothing. -/
theorem rounded_fits (small : size + pageSize < machine.limit)
    (positive : 0 < (size + machine.header + pageSize - 1) % machine.limit / pageSize * pageSize) :
    size ≤ (size + machine.header + pageSize - 1) % machine.limit / pageSize * pageSize -
      machine.header := by
  have header : machine.header ≤ 16 := by
    unfold Machine.header
    rcases machine.word_cases with word | word <;> omega
  unfold pageSize at *
  by_cases wraps : size + machine.header + 4096 - 1 < machine.limit
  · rw [Nat.mod_eq_of_lt wraps] at positive ⊢
    omega
  · rw [Nat.mod_eq_sub_mod (by omega), Nat.mod_eq_of_lt (by omega)] at positive
    omega

section

variable (formed : world.Formed machine)
include formed

/-- A block of the free memory or of a new page is returned. -/
theorem alloc_concludes (member : pool ∈ world.pools) (small : size + pageSize < machine.limit) :
    Concludes (Formed machine) (· = .mapFailed) (world.alloc machine pool size offer) := by
  have sound := formed.pools pool member
  have holds := formed.pages member
  have wholes : ∀ page ∈ pool.pages, Whole machine page := fun page owned =>
    holds.known (mem_append_left _ owned)
  unfold alloc
  rcases pageAlloc_cases sound.pos sound.available (sound.room wholes) size with
    ⟨_, full⟩ | ⟨width, fits, within, words, carved⟩
  · rw [full]
    refine (Memory.pageGet_concludes holds (Dvd.intro_left _ rfl)).bind ?_
    rintro ⟨page, memory⟩ ⟨taken, rounded⟩
    have whole : Whole machine page := taken.known mem_cons_self
    have known : ∀ other ∈ page :: pool.pages, Whole machine other :=
      forall_mem_cons.mpr ⟨whole, wholes⟩
    have fresh : (page :: pool.pages).Pairwise Span.Apart :=
      taken.spread.sublist (((sublist_append_left _ _).cons_cons page).trans
        (sublist_append_left _ _))
    have fits : size ≤ (data machine page).size := by
      have positive := whole.positive
      simp only [data]
      rw [rounded] at positive ⊢
      exact rounded_fits small positive
    have moved := sound.move known fresh
    have room : (data machine page).size + machine.word ≤ machine.limit := moved.room fun other owned =>
      known other ((List.Perm.swap _ _ _).mem_iff.mp owned)
    have pages : memory.Holds machine
        ((pool.first :: page :: pool.next) ++ (world.others pool.address).flatMap Pool.pages) :=
      taken.perm (List.Perm.swap _ _ _)
    rcases pageAlloc_cases whole.data_start whole.data_size room size with
      ⟨short, _⟩ | ⟨width, wide, within, words, carved⟩
    · omega
    · simp only [data] at carved
      by_cases more : page.size - machine.header - width > pool.available
      · simp only [carved, bind, Except.bind, if_pos more]
        exact formed.put member rfl rfl ((moved.cut wide within words).count _) pages
      · simp only [carved, bind, Except.bind, if_neg more]
        exact formed.put member rfl rfl ((sound.keep known fresh fits).count _) pages
  · rw [carved]
    exact formed.put member rfl rfl (sound.cut fits within words) holds

theorem reset_concludes (member : pool ∈ world.pools) :
    Concludes (Formed machine) (· = .mapFailed) (world.reset machine pool) := by
  have sound := formed.pools pool member
  have holds := formed.pages member
  have whole := holds.known (mem_append_left _ mem_cons_self)
  have kept : world.memory.Holds machine
      (pool.next ++ pool.first :: (world.others pool.address).flatMap Pool.pages) :=
    holds.perm perm_middle.symm
  obtain ⟨carved, result, start, fresh⟩ := pageAlloc_control whole sound.single sound.short
  refine ((Memory.pageWalkAndDelete_concludes kept).weaken (fun _ => id)
    fun _ => False.elim).bind ?_
  intro memory returned
  simp only [Pool.structSize, result, bind, Except.bind, if_pos (start.trans sound.place.symm)]
  refine formed.put member rfl rfl (fresh _ sound.place rfl rfl rfl rfl rfl rfl) ?_
  exact returned

/-- The pages of the dropped pool are returned. -/
theorem destroy_concludes (member : pool ∈ world.pools) :
    Concludes (Formed machine) (· = .mapFailed) (world.destroy pool) := by
  obtain ⟨last, registry, dropped, registered⟩ :=
    drop_ok formed.registered formed.distinct member
  unfold destroy
  rw [dropped]
  refine ((Memory.pageWalkAndDelete_concludes (formed.pages member)).weaken (fun _ => id)
    fun _ => False.elim).bind ?_
  intro memory returned
  have rest : ({ world with
      registry, pools := world.pools.map (moved last pool.poolIndex) } : World).others pool.address =
        (world.others pool.address).map (moved last pool.poolIndex) := by
    simp only [others, List.filter_map, comp_def, moved_address]
  refine ⟨?_, ?_, ?_⟩
  · simpa [rest, flatMap_map] using returned
  · intro other known
    rw [rest] at known
    obtain ⟨before, present, rfl⟩ := List.mem_map.mp known
    have sound := formed.pools before (mem_of_mem_filter present)
    unfold moved
    split
    · exact { sound with }
    · exact sound
  · rw [rest]
    exact registered

theorem withPool_concludes {address : Nat} {call : Pool → Except Fault World}
    (calls : ∀ pool ∈ world.pools, Concludes (Formed machine) (· = .mapFailed) (call pool)) :
    Concludes (Formed machine) (· = .mapFailed) (world.withPool address call) := by
  unfold withPool
  cases found : world.pools.find? fun pool => pool.address = address with
  | none => exact formed
  | some pool => exact calls pool (mem_of_find?_eq_some found)

end

end World

/-- The name leaves room in the first page, and the size of a block with one page is a size. -/
def Event.Small (machine : Machine) : Event → Prop
  | .create nameLength _ => machine.header + machine.control + (1 + nameLength) < pageSize
  | .alloc _ size _ => size + pageSize < machine.limit
  | .destroy _ | .reset _ => True

instance (machine : Machine) (event : Event) : Decidable (event.Small machine) := by
  cases event <;> unfold Event.Small <;> infer_instance

theorem step_concludes {machine : Machine} {world : World} {event : Event}
    (formed : world.Formed machine) (small : event.Small machine) :
    Concludes (World.Formed machine) (· = .mapFailed) (world.step machine event) := by
  cases event with
  | create nameLength offer => exact World.create_concludes formed small
  | destroy address =>
    exact World.withPool_concludes formed fun pool member =>
      World.destroy_concludes formed member
  | alloc address size offer =>
    exact World.withPool_concludes formed fun pool member =>
      World.alloc_concludes formed member small
  | reset address =>
    exact World.withPool_concludes formed fun pool member =>
      World.reset_concludes formed member

theorem World.new_formed (machine : Machine) : World.Formed machine .new := by
  refine ⟨⟨List.Perm.refl _, List.Pairwise.nil, ?_, ?_⟩, ?_, ?_⟩ <;> simp [World.new, Registered]

theorem run_concludes {machine : Machine} {events : List Event}
    (small : ∀ event ∈ events, event.Small machine) :
    Concludes (World.Formed machine) (· = .mapFailed) (run machine events) :=
  concludes_foldlM (World.new_formed machine) fun _ formed event member =>
    step_concludes formed (small event member)

/-- The blocks do not overlap, each is whole in a page of its pool, a page has one owner, and the
index of each pool is its position. -/
structure World.Sound (machine : Machine) (world : World) : Prop where
  apart : (world.pools.flatMap Pool.blocks).Pairwise Span.Apart
  inside : ∀ pool ∈ world.pools, ∀ block ∈ pool.blocks,
    (∃ page ∈ pool.pages, block.Inside (data machine page)) ∧ machine.word ∣ block.start
  owners : (world.pools.flatMap Pool.pages ++ world.memory.cache).Nodup
  spread : (world.pools.flatMap Pool.pages ++ world.memory.cache).Pairwise Span.Apart
  position : ∀ pool ∈ world.pools, world.registry[pool.poolIndex]? = some pool.address

theorem World.Formed.sound {machine : Machine} {world : World} (formed : world.Formed machine) :
    world.Sound machine := by
  have spread := formed.memory.spread
  have owned := (pairwise_append.mp spread).1
  refine ⟨?_, ?_, ?_, spread, ?_⟩
  · refine Span.pairwise_groups owned ?_ ?_
    · intro pool member
      have apart := (formed.pools pool member).apart.of_cons
      exact (pairwise_append.mp apart).1
    · intro pool member block known
      obtain ⟨page, present, inside⟩ := (formed.pools pool member).inside block
        (mem_cons_of_mem _ (mem_append_left _ known))
      have whole := formed.memory.known (mem_flatMap.mpr ⟨pool, member, present⟩)
      exact ⟨page, present, inside.trans whole.data_inside⟩
  · intro pool member block known
    refine ⟨?_, (formed.pools pool member).aligned block known⟩
    exact (formed.pools pool member).inside block
      (mem_cons_of_mem _ (mem_append_left _ known))
  · refine spread.imp_of_mem ?_
    intro first second one two apart
    have whole := formed.memory.whole first (formed.memory.owners.subset one)
    exact apart.ne whole.positive
  · intro pool member
    exact formed.registered.position member

/-- Every run keeps the pools sound, and it stops only when the system has no memory. -/
theorem pools_sound (machine : Machine) (events : List Event)
    (small : ∀ event ∈ events, event.Small machine) :
    match run machine events with
    | .ok world => world.Sound machine
    | .error fault => fault = .mapFailed := by
  have concludes := run_concludes small
  cases result : run machine events with
  | ok world => exact (concludes.value result).sound
  | error fault => exact concludes.fault result

theorem pools_sound_sample :
    match run .wide [.create 5 (some 4096), .create 7 (some 8192), .alloc 4112 4000 (some 16384),
      .alloc 8208 9000 (some 40960), .reset 4112, .alloc 4112 10 none, .destroy 8208] with
    | .ok world => world.Sound .wide
    | .error fault => fault = .mapFailed :=
  pools_sound .wide [.create 5 (some 4096), .create 7 (some 8192), .alloc 4112 4000 (some 16384),
    .alloc 8208 9000 (some 40960), .reset 4112, .alloc 4112 10 none, .destroy 8208] (by decide)

/-- A name that fills the first page fails an assertion, although no block is large. -/
theorem pools_sound_not :
    ¬∀ (machine : Machine) (events : List Event),
      (∀ address size offer, .alloc address size offer ∈ events → size + pageSize < machine.limit) →
        match run machine events with
        | .ok world => world.Sound machine
        | .error fault => fault = .mapFailed := by
  intro holds
  have failed := holds .wide [.create 4096 (some 4096)] (by simp)
  have stopped : run .wide [.create 4096 (some 4096)] = .error .nameTooLong := by decide
  rw [stopped] at failed
  cases failed

end Ucollect.MemPool
