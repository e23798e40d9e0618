import Ucollect.Proof.Buckets.Keys

/-
The limit of the keys is compared with the size of one trie. It is a limit of the criterion as long
as the keys that reach it are all in one bucket.
-/

namespace Ucollect.Buckets
open Library Core List Option Function

variable {config : Config} {user : UserData} {plugin : Plugin} {key : Bytes} {criterion : Criterion}
  {definition : CriterionDef}

/-- These are the different keys that the criterion stores. -/
def Criterion.keys (config : Config) (criterion : Criterion) : Finset Bytes :=
  ((List.range config.bucketCount).flatMap criterion.trie).toFinset

/-- The keys are no more than the limit. The flag is set exactly if no more will be stored because
of the limit, and a key is only left out if it is set. -/
structure Criterion.Limited (config : Config) (criterion : Criterion) : Prop where
  few : (criterion.keys config).card ≤ config.maxKeyCount
  flag : criterion.overflow = true ↔ config.maxKeyCount ≤ (criterion.keys config).card
  stored : ∀ key, key ∉ (criterion.store config key).trie (config.bucket 0 key) →
    criterion.overflow = true

/-- The key that reaches the limit shares its bucket with the other keys. -/
def Criterion.Gathers (config : Config) (criterion : Criterion) (key : Bytes) : Prop :=
  criterion.overflow = false → key ∉ criterion.keys config →
    (criterion.keys config).card + 1 = config.maxKeyCount →
    ∀ other ∈ criterion.keys config, config.bucket 0 other = config.bucket 0 key

instance (config : Config) (criterion : Criterion) (key : Bytes) :
    Decidable (criterion.Gathers config key) := by
  unfold Criterion.Gathers
  infer_instance

theorem mem_keys {key : Bytes} :
    key ∈ criterion.keys config ↔ ∃ bucket < config.bucketCount, key ∈ criterion.trie bucket := by
  simp [Criterion.keys]

theorem bucket_lt (positive : 0 < config.bucketCount) (number : Nat) (key : Bytes) :
    config.bucket number key < config.bucketCount := Nat.mod_lt _ positive

/-- A key is in the bucket of its hash or nowhere. -/
theorem Criterion.Filed.mem_trie (filed : criterion.Filed config definition)
    (positive : 0 < config.bucketCount) {other : Bytes} :
    other ∈ criterion.trie (config.bucket 0 key) ↔
      other ∈ criterion.keys config ∧ config.bucket 0 other = config.bucket 0 key := by
  rw [mem_keys]
  constructor
  · intro member
    exact ⟨⟨_, bucket_lt positive 0 key, member⟩, ((filed _).2 other member).1⟩
  · rintro ⟨⟨bucket, _, member⟩, same⟩
    rwa [← same, ((filed bucket).2 other member).1]

theorem store_full (full : criterion.overflow = true) : criterion.store config key = criterion := by
  rw [Criterion.store, if_pos full]

theorem store_trie (room : criterion.overflow = false) :
    (criterion.store config key).trie = update criterion.trie (config.bucket 0 key)
      (addNew (criterion.trie (config.bucket 0 key)) key) := by
  simp [Criterion.store, room]

theorem store_overflow (room : criterion.overflow = false) :
    (criterion.store config key).overflow = true ↔
      config.maxKeyCount ≤ (addNew (criterion.trie (config.bucket 0 key)) key).length := by
  simp [Criterion.store, room]

/-- A key that is stored is one more key of the criterion. -/
theorem store_keys (positive : 0 < config.bucketCount) (room : criterion.overflow = false) :
    (criterion.store config key).keys config = insert key (criterion.keys config) := by
  ext other
  rw [mem_keys, Finset.mem_insert, mem_keys, store_trie room]
  constructor
  · rintro ⟨bucket, inside, member⟩
    by_cases same : bucket = config.bucket 0 key
    · rw [same, update_self, mem_addNew] at member
      rcases member with old | new
      · exact .inr ⟨_, bucket_lt positive 0 key, old⟩
      · exact .inl new
    · rw [update_of_ne same] at member
      exact .inr ⟨bucket, inside, member⟩
  · rintro (rfl | ⟨bucket, inside, member⟩)
    · exact ⟨_, bucket_lt positive 0 other, by rw [update_self, mem_addNew]; exact .inr rfl⟩
    · refine ⟨bucket, inside, ?_⟩
      by_cases same : bucket = config.bucket 0 key
      · rw [same, update_self, mem_addNew, ← same]
        exact .inl member
      · rwa [update_of_ne same]

/-- The trie of the key counts the keys of its bucket. -/
theorem Criterion.Filed.length_addNew (filed : criterion.Filed config definition)
    (positive : 0 < config.bucketCount) :
    (addNew (criterion.trie (config.bucket 0 key)) key).length =
      ((insert key (criterion.keys config)).filter fun other =>
        config.bucket 0 other = config.bucket 0 key).card := by
  rw [← toFinset_card_of_nodup (addNew_nodup (filed _).1 key)]
  congr 1
  ext other
  rw [List.mem_toFinset, mem_addNew, filed.mem_trie positive, Finset.mem_filter, Finset.mem_insert]
  constructor
  · rintro (⟨member, same⟩ | rfl)
    · exact ⟨.inr member, same⟩
    · exact ⟨.inl rfl, rfl⟩
  · rintro ⟨rfl | member, same⟩
    · exact .inr rfl
    · exact .inl ⟨member, same⟩

theorem stored_or_full (key : Bytes)
    (absent : key ∉ (criterion.store config key).trie (config.bucket 0 key)) :
    criterion.overflow = true := by
  by_contra room
  apply absent
  rw [store_trie (Bool.eq_false_of_not_eq_true room), update_self, mem_addNew]
  exact .inr rfl

/-- A criterion keeps to the limit exactly if the key that reaches it shares its bucket with the
other keys. -/
theorem Criterion.Limited.store_iff (limited : criterion.Limited config)
    (filed : criterion.Filed config definition) (positive : 0 < config.bucketCount) (key : Bytes) :
    (criterion.store config key).Limited config ↔ criterion.Gathers config key := by
  cases full : criterion.overflow with
  | true =>
    rw [store_full full, Gathers, full]
    simp [limited]
  | false =>
    have below : (criterion.keys config).card < config.maxKeyCount := by
      by_contra reached
      rw [limited.flag.mpr (by omega)] at full
      cases full
    have keys := @store_keys config key criterion positive full
    have flag := @store_overflow config key criterion full
    rw [filed.length_addNew positive] at flag
    have part := Finset.card_filter_le (insert key (criterion.keys config))
      fun other => config.bucket 0 other = config.bucket 0 key
    have grown := Finset.card_insert_le key (criterion.keys config)
    constructor
    · intro next _ new reached other member
      have all : ((insert key (criterion.keys config)).filter fun other =>
          config.bucket 0 other = config.bucket 0 key) = insert key (criterion.keys config) := by
        apply Finset.eq_of_subset_of_card_le (Finset.filter_subset _ _)
        have size := Finset.card_insert_of_notMem new
        have set := next.flag.mpr (by rw [keys]; omega)
        have long := flag.mp set
        omega
      have inside : other ∈ insert key (criterion.keys config) :=
        Finset.mem_insert_of_mem member
      rw [← all, Finset.mem_filter] at inside
      exact inside.2
    · intro gathers
      refine ⟨by rw [keys]; omega, ?_, fun other => stored_or_full other⟩
      rw [flag, keys]
      constructor
      · intro long
        omega
      · intro reached
        have new : key ∉ criterion.keys config := by
          intro old
          rw [Finset.insert_eq_of_mem old] at reached
          omega
        have size := Finset.card_insert_of_notMem new
        have same := gathers full new (by omega)
        rw [Finset.filter_true_of_mem]
        · exact reached
        · intro other member
          rcases Finset.mem_insert.mp member with rfl | old
          · rfl
          · exact same other old

/-- The tries and the flag do not depend on the counters. -/
theorem Criterion.Limited.congr {other : Criterion} (limited : criterion.Limited config)
    (trie : other.trie = criterion.trie) (flag : other.overflow = criterion.overflow) :
    other.Limited config := by
  have keys : other.keys config = criterion.keys config := by
    rw [keys, keys, trie]
  refine ⟨?_, ?_, fun key => stored_or_full key⟩
  · rw [keys]
    exact limited.few
  · rw [keys, flag]
    exact limited.flag

/-- A criterion without keys is below the limit. -/
theorem limited_of_empty (positive : 0 < config.maxKeyCount) (trie : criterion.trie = fun _ => [])
    (flag : criterion.overflow = false) : criterion.Limited config := by
  have keys : criterion.keys config = ∅ := by
    ext key
    simp [Criterion.keys, trie]
  refine ⟨?_, ?_, fun key => stored_or_full key⟩
  · rw [keys]
    exact Nat.zero_le _
  · rw [keys, flag, Finset.card_empty]
    simp
    omega

/-- The loop over the hashes changes the counters only. -/
theorem countAll_same (slot : Nat) (numbers : List Nat) (key : Bytes) :
    Concludes (fun next : Criterion => next.trie = criterion.trie ∧
      next.overflow = criterion.overflow) (fun _ => True)
      (numbers.foldlM (Criterion.count config slot key) criterion) := by
  apply concludes_foldlM ⟨rfl, rfl⟩
  rintro before ⟨trie, flag⟩ number _
  rw [Criterion.count]
  split
  · exact ⟨trie, flag⟩
  · trivial

theorem Criterion.Limited.take {slot : Nat} {packet : Layer} (limited : criterion.Limited config)
    (filed : criterion.Filed config definition) (positive : 0 < config.bucketCount)
    (gathers : ∀ key, definition.extractKey packet = .ok (some key) →
      criterion.Gathers config key) :
    Concludes (Criterion.Limited config) (fun _ => True)
      (Criterion.take config slot packet (definition, criterion)) := by
  rw [Criterion.take]
  cases extracted : definition.extractKey packet with
  | error fault => trivial
  | ok key =>
    cases key with
    | none => exact limited
    | some key =>
      have step := (limited.store_iff filed positive key).mpr (gathers key extracted)
      apply Concludes.bind (countAll_same slot (List.range config.hashCount) key)
      rintro next ⟨trie, flag⟩
      dsimp only at trie flag
      apply step.congr
      · simp only [store, trie, flag]
        split
        · exact trie
        · rfl
      · simp only [store, trie, flag]
        split
        · exact flag
        · rfl

/-- The limit is not zero, and every criterion of every generation keeps to it. -/
structure UserData.Limited (user : UserData) : Prop where
  positive : 0 < user.config.maxKeyCount
  limited : ∀ generation ∈ user.generations, ∀ criterion ∈ generation.criteria,
    criterion.Limited user.config

/-- Each key of the packet that reaches the limit of its criterion shares its bucket with the other
keys of the criterion. -/
def UserData.Gathers (user : UserData) (packet : Layer) : Prop :=
  ∀ generation ∈ user.generations[user.currentGeneration]?,
    ∀ pair ∈ user.config.criteria.zip generation.criteria,
    ∀ key ∈ (pair.1.extractKey packet).toOption.join, pair.2.Gathers user.config key

instance (user : UserData) (packet : Layer) : Decidable (user.Gathers packet) := by
  unfold UserData.Gathers
  infer_instance

theorem UserData.Limited.generationActivate (limited : user.Limited)
    (generation timestamp now : Nat) : (user.generationActivate generation timestamp now).Limited := by
  refine ⟨limited.positive, ?_⟩
  intro found member criterion inside
  rcases mem_generationActivate found member with kept | ⟨before, there, rfl⟩
  · exact limited.limited found kept criterion inside
  · obtain ⟨old, _, rfl⟩ := List.mem_map.mp inside
    exact limited_of_empty limited.positive rfl rfl

theorem UserData.Limited.taken (limited : user.Limited) (filed : user.Filed)
    (buckets : 0 < user.config.bucketCount) {packet : Layer} (gathers : user.Gathers packet) :
    Concludes UserData.Limited (fun _ => True) (user.takeAll packet) := by
  rw [takeAll]
  split
  case h_1 => trivial
  case h_2 generation found =>
    have member := mem_of_getElem? found
    have each : ∀ pair ∈ user.config.criteria.zip generation.criteria,
        Concludes (Criterion.Limited user.config) (fun _ => True)
          (Criterion.take user.config user.biggestTimeslot packet pair) := by
      rintro ⟨definition, criterion⟩ inside
      exact (limited.limited generation member criterion (of_mem_zip inside).2).take
        (List.forall₂_zip (filed.filed generation member) inside) buckets
        fun key extracted => gathers generation found _ inside key (by rw [extracted]; rfl)
    apply Concludes.bind (concludes_mapM each)
    intro criteria results
    refine ⟨limited.positive, ?_⟩
    intro later inside criterion listed
    rcases mem_or_eq_of_mem_set inside with kept | rfl
    · exact limited.limited later kept criterion listed
    · obtain ⟨_, _, holds⟩ := forall₂_right results listed
      exact holds

/-- The biggest time slot after a packet. -/
def UserData.slotAt (user : UserData) (now : Nat) : Nat :=
  max user.biggestTimeslot ((now - user.timeslotStart) / user.config.timeGranularity)

theorem UserData.Limited.packet (limited : user.Limited) (filed : user.Filed)
    (buckets : 0 < user.config.bucketCount) {layers : List Layer} {now : Nat}
    (gathers : ∀ inner, layers.getLast? = some inner → inner.layer = 'I' →
      user.slotAt now < user.config.maxTimeslots → user.Gathers inner) :
    Concludes UserData.Limited (fun _ => True) (user.packet layers now) := by
  rw [UserData.packet]
  split
  case h_1 => exact limited
  case h_2 inner last =>
    split
    case isTrue => exact limited
    case isFalse inet =>
      split
      case isTrue => trivial
      case isFalse =>
        have moved : ({ user with biggestTimeslot := user.slotAt now } : UserData).Limited :=
          ⟨limited.positive, limited.limited⟩
        dsimp only
        split
        case isTrue => exact moved
        case isFalse inSlots =>
          apply moved.taken ⟨filed.known, filed.fresh, filed.filed⟩ buckets
          exact gathers inner last (not_not.mp inet) (Nat.lt_of_not_le inSlots)

theorem Config.start_limited {timestamp now : Nat} {memory : Nat → Nat}
    (positive : 0 < config.maxKeyCount)
    (started : config.start timestamp now memory = .ok user) : user.Limited := by
  rw [Config.start] at started
  split at started
  case isTrue => cases started
  case isFalse =>
    cases started
    apply UserData.Limited.generationActivate
    refine ⟨positive, ?_⟩
    intro generation member criterion inside
    rw [eq_of_mem_replicate member] at inside
    rw [eq_of_mem_replicate inside]
    exact limited_of_empty positive rfl rfl

theorem readConfig_maxKeyCount {data : Bytes} (accepted : readConfig data = .ok config) :
    config.maxKeyCount = field data 36 4 := by
  simp only [readConfig, bind, Except.bind, pure, Except.pure] at accepted
  split at accepted
  · cases accepted
  · split at accepted
    · cases accepted
    · split at accepted
      · cases accepted
      · split at accepted
        · cases accepted
        · cases accepted
          rfl

/-- A plugin that is configured keeps its state or starts anew. -/
theorem configure_some {data : Bytes} {now : Nat} {memory : Nat → Nat} {after : Option UserData}
    (configured : configure (some user) data now memory = .ok after) :
    after = some user ∨ after = none := by
  rw [configure] at configured
  split at configured
  · cases configured
  · split at configured
    · cases configured
      exact .inr rfl
    · cases configured
      exact .inl rfl

/-- A configuration has a limit that is not zero, and a packet that is counted gathers its keys. -/
def Plugin.Suits (plugin : Plugin) : Event → Prop
  | .tick _ | .connected => True
  | .message data _ =>
    data.head? = some (letter 'C') → plugin.user.isNone = true → 0 < field data.tail 36 4
  | .packet layers => ∀ user ∈ plugin.user, ∀ inner ∈ layers.getLast?, inner.layer = 'I' →
      user.slotAt plugin.now < user.config.maxTimeslots → user.Gathers inner

instance (plugin : Plugin) (event : Event) : Decidable (plugin.Suits event) := by
  cases event <;> unfold Plugin.Suits <;> infer_instance

def Plugin.AllSuit (plugin : Plugin) : List Event → Prop
  | [] => True
  | event :: events => plugin.Suits event ∧
      ∀ next ∈ (plugin.step event).toOption, next.AllSuit events

instance decidableAllSuit : (plugin : Plugin) → (events : List Event) →
    Decidable (plugin.AllSuit events)
  | _, [] => .isTrue trivial
  | plugin, event :: events =>
    have := fun next : Plugin => decidableAllSuit next events
    inferInstanceAs (Decidable (plugin.Suits event ∧
      ∀ next ∈ (plugin.step event).toOption, next.AllSuit events))

/-- What the steps of a run keep. -/
structure UserData.Kept (user : UserData) : Prop where
  filed : user.Filed
  tallied : user.Tallied
  limited : user.Limited

theorem Plugin.step_kept {event : Event} {next : Plugin}
    (kept : ∀ user, plugin.user = some user → user.Kept) (suits : plugin.Suits event)
    (stepped : plugin.step event = .ok next) : ∀ user, next.user = some user → user.Kept := by
  intro user known
  have moves := step_moves stepped
  refine ⟨Moves.filed (fun user there => (kept user there).filed) moves user known,
    Moves.tallied (fun user there => (kept user there).tallied) moves user known, ?_⟩
  cases event with
  | tick elapsed =>
    cases stepped
    exact (kept user known).limited
  | connected =>
    cases stepped
    obtain ⟨before, there, rfl⟩ := map_eq_some_iff.mp known
    have limited := (kept before there).limited
    refine ⟨limited.positive, ?_⟩
    intro generation member criterion inside
    obtain ⟨old, listed, rfl⟩ := List.mem_map.mp member
    exact limited.limited old listed criterion inside
  | message data memory =>
    rcases communicate_cases stepped with same | ⟨body, rfl, configured⟩ |
      ⟨before, body, message, after, rfl, there, provided, started⟩
    · exact (kept user (same ▸ known)).limited
    · cases there : plugin.user with
      | some old =>
        rw [there] at configured
        rcases configure_some configured with same | none
        · rw [same] at known
          cases known
          exact (kept user there).limited
        · rw [none] at known
          cases known
      | none =>
        have positive := suits rfl (by rw [there]; rfl)
        rw [there] at configured
        rcases configure_cases configured with same | none | ⟨config, read, fresh, start, new⟩
        · rw [same] at known
          cases known
        · rw [none] at known
          cases known
        · rw [new] at known
          cases known
          exact config.start_limited (readConfig_maxKeyCount read ▸ positive) start
    · rw [started, Option.some.injEq] at known
      subst known
      obtain ⟨generation, -, -, rfl⟩ := provideGeneration_cases provided
      have limited := (kept before there).limited
      apply UserData.Limited.generationActivate
      exact ⟨limited.positive, limited.limited⟩
  | packet layers =>
    rw [step] at stepped
    cases there : plugin.user with
    | none =>
      simp only [there] at stepped
      cases stepped
      rw [there] at known
      cases known
    | some before =>
      simp only [there] at stepped
      cases counted : before.packet layers plugin.now with
      | error fault =>
        rw [counted] at stepped
        cases stepped
      | ok after =>
        rw [counted] at stepped
        cases stepped
        cases known
        have stands := kept before there
        exact (stands.limited.packet stands.filed stands.tallied.buckets
          (suits before there)).value counted

theorem Plugin.run_kept {events : List Event} {last : Plugin}
    (kept : ∀ user, plugin.user = some user → user.Kept) (suit : plugin.AllSuit events)
    (ran : plugin.run events = .ok last) : ∀ user, last.user = some user → user.Kept := by
  induction events generalizing plugin with
  | nil =>
    cases ran
    exact kept
  | cons event events ih =>
    obtain ⟨next, stepped, rest⟩ := bind_returns ran
    exact ih (step_kept kept suit.1 stepped) (suit.2 next (by rw [stepped]; rfl)) rest

/-- In every run whose configurations have a limit, and whose packets only reach it with keys of one
bucket, every criterion of every generation keeps to the limit. -/
theorem run_limited {now : Nat} {events : List Event} (suit : (initial now).AllSuit events)
    (ran : (initial now).run events = .ok plugin) (known : plugin.user = some user) :
    user.Limited := by
  have kept := Plugin.run_kept (fun user impossible => by cases impossible) suit ran user known
  exact kept.limited

/-- A configuration with two buckets and a limit of two keys. -/
def limitConfig : Bytes :=
  word64 872945724987 ++ word64 1500000000 ++ word32 2 ++ word32 1 ++ word32 1 ++ word32 1 ++
    word32 1 ++ word32 2 ++ word32 4 ++ word32 1000 ++ [letter 'P']

/-- The remote ports of these packets are the keys. -/
def limitEvents (ports : List Nat) : List Event :=
  .message (letter 'C' :: limitConfig) (fun _ => 0) :: ports.map fun port =>
    .packet [⟨'I', 'T', .outgoing, 4, ⟨some [10, 0, 0, 1], some [10, 0, 0, 2]⟩, ⟨80, port⟩⟩]

/-- A check of the data of a run. -/
theorem run_checked {events : List Event} {check : UserData → Bool}
    (checked : ((initial 0).run events).toOption.any (fun plugin => plugin.user.any check) = true) :
    ∃ plugin user, (initial 0).run events = .ok plugin ∧ plugin.user = some user ∧
      check user = true := by
  obtain ⟨plugin, ended, inner⟩ := (Option.any_eq_true _ _).mp checked
  obtain ⟨user, known, holds⟩ := (Option.any_eq_true _ _).mp inner
  refine ⟨plugin, user, ?_, known, holds⟩
  cases result : (initial 0).run events with
  | error fault =>
    rw [result] at ended
    cases ended
  | ok next =>
    rw [result] at ended
    exact congrArg Except.ok (Option.some.inj ended)

/-- The first two ports share their bucket. -/
theorem run_limited_sample :
    ∃ plugin user, (initial 0).run (limitEvents [1, 2, 3]) = .ok plugin ∧
      plugin.user = some user ∧ user.Limited := by
  obtain ⟨plugin, user, ran, known, -⟩ := @run_checked (limitEvents [1, 2, 3]) (fun _ => true)
    (by decide +kernel)
  exact ⟨plugin, user, ran, known, run_limited (by decide +kernel) ran known⟩

/-- The second port is in the other bucket, and a third key is stored. -/
theorem run_limited_exceeded :
    ∃ plugin user, (initial 0).run (limitEvents [1, 4, 2]) = .ok plugin ∧
      plugin.user = some user ∧ ¬ user.Limited ∧
      ∃ generation ∈ user.generations, ∃ criterion ∈ generation.criteria,
        user.config.maxKeyCount < (criterion.keys user.config).card := by
  obtain ⟨plugin, user, ran, known, above⟩ := @run_checked (limitEvents [1, 4, 2])
    (fun user => user.generations.any fun generation => generation.criteria.any fun criterion =>
      user.config.maxKeyCount < (criterion.keys user.config).card) (by decide +kernel)
  simp only [List.any_eq_true, decide_eq_true_eq] at above
  refine ⟨plugin, user, ran, known, ?_, above⟩
  obtain ⟨generation, member, criterion, inside, large⟩ := above
  intro limited
  have few := (limited.limited generation member criterion inside).few
  omega

end Ucollect.Buckets
