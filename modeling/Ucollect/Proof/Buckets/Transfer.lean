import Ucollect.Proof.Buckets.Conservation

/-
The server reads the counters of a generation where the client has put them.
-/

namespace Ucollect.Buckets
open Library Core List Function

variable {bucketCount hashCount : Nat}

/-- These are the counters of a criterion as lists of time slots. -/
def Criterion.slots (config : Config) (criterion : Criterion) (timeslots : Nat) : SlotCounts :=
  (List.range timeslots).map fun slot => (List.range config.hashCount).map fun number =>
    (List.range config.bucketCount).map fun bucket =>
      criterion.counts (config.index slot number bucket)

/-- These are the numbers of one criterion in the message. -/
def Criterion.numbers (criterion : Criterion) (globalOverflow : Bool) (count : Nat) : List Nat :=
  (if criterion.overflow || globalOverflow then 1 else 0) :: (List.range count).map criterion.counts

variable {config : Config} {master : Master}

/-- The sizes of the tables of a configured plugin, and the widths of its numbers. -/
structure UserData.Typed (user : UserData) : Prop where
  sized : user.config.criteria ≠ [] ∧ 0 < user.config.hashCount ∧ 0 < user.config.bucketCount
  narrow : user.config.Narrow
  version : user.config.configVersion < 2 ^ 32
  widths : ∀ generation ∈ user.generations,
    generation.criteria.length = user.config.criteria.length
  timestamps : ∀ generation ∈ user.generations, generation.timestamp < 2 ^ 64
  counters : ∀ generation ∈ user.generations, ∀ criterion ∈ generation.criteria, ∀ index,
    criterion.counts index < 2 ^ 32

theorem bigEndian_le (data : Bytes) : bigEndian data < 256 ^ data.length := by
  rw [bigEndian]
  induction data using List.reverseRecOn with
  | nil => simp
  | append_singleton data byte ih =>
    rw [foldl_append, foldl_cons, foldl_nil, length_append, length_singleton, pow_succ]
    have small := byte.toNat_lt
    omega

theorem field_le (data : Bytes) (offset size : Nat) : field data offset size < 256 ^ size := by
  apply lt_of_lt_of_le (bigEndian_le _)
  apply Nat.pow_le_pow_right (by decide)
  rw [length_take]
  exact Nat.min_le_left _ _

/-- A generation is an old one or the one that was activated. -/
theorem mem_generationActivate {user : UserData} {generation timestamp now : Nat} :
    ∀ found ∈ (user.generationActivate generation timestamp now).generations,
      found ∈ user.generations ∨ ∃ before ∈ user.generations, found =
        ⟨before.criteria.map (Criterion.reset user.config.countsSize), timestamp, true, true⟩ := by
  intro found member
  obtain ⟨position, inside, rfl⟩ := getElem_of_mem member
  simp only [UserData.generationActivate, getElem_modify] at inside ⊢
  rw [length_modify] at inside
  split
  · exact .inr ⟨_, getElem_mem inside, rfl⟩
  · exact .inl (getElem_mem inside)

variable {user : UserData} {timestamp : Nat}

theorem UserData.generationActivate_typed (typed : user.Typed) (generation now : Nat)
    (small : timestamp < 2 ^ 64) :
    (user.generationActivate generation timestamp now).Typed := by
  have old := @mem_generationActivate user generation timestamp now
  refine { typed with widths := ?widths, timestamps := ?timestamps, counters := ?counters }
  case widths =>
    intro found member
    rcases old found member with kept | ⟨before, known, rfl⟩
    · exact typed.widths found kept
    · rw [length_map]
      exact typed.widths before known
  case timestamps =>
    intro found member
    rcases old found member with kept | ⟨before, known, rfl⟩
    · exact typed.timestamps found kept
    · exact small
  case counters =>
    intro found member criterion inside index
    rcases old found member with kept | ⟨before, known, rfl⟩
    · exact typed.counters found kept criterion inside index
    · obtain ⟨source, listed, rfl⟩ := List.mem_map.mp inside
      rw [Criterion.reset]
      dsimp only
      split
      · decide
      · exact typed.counters before known source listed index

/-- The counters of a criterion are 32 bits wide. -/
def Criterion.Narrow (criterion : Criterion) : Prop := ∀ index, criterion.counts index < 2 ^ 32

theorem Criterion.count_narrow {slot : Nat} {key : Bytes} {criterion : Criterion}
    (narrow : criterion.Narrow) (number : Nat) :
    Concludes Criterion.Narrow (fun _ => True) (criterion.count config slot key number) := by
  rw [count]
  split
  case isFalse => trivial
  case isTrue =>
    intro index
    dsimp only
    by_cases same : index = config.index slot number (config.bucket number key) % sizeModulus
    · subst same
      rw [update_self]
      exact Nat.mod_lt _ (by decide)
    · rw [update_of_ne same]
      exact narrow index

theorem Criterion.take_narrow {slot : Nat} {packet : Layer} {pair : CriterionDef × Criterion}
    (narrow : pair.2.Narrow) :
    Concludes Criterion.Narrow (fun _ => True) (Criterion.take config slot packet pair) := by
  rw [take]
  apply @Concludes.bind _ _ _ (fun _ => True)
  · cases pair.1.extractKey packet with
    | ok key => trivial
    | error fault => trivial
  · intro key _
    cases key with
    | none => exact narrow
    | some key =>
      have counted : Concludes Criterion.Narrow (fun _ => True)
          ((List.range config.hashCount).foldlM (Criterion.count config slot key) { pair.2 with
            packetCount := (pair.2.packetCount + 1) % 2 ^ 32
            seen := pair.2.seen + 1 }) :=
        concludes_foldlM narrow fun criterion kept number _ => count_narrow kept number
      apply Concludes.bind counted
      intro criterion kept
      show (criterion.store config key).Narrow
      rw [store]
      split
      · exact kept
      · exact kept

theorem UserData.Typed.taken (typed : user.Typed) (packet : Layer) :
    Concludes UserData.Typed (fun _ => True) (user.takeAll packet) := by
  rw [takeAll]
  split
  case h_1 => trivial
  case h_2 generation found =>
    have member := mem_of_getElem? found
    have each : ∀ pair ∈ user.config.criteria.zip generation.criteria,
        Concludes (fun next : Criterion => next.Narrow) (fun _ => True)
          (Criterion.take user.config user.biggestTimeslot packet pair) :=
      fun pair inside => Criterion.take_narrow
        (typed.counters generation member pair.2 (of_mem_zip inside).2)
    apply Concludes.bind (concludes_mapM each)
    intro criteria results
    have old : ∀ found ∈ user.generations.set user.currentGeneration
        { generation with criteria := criteria }, found ∈ user.generations ∨
          found = { generation with criteria := criteria } :=
      fun found inside => mem_or_eq_of_mem_set inside
    refine { typed with widths := ?widths, timestamps := ?timestamps, counters := ?counters }
    case widths =>
      intro found inside
      rcases old found inside with kept | rfl
      · exact typed.widths found kept
      · have same := results.length_eq
        rw [length_zip, typed.widths generation member, Nat.min_self] at same
        exact same.symm
    case timestamps =>
      intro found inside
      rcases old found inside with kept | rfl
      · exact typed.timestamps found kept
      · exact typed.timestamps generation member
    case counters =>
      intro found inside criterion listed index
      rcases old found inside with kept | rfl
      · exact typed.counters found kept criterion listed index
      · obtain ⟨pair, -, narrow⟩ := forall₂_right results listed
        exact narrow index

theorem UserData.Typed.packet (typed : user.Typed) (layers : List Layer) (now : Nat) :
    Concludes UserData.Typed (fun _ => True) (user.packet layers now) := by
  rw [UserData.packet]
  split
  case h_1 => exact typed
  case h_2 inner _ =>
    split
    case isTrue => exact typed
    case isFalse =>
      split
      case isTrue => trivial
      case isFalse =>
        have moved : ∀ later, ({ user with biggestTimeslot := later } : UserData).Typed :=
          fun _ => ⟨typed.sized, typed.narrow, typed.version, typed.widths, typed.timestamps,
            typed.counters⟩
        dsimp only
        split
        case isTrue => exact moved _
        case isFalse => exact (moved _).taken inner

theorem readConfig_version {data : Bytes} (accepted : readConfig data = .ok config) :
    config.configVersion < 2 ^ 32 := by
  simp only [readConfig, bind, Except.bind, pure, Except.pure] at accepted
  split at accepted
  · cases accepted
  · split at accepted
    · cases accepted
    · split at accepted
      · cases accepted
      · split at accepted
        · cases accepted
        · cases accepted
          exact field_le data 32 4

theorem Config.start_typed {now : Nat} {memory : Nat → Nat} (narrow : config.Narrow)
    (version : config.configVersion < 2 ^ 32) (small : timestamp < 2 ^ 64)
    (started : config.start timestamp now memory = .ok user) :
    user.Typed := by
  rw [Config.start] at started
  split at started
  case isTrue => cases started
  case isFalse sized =>
    cases started
    push Not at sized
    apply UserData.generationActivate_typed _ _ _ small
    constructor
    case sized => exact ⟨sized.1, Nat.pos_of_ne_zero sized.2.1, Nat.pos_of_ne_zero sized.2.2⟩
    case narrow => exact narrow
    case version => exact version
    case widths =>
      intro generation member
      rw [eq_of_mem_replicate member, newGeneration, length_replicate]
    case timestamps =>
      intro generation member
      rw [eq_of_mem_replicate member, newGeneration]
      exact Nat.two_pow_pos 64
    case counters =>
      intro generation member criterion inside index
      rw [eq_of_mem_replicate member, newGeneration] at inside
      rw [eq_of_mem_replicate inside]
      exact Nat.mod_lt _ (Nat.two_pow_pos 32)

theorem configure_typed {before after : Option UserData} {data : Bytes} {now : Nat}
    {memory : Nat → Nat} (typed : ∀ user, before = some user → user.Typed)
    (configured : configure before data now memory = .ok after) :
    ∀ user, after = some user → user.Typed := by
  intro user holds
  rcases configure_cases configured with ⟨rfl⟩ | rfl | ⟨config, read, fresh, started, rfl⟩
  · exact typed user holds
  · cases holds
  · cases holds
    exact config.start_typed (readConfig_narrow read) (readConfig_version read) (field_le data 8 8)
      started

theorem Moves.typed {plugin : Plugin} (typed : ∀ user, plugin.user = some user → user.Typed)
    {after : Option UserData} (moves : Moves plugin after) :
    ∀ user, after = some user → user.Typed := by
  intro user holds
  cases moves with
  | stays => exact typed user holds
  | connects =>
    obtain ⟨before, there, rfl⟩ := Option.map_eq_some_iff.mp holds
    have stands := typed before there
    refine ⟨stands.sized, stands.narrow, stands.version, ?_, ?_, ?_⟩
    all_goals
      intro generation member
      obtain ⟨old, known, rfl⟩ := List.mem_map.mp member
    · exact stands.widths old known
    · exact stands.timestamps old known
    · exact stands.counters old known
  | configures configured => exact configure_typed typed configured user holds
  | provides known provided =>
    cases holds
    obtain ⟨generation, -, -, rfl⟩ := provideGeneration_cases provided
    have stands := typed _ known
    apply UserData.generationActivate_typed _ _ _ (field_le _ 0 8)
    exact ⟨stands.sized, stands.narrow, stands.version, stands.widths, stands.timestamps,
      stands.counters⟩
  | counts known counted =>
    cases holds
    exact ((typed _ known).packet _ plugin.now).value counted

theorem Plugin.run_typed {now : Nat} {events : List Event} {next : Plugin}
    (ran : (initial now).run events = .ok next) (known : next.user = some user) : user.Typed := by
  apply run_keeps (fun plugin typed after moves => Moves.typed typed moves) _ ran user known
  intro user impossible
  cases impossible

/-- The server has got the counters of the generation: in an empty group, each bucket of each hash
has the counters of its time slots. -/
def Received (user : UserData) (generation : Generation) (master : Master) (decoded : Decoded) :
    Prop :=
  decoded.timestamp = generation.timestamp ∧ decoded.left = [] ∧
    decoded.merges.length = generation.criteria.length ∧
    ∀ (position : Nat) (definition : CriterionDef) (criterion : Criterion),
      user.config.criteria[position]? = some definition →
      generation.criteria[position]? = some criterion →
        ∃ toMerge result, decoded.merges[position]? = some (definition.name, toMerge) ∧
          groupMerge master.hashCount master.bucketCount
            (emptyData master.hashCount master.bucketCount) toMerge = some result ∧
          (master.lowerTime ≤ decoded.timestamp → decoded.timestamp < master.upperTime →
            master.gathering = true → master.merge decoded.timestamp
              [emptyData master.hashCount master.bucketCount] toMerge = some [result]) ∧
          ∀ number < user.config.hashCount, ∀ bucket < user.config.bucketCount,
            cell result number bucket = some ((List.range (user.biggestTimeslot + 1)).map fun slot =>
              criterion.counts (user.config.index slot number bucket))

/-- A configuration with two criteria, two hashes, three buckets and four time slots. -/
def twinConfig : Bytes :=
  word64 872945724987 ++ word64 1500000000 ++ word32 3 ++ word32 2 ++ word32 2 ++ word32 1 ++
    word32 1 ++ word32 100 ++ word32 4 ++ word32 1000 ++ [letter 'P', letter 'I']

/-- Packets come in the first and in the third time slot. -/
def twinEvents : List Event :=
  [.message (letter 'C' :: twinConfig) fun _ => 0, .packet [samplePacket], .tick 2500,
    .packet [{ samplePacket with ports := ⟨80, 8080⟩ }], .packet [samplePacket]]

end Ucollect.Buckets
