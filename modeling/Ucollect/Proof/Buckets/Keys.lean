import Ucollect.Proof.Buckets.Transfer

/-
A request for keys is answered with the stored keys in the wanted buckets, each of them once.
-/

namespace Ucollect.Buckets
open Library Core List Function

variable {config : Config} {user : UserData} {plugin : Plugin} {key : Bytes}

variable {definition : CriterionDef}

theorem extractKey_length (known : definition ∈ criteria) {packet : Layer}
    (extracted : definition.extractKey packet = .ok (some key)) :
    key.length = definition.keySize := by
  have copied : ∀ key, copyIp packet = .ok (some key) → key.length = addrSize := by
    intro key copied
    rw [copyIp] at copied
    split at copied
    · cases copied
    · split at copied
      · cases copied
      · rename_i short
        cases copied
        rw [length_cons, length_append, length_replicate]
        rw [addrSize] at short ⊢
        omega
  have port : ∀ port key, copyPort port = some key → key.length = portSize := by
    intro port key copied
    cases port with
    | none => cases copied
    | some number =>
      rw [copyPort] at copied
      split at copied
      · cases copied
      · cases copied
        rfl
  have ported : ∀ key, extractPort packet = .ok (some key) → key.length = portSize := by
    intro key extracted
    exact port _ key (Except.ok.inj extracted)
  have paired : ∀ number key, extractPortAddr packet number = .ok (some key) →
      key.length = portSize + addrSize := by
    intro number key extracted
    rw [extractPortAddr] at extracted
    split at extracted
    · cases extracted
    · rename_i first copiedPort
      cases copy : copyIp packet with
      | error fault =>
        rw [copy] at extracted
        cases extracted
      | ok address =>
        rw [copy] at extracted
        obtain ⟨second, copiedAddress, rfl⟩ := Option.map_eq_some_iff.mp (Except.ok.inj extracted)
        rw [length_append, port _ _ copiedPort, copied second (by rw [copy, copiedAddress])]
  have left : ∀ extract size, (∀ key, extract packet = .ok (some key) → key.length = size) →
      ∀ key, outgoing extract packet = .ok (some key) → key.length = size := by
    intro extract size inner key extracted
    rw [outgoing] at extracted
    split at extracted
    · cases extracted
    · split at extracted
      · exact inner key extracted
      · cases extracted
  fin_cases known
  · exact copied _ extracted
  · exact ported _ extracted
  · exact paired _ _ extracted
  · exact paired _ _ extracted
  · exact left _ _ copied _ extracted
  · exact left _ _ ported _ extracted
  · exact left _ _ (paired _) _ extracted
  · exact left _ _ (paired _) _ extracted

/-- A key is in the trie of its first hash. -/
def Criterion.Filed (config : Config) (definition : CriterionDef) (criterion : Criterion) : Prop :=
  ∀ bucket, (criterion.trie bucket).Nodup ∧
    ∀ key ∈ criterion.trie bucket, config.bucket 0 key = bucket ∧ key.length = definition.keySize

variable {candidates : List Bytes}

theorem addNew_nodup (distinct : candidates.Nodup) (key : Bytes) :
    (addNew candidates key).Nodup := by
  rw [addNew]
  split
  case isTrue => exact distinct
  case isFalse absent =>
    rw [nodup_append]
    refine ⟨distinct, nodup_singleton _, ?_⟩
    intro first member second single same
    rw [mem_singleton.mp single] at same
    exact absent (same ▸ member)

theorem mem_addNew {other : Bytes} :
    other ∈ addNew candidates key ↔ other ∈ candidates ∨ other = key := by
  rw [addNew]
  split
  case isTrue present =>
    constructor
    · exact .inl
    · rintro (old | rfl)
      · exact old
      · exact present
  case isFalse => rw [mem_append, mem_singleton]

theorem addAll_nodup {keys candidates : List Bytes} (distinct : candidates.Nodup) :
    (keys.foldl addNew candidates).Nodup := by
  induction keys generalizing candidates with
  | nil => exact distinct
  | cons key keys ih => exact ih (addNew_nodup distinct key)

theorem mem_addAll {keys : List Bytes} :
    key ∈ keys.foldl addNew candidates ↔ key ∈ candidates ∨ key ∈ keys := by
  induction keys generalizing candidates with
  | nil => simp
  | cons first keys ih => rw [foldl_cons, ih, mem_addNew, mem_cons, or_assoc]

variable {criterion : Criterion}

theorem Criterion.store_filed (filed : criterion.Filed config definition)
    (size : key.length = definition.keySize) :
    (criterion.store config key).Filed config definition := by
  rw [store]
  split
  case isTrue => exact filed
  case isFalse =>
    intro bucket
    dsimp only
    by_cases same : bucket = config.bucket 0 key
    · subst same
      rw [update_self]
      refine ⟨addNew_nodup (filed _).1 key, ?_⟩
      intro other member
      rcases mem_addNew.mp member with old | rfl
      · exact (filed _).2 other old
      · exact ⟨rfl, size⟩
    · rw [update_of_ne same]
      exact filed bucket

theorem Criterion.count_trie {slot number : Nat} {next : Criterion}
    (counted : criterion.count config slot key number = .ok next) : next.trie = criterion.trie := by
  rw [count] at counted
  split at counted
  · cases counted
    rfl
  · cases counted

theorem Criterion.take_filed {slot : Nat} {packet : Layer} (known : definition ∈ criteria)
    (filed : criterion.Filed config definition) :
    Concludes (fun next : Criterion => next.Filed config definition) (fun _ => True)
      (Criterion.take config slot packet (definition, criterion)) := by
  rw [take]
  cases extracted : definition.extractKey packet with
  | error fault => trivial
  | ok key =>
    cases key with
    | none => exact filed
    | some key =>
      have counted : Concludes (fun next : Criterion => next.Filed config definition)
          (fun _ => True) ((List.range config.hashCount).foldlM (Criterion.count config slot key)
            { criterion with
              packetCount := (criterion.packetCount + 1) % 2 ^ 32
              seen := criterion.seen + 1 }) := by
        apply concludes_foldlM
        · exact filed
        · intro before kept number _
          cases counts : before.count config slot key number with
          | error fault => trivial
          | ok next =>
            show next.Filed config definition
            rw [Criterion.Filed, count_trie counts]
            exact kept
      apply Concludes.bind counted
      intro next kept
      exact store_filed kept (extractKey_length known extracted)

/-- The keys of every generation are in their tries. A generation without tries has no timestamp and
is not active. -/
structure UserData.Filed (user : UserData) : Prop where
  known : ∀ definition ∈ user.config.criteria, definition ∈ criteria
  fresh : ∀ generation ∈ user.generations, generation.filled = false →
    generation.timestamp = 0 ∧ generation.active = false
  filed : ∀ generation ∈ user.generations, List.Forall₂
    (fun definition criterion => Criterion.Filed user.config definition criterion)
    user.config.criteria generation.criteria

theorem forall₂_map_right {A B C : Type} {relation : A → B → Prop} {other : A → C → Prop}
    {change : B → C} (moves : ∀ first second, relation first second → other first (change second))
    {items : List A} {results : List B} (related : List.Forall₂ relation items results) :
    List.Forall₂ other items (results.map change) := by
  induction related with
  | nil => exact .nil
  | cons holds _ ih => exact .cons (moves _ _ holds) ih

theorem UserData.generationActivate_filed (filed : user.Filed) (generation timestamp now : Nat) :
    (user.generationActivate generation timestamp now).Filed := by
  have old := @mem_generationActivate user generation timestamp now
  constructor
  case known => exact filed.known
  case fresh =>
    intro found member empty
    rcases old found member with kept | ⟨before, -, rfl⟩
    · exact filed.fresh found kept empty
    · cases empty
  case filed =>
    intro found member
    rcases old found member with kept | ⟨before, there, rfl⟩
    · exact filed.filed found kept
    · apply forall₂_map_right _ (filed.filed before there)
      intro definition criterion _ bucket
      exact ⟨nodup_nil, fun key member => absurd member not_mem_nil⟩

theorem forall₂_zip {A B C : Type} {first : A → B → Prop} {second : A × B → C → Prop}
    {third : A → C → Prop} {items : List A} {values : List B} {results : List C}
    (related : List.Forall₂ first items values)
    (computed : List.Forall₂ second (items.zip values) results)
    (moves : ∀ item value result, second (item, value) result → third item result) :
    List.Forall₂ third items results := by
  induction related generalizing results with
  | nil =>
    cases computed
    exact .nil
  | cons _ _ ih =>
    rw [zip_cons_cons] at computed
    cases computed with
    | cons holds rest => exact .cons (moves _ _ _ holds) (ih rest)

theorem UserData.Filed.taken (filed : user.Filed) (packet : Layer) :
    Concludes UserData.Filed (fun _ => True) (user.takeAll packet) := by
  rw [takeAll]
  split
  case h_1 => trivial
  case h_2 generation found =>
    have member := mem_of_getElem? found
    have each : ∀ pair ∈ user.config.criteria.zip generation.criteria,
        Concludes (fun next : Criterion => next.Filed user.config pair.1) (fun _ => True)
          (Criterion.take user.config user.biggestTimeslot packet pair) := by
      rintro ⟨definition, criterion⟩ inside
      have stored := List.forall₂_zip (filed.filed generation member) inside
      exact Criterion.take_filed (filed.known definition (of_mem_zip inside).1) stored
    apply Concludes.bind (concludes_mapM each)
    intro criteria results
    have old : ∀ found ∈ user.generations.set user.currentGeneration
        { generation with criteria := criteria }, found ∈ user.generations ∨
          found = { generation with criteria := criteria } :=
      fun found inside => mem_or_eq_of_mem_set inside
    constructor
    case known => exact filed.known
    case fresh =>
      intro found inside empty
      rcases old found inside with kept | rfl
      · exact filed.fresh found kept empty
      · exact filed.fresh generation member empty
    case filed =>
      intro found inside
      rcases old found inside with kept | rfl
      · exact filed.filed found kept
      · exact forall₂_zip (filed.filed generation member) results fun _ _ _ holds => holds

theorem UserData.Filed.packet (filed : user.Filed) (layers : List Layer) (now : Nat) :
    Concludes UserData.Filed (fun _ => True) (user.packet layers now) := by
  rw [UserData.packet]
  split
  case h_1 => exact filed
  case h_2 inner _ =>
    split
    case isTrue => exact filed
    case isFalse =>
      split
      case isTrue => trivial
      case isFalse =>
        have moved : ∀ later, ({ user with biggestTimeslot := later } : UserData).Filed :=
          fun _ => ⟨filed.known, filed.fresh, filed.filed⟩
        dsimp only
        split
        case isTrue => exact moved _
        case isFalse => exact (moved _).taken inner

theorem forall₂_replicate {A B : Type} {relation : A → B → Prop} {value : B}
    (holds : ∀ item, relation item value) (items : List A) :
    List.Forall₂ relation items (List.replicate items.length value) := by
  induction items with
  | nil => exact .nil
  | cons item items ih => exact .cons (holds item) ih

theorem Config.start_filed {timestamp now : Nat} {memory : Nat → Nat}
    (known : ∀ definition ∈ config.criteria, definition ∈ Buckets.criteria)
    (started : config.start timestamp now memory = .ok user) : user.Filed := by
  rw [Config.start] at started
  split at started
  case isTrue => cases started
  case isFalse =>
    cases started
    apply UserData.generationActivate_filed
    constructor
    case known => exact known
    case fresh =>
      intro generation member _
      rw [eq_of_mem_replicate member]
      exact ⟨rfl, rfl⟩
    case filed =>
      intro generation member
      rw [eq_of_mem_replicate member]
      apply forall₂_replicate
      intro definition bucket
      exact ⟨nodup_nil, fun key member => absurd member not_mem_nil⟩

theorem Moves.filed (filed : ∀ user, plugin.user = some user → user.Filed)
    {after : Option UserData} (moves : Moves plugin after) :
    ∀ user, after = some user → user.Filed := by
  intro user holds
  cases moves with
  | stays => exact filed user holds
  | connects =>
    obtain ⟨before, there, rfl⟩ := Option.map_eq_some_iff.mp holds
    have stands := filed before there
    constructor
    case known => exact stands.known
    case fresh =>
      intro generation member empty
      obtain ⟨old, listed, rfl⟩ := List.mem_map.mp member
      exact ⟨(stands.fresh old listed empty).1, rfl⟩
    case filed =>
      intro generation member
      obtain ⟨old, listed, rfl⟩ := List.mem_map.mp member
      exact stands.filed old listed
  | configures configured =>
    rcases configure_cases configured with rfl | rfl | ⟨config, read, fresh, started, rfl⟩
    · exact filed user holds
    · cases holds
    · cases holds
      exact config.start_filed (readConfig_known read) started
  | provides known provided =>
    cases holds
    obtain ⟨generation, -, -, rfl⟩ := provideGeneration_cases provided
    have stands := filed _ known
    apply UserData.generationActivate_filed
    exact ⟨stands.known, stands.fresh, stands.filed⟩
  | counts known counted =>
    cases holds
    exact ((filed _ known).packet _ plugin.now).value counted

theorem Plugin.run_filed {now : Nat} {events : List Event} {next : Plugin}
    (ran : (initial now).run events = .ok next) {user : UserData}
    (known : next.user = some user) : user.Filed := by
  apply run_keeps (fun plugin filed after moves => Moves.filed filed moves) _ ran user known
  intro user impossible
  cases impossible

/-- This is a request for the keys of one criterion, with a group of indices for each hash. -/
structure KeyRequest where
  timestamp : Nat
  reqId : Bytes
  criterion : Nat
  groups : List (List Nat)

def KeyRequest.indices (request : KeyRequest) : List Nat :=
  request.groups.flatMap fun group => group.length :: group

def KeyRequest.encode (request : KeyRequest) : Bytes :=
  word64 request.timestamp ++ (request.reqId ++ (word32 request.criterion ++
    request.indices.flatMap word32))

/-- The numbers fit into the message, the first group consists of buckets, and no group repeats an
index. -/
structure KeyRequest.WellFormed (request : KeyRequest) (config : Config) : Prop where
  time : request.timestamp < 2 ^ 64
  reqId : request.reqId.length = 4
  criterion : request.criterion < config.criteria.length
  narrow : request.criterion < 2 ^ 32
  hashes : request.groups.length = config.hashCount
  sizes : ∀ index ∈ request.indices, index < 2 ^ 32
  buckets : ∀ group, request.groups.head? = some group → ∀ index ∈ group, index < config.bucketCount
  distinct : ∀ group ∈ request.groups, group.Nodup

/-- Each hash of the key is in the group of that hash. -/
def KeyRequest.Selects (request : KeyRequest) (config : Config) (key : Bytes) : Prop :=
  ∀ number group, request.groups[number]? = some group → config.bucket number key ∈ group

def Generation.Stores (generation : Generation) (number : Nat) (key : Bytes) : Prop :=
  ∃ criterion bucket, generation.criteria[number]? = some criterion ∧ key ∈ criterion.trie bucket

/-- A zero asks for every active generation but the current one. -/
def UserData.Asked (user : UserData) (timestamp : Nat) (generation : Generation) : Prop :=
  if timestamp = 0 then
    ∃ position, user.generations[position]? = some generation ∧ generation.active = true ∧
      position ≠ user.currentGeneration
  else user.generations.find? (fun found => found.timestamp = timestamp) = some generation

/-- The answer says that the generation is missing, or it lists each of the wanted keys once. -/
inductive UserData.Answers (user : UserData) (request : KeyRequest) : Bytes → Prop
  | missing (timed : request.timestamp ≠ 0)
      (unknown : ∀ generation, ¬ user.Asked request.timestamp generation) :
      Answers user request (letter 'M' :: request.reqId)
  | lists (keys : List Bytes) (definition : CriterionDef)
      (known : request.timestamp = 0 ∨ ∃ generation, user.Asked request.timestamp generation)
      (defined : user.config.criteria[request.criterion]? = some definition)
      (sizes : ∀ key ∈ keys, key.length = definition.keySize)
      (once : keys.Nodup)
      (wanted : ∀ key, key ∈ keys ↔ request.Selects user.config key ∧
        ∃ generation, user.Asked request.timestamp generation ∧
          generation.Stores request.criterion key) :
      Answers user request (letter 'K' :: (request.reqId ++ keys.flatten))

variable {generation : Generation}

theorem walkTries_filled (filled : generation.filled = true) (criterion : Criterion)
    {indices : List Nat} (bounds : ∀ index ∈ indices, index < config.bucketCount) :
    walkTries config generation criterion indices = .ok (indices.flatMap criterion.trie) := by
  induction indices with
  | nil => rfl
  | cons index indices ih =>
    have inside := bounds index mem_cons_self
    rw [walkTries, if_neg (by omega), filled, if_neg (by decide),
      ih fun other member => bounds other (mem_cons_of_mem _ member)]
    rfl

theorem filterKeys_groups {numbers : List Nat} {groups : List (List Nat)}
    (length : numbers.length = groups.length) (candidates : List Bytes) :
    filterKeys config numbers (groups.flatMap fun group => group.length :: group) candidates =
      .ok ([], candidates.filter fun key =>
        ∀ pair ∈ numbers.zip groups, config.bucket pair.1 key ∈ pair.2) := by
  induction numbers generalizing groups candidates with
  | nil =>
    obtain rfl := eq_nil_of_length_eq_zero length.symm
    simp [filterKeys]
  | cons number numbers ih =>
    cases groups with
    | nil => cases length
    | cons group groups =>
      have enough : ¬ (group ++ groups.flatMap fun group => group.length :: group).length <
          group.length := by
        rw [length_append]
        omega
      rw [flatMap_cons, cons_append, filterKeys, if_neg enough, take_left' rfl, drop_left' rfl,
        ih (Nat.succ.inj length), List.filter_filter]
      congr 2
      apply filter_congr
      intro key _
      rw [← Bool.decide_and, decide_eq_decide, zip_cons_cons, forall_mem_cons, and_comm]

theorem Criterion.Filed.walked (filed : criterion.Filed config definition) {indices : List Nat}
    (distinct : indices.Nodup) :
    (indices.flatMap criterion.trie).Nodup := by
  rw [nodup_flatMap]
  refine ⟨fun index _ => (filed index).1, ?_⟩
  apply distinct.imp
  intro first second different key inFirst inSecond
  exact different (((filed first).2 key inFirst).1.symm.trans ((filed second).2 key inSecond).1)

variable {request : KeyRequest}

/-- The other groups belong to the hashes behind the first one. -/
theorem selects_cons {first : List Nat} {others : List (List Nat)}
    (split : request.groups = first :: others) :
    request.Selects config key ↔ config.bucket 0 key ∈ first ∧
      ∀ pair ∈ ((List.range (others.length + 1)).drop 1).zip others,
        config.bucket pair.1 key ∈ pair.2 := by
  have shifted : (List.range (others.length + 1)).drop 1 = (List.range others.length).map (· + 1) := by
    rw [range_succ_eq_map]
    rfl
  rw [KeyRequest.Selects, split, shifted]
  constructor
  · intro selects
    refine ⟨selects 0 first rfl, ?_⟩
    intro pair member
    obtain ⟨position, found⟩ := mem_iff_getElem?.mp member
    obtain ⟨ranged, listed⟩ := List.getElem?_zip_eq_some.mp found
    rw [List.getElem?_map] at ranged
    obtain ⟨index, inRange, equal⟩ := Option.map_eq_some_iff.mp ranged
    obtain ⟨inside, rfl⟩ := List.getElem?_eq_some_iff.mp inRange
    rw [getElem_range] at equal
    rw [← equal]
    exact selects (position + 1) pair.2 listed
  · rintro ⟨inFirst, inOthers⟩ number group found
    cases number with
    | zero =>
      cases found
      exact inFirst
    | succ number =>
      rw [List.getElem?_cons_succ] at found
      have inside := (List.getElem?_eq_some_iff.mp found).1
      apply inOthers (number + 1, group)
      apply mem_of_getElem?
      rw [List.getElem?_zip_eq_some]
      refine ⟨?_, found⟩
      rw [List.getElem?_map, List.getElem?_range inside]
      rfl

/-- A generation with tries gives its wanted keys. -/
theorem scanKeys_selected (filled : generation.filled = true) (formed : request.WellFormed config)
    (hashes : 0 < config.hashCount)
    (filed : List.Forall₂ (fun definition criterion => Criterion.Filed config definition criterion)
      config.criteria generation.criteria) :
    ∃ keys, scanKeys config generation request.criterion request.indices = .ok keys ∧ keys.Nodup ∧
      ∀ key, key ∈ keys ↔ request.Selects config key ∧
        generation.Stores request.criterion key := by
  have width := filed.length_eq
  have inside := formed.criterion
  obtain ⟨first, others, split⟩ : ∃ first others, request.groups = first :: others := by
    cases split : request.groups with
    | nil =>
      have none := formed.hashes
      rw [split, length_nil] at none
      omega
    | cons first others => exact ⟨first, others, rfl⟩
  have member : first ∈ request.groups := by
    rw [split]
    exact mem_cons_self
  have count : config.hashCount = others.length + 1 := by
    rw [← formed.hashes, split, length_cons]
  obtain ⟨criterion, listed⟩ : ∃ criterion, generation.criteria[request.criterion]? =
      some criterion := ⟨_, List.getElem?_eq_getElem (width ▸ inside)⟩
  obtain ⟨definition, -, stored⟩ := forall₂_right filed (mem_of_getElem? listed)
  have enough : ¬ (first ++ others.flatMap fun group => group.length :: group).length <
      first.length := by
    rw [length_append]
    omega
  have ranged : ((List.range config.hashCount).drop 1).length = others.length := by
    rw [length_drop, length_range, count, Nat.add_sub_cancel]
  have scanned : scanKeys config generation request.criterion request.indices =
      .ok ((first.flatMap criterion.trie).filter fun key =>
        ∀ pair ∈ ((List.range config.hashCount).drop 1).zip others,
          config.bucket pair.1 key ∈ pair.2) := by
    rw [KeyRequest.indices, split, flatMap_cons, cons_append, scanKeys, if_neg enough, listed,
      take_left' rfl, drop_left' rfl]
    dsimp only
    rw [walkTries_filled filled criterion (formed.buckets first (by rw [split]; rfl))]
    simp only [bind, Except.bind]
    rw [filterKeys_groups ranged]
    exact if_pos rfl
  refine ⟨_, scanned, ?_, ?_⟩
  · exact (stored.walked (formed.distinct first member)).filter _
  · intro key
    rw [mem_filter, decide_eq_true_iff, mem_flatMap, count, selects_cons split]
    constructor
    · rintro ⟨⟨index, wanted, inTrie⟩, others⟩
      refine ⟨⟨?_, others⟩, criterion, index, listed, inTrie⟩
      rw [((stored index).2 key inTrie).1]
      exact wanted
    · rintro ⟨⟨wanted, others⟩, found, bucket, same, inTrie⟩
      cases listed.symm.trans same
      refine ⟨⟨config.bucket 0 key, wanted, ?_⟩, others⟩
      rw [((stored bucket).2 key inTrie).1]
      exact inTrie

/-- The keys of the generations are put together, each of them once. -/
theorem scanAll_union {number : Nat} {indices : List Nat} {wanted : Generation → Bytes → Prop}
    {generations : List (Generation × Nat)}
    (each : ∀ pair ∈ generations, pair.1.active = true → ∃ keys,
      scanKeys user.config pair.1 number indices = .ok keys ∧ ∀ key, key ∈ keys ↔ wanted pair.1 key)
    {candidates : List Bytes} (distinct : candidates.Nodup) :
    ∃ keys, scanAll user number indices generations candidates = .ok keys ∧ keys.Nodup ∧
      ∀ key, key ∈ keys ↔ key ∈ candidates ∨ ∃ pair ∈ generations, pair.1.active = true ∧
        pair.2 ≠ user.currentGeneration ∧ wanted pair.1 key := by
  induction generations generalizing candidates with
  | nil =>
    refine ⟨candidates, rfl, distinct, ?_⟩
    intro key
    simp
  | cons pair generations ih =>
    obtain ⟨generation, position⟩ := pair
    have later := fun pair member => each pair (mem_cons_of_mem _ member)
    rw [scanAll]
    split
    case isTrue active =>
      rw [Bool.and_eq_true, decide_eq_true_iff] at active
      obtain ⟨found, scanned, selected⟩ := each (generation, position) mem_cons_self active.1
      obtain ⟨keys, rest, once, listed⟩ :=
        ih later (@addAll_nodup found candidates distinct)
      refine ⟨keys, ?_, once, ?_⟩
      · rw [scanned]
        exact rest
      · intro key
        rw [listed, mem_addAll, selected, exists_mem_cons_iff, or_assoc]
        simp only [active.1, true_and]
        simp only [ne_eq, active.2, not_false_eq_true, true_and]
    case isFalse passive =>
      obtain ⟨keys, rest, once, listed⟩ := ih later distinct
      refine ⟨keys, rest, once, ?_⟩
      intro key
      rw [listed, exists_mem_cons_iff]
      have skipped : ¬ (generation.active = true ∧ position ≠ user.currentGeneration ∧
          wanted generation key) := by
        rintro ⟨active, other, -⟩
        rw [Bool.and_eq_true, decide_eq_true_iff] at passive
        exact passive ⟨active, other⟩
      simp only [skipped, false_or]

/-- The request is read as it was written. -/
theorem provideKeys_encode (formed : request.WellFormed user.config) :
    provideKeys user request.encode =
      if request.timestamp ≠ 0 then
        match user.generations.find? fun generation => generation.timestamp = request.timestamp with
        | none => .ok (letter 'M' :: request.reqId)
        | some generation =>
          (scanKeys user.config generation request.criterion request.indices).map fun keys =>
            letter 'K' :: (request.reqId ++ keys.flatten)
      else
        (scanAll user request.criterion request.indices user.generations.zipIdx []).map fun keys =>
          letter 'K' :: (request.reqId ++ keys.flatten) := by
  have sizeTime : (word64 request.timestamp).length = 8 := rfl
  have sizeNumber : (word32 request.criterion).length = 4 := rfl
  have length : request.encode.length = keyRequestSize + 4 * request.indices.length := by
    rw [KeyRequest.encode, length_append, length_append, length_append, length_flatMap_word32,
      sizeTime, formed.reqId, sizeNumber, keyRequestSize]
    omega
  have words := readWords32_append formed.sizes []
  rw [append_nil] at words
  have time : field request.encode 0 8 = request.timestamp := by
    rw [field, drop_zero, KeyRequest.encode, take_left' sizeTime, bigEndian_word64 formed.time]
  have second : request.encode.drop 8 = request.reqId ++ (word32 request.criterion ++
      request.indices.flatMap word32) := drop_left' sizeTime
  have third : request.encode.drop 12 = word32 request.criterion ++
      request.indices.flatMap word32 := by
    have later := congrArg (List.drop 4) second
    rwa [drop_drop, drop_left' formed.reqId] at later
  have fourth : request.encode.drop keyRequestSize = request.indices.flatMap word32 := by
    have later := congrArg (List.drop 4) third
    rwa [drop_drop, drop_left' sizeNumber] at later
  have number : field request.encode 12 4 = request.criterion := by
    rw [field, third, take_left' sizeNumber, bigEndian_word32 formed.narrow]
  have count : (request.encode.length - keyRequestSize) / 4 = request.indices.length := by
    rw [length]
    omega
  have whole : ¬ request.encode.length % 4 ≠ 0 := by
    rw [length, keyRequestSize]
    omega
  rw [provideKeys, if_neg whole, if_neg (by rw [length]; omega)]
  have inside := formed.criterion
  simp only [count, fourth, words, number, time, second, take_left' formed.reqId]
  rw [if_neg (by omega)] <;> rfl

/-- A known generation that was asked for has its tries. -/
theorem UserData.Filed.selected (filed : user.Filed) (typed : user.Typed)
    (formed : request.WellFormed user.config) (member : generation ∈ user.generations)
    (used : generation.timestamp ≠ 0 ∨ generation.active = true) :
    ∃ keys, scanKeys user.config generation request.criterion request.indices = .ok keys ∧
      keys.Nodup ∧ ∀ key, key ∈ keys ↔ request.Selects user.config key ∧
        generation.Stores request.criterion key := by
  have filled : generation.filled = true := by
    by_contra empty
    obtain ⟨zero, passive⟩ := filed.fresh generation member (Bool.eq_false_iff.mpr empty)
    rcases used with timed | active
    · exact timed zero
    · rw [passive] at active
      cases active
  exact scanKeys_selected filled formed typed.sized.2.1 (filed.filed generation member)

/-- A stored key has the size of its criterion. -/
theorem UserData.Filed.stored_length (filed : user.Filed) {number : Nat}
    (member : generation ∈ user.generations) (stores : generation.Stores number key)
    (defined : user.config.criteria[number]? = some definition) :
    key.length = definition.keySize := by
  obtain ⟨criterion, bucket, listed, inTrie⟩ := stores
  have paired : (definition, criterion) ∈ user.config.criteria.zip generation.criteria := by
    apply mem_of_getElem?
    rw [List.getElem?_zip_eq_some]
    exact ⟨defined, listed⟩
  exact ((List.forall₂_zip (filed.filed generation member) paired bucket).2 key inTrie).2

theorem UserData.Asked.member {timestamp : Nat} (asked : user.Asked timestamp generation) :
    generation ∈ user.generations := by
  rw [Asked] at asked
  split at asked
  case isTrue =>
    obtain ⟨position, place, -⟩ := asked
    exact mem_of_getElem? place
  case isFalse => exact mem_of_find?_eq_some asked

theorem provideKeys_answers (filed : user.Filed) (typed : user.Typed)
    (formed : request.WellFormed user.config) :
    ∃ message, provideKeys user request.encode = .ok message ∧ user.Answers request message := by
  obtain ⟨definition, defined⟩ : ∃ definition, user.config.criteria[request.criterion]? =
      some definition := ⟨_, List.getElem?_eq_getElem formed.criterion⟩
  have answers : ∀ keys : List Bytes, keys.Nodup →
      (request.timestamp = 0 ∨ ∃ generation, user.Asked request.timestamp generation) →
      (∀ key, key ∈ keys ↔ request.Selects user.config key ∧
        ∃ generation, user.Asked request.timestamp generation ∧
          generation.Stores request.criterion key) →
      user.Answers request (letter 'K' :: (request.reqId ++ keys.flatten)) := by
    intro keys once known wanted
    apply UserData.Answers.lists keys definition known defined _ once wanted
    intro key member
    obtain ⟨-, generation, asked, stores⟩ := (wanted key).mp member
    exact filed.stored_length asked.member stores defined
  rw [provideKeys_encode formed]
  by_cases zero : request.timestamp = 0
  case pos =>
    have each : ∀ pair ∈ user.generations.zipIdx, pair.1.active = true → ∃ keys,
        scanKeys user.config pair.1 request.criterion request.indices = .ok keys ∧
          ∀ key, key ∈ keys ↔ request.Selects user.config key ∧
            pair.1.Stores request.criterion key := by
      intro pair member active
      have known := fst_mem_of_mem_zipIdx member
      obtain ⟨keys, scanned, -, listed⟩ := filed.selected typed formed known (.inr active)
      exact ⟨keys, scanned, listed⟩
    obtain ⟨keys, scanned, once, listed⟩ := @scanAll_union user _ _
      (fun generation key => request.Selects user.config key ∧
        generation.Stores request.criterion key) _ each _ nodup_nil
    rw [if_neg (not_not_intro zero), scanned]
    refine ⟨_, rfl, answers keys once (.inl zero) ?_⟩
    intro key
    rw [listed]
    simp only [UserData.Asked, if_pos zero, not_mem_nil, false_or]
    constructor
    · rintro ⟨pair, member, active, other, selects, stores⟩
      have place := mem_zipIdx_iff_getElem?.mp member
      exact ⟨selects, pair.1, ⟨pair.2, place, active, other⟩, stores⟩
    · rintro ⟨selects, generation, ⟨position, place, active, other⟩, stores⟩
      exact ⟨(generation, position), mem_zipIdx_iff_getElem?.mpr place, active, other, selects,
        stores⟩
  case neg =>
    have asks : ∀ generation, user.Asked request.timestamp generation ↔
        user.generations.find? (fun found => found.timestamp = request.timestamp) =
          some generation := by
      intro generation
      rw [UserData.Asked, if_neg zero]
    rw [if_pos zero]
    cases found : user.generations.find? fun generation =>
        generation.timestamp = request.timestamp with
    | none =>
      refine ⟨_, rfl, .missing zero ?_⟩
      intro generation asked
      rw [asks, found] at asked
      cases asked
    | some generation =>
      have asked := (asks generation).mpr found
      have timed : generation.timestamp ≠ 0 := by
        have same := List.find?_some found
        rw [decide_eq_true_iff] at same
        rw [same]
        exact zero
      obtain ⟨keys, scanned, once, listed⟩ :=
        filed.selected typed formed asked.member (.inl timed)
      dsimp only
      rw [scanned]
      refine ⟨_, rfl, answers keys once (.inr ⟨generation, asked⟩) ?_⟩
      intro key
      rw [listed]
      constructor
      · rintro ⟨selects, stores⟩
        exact ⟨selects, generation, asked, stores⟩
      · rintro ⟨selects, other, also, stores⟩
        rw [asks, found] at also
        cases also
        exact ⟨selects, stores⟩

/-- In every state a request for keys is answered with the wanted keys, each of them once. -/
theorem keys_answered {now : Nat} {events : List Event} {memory : Nat → Nat}
    {request : KeyRequest} (ran : (initial now).run events = .ok plugin)
    (known : plugin.user = some user) (formed : request.WellFormed user.config) :
    ∃ message, plugin.step (.message (letter 'K' :: request.encode) memory) =
      .ok { plugin with sent := plugin.sent ++ [message] } ∧ user.Answers request message := by
  obtain ⟨message, provided, answers⟩ :=
    provideKeys_answers (Plugin.run_filed ran known) (Plugin.run_typed ran known) formed
  refine ⟨message, ?_, answers⟩
  rw [Plugin.step, Plugin.communicate, if_neg (by decide), known]
  dsimp only
  rw [if_neg (by decide), if_pos rfl, provided]
  rfl

/-- A packet is counted, and then the next generation starts. -/
def portEvents : List Event :=
  [.message (letter 'C' :: portConfig 2 1 4) fun _ => 0, .packet [samplePacket],
    .message (letter 'G' :: word64 1500000060) fun _ => 0]

/-- The server asks for the two buckets of the old generation. -/
theorem keys_answered_port :
    ∃ plugin user, (initial 0).run portEvents = .ok plugin ∧ plugin.user = some user ∧
      ∃ message, plugin.step (.message (letter 'K' ::
          KeyRequest.encode ⟨1500000000, [0, 0, 0, 7], 0, [[0, 1]]⟩) fun _ => 0) =
            .ok { plugin with sent := plugin.sent ++ [message] } ∧
        user.Answers ⟨1500000000, [0, 0, 0, 7], 0, [[0, 1]]⟩ message := by
  obtain ⟨plugin, user, ran, known, shape⟩ := @exists_ran 0 portEvents
    (fun _ user => user.config.criteria.length = 1 ∧ user.config.hashCount = 1 ∧
      user.config.bucketCount = 2) (by decide +kernel)
  obtain ⟨criteria, hashes, buckets⟩ := of_decide_eq_true shape
  refine ⟨plugin, user, ran, known, keys_answered ran known ?_⟩
  constructor
  case time => decide
  case reqId => rfl
  case criterion => exact criteria ▸ Nat.zero_lt_one
  case narrow => decide
  case hashes => exact hashes.symm
  case sizes => decide
  case buckets =>
    rintro group ⟨⟩
    rw [buckets]
    decide
  case distinct => decide

end Ucollect.Buckets
