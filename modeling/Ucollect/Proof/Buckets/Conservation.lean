import Ucollect.Proof.Buckets.Counting

namespace Ucollect.Buckets
open Library Core Finset

variable {config : Config} {user : UserData} {plugin : Plugin} {now : Nat}

/-- The only check in the extraction of a key is the one of the length of the address. -/
theorem extractKey_fault {definition : CriterionDef} (known : definition ∈ criteria)
    {packet : Layer} {fault : Abort} (failed : definition.extractKey packet = .error fault) :
    fault = .addressLength := by
  have copied : ∀ fault, copyIp packet = .error fault → fault = .addressLength := by
    intro fault failed
    rw [copyIp] at failed
    split at failed
    · cases failed
    · split at failed
      · cases failed
        rfl
      · cases failed
  have paired : ∀ port fault, extractPortAddr packet port = .error fault →
      fault = .addressLength := by
    intro port fault failed
    rw [extractPortAddr] at failed
    split at failed
    · cases failed
    · cases copy : copyIp packet with
      | error other =>
        rw [copy] at failed
        cases failed
        exact copied _ copy
      | ok address =>
        rw [copy] at failed
        cases failed
  have left : ∀ extract, (∀ fault, extract packet = .error fault → fault = .addressLength) →
      ∀ fault, outgoing extract packet = .error fault → fault = .addressLength := by
    intro extract inner fault failed
    rw [outgoing] at failed
    split at failed
    · cases failed
    · split at failed
      · exact inner fault failed
      · cases failed
  have ported : ∀ fault, extractPort packet = .error fault → fault = .addressLength := by
    intro fault failed
    cases failed
  fin_cases known
  · exact copied _ failed
  · exact ported _ failed
  · exact paired _ _ failed
  · exact paired _ _ failed
  · exact left _ copied _ failed
  · exact left _ ported _ failed
  · exact left _ (paired _) _ failed
  · exact left _ (paired _) _ failed

/-- The tables of the plugin have the sizes of its configuration, and the counters of the current
generation are right. -/
structure UserData.Tallied (user : UserData) : Prop where
  known : ∀ definition ∈ user.config.criteria, definition ∈ criteria
  buckets : 0 < user.config.bucketCount
  length : user.generations.length = user.config.historySize + 1
  current : user.currentGeneration < user.generations.length
  counted : user.config.Fits → ∀ generation,
    user.generations[user.currentGeneration]? = some generation →
    ∀ criterion ∈ generation.criteria, criterion.Tallied user.config user.biggestTimeslot

theorem UserData.generationActivate_tallied {generation : Nat}
    (known : ∀ definition ∈ user.config.criteria, definition ∈ criteria)
    (buckets : 0 < user.config.bucketCount)
    (length : user.generations.length = user.config.historySize + 1)
    (inside : generation < user.generations.length) (timestamp now : Nat) :
    (user.generationActivate generation timestamp now).Tallied where
  known := known
  buckets := buckets
  length := by rw [generationActivate, List.length_modify, length]
  current := by
    rw [generationActivate, List.length_modify]
    exact inside
  counted := fun fits found holds criterion member => by
    rw [generationActivate, List.getElem?_modify_eq, Option.map_eq_map] at holds
    obtain ⟨old, -, rfl⟩ := Option.map_eq_some_iff.mp holds
    obtain ⟨before, -, rfl⟩ := List.mem_map.mp member
    exact Criterion.reset_tallied fits

variable {data : Bytes}

/-- What a call of `provide_generation` has sent, and the generation it starts. -/
theorem provideGeneration_cases {user next : UserData} {message : Bytes} {now : Nat}
    (sent : provideGeneration user data now = .ok (message, next)) :
    ∃ generation, user.generations[user.currentGeneration]? = some generation ∧
      message = user.generationData generation ∧
      next = { user with biggestTimeslot := user.timeslots }.generationActivate
        ((user.currentGeneration + 1) % (user.config.historySize + 1)) (field data 0 8) now := by
  rw [provideGeneration] at sent
  split at sent
  case isTrue => cases sent
  case isFalse =>
    split at sent
    case h_1 => cases sent
    case h_2 generation found =>
      cases checked : generation.criteria.forM (Criterion.check user.config user.globalOverflow
          (user.config.hashCount * user.config.bucketCount * user.timeslots)) with
      | error fault =>
        rw [checked] at sent
        cases sent
      | ok _ =>
        rw [checked] at sent
        cases sent
        exact ⟨generation, found, rfl, rfl⟩

/-- A new generation takes the place of the oldest one. -/
theorem UserData.Tallied.provided (tallied : user.Tallied) (data : Bytes) {message : Bytes}
    {next : UserData} (sent : provideGeneration user data now = .ok (message, next)) :
    next.Tallied := by
  obtain ⟨generation, -, -, rfl⟩ := provideGeneration_cases sent
  apply generationActivate_tallied tallied.known tallied.buckets tallied.length
  rw [tallied.length]
  exact Nat.mod_lt _ (Nat.succ_pos _)

/-- All the criteria take the packet. -/
theorem UserData.Tallied.taken (tallied : user.Tallied)
    (inSlots : user.biggestTimeslot < user.config.maxTimeslots) (packet : Layer) :
    Concludes UserData.Tallied (fun fault => user.config.Fits → fault ≠ .outsideCounts)
      (user.takeAll packet) := by
  rw [takeAll]
  split
  case h_1 => exact fun _ impossible => by cases impossible
  case h_2 generation found =>
    have each : ∀ pair ∈ user.config.criteria.zip generation.criteria,
        Concludes (fun next : Criterion => user.config.Fits →
            next.Tallied user.config user.biggestTimeslot)
          (fun fault => user.config.Fits → fault ≠ .outsideCounts)
          (Criterion.take user.config user.biggestTimeslot packet pair) := by
      rintro ⟨definition, criterion⟩ member
      by_cases fits : user.config.Fits
      · have kept := tallied.counted fits generation found criterion (List.of_mem_zip member).2
        apply (Criterion.take_tallied fits tallied.buckets inSlots packet kept).weaken
        · exact fun _ holds _ => holds
        · intro fault failed _
          rw [extractKey_fault (tallied.known definition (List.of_mem_zip member).1) failed]
          decide
      · cases Criterion.take user.config user.biggestTimeslot packet (definition, criterion) with
        | ok next => exact fun holds => absurd holds fits
        | error fault => exact fun holds => absurd holds fits
    apply Concludes.bind (concludes_mapM each)
    intro criteria results
    constructor
    case known => exact tallied.known
    case buckets => exact tallied.buckets
    case length => rw [List.length_set, tallied.length]
    case current =>
      rw [List.length_set]
      exact tallied.current
    case counted =>
      intro fits same holds criterion member
      rw [List.getElem?_set_self tallied.current] at holds
      obtain rfl := Option.some.inj holds
      obtain ⟨pair, -, good⟩ := forall₂_right results member
      exact good fits

theorem UserData.Tallied.later (tallied : user.Tallied) {later : Nat}
    (order : user.biggestTimeslot ≤ later) : { user with biggestTimeslot := later }.Tallied where
  known := tallied.known
  buckets := tallied.buckets
  length := tallied.length
  current := tallied.current
  counted := fun fits generation found criterion member =>
    (tallied.counted fits generation found criterion member).later order

/-- A packet at any time is counted without a write behind the counters. -/
theorem UserData.Tallied.packet (tallied : user.Tallied) (layers : List Layer) (now : Nat) :
    Concludes UserData.Tallied (fun fault => user.config.Fits → fault ≠ .outsideCounts)
      (user.packet layers now) := by
  rw [UserData.packet]
  split
  case h_1 => exact tallied
  case h_2 inner _ =>
    split
    case isTrue => exact tallied
    case isFalse =>
      split
      case isTrue => exact fun _ impossible => by cases impossible
      case isFalse =>
        have moved := tallied.later (Nat.le_max_left user.biggestTimeslot
          ((now - user.timeslotStart) / user.config.timeGranularity))
        dsimp only
        split
        case isTrue => exact moved
        case isFalse within => exact moved.taken (Nat.lt_of_not_le within) inner

theorem UserData.Tallied.silent (tallied : user.Tallied) :
    ({ user with generations := user.generations.map fun generation =>
      { generation with active := false } } : UserData).Tallied where
  known := tallied.known
  buckets := tallied.buckets
  length := by
    rw [List.length_map]
    exact tallied.length
  current := by
    rw [List.length_map]
    exact tallied.current
  counted := fun fits found holds criterion member => by
    rw [List.getElem?_map, Option.map_eq_some_iff] at holds
    obtain ⟨before, there, rfl⟩ := holds
    exact tallied.counted fits before there criterion member

theorem findCriterion_known {name : UInt8} {definition : CriterionDef}
    (found : findCriterion name = .ok definition) : definition ∈ criteria := by
  rw [findCriterion] at found
  split at found
  case h_1 => cases found
  case h_2 same first =>
    cases found
    exact List.mem_of_find?_eq_some first

/-- The criteria of an accepted configuration are in the table. -/
theorem readConfig_known (accepted : readConfig data = .ok config) :
    ∀ definition ∈ config.criteria, definition ∈ criteria := by
  simp only [readConfig, bind, Except.bind, pure, Except.pure] at accepted
  split at accepted
  · cases accepted
  · split at accepted
    · cases accepted
    · cases found : ((data.drop headerSize).take (field data 24 4)).mapM findCriterion with
      | error fault =>
        simp only [found] at accepted
        cases accepted
      | ok definitions =>
        simp only [found] at accepted
        cases seed : rngSeedInit (field data 0 8) with
        | error fault =>
          simp only [seed] at accepted
          cases accepted
        | ok seed =>
          simp only [seed] at accepted
          cases accepted
          have each : Concludes (List.Forall₂ (fun _ definition => definition ∈ criteria)
              ((data.drop headerSize).take (field data 24 4))) (fun _ => True)
              (((data.drop headerSize).take (field data 24 4)).mapM findCriterion) := by
            apply concludes_mapM
            intro name _
            cases looked : findCriterion name with
            | error fault => trivial
            | ok definition => exact findCriterion_known looked
          intro definition member
          obtain ⟨name, -, known⟩ := forall₂_right (each.value found) member
          exact known

variable {memory : Nat → Nat}

theorem Config.start_tallied {timestamp now : Nat}
    (known : ∀ definition ∈ config.criteria, definition ∈ Buckets.criteria)
    (started : config.start timestamp now memory = .ok user) :
    user.Tallied ∧ user.config = config := by
  rw [Config.start] at started
  split at started
  case isTrue => cases started
  case isFalse sized =>
    cases started
    push Not at sized
    refine ⟨UserData.generationActivate_tallied known ?_ ?_ ?_ timestamp now, rfl⟩
    · exact Nat.pos_of_ne_zero sized.2.2
    · exact List.length_replicate
    · rw [List.length_replicate]
      exact Nat.succ_pos _

variable {after : Option UserData}

/-- A configuration is kept, dropped or new. -/
theorem configure_cases {before : Option UserData}
    (configured : configure before data now memory = .ok after) :
    after = before ∨ after = none ∨ ∃ config, readConfig data = .ok config ∧
      ∃ user, config.start (field data 8 8) now memory = .ok user ∧ after = some user := by
  cases before with
  | some old =>
    rw [configure] at configured
    split at configured
    · cases configured
    · split at configured
      · cases configured
        exact .inr (.inl rfl)
      · cases configured
        exact .inl rfl
  | none =>
    simp only [configure, bind, Except.bind] at configured
    cases read : readConfig data with
    | error fault =>
      rw [read] at configured
      cases configured
    | ok config =>
      simp only [read] at configured
      cases started : config.start (field data 8 8) now memory with
      | error fault =>
        rw [started] at configured
        cases configured
      | ok fresh =>
        rw [started] at configured
        cases configured
        exact .inr (.inr ⟨config, rfl, fresh, started, rfl⟩)

theorem configure_tallied {before : Option UserData}
    (tallied : ∀ user, before = some user → user.Tallied)
    (configured : configure before data now memory = .ok after) :
    ∀ user, after = some user → user.Tallied := by
  intro user holds
  rcases configure_cases configured with rfl | rfl | ⟨config, read, fresh, started, rfl⟩
  · exact tallied user holds
  · cases holds
  · cases holds
    exact (config.start_tallied (readConfig_known read) started).1

/-- What a step can do to the state of the plugin. -/
inductive Moves (plugin : Plugin) : Option UserData → Prop where
  | stays : Moves plugin plugin.user
  | connects : Moves plugin (plugin.user.map fun user => { user with
      generations := user.generations.map fun generation => { generation with active := false } })
  | configures {data : Bytes} {memory : Nat → Nat} {after : Option UserData}
      (configured : configure plugin.user data plugin.now memory = .ok after) : Moves plugin after
  | provides {user next : UserData} {data message : Bytes} (known : plugin.user = some user)
      (provided : provideGeneration user data plugin.now = .ok (message, next)) :
      Moves plugin (some next)
  | counts {user next : UserData} {layers : List Layer} (known : plugin.user = some user)
      (counted : user.packet layers plugin.now = .ok next) : Moves plugin (some next)

variable {next : Plugin}

/-- A message leaves the state, configures the plugin or starts a generation. -/
theorem Plugin.communicate_cases (spoken : plugin.communicate data memory = .ok next) :
    next.user = plugin.user ∨
    (∃ body, data = letter 'C' :: body ∧
      configure plugin.user body plugin.now memory = .ok next.user) ∨
    ∃ user body message after, data = letter 'G' :: body ∧ plugin.user = some user ∧
      provideGeneration user body plugin.now = .ok (message, after) ∧ next.user = some after := by
  cases data with
  | nil => cases spoken
  | cons code data =>
    rw [communicate] at spoken
    split at spoken
    case isTrue configures =>
      cases configured : configure plugin.user data plugin.now memory with
      | error fault =>
        rw [configured] at spoken
        cases spoken
      | ok after =>
        rw [configured] at spoken
        cases spoken
        exact .inr (.inl ⟨data, by rw [configures], configured⟩)
    case isFalse =>
      cases known : plugin.user with
      | none =>
        simp only [known] at spoken
        cases spoken
        exact .inl known
      | some user =>
        simp only [known] at spoken
        split at spoken
        case isTrue provides =>
          cases provided : provideGeneration user data plugin.now with
          | error fault =>
            rw [provided] at spoken
            cases spoken
          | ok pair =>
            rw [provided] at spoken
            cases spoken
            exact .inr (.inr ⟨user, data, pair.1, pair.2, by rw [provides], rfl, provided,
              rfl⟩)
        case isFalse =>
          split at spoken
          case isTrue =>
            cases sent : provideKeys user data with
            | error fault =>
              rw [sent] at spoken
              cases spoken
            | ok message =>
              rw [sent] at spoken
              cases spoken
              exact .inl rfl
          case isFalse =>
            cases spoken
            exact .inl known

theorem Plugin.communicate_moves (spoken : plugin.communicate data memory = .ok next) :
    Moves plugin next.user := by
  rcases communicate_cases spoken with same | ⟨body, _, configured⟩ |
    ⟨user, body, message, after, _, known, provided, next⟩
  · rw [same]
    exact .stays
  · exact .configures configured
  · rw [next]
    exact .provides known provided

theorem Plugin.step_moves {event : Event} (stepped : plugin.step event = .ok next) :
    Moves plugin next.user := by
  cases event with
  | tick elapsed =>
    cases stepped
    exact .stays
  | connected =>
    cases stepped
    exact .connects
  | message data memory => exact communicate_moves stepped
  | packet layers =>
    rw [step] at stepped
    cases known : plugin.user with
    | none =>
      simp only [known] at stepped
      cases stepped
      exact .stays
    | some user =>
      simp only [known] at stepped
      cases counted : user.packet layers plugin.now with
      | error fault =>
        rw [counted] at stepped
        cases stepped
      | ok after =>
        rw [counted] at stepped
        cases stepped
        exact .counts known counted

variable {events : List Event}

/-- A property of the state that every move keeps holds at the end of a run. -/
theorem Plugin.run_keeps {holds : UserData → Prop}
    (keeps : ∀ plugin : Plugin, (∀ user, plugin.user = some user → holds user) →
      ∀ after, Moves plugin after → ∀ user, after = some user → holds user)
    (start : ∀ user, plugin.user = some user → holds user) (ran : plugin.run events = .ok next) :
    ∀ user, next.user = some user → holds user := by
  have kept : Concludes (fun plugin : Plugin => ∀ user, plugin.user = some user → holds user)
      (fun _ => True) (plugin.run events) := by
    apply concludes_foldlM start
    intro before stands event _
    cases stepped : before.step event with
    | error fault => trivial
    | ok after => exact keeps before stands after.user (step_moves stepped)
  exact kept.value ran

theorem Moves.tallied (tallied : ∀ user, plugin.user = some user → user.Tallied)
    (moves : Moves plugin after) :
    ∀ user, after = some user → user.Tallied := by
  intro user holds
  cases moves with
  | stays => exact tallied user holds
  | connects =>
    obtain ⟨before, there, rfl⟩ := Option.map_eq_some_iff.mp holds
    exact (tallied before there).silent
  | configures configured => exact configure_tallied tallied configured user holds
  | provides known provided =>
    cases holds
    exact (tallied _ known).provided _ provided
  | counts known counted =>
    cases holds
    exact ((tallied _ known).packet _ plugin.now).value counted

theorem Plugin.run_tallied (ran : (initial now).run events = .ok next) {user : UserData}
    (known : next.user = some user) : user.Tallied := by
  apply run_keeps (fun plugin tallied after moves => Moves.tallied tallied moves) _ ran user known
  intro user impossible
  cases impossible

/-- The packets of the current generation are counted, and nothing is written elsewhere. -/
structure UserData.Conserves (user : UserData) : Prop where
  writes : ∀ layers now, user.packet layers now ≠ .error .outsideCounts
  sums : ∀ generation, user.generations[user.currentGeneration]? = some generation →
    ∀ criterion ∈ generation.criteria, criterion.seen < 2 ^ 32 →
      criterion.packetCount = criterion.seen ∧
      ∀ number < user.config.hashCount, criterion.line user.config number = criterion.packetCount
  assertion : ∀ generation, user.generations[user.currentGeneration]? = some generation →
    (∀ criterion ∈ generation.criteria, criterion.seen < 2 ^ 32) →
      ∀ data now, provideGeneration user data now ≠ .error .wrongTotal

/-- The counters behind the last time slot are zero, so the sum of the message is that of the
whole array. -/
theorem Criterion.Tallied.check {criterion : Criterion} {biggest : Nat}
    (tallied : criterion.Tallied config biggest) (few : criterion.seen < 2 ^ 32)
    {globalOverflow : Bool} (slots : globalOverflow = false → biggest + 1 ≤ config.maxTimeslots) :
    Criterion.check config globalOverflow
      (config.hashCount * config.bucketCount * (if globalOverflow then 0 else biggest + 1))
      criterion = .ok () := by
  rw [Criterion.check]
  cases globalOverflow with
  | true => rw [if_pos (.inl rfl)]
  | false =>
    have counts := tallied.counts few
    have within : config.bucketCount * config.hashCount * (biggest + 1) ≤
        config.bucketCount * config.hashCount * config.maxTimeslots :=
      Nat.mul_le_mul_left _ (slots rfl)
    have whole : ∑ index ∈ range (config.bucketCount * config.hashCount * (biggest + 1)),
        criterion.counts index =
          ∑ index ∈ range (config.bucketCount * config.hashCount * config.maxTimeslots),
            criterion.counts index := by
      apply sum_subset (range_subset_range.mpr within)
      intro index inside outside
      exact counts.unused index (Nat.le_of_not_lt fun less => outside (mem_range.mpr less))
        (mem_range.mp inside)
    rw [if_pos]
    right
    rw [Criterion.total_eq, Nat.mul_comm config.hashCount, if_neg (by decide), whole, counts.total,
      tallied.packetCount, Nat.mod_eq_of_lt few, Nat.add_zero]

theorem forM_ok {A : Type} {items : List A} {act : A → Except Abort Unit}
    (each : ∀ item ∈ items, act item = .ok ()) : items.forM act = .ok () := by
  induction items with
  | nil => rfl
  | cons item items ih =>
    show (act item >>= fun _ => items.forM act) = .ok ()
    rw [each item List.mem_cons_self]
    exact ih fun other member => each other (List.mem_cons_of_mem _ member)

theorem UserData.Tallied.conserves (tallied : user.Tallied) (fits : user.config.Fits) :
    user.Conserves where
  writes := fun layers now failed => (tallied.packet layers now).fault failed fits rfl
  sums := fun generation found criterion member few => by
    have counted := tallied.counted fits generation found criterion member
    have same : criterion.packetCount = criterion.seen := by
      rw [counted.packetCount, Nat.mod_eq_of_lt few]
    refine ⟨same, fun number inLine => ?_⟩
    rw [(counted.counts few).line number inLine, same, if_neg (Nat.not_lt_zero _), Nat.add_zero]
  assertion := fun generation found few data now failed => by
    have checked : generation.criteria.forM (Criterion.check user.config user.globalOverflow
        (user.config.hashCount * user.config.bucketCount * user.timeslots)) = .ok () := by
      apply forM_ok
      intro criterion member
      have counted := tallied.counted fits generation found criterion member
      have checks := @Criterion.Tallied.check user.config criterion user.biggestTimeslot counted
        (few criterion member) user.globalOverflow
        (fun within => by simpa [UserData.globalOverflow] using within)
      simpa [UserData.timeslots, UserData.globalOverflow] using checks
    rw [provideGeneration, found] at failed
    simp only [checked, bind, Except.bind] at failed
    split at failed
    · cases failed
    · cases failed

section Wrapping

/-- The numbers of a configuration come from 32 bits of the message. -/
structure Config.Narrow (config : Config) : Prop where
  buckets : config.bucketCount < 2 ^ 32
  hashes : config.hashCount < 2 ^ 32
  timeslots : config.maxTimeslots < 2 ^ 32

/-- An array whose size wraps around is too short for the counters of some time slot. -/
theorem Config.Narrow.outside (narrow : config.Narrow) (wraps : ¬ config.Fits)
    (positive : 0 < config.bucketCount) (hashes : 0 < config.hashCount) {cell : Nat → Nat}
    (inBucket : ∀ number, cell number < config.bucketCount) :
    ∃ slot < config.maxTimeslots, ∃ number < config.hashCount,
      config.countsSize ≤ config.index slot number (cell number) % sizeModulus := by
  obtain ⟨narrowBuckets, narrowHashes, narrowTimeslots⟩ := narrow
  rw [Config.Fits, Nat.not_lt] at wraps
  have lineBound : config.bucketCount * config.hashCount ≤ (2 ^ 32 - 1) * (2 ^ 32 - 1) :=
    Nat.mul_le_mul (by omega) (by omega)
  have linePositive : 0 < config.bucketCount * config.hashCount := Nat.mul_pos positive hashes
  have bucketLine : config.bucketCount ≤ config.bucketCount * config.hashCount :=
    Nat.le_mul_of_pos_right _ hashes
  have firstCell := inBucket 0
  simp only [Config.index, Config.countsSize, sizeModulus] at wraps ⊢
  generalize lineEq : config.bucketCount * config.hashCount = line at *
  have size : line * config.maxTimeslots * 4 % 2 ^ 64 / 4 = line * config.maxTimeslots % 2 ^ 62 := by
    omega
  rw [size]
  have short : line * config.maxTimeslots % 2 ^ 62 + 2 ^ 62 ≤ line * config.maxTimeslots := by
    omega
  by_cases wide : line < 2 ^ 62
  · -- The first time slot that starts behind the array is still one of the time slots.
    generalize line * config.maxTimeslots % 2 ^ 62 = length at *
    have reach := Nat.div_add_mod length line
    have rest := Nat.mod_lt length linePositive
    refine ⟨length / line + 1, ?_, 0, hashes, ?_⟩
    · apply Nat.lt_of_mul_lt_mul_left (a := line)
      rw [Nat.mul_succ]
      omega
    · rw [Nat.mul_succ, Nat.zero_mul, Nat.add_zero,
        Nat.mod_eq_of_lt (show line * (length / line) + line + cell 0 < 2 ^ 64 by omega)]
      omega
  · have slots : config.maxTimeslots ≠ 0 := by
      intro zero
      rw [zero] at short
      omega
    by_cases one : config.maxTimeslots = 1
    · -- The last line of the only time slot is behind the array.
      refine ⟨0, by omega, config.hashCount - 1, by omega, ?_⟩
      have lastCell := inBucket (config.hashCount - 1)
      have lastLine : (config.hashCount - 1) * config.bucketCount + config.bucketCount = line := by
        rw [← lineEq, ← Nat.succ_mul, Nat.succ_eq_add_one, Nat.sub_add_cancel hashes, Nat.mul_comm]
      rw [one, Nat.mul_one] at short ⊢
      rw [Nat.mul_zero, Nat.zero_add, Nat.mod_eq_of_lt (show (config.hashCount - 1) *
        config.bucketCount + cell (config.hashCount - 1) < 2 ^ 64 by omega)]
      omega
    · refine ⟨1, by omega, 0, hashes, ?_⟩
      rw [Nat.mul_one, Nat.zero_mul, Nat.add_zero,
        Nat.mod_eq_of_lt (show line + cell 0 < 2 ^ 64 by omega)]
      omega

theorem Criterion.countAll_outside {slot : Nat} {key : Bytes} {numbers : List Nat}
    (far : ∃ number ∈ numbers, config.countsSize ≤
      config.index slot number (config.bucket number key) % sizeModulus) (criterion : Criterion) :
    numbers.foldlM (Criterion.count config slot key) criterion = .error .outsideCounts := by
  induction numbers generalizing criterion with
  | nil =>
    obtain ⟨number, member, -⟩ := far
    cases member
  | cons number numbers ih =>
    rw [List.foldlM_cons, Criterion.count]
    split
    case isFalse => rfl
    case isTrue inside =>
      obtain ⟨other, member, behind⟩ := far
      rcases List.mem_cons.mp member with rfl | later
      · omega
      · exact ih ⟨other, later, behind⟩ _

/-- Every criterion has a key for this packet. -/
def samplePacket : Layer :=
  ⟨'I', 'T', .outgoing, 4, ⟨some [10, 0, 0, 1], some [10, 0, 0, 2]⟩, ⟨80, 443⟩⟩

theorem samplePacket_key {definition : CriterionDef} (known : definition ∈ criteria) :
    ∃ key, definition.extractKey samplePacket = .ok (some key) := by
  fin_cases known
  all_goals exact ⟨_, rfl⟩

theorem field_lt {data : Bytes} {offset : Nat} (long : offset + 4 ≤ data.length) :
    field data offset 4 < 2 ^ 32 := by
  apply bigEndian_lt
  rw [List.length_take, List.length_drop]
  omega

theorem readConfig_narrow {data : Bytes} (accepted : readConfig data = .ok config) :
    config.Narrow := by
  simp only [readConfig, bind, Except.bind, pure, Except.pure] at accepted
  split at accepted
  · cases accepted
  · rename_i long
    rw [headerSize, Nat.not_lt] at long
    split at accepted
    · cases accepted
    · split at accepted
      · cases accepted
      · split at accepted
        · cases accepted
        · cases accepted
          exact ⟨field_lt (by omega), field_lt (by omega), field_lt (by omega)⟩

/-- The first packet in a time slot stops at the first counter behind the array. -/
theorem UserData.packet_behind (granular : config.timeGranularity ≠ 0) {timestamp : Nat}
    {memory : Nat → Nat} (started : config.start timestamp now memory = .ok user)
    {definition : CriterionDef} {definitions : List CriterionDef}
    (listed : config.criteria = definition :: definitions) {key : Bytes}
    (extracted : definition.extractKey samplePacket = .ok (some key)) {slot number : Nat}
    (inSlots : slot < config.maxTimeslots) (inLine : number < config.hashCount)
    (behind : config.countsSize ≤
      config.index slot number (config.bucket number key) % sizeModulus) :
    user.packet [samplePacket] (now + slot * config.timeGranularity) = .error .outsideCounts := by
  rw [Config.start] at started
  split at started
  case isTrue => cases started
  case isFalse =>
    cases started
    have elapsed : (now + slot * config.timeGranularity - now) / config.timeGranularity = slot := by
      rw [Nat.add_sub_cancel_left, Nat.mul_div_cancel _ (Nat.pos_of_ne_zero granular)]
    have stops : ∀ criterion : Criterion,
        Criterion.take config slot samplePacket (definition, criterion) =
          .error .outsideCounts := by
      intro criterion
      have failed := Criterion.countAll_outside ⟨number, List.mem_range.mpr inLine, behind⟩
        { criterion with
          packetCount := (criterion.packetCount + 1) % 2 ^ 32
          seen := criterion.seen + 1 }
      simp only [Criterion.take, extracted, bind, Except.bind, failed]
    have inner : samplePacket.layer = 'I' := rfl
    simp only [UserData.packet, List.getLast?_singleton, inner, ne_eq, not_true_eq_false, if_false,
      generationActivate, granular, elapsed, Nat.zero_max, Nat.not_le.mpr inSlots,
      takeAll]
    simp [List.replicate_succ, newGeneration, listed, stops, bind, Except.bind]

/-- Some packet is counted behind an array whose size has wrapped around. -/
theorem UserData.packet_outside (known : ∀ definition ∈ config.criteria, definition ∈ criteria)
    (sized : config.criteria ≠ [] ∧ config.hashCount ≠ 0 ∧ config.bucketCount ≠ 0)
    (narrow : config.Narrow) (wraps : ¬ config.Fits) (granular : config.timeGranularity ≠ 0)
    {timestamp : Nat} {memory : Nat → Nat}
    (started : config.start timestamp now memory = .ok user) :
    ∃ later, user.packet [samplePacket] later = .error .outsideCounts := by
  obtain ⟨criteriaSized, hashSized, bucketSized⟩ := sized
  obtain ⟨definition, definitions, listed⟩ := List.exists_cons_of_ne_nil criteriaSized
  obtain ⟨key, extracted⟩ := samplePacket_key (known definition (by rw [listed]; simp))
  obtain ⟨slot, inSlots, number, inLine, behind⟩ := @Config.Narrow.outside config narrow wraps
    (Nat.pos_of_ne_zero bucketSized) (Nat.pos_of_ne_zero hashSized)
    (fun number => config.bucket number key)
    (fun number => Nat.mod_lt _ (Nat.pos_of_ne_zero bucketSized))
  exact ⟨_, packet_behind granular started listed extracted inSlots inLine behind⟩

end Wrapping

theorem run_cons {event : Event} (stepped : plugin.step event = .ok next) :
    plugin.run (event :: events) = next.run events := by
  rw [Plugin.run, List.foldlM_cons, stepped]
  rfl

theorem step_configures (accepted : readConfig data = .ok config)
    (started : config.start (field data 8 8) now memory = .ok user) :
    (initial now).step (.message (letter 'C' :: data) memory) =
      .ok { initial now with user := some user, sent := [[letter 'C']] ++ [] } := by
  simp only [Plugin.step, Plugin.communicate, if_true, initial, configure, accepted, started, bind,
    Except.bind]
  rfl

/-- An accepted configuration conserves the packets in every run exactly if the size of its
counters does not wrap around. -/
theorem counts_conserved_iff {data : Bytes} {config : Config}
    (accepted : readConfig data = .ok config)
    (sized : config.criteria ≠ [] ∧ config.hashCount ≠ 0 ∧ config.bucketCount ≠ 0)
    (granular : config.timeGranularity ≠ 0) :
    (∀ now memory events plugin user,
      (initial now).run (.message (letter 'C' :: data) memory :: events) = .ok plugin →
        plugin.user = some user → user.config = config → user.Conserves) ↔
      config.bucketCount * config.hashCount * config.maxTimeslots * 4 < 2 ^ 64 := by
  constructor
  case mp =>
    intro conserves
    by_contra wraps
    obtain ⟨user, started⟩ : ∃ user, config.start (field data 8 8) 0 (fun _ => 0) = .ok user := by
      rw [Config.start, if_neg (by push Not; exact sized)]
      exact ⟨_, rfl⟩
    have same := (config.start_tallied (readConfig_known accepted) started).2
    have kept := conserves 0 (fun _ => 0) [] _ user (run_cons (step_configures accepted started))
      rfl same
    obtain ⟨later, failed⟩ := UserData.packet_outside (readConfig_known accepted) sized
      (readConfig_narrow accepted) wraps granular started
    exact kept.writes [samplePacket] later failed
  case mpr =>
    intro fits now memory events plugin user ran known same
    exact (Plugin.run_tallied ran known).conserves (same ▸ fits)

/-- A check of the state after a run finds the state. -/
theorem exists_ran {events : List Event} {good : Plugin → UserData → Bool}
    (checked : ((initial now).run events).toOption.any (fun plugin =>
      plugin.user.any (good plugin)) = true) :
    ∃ plugin user, (initial now).run events = .ok plugin ∧ plugin.user = some user ∧
      good plugin user = true := by
  cases ran : (initial now).run events with
  | error fault =>
    rw [ran] at checked
    cases checked
  | ok plugin =>
    rw [ran] at checked
    obtain ⟨plugin, same, inner⟩ := (Option.any_eq_true _ _).mp checked
    obtain ⟨user, known, holds⟩ := (Option.any_eq_true _ _).mp inner
    cases same
    exact ⟨_, user, rfl, known, holds⟩

/-- A configuration with the criterion of the remote ports and one old generation. -/
def portConfig (buckets hashes timeslots : Nat) : Bytes :=
  word64 872945724987 ++ word64 1500000000 ++ word32 buckets ++ word32 hashes ++ word32 1 ++
    word32 1 ++ word32 1 ++ word32 100 ++ word32 timeslots ++ word32 1000 ++ [letter 'P']

theorem counts_conserved_small :
    ∃ config, readConfig (portConfig 13 2 60) = .ok config ∧
      ((∀ now memory events plugin user,
        (initial now).run (.message (letter 'C' :: portConfig 13 2 60) memory :: events) =
          .ok plugin → plugin.user = some user → user.config = config → user.Conserves) ↔
        config.bucketCount * config.hashCount * config.maxTimeslots * 4 < 2 ^ 64) := by
  refine ⟨_, rfl, counts_conserved_iff rfl ⟨?_, ?_, ?_⟩ ?_⟩
  · exact List.cons_ne_nil _ _
  · decide
  · decide
  · decide

/-- The size of these counters wraps around to zero, and the first packet is counted outside. -/
theorem counts_outside :
    ∃ plugin user, (initial 0).run [.message (letter 'C' :: portConfig 1048576 2048 2147483648)
        fun _ => 0] = .ok plugin ∧ plugin.user = some user ∧ user.config.timeGranularity = 1000 ∧
      user.config.countsSize = 0 ∧ user.packet [samplePacket] 0 = .error .outsideCounts := by
  obtain ⟨config, accepted, granular, hashes, buckets, slots, size, listed⟩ : ∃ config,
      readConfig (portConfig 1048576 2048 2147483648) = .ok config ∧
        config.timeGranularity = 1000 ∧
        config.hashCount = 2048 ∧ config.bucketCount = 1048576 ∧ config.maxTimeslots = 2147483648 ∧
        config.countsSize = 0 ∧ config.criteria = [⟨'P', portSize, extractPort⟩] :=
    ⟨_, rfl, by decide +kernel, by decide +kernel, by decide +kernel, by decide +kernel,
      by decide +kernel, rfl⟩
  generalize portConfig 1048576 2048 2147483648 = data at accepted ⊢
  obtain ⟨user, started⟩ : ∃ user, config.start (field data 8 8) 0 (fun _ => 0) = .ok user := by
    rw [Config.start, if_neg (by simp [listed, hashes, buckets])]
    exact ⟨_, rfl⟩
  have same := (config.start_tallied (readConfig_known accepted) started).2
  refine ⟨_, user, run_cons (step_configures accepted started), rfl, by rw [same, granular],
    by rw [same, size], ?_⟩
  have failed := UserData.packet_behind (by omega) started listed
    (show extractPort samplePacket = .ok (some (word16 443)) from rfl)
    (show 0 < config.maxTimeslots by omega) (show 0 < config.hashCount by omega)
    (size.trans_le (Nat.zero_le _))
  rwa [Nat.zero_mul] at failed

end Ucollect.Buckets
