import Ucollect.Construction.Buckets.Bounded
import Ucollect.Proof.Buckets.Counting

/-
A message is rejected or processed inside its blocks where the sizes of the configuration do not
wrap around, packets find a granularity, and a request for keys has its header.
-/

namespace Ucollect.Buckets.Bounded
open Library Core MemPool List Option

variable {machine : Machine} {config : Config} {user : UserData} {plugin : Plugin} {data : Bytes}

/-- The sizes of the blocks do not wrap around. -/
structure Fitting (machine : Machine) (data : Bytes) : Prop where
  criteria : headerSize + field data 24 4 < machine.limit
  tries : field data 16 4 * machine.word < machine.limit
  history : field data 28 4 + 1 < machine.limit

instance (machine : Machine) (data : Bytes) : Decidable (Fitting machine data) :=
  decidable_of_iff (headerSize + field data 24 4 < machine.limit ∧
    field data 16 4 * machine.word < machine.limit ∧ field data 28 4 + 1 < machine.limit)
    ⟨fun ⟨criteria, tries, history⟩ => ⟨criteria, tries, history⟩,
      fun ⟨criteria, tries, history⟩ => ⟨criteria, tries, history⟩⟩

/-- The size of the counts does not wrap around. -/
def CountsFit (machine : Machine) (config : Config) : Prop :=
  config.bucketCount * config.hashCount * config.maxTimeslots * 4 < machine.limit

instance (machine : Machine) (config : Config) : Decidable (CountsFit machine config) :=
  inferInstanceAs (Decidable (_ < _))

/-- This is the condition on a step. -/
def Sound (machine : Machine) (plugin : Plugin) : Event → Prop
  | .tick _ | .connected => True
  | .message data _ =>
    (data.head? = some (letter 'C') → plugin.user.isNone = true →
      headerSize ≤ data.tail.length → Fitting machine data.tail) ∧
    (data.head? = some (letter 'G') → ∀ user ∈ plugin.user, data.tail.length = 8 →
      CountsFit machine user.config) ∧
    (data.head? = some (letter 'K') → plugin.user.isSome = true → data.tail.length % 4 = 0 →
      keyRequestSize ≤ data.tail.length)
  | .packet layers => ∀ user ∈ plugin.user, ∀ inner ∈ layers.getLast?, inner.layer = 'I' →
      user.config.timeGranularity ≠ 0 ∧
      (slotAt machine user plugin.now < user.config.maxTimeslots → CountsFit machine user.config)

instance (machine : Machine) (plugin : Plugin) (event : Event) :
    Decidable (Sound machine plugin event) := by
  cases event <;> unfold Sound <;> infer_instance

/-- Every event of the run is sound where it comes. -/
def AllSound (machine : Machine) (plugin : Plugin) : List Event → Prop
  | [] => True
  | event :: events => Sound machine plugin event ∧
      ∀ next ∈ (step machine plugin event).toOption, AllSound machine next events

instance decidableAllSound (machine : Machine) : (plugin : Plugin) → (events : List Event) →
    Decidable (AllSound machine plugin events)
  | _, [] => .isTrue trivial
  | plugin, event :: events =>
    have := fun next : Plugin => decidableAllSound machine next events
    inferInstanceAs (Decidable (Sound machine plugin event ∧
      ∀ next ∈ (step machine plugin event).toOption, AllSound machine next events))

/-- A generation without tries has no timestamp and is not active. -/
structure Formed (machine : Machine) (user : UserData) : Prop where
  buckets : 0 < user.config.bucketCount
  tries : user.config.bucketCount * machine.word < machine.limit
  history : user.config.historySize + 1 < machine.limit
  length : user.generations.length = user.config.historySize + 1
  current : user.generations[user.currentGeneration]?.map (·.filled) = some true
  fresh : ∀ generation ∈ user.generations, generation.filled = false →
    generation.timestamp = 0 ∧ generation.active = false

/-- A halt without harm. -/
def Calm (halt : Halt) : Prop := halt = .rejected

theorem access_inside {block start size : Nat} (inside : start + size ≤ block) :
    access block start size = .ok () := by
  rw [access, if_pos inside]

theorem require_spec (holds : Bool) :
    Concludes (fun _ => holds = true) Calm (require holds) := by
  cases holds <;> rfl

theorem checked_spec {A : Type} (result : Except Abort A) :
    Concludes (fun value => result = .ok value) Calm (checked result) := by
  cases result <;> rfl

theorem trieBytes_eq (tries : config.bucketCount * machine.word < machine.limit) :
    trieBytes machine config = config.bucketCount * machine.word := Nat.mod_eq_of_lt tries

theorem countsBytes_eq (fits : CountsFit machine config) :
    countsBytes machine config = config.bucketCount * config.hashCount * config.maxTimeslots * 4 :=
  Nat.mod_eq_of_lt fits

theorem limit_le (machine : Machine) : 2 ^ 32 ≤ machine.limit := by
  cases machine <;> decide

/-- The criteria are read inside the message. -/
theorem readCriteria_spec {left index : Nat} (inside : headerSize + index + left ≤ data.length) :
    Concludes (fun _ => True) Calm (readCriteria data left index) := by
  induction left generalizing index with
  | zero => trivial
  | succ left ih =>
    rw [readCriteria, access_inside (by omega)]
    apply Concludes.bind (checked_spec _)
    intro criterion _
    apply Concludes.bind (ih (by omega))
    exact fun _ _ => trivial

/-- The configuration has sizes that do not wrap around. -/
theorem readConfig_spec (fitting : headerSize ≤ data.length → Fitting machine data) :
    Concludes (fun config => config.bucketCount * machine.word < machine.limit ∧
      config.historySize + 1 < machine.limit) Calm (readConfig machine data) := by
  rw [readConfig]
  apply Concludes.bind (require_spec _)
  intro _ header
  have fits := fitting (by simpa using header)
  apply Concludes.bind (require_spec _)
  intro _ long
  rw [Nat.mod_eq_of_lt fits.criteria, decide_eq_true_eq] at long
  apply Concludes.bind (readCriteria_spec (by omega))
  intro found _
  apply Concludes.bind (checked_spec _)
  exact fun _ _ => ⟨fits.tries, fits.history⟩

/-- The tables are formed when there are buckets. -/
theorem generationActivate_spec {generation timestamp now : Nat}
    (tries : user.config.bucketCount * machine.word < machine.limit)
    (history : user.config.historySize + 1 < machine.limit)
    (length : user.generations.length = user.config.historySize + 1)
    (fresh : ∀ generation ∈ user.generations, generation.filled = false →
      generation.timestamp = 0 ∧ generation.active = false)
    (inside : generation < user.generations.length) :
    Concludes (fun next => next.config = user.config ∧
      (0 < user.config.bucketCount → Formed machine next)) Calm
      (generationActivate machine user generation timestamp now) := by
  rw [generationActivate]
  have cleared : Concludes (fun _ => True) Calm (user.config.criteria.forM fun _ => do
      access (countsBytes machine user.config) 0 (countsBytes machine user.config)
      access (trieBytes machine user.config) 0 (user.config.bucketCount * machine.word)) := by
    apply concludes_forM
    intro _ _
    rw [access_inside (by omega), access_inside (by rw [trieBytes_eq tries]; omega)]
    trivial
  apply Concludes.bind cleared
  intro _ _
  rw [if_pos inside]
  refine ⟨rfl, fun buckets => ?_⟩
  constructor
  case buckets => exact buckets
  case tries => exact tries
  case history => exact history
  case length => simpa using length
  case current => simp [inside]
  case fresh =>
    intro found member empty
    rcases mem_or_eq_of_mem_set member with old | rfl
    · exact fresh found old empty
    · cases empty

theorem start_spec {timestamp now : Nat}
    (tries : config.bucketCount * machine.word < machine.limit)
    (history : config.historySize + 1 < machine.limit) :
    Concludes (Formed machine) Calm (start machine config timestamp now) := by
  rw [start, if_neg (by rw [Nat.mod_eq_of_lt history]; exact Nat.succ_ne_zero _)]
  apply Concludes.bind (generationActivate_spec tries history (length_replicate ..) _ _)
  · rintro user ⟨same, formed⟩
    apply Concludes.bind (require_spec _)
    intro _ sized
    simp only [ne_eq, Bool.and_eq_true, decide_eq_true_eq] at sized
    exact formed (Nat.pos_of_ne_zero sized.2)
  · intro generation member _
    rw [eq_of_mem_replicate member]
    exact ⟨rfl, rfl⟩
  · simp

/-- A fitting message leaves a formed state. -/
theorem configure_spec {now : Nat} {before : Option UserData}
    (formed : ∀ user ∈ before, Formed machine user)
    (fitting : before.isNone = true → headerSize ≤ data.length → Fitting machine data) :
    Concludes (fun after => ∀ user ∈ after, Formed machine user) Calm
      (configure machine before data now) := by
  cases before with
  | some old =>
    apply Concludes.bind (require_spec _)
    intro _ _
    rw [Concludes]
    split
    · simp
    · exact formed
  | none =>
    apply Concludes.bind (readConfig_spec (fitting rfl))
    rintro config ⟨tries, history⟩
    apply Concludes.bind (start_spec tries history)
    intro user formed found same
    cases same
    exact formed

/-- A group of indices lies behind its count in the index array. -/
theorem readGroup_spec {position length : Nat}
    (inside : keyRequestSize + 4 * (position + length) ≤ data.length) :
    Concludes (fun count => count + 1 ≤ length) Calm (readGroup data position length) := by
  rw [readGroup]
  apply Concludes.bind (require_spec _)
  intro _ some_
  rw [decide_eq_true_eq] at some_
  rw [access_inside (by omega)]
  apply Concludes.bind (require_spec _)
  intro _ enough
  rw [decide_eq_true_eq] at enough
  rw [access_inside (by omega)]
  show _ + 1 ≤ length
  omega

theorem filterKeys_spec {left position length : Nat}
    (inside : keyRequestSize + 4 * (position + length) ≤ data.length) :
    Concludes (fun _ => True) Calm (filterKeys data left position length) := by
  induction left generalizing position length with
  | zero => exact (require_spec _).weaken (fun _ _ => trivial) fun _ calm => calm
  | succ left ih =>
    rw [filterKeys]
    apply Concludes.bind (readGroup_spec inside)
    intro count enough
    exact ih (by omega)

theorem walkTries_spec (formed : Formed machine user) {generation : Generation}
    (filled : generation.filled = true) (left position : Nat) :
    Concludes (fun _ => True) Calm (walkTries machine user data generation left position) := by
  induction left generalizing position with
  | zero => trivial
  | succ left ih =>
    rw [walkTries]
    apply Concludes.bind (require_spec _)
    intro _ inside
    rw [decide_eq_true_eq] at inside
    have behind := Nat.mul_le_mul_right machine.word (Nat.succ_le_of_lt inside)
    rw [Nat.succ_mul] at behind
    rw [trieBytes_eq formed.tries, access_inside behind]
    simp only [filled, Bool.true_eq_false, if_false]
    exact ih _

/-- The scan stays inside the index array and the arrays of the tries. -/
theorem scanKeys_spec (formed : Formed machine user) {generation : Generation}
    (filled : generation.filled = true) {length : Nat}
    (inside : keyRequestSize + 4 * length ≤ data.length) :
    Concludes (fun _ => True) Calm (scanKeys machine user data length generation) := by
  have short := Nat.mod_le length (2 ^ 32)
  rw [scanKeys]
  apply Concludes.bind (readGroup_spec (by omega))
  intro count enough
  apply Concludes.bind (walkTries_spec formed filled count 1)
  intro _ _
  exact filterKeys_spec (by omega)

/-- A request for keys stays inside its message. -/
theorem provideKeys_spec (formed : Formed machine user)
    (header : data.length % 4 = 0 → keyRequestSize ≤ data.length) :
    Concludes (fun _ => True) Calm (provideKeys machine user data) := by
  have limit := limit_le machine
  have even : 4 ∣ machine.limit := by cases machine <;> decide
  rw [provideKeys]
  dsimp only
  generalize rest : (data.length + (machine.limit - keyRequestSize)) % machine.limit = left
  apply Concludes.bind (require_spec _)
  intro _ whole
  rw [decide_eq_true_eq] at whole
  have word : keyRequestSize = 16 := rfl
  have fits : keyRequestSize + left ≤ data.length := by
    have long : keyRequestSize ≤ data.length := header (by
      have cut := Nat.mod_mod_of_dvd (data.length + (machine.limit - keyRequestSize)) even
      rw [rest] at cut
      omega)
    have moved : data.length + (machine.limit - keyRequestSize) =
        data.length - keyRequestSize + machine.limit := by
      have large : 16 ≤ machine.limit := le_trans (by decide) limit
      omega
    rw [moved, Nat.add_mod_right] at rest
    have less := Nat.mod_le (data.length - keyRequestSize) machine.limit
    omega
  rw [access_inside (by omega), access_inside (by omega)]
  apply Concludes.bind (require_spec _)
  intro _ _
  split
  case isTrue stamped =>
    split
    case h_1 => trivial
    case h_2 generation found =>
      have member := mem_of_find?_eq_some found
      have asked := List.find?_some found
      apply scanKeys_spec formed _ (by omega)
      by_contra empty
      have none := formed.fresh generation member (Bool.eq_false_of_not_eq_true empty)
      simp only [decide_eq_true_eq] at asked
      exact stamped (asked ▸ none.1)
  case isFalse =>
    apply concludes_forM
    rintro ⟨generation, position⟩ listed
    dsimp only
    split
    case isTrue wanted =>
      apply scanKeys_spec formed _ (by omega)
      by_contra empty
      have none := formed.fresh generation (fst_mem_of_mem_zipIdx listed)
        (Bool.eq_false_of_not_eq_true empty)
      simp [none.2] at wanted
    case isFalse => trivial

theorem timeslots_le (machine : Machine) (user : UserData) :
    timeslots machine user ≤ user.config.maxTimeslots := by
  rw [timeslots]
  split <;> omega

/-- A sent generation leaves a formed state. -/
theorem provideGeneration_spec (formed : Formed machine user) {now : Nat} {balanced : Bool}
    (fits : data.length = 8 → CountsFit machine user.config) :
    Concludes (Formed machine) Calm (provideGeneration machine user data now balanced) := by
  rw [provideGeneration]
  apply Concludes.bind (require_spec _)
  intro _ sized
  have fits := fits (by simpa using sized)
  have slots := Nat.mul_le_mul_left (user.config.hashCount * user.config.bucketCount)
    (timeslots_le machine user)
  have counts := countsBytes_eq fits
  rw [Nat.mul_comm user.config.bucketCount] at counts
  have wrapped := Nat.mod_le (user.config.hashCount * user.config.bucketCount *
    timeslots machine user) machine.limit
  dsimp only
  have read : Concludes (fun _ => True) Calm (user.config.criteria.forM fun _ => do
      access (countsBytes machine user.config) 0 (4 * (user.config.hashCount *
        user.config.bucketCount * timeslots machine user % machine.limit))
      require balanced) := by
    apply concludes_forM
    intro _ _
    rw [access_inside (by omega)]
    exact (require_spec balanced).weaken (fun _ _ => trivial) fun _ calm => calm
  apply Concludes.bind read
  intro _ _
  rw [Nat.mod_eq_of_lt formed.history, if_neg (Nat.succ_ne_zero _)]
  have next := @generationActivate_spec machine
    { user with biggestTimeslot := timeslots machine user }
    ((user.currentGeneration + 1) % (user.config.historySize + 1)) (field data 0 8) now formed.tries
    formed.history formed.length formed.fresh (by
      rw [formed.length]
      exact Nat.mod_lt _ (Nat.succ_pos _))
  exact next.weaken (fun _ kept => kept.2 formed.buckets) fun _ calm => calm

theorem take_spec (formed : Formed machine user) (fits : CountsFit machine user.config)
    (inSlots : user.biggestTimeslot < user.config.maxTimeslots) (packet : Layer)
    (definition : CriterionDef) :
    Concludes (fun _ => True) Calm (take machine user packet definition) := by
  rw [take]
  apply Concludes.bind (checked_spec _)
  rintro (_ | key) _
  · trivial
  · dsimp only
    rw [if_neg formed.buckets.ne']
    have inBucket (number : Nat) : user.config.bucket number key < user.config.bucketCount :=
      Nat.mod_lt _ formed.buckets
    have counted : Concludes (fun _ => True) Calm
        ((List.range user.config.hashCount).forM fun number =>
          access (countsBytes machine user.config) (user.config.index user.biggestTimeslot number
            (user.config.bucket number key) % machine.limit * 4) 4) := by
      apply concludes_forM
      intro number listed
      have before := @Config.index_lt user.config user.biggestTimeslot number _
        (mem_range.mp listed) (inBucket number)
      have size := Nat.mul_le_mul_left (user.config.bucketCount * user.config.hashCount)
        (show user.biggestTimeslot + 1 ≤ user.config.maxTimeslots from inSlots)
      have wrapped := Nat.mod_le (user.config.index user.biggestTimeslot number
        (user.config.bucket number key)) machine.limit
      rw [access_inside (by rw [countsBytes_eq fits]; omega)]
      trivial
    apply Concludes.bind counted
    intro _ _
    have behind := Nat.mul_le_mul_right machine.word (Nat.succ_le_of_lt (inBucket 0))
    rw [Nat.succ_mul] at behind
    rw [trieBytes_eq formed.tries, access_inside behind]
    trivial

/-- A sound packet stays inside the counters. -/
theorem packet_spec (formed : Formed machine user) {layers : List Layer} {now : Nat}
    (sound : ∀ inner ∈ layers.getLast?, inner.layer = 'I' → user.config.timeGranularity ≠ 0 ∧
      (slotAt machine user now < user.config.maxTimeslots → CountsFit machine user.config)) :
    Concludes (Formed machine) Calm (packet machine user layers now) := by
  rw [packet]
  split
  case h_1 => exact formed
  case h_2 inner last =>
    split
    case isTrue => exact formed
    case isFalse inet =>
      obtain ⟨granular, fits⟩ := sound inner last (not_not.mp inet)
      have moved : Formed machine { user with biggestTimeslot := slotAt machine user now } :=
        ⟨formed.buckets, formed.tries, formed.history, formed.length, formed.current,
          formed.fresh⟩
      rw [if_neg granular]
      dsimp only
      split
      case isTrue => exact moved
      case isFalse inSlots =>
        have inSlots := Nat.lt_of_not_le inSlots
        rw [if_neg (not_not.mpr formed.current)]
        apply Concludes.bind (concludes_forM fun definition _ =>
          take_spec moved (fits inSlots) inSlots inner definition)
        exact fun _ _ => moved

theorem connected_formed (formed : Formed machine user) : Formed machine (connected user) where
  buckets := formed.buckets
  tries := formed.tries
  history := formed.history
  length := by simpa [connected] using formed.length
  current := by
    have current := formed.current
    rw [connected, List.getElem?_map, Option.map_map]
    exact current
  fresh := by
    intro generation member empty
    obtain ⟨old, listed, rfl⟩ := List.mem_map.mp member
    exact ⟨(formed.fresh old listed empty).1, rfl⟩

/-- A plugin that is configured has formed tables. -/
def Ready (machine : Machine) (plugin : Plugin) : Prop := ∀ user ∈ plugin.user, Formed machine user

theorem communicate_spec (ready : Ready machine plugin) {balanced : Bool}
    (sound : Sound machine plugin (.message data balanced)) :
    Concludes (fun after => ∀ user ∈ after, Formed machine user) Calm
      (communicate machine plugin data balanced) := by
  cases data with
  | nil => rfl
  | cons code data =>
    obtain ⟨configures, provides, asks⟩ := sound
    rw [communicate]
    split
    case isTrue config => exact configure_spec ready (configures (by rw [List.head?_cons, config]))
    case isFalse =>
      cases known : plugin.user with
      | none =>
        intro user impossible
        cases impossible
      | some user =>
        have formed := ready user known
        dsimp only
        split
        case isTrue generation =>
          apply Concludes.bind (provideGeneration_spec formed
            (provides (by rw [List.head?_cons, generation]) user known))
          intro next kept found same
          cases same
          exact kept
        case isFalse =>
          split
          case isTrue keys =>
            apply Concludes.bind (provideKeys_spec formed
              (asks (by rw [List.head?_cons, keys]) (by rw [known]; rfl)))
            intro _ _ found same
            cases same
            exact formed
          case isFalse =>
            intro found same
            cases same
            exact formed

/-- A calm end is no crash. -/
theorem settle_spec {result : Except Halt (Option UserData)}
    (spec : Concludes (fun after => ∀ user ∈ after, Formed machine user) Calm result) :
    ∃ next, settle plugin result = .ok next ∧ Ready machine next := by
  cases result with
  | ok after => exact ⟨_, rfl, spec⟩
  | error halt =>
    have calm : halt = .rejected := spec
    rw [calm]
    exact ⟨_, rfl, fun user impossible => by cases impossible⟩

/-- A sound step does no harm. -/
theorem step_spec (ready : Ready machine plugin) {event : Event}
    (sound : Sound machine plugin event) :
    ∃ next, step machine plugin event = .ok next ∧ Ready machine next := by
  cases event with
  | tick elapsed => exact ⟨_, rfl, ready⟩
  | connected =>
    refine ⟨_, rfl, ?_⟩
    intro user known
    obtain ⟨before, there, rfl⟩ := map_eq_some_iff.mp known
    exact connected_formed (ready before there)
  | message data balanced => exact settle_spec (communicate_spec ready sound)
  | packet layers =>
    rw [step]
    cases known : plugin.user with
    | none => exact ⟨plugin, rfl, ready⟩
    | some user =>
      have spec := @packet_spec machine user (ready user known) layers plugin.now
        (sound user known)
      apply settle_spec
      cases result : packet machine user layers plugin.now with
      | error halt => exact spec.fault result
      | ok after =>
        intro found same
        cases same
        exact spec.value result

/-- Every run whose steps are sound does no harm. -/
theorem run_harmless {machine : Machine} {now : Nat} {events : List Event}
    (sound : AllSound machine ⟨none, now⟩ events) :
    ∃ plugin, run machine ⟨none, now⟩ events = .ok plugin := by
  have ready : Ready machine ⟨none, now⟩ := fun user impossible => by cases impossible
  revert sound ready
  generalize (⟨none, now⟩ : Plugin) = plugin
  intro sound ready
  induction events generalizing plugin with
  | nil => exact ⟨plugin, rfl⟩
  | cons event events ih =>
    obtain ⟨next, stepped, kept⟩ := step_spec ready sound.1
    obtain ⟨last, ran⟩ := ih next (sound.2 next (by rw [stepped]; rfl)) kept
    refine ⟨last, ?_⟩
    rw [run, foldlM_cons, stepped]
    exact ran

/-- A configuration with the criterion of the remote ports. -/
def sampleConfig (granularity : Nat) : Event :=
  .message (letter 'C' :: (word64 872945724987 ++ word64 1500000000 ++ word32 13 ++ word32 2 ++
    word32 1 ++ word32 1 ++ word32 1 ++ word32 100 ++ word32 60 ++ word32 granularity ++
    [letter 'P'])) true

def sampleEvents (granularity : Nat) : List Event :=
  [sampleConfig granularity,
    .packet [⟨'I', 'T', .outgoing, 4, ⟨some [10, 0, 0, 1], some [10, 0, 0, 2]⟩, ⟨80, 443⟩⟩],
    .message (letter 'G' :: word64 1500000060) true,
    .message (letter 'K' :: (word64 1500000000 ++ word32 7 ++ word32 0 ++ word32 1 ++ word32 5 ++
      word32 0)) true]

theorem run_harmless_sample :
    ∃ plugin, run .wide ⟨none, 0⟩ (sampleEvents 1000) = .ok plugin :=
  run_harmless (by decide +kernel)

/-- A granularity of zero divides by zero, and a request without a header is converted behind the
end of its copy. -/
theorem run_harmed :
    (run .wide ⟨none, 0⟩ (sampleEvents 0)).toOption.isNone = true ∧
      (run .wide ⟨none, 0⟩ [sampleConfig 1000, .message [letter 'K'] true]).toOption.isNone = true := by
  decide +kernel

end Ucollect.Buckets.Bounded
