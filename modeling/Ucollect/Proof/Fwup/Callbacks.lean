import Ucollect.Construction.Fwup.Callbacks

namespace Ucollect.Fwup.Callbacks
open Library Diffstore List Function

section Relations

/-- A message can make these checks fail. -/
def Fault.Expected (fault : Fault) : Prop :=
  fault = .corruptDiff ∨ fault = .addressSize ∨ fault = .malformed

/-- This is the callback of the list that the next consultation uses. -/
def World.source (world : World) : Nat :=
  (world.existingSets.map Listing.callback).getD world.callback

/-- A part of a callback consults the list of one source. -/
structure Looks (first second : World) : Prop where
  callback : second.callback = first.callback
  source : second.source = first.source
  faults : second.faults = first.faults
  consulted : ∀ consultation ∈ second.consultations, consultation ∈ first.consultations ∨
    consultation = ⟨first.callback, first.source⟩
  kept : ∀ consultation ∈ first.consultations, consultation ∈ second.consultations

theorem Looks.refl (world : World) : Looks world world :=
  ⟨rfl, rfl, rfl, fun _ member => Or.inl member, fun _ member => member⟩

/-- The consultations of two steps add up. -/
theorem Looks.trans {first second third : World} (early : Looks first second)
    (late : Looks second third) : Looks first third := by
  constructor
  case callback => exact late.callback.trans early.callback
  case source => exact late.source.trans early.source
  case faults => exact late.faults.trans early.faults
  case kept => exact fun _ member => late.kept _ (early.kept _ member)
  case consulted =>
    intro consultation member
    rcases late.consulted consultation member with before | new
    · exact early.consulted consultation before
    · exact Or.inr (by rw [new, early.callback, early.source])

/-- All that comes behind the blocks belongs to one array. -/
def Appends (array : Nat) (before after : List Block) : Prop :=
  ∃ more : List Block, after = before ++ more ∧ ∀ block ∈ more, block.array = array

theorem Appends.refl (array : Nat) (blocks : List Block) : Appends array blocks blocks :=
  ⟨[], by simp, by simp⟩

/-- The blocks of two steps add up. -/
theorem Appends.trans {array : Nat} {first second third : List Block}
    (early : Appends array first second) (late : Appends array second third) :
    Appends array first third := by
  obtain ⟨some, grown, own⟩ := early
  obtain ⟨more, grows, also⟩ := late
  refine ⟨some ++ more, by rw [grows, grown, append_assoc], fun block member => ?_⟩
  rcases mem_append.mp member with here | there
  · exact own block here
  · exact also block there

/-- A step releases no block. -/
theorem Appends.ne_nil {array : Nat} {before after : List Block}
    (appends : Appends array before after) (some : before ≠ []) : after ≠ [] := by
  obtain ⟨more, same, _⟩ := appends
  simp [same, some]

/-- A part of a callback allocates blocks of one array in one pool and leaves the sets alone. -/
structure Quiet (pool : PoolId) (array : Nat) (first second : World) : Prop where
  looks : Looks first second
  configVersion : second.configVersion = first.configVersion
  sets : second.sets = first.sets
  current : second.array = first.array
  confPool : second.confPool = first.confPool
  standbyPool : second.standbyPool = first.standbyPool
  others : ∀ other ≠ pool, second.blocks other = first.blocks other
  blocks : Appends array (first.blocks pool) (second.blocks pool)

variable {pool : PoolId} {array : Nat}

theorem Quiet.refl (pool : PoolId) (array : Nat) (world : World) :
    Quiet pool array world world :=
  ⟨.refl world, rfl, rfl, rfl, rfl, rfl, fun _ _ => rfl, .refl array _⟩

/-- Two quiet steps are quiet together. -/
theorem Quiet.trans {first second third : World} (early : Quiet pool array first second)
    (late : Quiet pool array second third) : Quiet pool array first third := by
  constructor
  case looks => exact early.looks.trans late.looks
  case configVersion => exact late.configVersion.trans early.configVersion
  case sets => exact late.sets.trans early.sets
  case current => exact late.current.trans early.current
  case confPool => exact late.confPool.trans early.confPool
  case standbyPool => exact late.standbyPool.trans early.standbyPool
  case others => exact fun other away => (late.others other away).trans (early.others other away)
  case blocks => exact early.blocks.trans late.blocks

/-- The program returns a good value or stops with one of the faults, and it is quiet. -/
def Keeps (bad : Fault → Prop) (pool : PoolId) (array : Nat) {A : Type} (program : Action A) (result : A → Prop) : Prop :=
  ∀ start, Meets (fun world => world = start) program
    (fun value world => Quiet pool array start world ∧ result value)
    (fun fault world => Quiet pool array start world ∧ bad fault)

variable {A B : Type} {bad : Fault → Prop} {program : Action A} {result : A → Prop}

/-- A value changes nothing. -/
theorem Keeps.pure {value : A} (holds : result value) :
    Keeps bad pool array (pure value : Action A) result := by
  intro start
  exact meets_pure fun world same => ⟨same ▸ Quiet.refl pool array world, holds⟩

/-- An expected fault stops the program. -/
theorem Keeps.throw {fault : Fault} (expected : bad fault) :
    Keeps bad pool array (throw fault : Action A) result := by
  intro start
  exact meets_throw fun world same => ⟨same ▸ Quiet.refl pool array world, expected⟩

/-- Two programs that keep the pool do so behind each other. -/
theorem Keeps.bind {next : A → Action B} {final : B → Prop}
    (first : Keeps bad pool array program result)
    (rest : ∀ value, result value → Keeps bad pool array (next value) final) :
    Keeps bad pool array (program >>= next) final := by
  intro start
  apply Meets.bind (first start)
  intro value
  apply meets_pointwise
  rintro middle ⟨early, holds⟩
  exact (rest value holds middle).weaken (fun _ same => same)
    (fun _ _ ended => ⟨early.trans ended.1, ended.2⟩)
    (fun _ _ left => ⟨early.trans left.1, left.2⟩)

/-- The result may be described more weakly. -/
theorem Keeps.weaken {weaker : A → Prop} (keeps : Keeps bad pool array program result)
    (implies : ∀ value, result value → weaker value) : Keeps bad pool array program weaker := by
  intro start
  exact (keeps start).weaken (fun _ same => same)
    (fun value _ ended => ⟨ended.1, implies value ended.2⟩) (fun _ _ left => left)

/-- A quiet update keeps the pool. -/
theorem Keeps.modify {update : World → World} {after : PUnit → Prop}
    (quiet : ∀ world, Quiet pool array world (update world)) (holds : after ⟨⟩) :
    Keeps bad pool array (modify update : Action PUnit) after := by
  intro start
  exact meets_modify fun world same => ⟨same ▸ quiet world, holds⟩

/-- A loop keeps the pool when its body does. -/
theorem Keeps.each {I : Type} {items : List I} {body : I → Action Unit}
    (each : ∀ item ∈ items, Keeps bad pool array (body item) fun _ => True) :
    Keeps bad pool array (Program.each items body) fun _ => True := by
  induction items with
  | nil => exact .pure trivial
  | cons item rest ih =>
    apply Keeps.bind (each item mem_cons_self)
    intro _ _
    exact ih fun other member => each other (mem_cons_of_mem _ member)

theorem Keeps.when {condition : Bool} {body : Action Unit}
    (keeps : Keeps bad pool array body fun _ => True) :
    Keeps bad pool array (Program.when condition body) fun _ => True := by
  cases condition with
  | true => exact keeps
  | false => exact .pure trivial

/-- A check that holds changes nothing. -/
theorem check_keeps {holds : Bool} (met : holds = true) (fault : Fault) :
    Keeps bad pool array (check holds fault) fun _ => True := by
  rw [check, met]
  exact .pure trivial

end Relations

section Sets

variable {bad : Fault → Prop} {pool : PoolId} {array : Nat} (answers : Answers)

/-- A command touches no block. -/
theorem enqueue_quiet (world : World) (command : Command) :
    Quiet pool array world (world.enqueue command) := by
  unfold World.enqueue
  split
  · exact .refl pool array world
  · split <;>
    exact ⟨⟨rfl, rfl, rfl, fun _ member => Or.inl member, fun _ member => member⟩, rfl, rfl, rfl,
      rfl, rfl, fun _ _ => rfl, .refl array _⟩

theorem enqueue_keeps (command : Command) :
    Keeps bad pool array (enqueue command) fun _ => True :=
  .modify (fun world => enqueue_quiet world command) trivial

theorem send_keeps (request : Request) : Keeps bad pool array (send request) fun _ => True :=
  .modify (fun _ => ⟨⟨rfl, rfl, rfl, fun _ member => Or.inl member, fun _ member => member⟩, rfl,
    rfl, rfl, rfl, rfl, fun _ _ => rfl, .refl array _⟩) trivial

/-- A new block comes behind the others. -/
theorem allocate_quiet (use : Use) (world : World) : Quiet pool array world { world with
    blocks := update world.blocks pool (world.blocks pool ++ [⟨array, use⟩]) } := by
  constructor
  case looks => exact ⟨rfl, rfl, rfl, fun _ member => Or.inl member, fun _ member => member⟩
  case others => exact fun other away => update_of_ne away _ _
  case blocks => exact ⟨[⟨array, use⟩], by simp, by simp⟩
  all_goals rfl

theorem allocate_keeps (use : Use) :
    Keeps bad pool array (allocate pool ⟨array, use⟩) fun _ => True :=
  .modify (allocate_quiet use) trivial

/-- A look at the listing is recorded with its callback. -/
theorem setExists_consults (name : Name) (start : World) :
    Meets (fun world => world = start) (setExists answers name)
      (fun _ world => Quiet pool array start world ∧
        ⟨start.callback, start.source⟩ ∈ world.consultations)
      (fun _ _ => False) := by
  rintro world rfl
  simp only [setExists, eval_bind, eval_get, eval_modify, eval_pure]
  have same : (world.existingSets.getD ⟨world.callback, answers.existing⟩).callback =
      world.source := by
    unfold World.source
    cases world.existingSets <;> rfl
  rw [same]
  refine ⟨⟨⟨rfl, ?_, rfl, ?_, ?_⟩, rfl, rfl, rfl, rfl, rfl, fun _ _ => rfl, .refl array _⟩,
    by simp⟩
  · exact same
  · simp only [mem_append, mem_singleton]
    exact fun _ member => member
  · exact fun _ member => mem_append_left _ member

theorem setExists_keeps (name : Name) :
    Keeps bad pool array (setExists answers name) fun _ => True := by
  intro start
  exact (setExists_consults answers name start).weaken (fun _ same => same)
    (fun _ _ ended => ⟨ended.1, trivial⟩) (fun _ _ impossible => impossible.elim)

/-- The creation of a set may look at the listing. -/
theorem setCreate_keeps (set : PooledSet) :
    Keeps bad pool array (setCreate answers set) fun _ => True := by
  apply Keeps.bind (setExists_keeps answers set.name)
  intro _ _
  exact .when (enqueue_keeps _)

/-- A missing text of a command is an expected fault. -/
theorem enqueueAll_keeps (commands : Option (List Command)) :
    Keeps Fault.Expected pool array (enqueueAll commands) fun _ => True := by
  cases commands with
  | none => exact .throw (Or.inr (Or.inl rfl))
  | some commands => exact .each fun command _ => enqueue_keeps command

variable {set : PooledSet}

/-- A set that is not being replaced gets a temporary name. -/
theorem replaceStart_keeps (idle : set.tmpName = none) :
    Keeps bad pool array (replaceStart answers set)
      fun started => started = { set with tmpName := some (set.name ++ repSuffix) } := by
  rw [replaceStart, idle]
  apply Keeps.bind (setCreate_keeps answers set)
  intro _ _
  apply Keeps.bind (setExists_keeps answers _)
  intro left _
  apply Keeps.bind (.when (enqueue_keeps _))
  intro _ _
  apply Keeps.bind (enqueue_keeps _)
  intro _ _
  exact .pure rfl

/-- The set gets its own name back. -/
theorem replaceEnd_keeps {tmpName : Name} (busy : set.tmpName = some tmpName) :
    Keeps bad pool array (replaceEnd set) fun ended => ended = { set with tmpName := none } := by
  rw [replaceEnd, busy]
  apply Keeps.bind (enqueue_keeps _)
  intro _ _
  apply Keeps.bind (enqueue_keeps _)
  intro _ _
  exact .pure rfl

/-- A reload gives back the set that it was given. -/
theorem setReload_keeps (idle : set.tmpName = none) :
    Keeps Fault.Expected pool array (setReload answers set) fun reloaded => reloaded = set := by
  apply Keeps.bind (replaceStart_keeps answers idle)
  rintro _ rfl
  apply Keeps.bind (.each fun address _ => enqueueAll_keeps _)
  intro _ _
  apply (replaceEnd_keeps rfl).weaken
  rintro _ rfl
  rw [← idle]

end Sets

end Ucollect.Fwup.Callbacks
