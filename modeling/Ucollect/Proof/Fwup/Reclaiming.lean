import Ucollect.Proof.Fwup.Updates

namespace Ucollect.Fwup.Callbacks
open Library Diffstore List

section Steps

variable {bad : Fault → Prop} {world : World}

/-- A message starts with an empty cache. -/
def Event.prepare (world : World) : Event → World
  | .message text answers => { world.enter (.message text answers) with existingSets := none }
  | event => world.enter event

/-- The event makes the plugin reload its sets. -/
def Event.Reloads (world : World) : Event → Prop
  | .message (some (.version configVersion name epoch version)) _ =>
    Triggers world configVersion name epoch version
  | _ => False

instance (world : World) (event : Event) : Decidable (event.Reloads world) := by
  unfold Event.Reloads
  split <;> infer_instance

/-- The pools after a callback depend on whether it reloads the sets. -/
def Pools (event : Event) (world final : World) : Prop :=
  if event.Reloads world then Exchanges (world.blocks world.confPool) world final
  else Grows world final ∨ Exchanges [] world final

theorem Grows.of_eq {first other final : World} (grows : Grows other final)
    (array : other.array = first.array) (confPool : other.confPool = first.confPool)
    (standbyPool : other.standbyPool = first.standbyPool) (blocks : other.blocks = first.blocks) :
    Grows first final := by
  obtain ⟨a, b, c, d, e⟩ := grows
  rw [array] at a e
  rw [confPool] at b
  rw [standbyPool] at c
  rw [blocks] at d e
  rw [confPool] at e
  rw [standbyPool] at d
  exact ⟨a, b, c, d, e⟩

theorem Exchanges.of_eq {left : List Block} {first other final : World}
    (exchanges : Exchanges left other final) (array : other.array = first.array)
    (confPool : other.confPool = first.confPool)
    (standbyPool : other.standbyPool = first.standbyPool) (blocks : other.blocks = first.blocks) :
    Exchanges left first final := by
  obtain ⟨a, b, c, d, e⟩ := exchanges
  rw [array] at a e
  rw [confPool] at c d
  rw [standbyPool] at b e
  rw [blocks] at e
  exact ⟨a, b, c, d, e⟩

/-- The world may change before a part of a callback. -/
theorem modify_meets {update : World → World} {next : PUnit → Action Unit}
    {after : Unit → World → Prop} {leaves : Fault → World → Prop}
    (rest : Meets (fun start => start = update world) (next ⟨⟩) after leaves) :
    Meets (fun start => start = world) (modify update >>= next) after leaves :=
  Meets.bind (meets_modify fun _ same => by rw [same]) fun _ => rest

/-- A list in the cache is older than the callback that is about to start. -/
theorem World.Resting.enter (resting : world.Resting) (event : Event) :
    (world.enter event).Resting := by
  refine ⟨resting.settled, resting.distinct, resting.pools, resting.held, ?_⟩
  have before := resting.source
  simp only [World.source, World.enter] at before ⊢
  cases cached : world.existingSets <;> simp [cached] at before ⊢
  omega

/-- A callback ends at rest, and only an unexpected message makes it fail. -/
theorem handle_ends (resting : world.Resting) (event : Event) :
    Meets (fun start => start = world.enter event) (handle event)
      (fun _ final => final.Resting ∧ Looks (event.prepare world) final ∧ Pools event world final)
      (fun fault final => Looks (event.prepare world) final ∧ fault.Expected ∧
        ¬ event.Reloads world) := by
  have calm {start : World} {program : Action Unit} {after : World → Prop}
      (none : ¬ event.Reloads world) (ends : Ends Fault.Expected start program after)
      (looks : Looks (event.prepare world) start)
      (pools : ∀ final, after final → Grows world final ∨ Exchanges [] world final) :
      Meets (fun current => current = start) program
        (fun _ final => final.Resting ∧ Looks (event.prepare world) final ∧ Pools event world final)
        (fun fault final => Looks (event.prepare world) final ∧ fault.Expected ∧
          ¬ event.Reloads world) := by
    apply Meets.weaken ends (fun _ same => same)
    · rintro _ final ⟨rests, looked, ended⟩
      exact ⟨rests, looks.trans looked, by rw [Pools, if_neg none]; exact pools final ended⟩
    · rintro _ final ⟨looked, expected⟩
      exact ⟨looks.trans looked, expected, none⟩
  have entered := resting.enter event
  cases event with
  | message text answers =>
    apply modify_meets
    have prepared : (Event.prepare world (.message text answers)).Resting :=
      ⟨resting.settled, resting.distinct, resting.pools, resting.held, le_rfl⟩
    cases text with
    | none =>
      apply meets_throw
      rintro _ rfl
      exact ⟨.refl _, Or.inr (Or.inr rfl), not_false⟩
    | some message =>
      cases message with
      | config config =>
        refine calm not_false (configParse_ends answers prepared config) (.refl _) ?_
        rintro final (grows | exchanges)
        · exact Or.inl (grows.of_eq rfl rfl rfl rfl)
        · exact Or.inr (exchanges.of_eq rfl rfl rfl rfl)
      | version configVersion name epoch version =>
        apply Meets.weaken (versionReceived_ends answers prepared configVersion name epoch
          version) (fun _ same => same)
        · rintro _ final ⟨rests, looks, ended⟩
          refine ⟨rests, looks, ?_⟩
          unfold Pools
          split at ended
          · rename_i triggers
            have reloads : Event.Reloads world (.message (some (.version configVersion name
              epoch version)) answers) := triggers
            rw [if_pos reloads]
            exact ended.1.of_eq rfl rfl rfl rfl
          · rename_i calm
            have none : ¬ Event.Reloads world (.message (some (.version configVersion name
              epoch version)) answers) := calm
            rw [if_neg none]
            exact Or.inl (ended.1.of_eq rfl rfl rfl rfl)
        · rintro fault final ⟨looks, impossible⟩
          exact False.elim impossible
      | diff configVersion name full epoch fromVersion toVersion data =>
        exact calm not_false (diffReceived_ends answers prepared configVersion name full epoch
          fromVersion toVersion data) (.refl _) fun _ ended =>
            Or.inl (ended.1.of_eq rfl rfl rfl rfl)
      | reload =>
        exact calm not_false (setsReload_ends answers prepared) (.refl _) fun _ ended =>
          Or.inl (ended.1.of_eq rfl rfl rfl rfl)
      | other =>
        exact calm not_false (.stay prepared) (.refl _) fun _ ended =>
          Or.inl (ended.1.of_eq rfl rfl rfl rfl)
  | retryTimeout answers =>
    apply meets_get
    rintro _ rfl
    cases broken : (world.enter (.retryTimeout answers)).broken with
    | false =>
      exact calm not_false (.stay entered) (.refl _) fun _ ended =>
        Or.inl (ended.1.of_eq rfl rfl rfl rfl)
    | true =>
      apply modify_meets
      have retried : { world.enter (.retryTimeout answers) with broken := false }.Resting :=
        ⟨resting.settled, resting.distinct, resting.pools, resting.held, entered.source⟩
      exact calm not_false (setsReload_ends answers retried)
        ⟨rfl, rfl, rfl, fun _ member => Or.inl member, fun _ member => member⟩
        fun _ ended => Or.inl (ended.1.of_eq rfl rfl rfl rfl)
  | childDied failed =>
    cases failed with
    | false =>
      exact calm not_false (.stay entered) (.refl _) fun _ ended =>
        Or.inl (ended.1.of_eq rfl rfl rfl rfl)
    | true =>
      apply meets_modify
      rintro _ rfl
      refine ⟨⟨resting.settled, resting.distinct, resting.pools, resting.held, entered.source⟩,
        ⟨rfl, rfl, rfl, fun _ member => Or.inl member, fun _ member => member⟩, ?_⟩
      rw [Pools, if_neg (show ¬ Event.Reloads world (.childDied true) from not_false)]
      exact Or.inl ⟨rfl, rfl, rfl, rfl, .refl _ _⟩
  | other =>
    exact calm not_false (.stay entered) (.refl _) fun _ ended =>
      Or.inl (ended.1.of_eq rfl rfl rfl rfl)

/-- A plugin that was started again holds no blocks. -/
def Released (final : World) : Prop := final.sets = [] ∧ ∀ pool, final.blocks pool = []

/-- This is all that one callback can do to the sets, the pools and the logs. -/
structure Stepped (event : Event) (world final : World) : Prop where
  resting : final.Resting
  callback : final.callback = world.callback + 1
  faults : ∀ fault ∈ final.faults, fault ∈ world.faults ∨ fault.Expected
  consulted : ∀ consultation ∈ final.consultations, consultation ∈ world.consultations ∨
    consultation = ⟨world.callback + 1, (event.prepare world).source⟩
  kept : ∀ consultation ∈ world.consultations, consultation ∈ final.consultations
  pools : Pools event world final ∨ ¬ event.Reloads world ∧ Released final

theorem prepare_logs (world : World) (event : Event) :
    (event.prepare world).callback = world.callback + 1 ∧
      (event.prepare world).faults = world.faults ∧
      (event.prepare world).consultations = world.consultations := by
  cases event <;> exact ⟨rfl, rfl, rfl⟩

theorem step_spec (resting : world.Resting) (event : Event) :
    Stepped event world (world.step event) := by
  have spec := handle_ends resting event _ rfl
  obtain ⟨callback, faults, consultations⟩ := prepare_logs world event
  unfold World.step
  cases ran : (handle event).eval (world.enter event) with
  | mk result final =>
    rw [ran] at spec
    cases result with
    | ok value =>
      obtain ⟨rests, looks, pools⟩ := spec
      constructor
      case resting => exact rests
      case callback => exact looks.callback.trans callback
      case faults =>
        rw [looks.faults, faults]
        exact fun _ => Or.inl
      case consulted =>
        rw [← callback, ← consultations]
        exact looks.consulted
      case kept =>
        rw [← consultations]
        exact looks.kept
      case pools => exact Or.inl pools
    | error fault =>
      obtain ⟨looks, expected, none⟩ := spec
      constructor
      case resting =>
        exact ⟨by simp [World.restart, World.start], by simp [World.restart, World.start, names],
          by simp [World.restart, World.start], by simp [World.restart, World.start], le_rfl⟩
      case callback => exact looks.callback.trans callback
      case faults =>
        simp only [World.restart, looks.faults, faults, mem_append, mem_singleton]
        rintro other (before | rfl)
        · exact Or.inl before
        · exact Or.inr expected
      case consulted =>
        rw [← callback, ← consultations]
        exact looks.consulted
      case kept =>
        rw [← consultations]
        exact looks.kept
      case pools => exact Or.inr ⟨none, rfl, fun _ => rfl⟩

end Steps

section Runs

theorem run_append (before : List Event) (event : Event) :
    run (before ++ [event]) = (run before).step event := by
  simp [run]

theorem start_resting : World.start.Resting :=
  ⟨by simp [World.start], by simp [World.start, names], by simp [World.start],
    by simp [World.start], le_rfl⟩

theorem run_resting (events : List Event) : (run events).Resting := by
  induction events using List.reverseRecOn with
  | nil => exact start_resting
  | append_singleton before event ih =>
    rw [run_append]
    exact (step_spec ih event).resting

theorem run_stepped (before : List Event) (event : Event) :
    Stepped event (run before) (run (before ++ [event])) := by
  rw [run_append]
  exact step_spec (run_resting before) event

/-- Between two callbacks every set is valid or waits for data and has no temporary name, and only
the contents of a message ever make a check fail. -/
theorem run_states (events : List Event) :
    (∀ set ∈ (run events).sets, (set.state = .valid ∨ set.state = .pending) ∧ set.tmpName = none) ∧
      ∀ fault ∈ (run events).faults,
        fault = .corruptDiff ∨ fault = .addressSize ∨ fault = .malformed := by
  constructor
  · intro set member
    have settled := ((run_resting events).settled set member).1
    exact ⟨settled.state, settled.idle⟩
  · induction events using List.reverseRecOn with
    | nil => simp [run, World.start]
    | append_singleton before event ih =>
      intro fault member
      rcases (run_stepped before event).faults fault member with early | expected
      · exact ih fault early
      · exact expected

/-- Nothing is left of the previous sets. -/
structure World.Reclaimed (world : World) : Prop where
  standby : world.blocks world.standbyPool = []
  conf : ∀ block ∈ world.blocks world.confPool, block.array = world.array

theorem World.Reclaimed.exchanges {world final : World} (reclaimed : world.Reclaimed)
    (exchanges : Exchanges [] world final) : final.Reclaimed := by
  obtain ⟨more, same, own⟩ := exchanges.conf
  constructor
  · rw [exchanges.standbyPool]
    exact exchanges.standby
  · rw [exchanges.confPool, exchanges.array, same, reclaimed.standby]
    exact own

theorem World.Reclaimed.grows {world final : World} (reclaimed : world.Reclaimed)
    (grows : Grows world final) : final.Reclaimed := by
  obtain ⟨more, same, own⟩ := grows.conf
  constructor
  · rw [grows.standbyPool, grows.standby]
    exact reclaimed.standby
  · rw [grows.confPool, grows.array, same]
    intro block member
    rcases mem_append.mp member with before | new
    · exact reclaimed.conf block before
    · exact own block new

/-- A reload needs a set, and the sets hold blocks. -/
theorem Event.Reloads.held {world : World} {event : Event} (reloads : event.Reloads world)
    (resting : world.Resting) : world.blocks world.confPool ≠ [] := by
  apply resting.held
  intro none
  unfold Event.Reloads at reloads
  split at reloads
  · obtain ⟨_, set, found, _⟩ := reloads
    simp [setFind, none] at found
  · exact reloads

/-- The standby pool is empty and the other pool holds nothing but the current sets between all
callbacks of a run exactly where no callback of the run reloads the sets. -/
theorem run_reclaimed_iff (events : List Event) :
    (∀ before, before <+: events → (run before).Reclaimed) ↔
      ∀ before event, before ++ [event] <+: events → ¬ event.Reloads (run before) := by
  constructor
  · intro reclaimed before event inside reloads
    have after := reclaimed _ inside
    have held := reloads.held (run_resting before)
    rcases (run_stepped before event).pools with pools | ⟨none, _⟩
    · rw [Pools, if_pos reloads] at pools
      apply held
      rw [← pools.standby, ← pools.standbyPool]
      exact after.standby
    · exact none reloads
  · intro calm before
    induction before using List.reverseRecOn with
    | nil => exact fun _ => ⟨rfl, by simp [run, World.start]⟩
    | append_singleton before event ih =>
      intro inside
      have reclaimed := ih ((prefix_append before [event]).trans inside)
      rcases (run_stepped before event).pools with pools | ⟨_, _, released⟩
      · rw [Pools, if_neg (calm before event inside)] at pools
        rcases pools with grows | exchanges
        · exact reclaimed.grows grows
        · exact reclaimed.exchanges exchanges
      · exact ⟨released _, by simp [released]⟩

/-- One address is sent in full again and again, and then a newer version is offered. -/
def offered : List Event :=
  let answers : Answers := ⟨fun _ => false, fun _ _ => [[10, 0, 0, 1]], none⟩
  .message (some (.config ⟨1, [⟨[97], 105, 10, 10⟩], by decide⟩)) answers ::
    List.replicate 102 (.message (some (.diff 1 [97] true 1 0 1 [5, 10, 0, 0, 1])) answers) ++
    [.message (some (.version 1 [97] 1 2)) answers]

/-- The offer reloads the sets, and the next message finds the old ones in the standby pool. -/
theorem run_offered :
    (run offered).blocks (run offered).standbyPool ≠ [] ∧ ¬ (run offered).Reclaimed := by
  have held : (run offered).blocks (run offered).standbyPool ≠ [] := by decide +kernel
  exact ⟨held, fun reclaimed => held reclaimed.standby⟩

end Runs

end Ucollect.Fwup.Callbacks
