import Ucollect.Proof.Fwup.Reclaiming

namespace Ucollect.Fwup.Callbacks
open Library Diffstore List Option

section Consultations

variable {bad : Fault → Prop} {pool : PoolId} {array : Nat} (answers : Answers)

/-- The program consults the list at least once, whether it returns or not. -/
def Consults {A : Type} (program : Action A) : Prop :=
  ∀ start, Meets (fun world => world = start) program
    (fun _ world => ⟨start.callback, start.source⟩ ∈ world.consultations)
    (fun _ world => ⟨start.callback, start.source⟩ ∈ world.consultations)

variable {A B : Type} {program : Action A} {result : A → Prop}

/-- What follows a consultation keeps it in the log. -/
theorem Consults.bind {next : A → Action B} {final : B → Prop} (consults : Consults program)
    (keeps : Keeps bad pool array program result)
    (rest : ∀ value, result value → Keeps bad pool array (next value) final) :
    Consults (program >>= next) := by
  intro start
  have both := (consults start).both (keeps start)
  have first : Meets (fun world => world = start) program
      (fun value world => ⟨start.callback, start.source⟩ ∈ world.consultations ∧ result value)
      (fun _ world => ⟨start.callback, start.source⟩ ∈ world.consultations) :=
    both.weaken (fun _ same => ⟨same, same⟩) (fun _ _ ended => ⟨ended.1, ended.2.2⟩)
      fun _ _ left => left.1
  apply Meets.bind first
  intro value
  apply meets_pointwise
  rintro middle ⟨logged, holds⟩
  exact (rest value holds middle).weaken (fun _ same => same)
    (fun _ _ ended => ended.1.looks.kept _ logged) fun _ _ left => left.1.looks.kept _ logged

theorem setExists_logs (name : Name) : Consults (setExists answers name) := by
  intro start
  exact (@setExists_consults .first 0 answers name start).weaken (fun _ same => same)
    (fun _ _ ended => ended.2) fun _ _ impossible => impossible.elim

theorem setCreate_logs (set : PooledSet) : Consults (setCreate answers set) :=
  @Consults.bind Fault.Expected .first 0 _ _ _ _ _ _ (setExists_logs answers set.name)
    (setExists_keeps answers set.name) fun _ _ => .when (enqueue_keeps _)

/-- A replacement asks whether the set exists before it does anything else. -/
theorem replaceStart_logs {set : PooledSet} (idle : set.tmpName = none) :
    Consults (replaceStart answers set) := by
  rw [replaceStart, idle]
  apply @Consults.bind Fault.Expected .first 0 _ _ _ _ _
    (fun started => started = { set with tmpName := some (set.name ++ repSuffix) })
    (setCreate_logs answers set) (setCreate_keeps answers set)
  intro _ _
  apply Keeps.bind (setExists_keeps answers _)
  intro _ _
  apply Keeps.bind (.when (enqueue_keeps _))
  intro _ _
  apply Keeps.bind (enqueue_keeps _)
  intro _ _
  exact .pure rfl

theorem setReload_logs {set : PooledSet} (idle : set.tmpName = none) :
    Consults (setReload answers set) := by
  apply @Consults.bind Fault.Expected .first 0 _ _ _ _ _ (fun reloaded => reloaded = set)
    (replaceStart_logs answers idle) (replaceStart_keeps answers idle)
  rintro _ rfl
  apply Keeps.bind (.each fun address _ => enqueueAll_keeps _)
  intro _ _
  apply (replaceEnd_keeps rfl).weaken
  rintro _ rfl
  rw [← idle]

/-- The reload of at least one set consults the list. -/
theorem reloadAll_logs {sets : List PooledSet} (some : sets ≠ [])
    (idle : ∀ set ∈ sets, set.tmpName = none) : Consults (reloadAll answers sets) := by
  cases sets with
  | nil => exact absurd rfl some
  | cons set rest =>
    rw [forall_mem_cons] at idle
    have others := @keeps_sets Fault.Expected .first 0 (reloadAll answers) (setReload answers)
      (fun _ => True) rfl (fun _ _ => rfl) rest fun other member =>
        (setReload_keeps answers (idle.2 other member)).weaken fun _ same => ⟨trivial, by rw [same]⟩
    have follows (final : PooledSet) : Keeps Fault.Expected .first 0
        (reloadAll answers rest >>= fun finals => pure (final :: finals)) fun _ => True :=
      Keeps.bind others fun _ _ => .pure trivial
    exact Consults.bind (setReload_logs answers idle.1) (setReload_keeps answers idle.1)
      fun final _ => follows final

end Consultations

section Callbacks

variable {world : World}

/-- The retry timeout reloads some sets with a list that an earlier callback has left. -/
def Event.Stale (world : World) : Event → Prop
  | .retryTimeout _ => world.broken = true ∧ world.sets ≠ [] ∧ world.existingSets.isSome
  | _ => False

instance (world : World) (event : Event) : Decidable (event.Stale world) := by
  unfold Event.Stale
  cases event <;> infer_instance

theorem retryTimeout_logs (answers : Answers) (resting : world.Resting) (broken : world.broken = true)
    (some : world.sets ≠ []) :
    Meets (fun start => start = world) (retryTimeout answers)
      (fun _ final => ⟨world.callback, world.source⟩ ∈ final.consultations)
      (fun _ final => ⟨world.callback, world.source⟩ ∈ final.consultations) := by
  have idle : ∀ set ∈ world.sets, set.tmpName = none := fun set member =>
    (resting.settled set member).1.idle
  apply meets_get
  intro start same
  rw [same, broken]
  apply modify_meets
  apply meets_get
  intro retried equal
  rw [equal]
  apply Meets.bind (reloadAll_logs answers some idle { world with broken := false })
  intro _
  exact meets_modify fun _ logged => logged

/-- A stale timeout consults the old list. -/
theorem step_stale (resting : world.Resting) {event : Event} (stale : event.Stale world) :
    ∃ consultation ∈ (world.step event).consultations,
      consultation.listing ≠ consultation.callback := by
  cases event with
  | retryTimeout answers =>
    obtain ⟨broken, some, cached⟩ := stale
    have spec := retryTimeout_logs answers (resting.enter (.retryTimeout answers)) broken some _ rfl
    have old : (world.enter (.retryTimeout answers)).source ≤ world.callback := by
      obtain ⟨listing, same⟩ := isSome_iff_exists.mp cached
      have before := resting.source
      simp only [World.source, World.enter, same] at before ⊢
      exact before
    let entered := world.enter (.retryTimeout answers)
    refine ⟨⟨entered.callback, entered.source⟩, ?_, ?_⟩
    · simp only [World.step, handle]
      cases ran : (retryTimeout answers).eval (world.enter (.retryTimeout answers)) with
      | mk result final =>
        rw [ran] at spec
        cases result <;> exact spec
    · exact Nat.ne_of_lt (Nat.lt_succ_of_le old)
  | message text answers => exact stale.elim
  | childDied failed => exact stale.elim
  | other => exact stale.elim

/-- Every other callback consults a list of its own or none. -/
theorem step_fresh (resting : world.Resting) {event : Event} (calm : ¬ event.Stale world) :
    ∀ consultation ∈ (world.step event).consultations, consultation ∈ world.consultations ∨
      consultation.listing = consultation.callback := by
  have fresh (own : (event.prepare world).source = world.callback + 1) :
      ∀ consultation ∈ (world.step event).consultations, consultation ∈ world.consultations ∨
        consultation.listing = consultation.callback := by
    intro consultation member
    rcases (step_spec resting event).consulted consultation member with before | new
    · exact Or.inl before
    · exact Or.inr (by rw [new]; exact own)
  cases event with
  | message text answers => exact fresh rfl
  | retryTimeout answers =>
    by_cases broken : world.broken = true
    · by_cases none : world.sets = []
      · have same : (world.step (.retryTimeout answers)).consultations = world.consultations := by
          simp [World.step, handle, retryTimeout, setsReload, reloadAll, eval_bind, Program.when,
            World.enter, broken, none]
        rw [same]
        exact fun _ => Or.inl
      · have empty : world.existingSets = Option.none := by
          by_contra cached
          exact calm ⟨broken, none, isSome_iff_ne_none.mpr cached⟩
        exact fresh (by simp [Event.prepare, World.enter, World.source, empty])
    · have same : (world.step (.retryTimeout answers)).consultations = world.consultations := by
        simp [World.step, handle, retryTimeout, eval_bind, Program.when, World.enter, broken]
      rw [same]
      exact fun _ => Or.inl
  | childDied failed =>
    have same : (world.step (.childDied failed)).consultations = world.consultations := by
      cases failed <;> rfl
    rw [same]
    exact fun _ => Or.inl
  | other => exact fun _ => Or.inl

/-- Each consultation of a run uses a list that was read in the same callback exactly where every
retry timeout that reloads some sets finds the cache empty. -/
theorem run_fresh_iff (events : List Event) :
    (∀ consultation ∈ (run events).consultations,
      consultation.listing = consultation.callback) ↔
      ∀ before event, before ++ [event] <+: events → ¬ event.Stale (run before) := by
  induction events using List.reverseRecOn with
  | nil => simp [run, World.start]
  | append_singleton early last ih =>
    have step := run_stepped early last
    constructor
    · intro fresh before event inside stale
      rcases prefix_concat_iff.mp inside with whole | within
      · obtain ⟨rfl, same⟩ := append_inj' whole rfl
        cases same
        obtain ⟨consultation, member, old⟩ := step_stale (run_resting before) stale
        exact old (fresh consultation (by rwa [run_append]))
      · exact ih.mp (fun consultation member => fresh consultation (step.kept _ member)) before
          event within stale
    · intro calm consultation member
      rw [run_append] at member
      have now := calm early last (prefix_refl _)
      rcases step_fresh (run_resting early) now consultation member with before | new
      · exact ih.mpr (fun before event inside => calm before event
          (inside.trans (prefix_append _ _))) consultation before
      · exact new

theorem single_distinct :
    (([⟨[97], 105, 10, 10⟩] : List SetConfig).map SetConfig.name).Nodup := by decide

/-- A set is configured, its first command fails, and it is reloaded a minute later. -/
def retried : List Event :=
  let answers : Answers := ⟨fun _ => false, fun _ _ => [], none⟩
  [.message (some (.config ⟨1, [⟨[97], 105, 10, 10⟩], single_distinct⟩)) answers, .childDied true,
    .retryTimeout answers]

/-- The third callback consults the list of the first one. -/
theorem run_retried :
    (run retried).consultations = [⟨1, 1⟩, ⟨3, 1⟩, ⟨3, 1⟩] ∧
      ¬ ∀ consultation ∈ (run retried).consultations,
        consultation.listing = consultation.callback := by
  decide +kernel

end Callbacks

end Ucollect.Fwup.Callbacks
