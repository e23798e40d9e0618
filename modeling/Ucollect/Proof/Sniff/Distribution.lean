import Ucollect.Proof.Sniff.Reports

/-
This file proves how the tasks are distributed, in every run of the server.
-/

namespace Ucollect.Sniff
open Library List Function

/-- These are the notes of one task. -/
def notesOf (task : Nat) (notes : List (Nat × Note)) : List Note :=
  notes.filterMap fun pair => if pair.1 = task then some pair.2 else none

section Notes

variable {task other : Nat} {notes : List Note} {first second : List (Nat × Note)}

theorem notesOf_append : notesOf task (first ++ second) = notesOf task first ++ notesOf task second :=
  filterMap_append

/-- A task reads back its own notes. -/
theorem notesOf_own : notesOf task (notes.map fun note => (task, note)) = notes := by
  rw [notesOf, filterMap_map]
  have same : (fun pair : Nat × Note => if pair.1 = task then some pair.2 else none) ∘
      (fun note => (task, note)) = some := by
    funext note
    exact if_pos rfl
  rw [same, filterMap_some]

/-- It sees none of the others. -/
theorem notesOf_other (different : other ≠ task) :
    notesOf other (notes.map fun note => (task, note)) = [] := by
  rw [notesOf, filterMap_map, filterMap_eq_nil_iff]
  exact fun note _ => if_neg different.symm

end Notes

/-- The notes are all that the tasks have caused, and who holds a task waits for a timeout. -/
structure World.Fair (world : World) (notes : List (Nat × Note)) : Prop where
  tasks : ∀ task, (world.tasks task).Fair world.parallelLimit (notesOf task notes)
  pending : ∀ task, ∀ client ∈ (world.tasks task).activeClients, (task, client) ∈ world.timeouts
  unborn : ∀ task, world.taskCount ≤ task → world.tasks task = .new ∧ notesOf task notes = []
  known : ∀ taskId task, world.activeTasks taskId = some task → task < world.taskCount
  timely : ∀ entry ∈ world.timeouts, entry.1 < world.taskCount

section Fairness

variable {world : World} {notes : List (Nat × Note)} {task : Nat} {result : Result}

theorem mem_put_timeouts {entry : Nat × Bytes} :
    entry ∈ (world.put task result).1.timeouts ↔
      entry ∈ world.timeouts ∨ entry.1 = task ∧ .callLater entry.2 ∈ result.notes := by
  rw [World.put]
  dsimp only
  rw [mem_append, List.mem_map]
  refine or_congr Iff.rfl ⟨?_, ?_⟩
  · rintro ⟨client, member, rfl⟩
    obtain ⟨note, inside, later⟩ := mem_filterMap.mp member
    cases note with
    | callLater other =>
      cases later
      exact ⟨rfl, inside⟩
    | send _ _ => cases later
    | abort _ => cases later
    | success _ _ => cases later
    | failure _ _ => cases later
    | finished _ => cases later
  · rintro ⟨rfl, inside⟩
    exact ⟨entry.2, mem_filterMap.mpr ⟨_, inside, rfl⟩, rfl⟩

/-- Storing a result changes its own task only. -/
theorem put_tasks (other : Nat) : (world.put task result).1.tasks other =
    if other = task then result.task else world.tasks other :=
  update_apply _ _ _ _

/-- A call changes its own task only. -/
theorem fair_put (others : ∀ other, other ≠ task →
      (world.tasks other).Fair world.parallelLimit (notesOf other notes) ∧
        ∀ client ∈ (world.tasks other).activeClients, (other, client) ∈ world.timeouts)
    (fair : result.task.Fair world.parallelLimit (notesOf task notes ++ result.notes))
    (waits : ∀ client ∈ result.task.activeClients,
      (task, client) ∈ world.timeouts ∨ .callLater client ∈ result.notes)
    (inside : task < world.taskCount)
    (unborn : ∀ other, world.taskCount ≤ other →
      world.tasks other = .new ∧ notesOf other notes = [])
    (known : ∀ taskId other, world.activeTasks taskId = some other → other < world.taskCount)
    (timely : ∀ entry ∈ world.timeouts, entry.1 < world.taskCount) :
    (world.put task result).1.Fair (notes ++ (world.put task result).2) := by
  constructor
  case tasks =>
    intro other
    rw [put_tasks, notesOf_append]
    split
    · next same =>
        subst same
        exact notesOf_own.symm ▸ fair
    · next different =>
        rw [World.put]
        dsimp only
        rw [notesOf_other different, append_nil]
        exact (others other different).1
  case pending =>
    intro other client member
    rw [put_tasks] at member
    rw [mem_put_timeouts]
    split at member
    · next same =>
        subst same
        exact (waits client member).imp_right fun later => ⟨rfl, later⟩
    · next different => exact .inl ((others other different).2 client member)
  case unborn =>
    intro other later
    have different : other ≠ task := (inside.trans_le later).ne'
    obtain ⟨new, silent⟩ := unborn other later
    rw [put_tasks, if_neg different, notesOf_append, silent]
    exact ⟨new, notesOf_other different⟩
  case known =>
    intro taskId other registered
    rw [World.put] at registered
    dsimp only at registered
    split at registered
    · rw [update_apply] at registered
      split at registered
      · cases registered
      · exact known taskId other registered
    · exact known taskId other registered
  case timely =>
    intro entry member
    rcases mem_put_timeouts.mp member with old | ⟨same, -⟩
    · exact timely entry old
    · rw [same]
      exact inside

section

variable (fair : world.Fair notes)
include fair

/-- A call in the world as it is. -/
theorem World.Fair.put (inside : task < world.taskCount)
    (kept : result.Keeps world.parallelLimit (world.tasks task) (notesOf task notes)) :
    (world.put task result).1.Fair (notes ++ (world.put task result).2) := by
  refine fair_put (fun other _ => ⟨fair.tasks other, fair.pending other⟩) kept.fair ?_ inside
    fair.unborn fair.known fair.timely
  intro client member
  exact (kept.waits client member).imp_left (fair.pending task client)

theorem World.Fair.still : world.Fair (notes ++ []) :=
  (append_nil notes).symm ▸ fair

/-- A new task starts fair. -/
theorem startTask_fair (attempts : List Attempt) :
    (world.startTask attempts).1.Fair (notes ++ (world.startTask attempts).2) := by
  obtain ⟨new, silent⟩ := fair.unborn world.taskCount le_rfl
  have running : Open (notesOf world.taskCount notes) := by
    rw [silent]
    exact fun _ member => absurd member not_mem_nil
  have kept := @start_keeps world.parallelLimit world.connected true attempts
    (world.tasks world.taskCount) _ (fair.tasks _) running ((world.lastId + 1) % 2 ^ 32)
  refine fair_put (fun other _ => ⟨fair.tasks other, fair.pending other⟩) kept.fair
    (fun client member => (kept.waits client member).imp_left (fair.pending _ client))
    (Nat.lt_succ_self _) (fun other later => fair.unborn other (Nat.le_of_succ_le later)) ?_
    fun entry member => (fair.timely entry member).trans (Nat.lt_succ_self _)
  intro taskId other registered
  dsimp only at registered
  rw [update_apply] at registered
  split at registered
  · cases registered
    exact Nat.lt_succ_self _
  · exact (fair.known taskId other registered).trans (Nat.lt_succ_self _)

/-- A running starter belongs to a task that was numbered. -/
theorem World.Fair.started (starter : (world.tasks task).starter = true) :
    task < world.taskCount := by
  by_contra later
  have unborn := (fair.unborn task (not_lt.mp later)).1
  rw [unborn] at starter
  cases starter

/-- A tick keeps the world fair. -/
theorem tick_fair (task : Nat) (attempts : List Attempt) :
    (world.tick task attempts).1.Fair (notes ++ (world.tick task attempts).2) := by
  rw [World.tick]
  split
  · next starter =>
      exact fair.put (fair.started starter)
        (distribute_keeps (fair.tasks task) ((fair.tasks task).going (.inl starter)))
  · exact fair.still

/-- So does a timeout. -/
theorem timeout_fair (index : Nat) (failureRaises : Bool) (attempts : List Attempt) :
    (world.timeout index failureRaises attempts).1.Fair
      (notes ++ (world.timeout index failureRaises attempts).2) := by
  rw [World.timeout]
  cases waiting : world.timeouts[index]? with
  | none => exact fair.still
  | some entry =>
    obtain ⟨task, client⟩ := entry
    obtain ⟨inside, same⟩ := List.getElem?_eq_some_iff.mp waiting
    have others : ∀ entry ∈ world.timeouts, entry ≠ (task, client) →
        entry ∈ world.timeouts.eraseIdx index := by
      intro entry member different
      obtain ⟨position, bound, here⟩ := mem_iff_getElem.mp member
      refine mem_eraseIdx_iff_getElem.mpr ⟨position, bound, ?_, here⟩
      rintro rfl
      exact different (here.symm.trans same)
    obtain ⟨kept, waits⟩ := @timeoutTask_keeps world.parallelLimit world.connected
      (world.registered task) attempts (world.tasks task) _ client failureRaises (fair.tasks task)
    refine fair_put (fun other different => ⟨fair.tasks other, fun holder member =>
        others _ (fair.pending other holder member) fun both => different (Prod.mk.inj both).1⟩)
      kept (fun holder member => ?_)
      (fair.timely _ (same ▸ getElem_mem inside)) fair.unborn fair.known
      fun entry member => fair.timely entry (mem_of_mem_eraseIdx member)
    refine (waits holder member).imp_left fun ⟨held, different⟩ => ?_
    exact others _ (fair.pending task holder held) fun both => different (Prod.mk.inj both).2

/-- So does an answer. -/
theorem messageFromClient_fair (client message : Bytes) (attempts : List Attempt) :
    (world.messageFromClient client message attempts).1.Fair
      (notes ++ (world.messageFromClient client message attempts).2) := by
  rw [World.messageFromClient]
  cases parseAnswer message with
  | none => exact fair.still
  | some parts =>
    dsimp only
    cases registered : world.activeTasks parts.1 with
    | none => exact fair.still
    | some task => exact fair.put (fair.known _ task registered) (answer_keeps (fair.tasks task))

theorem step_fair (event : Event) : (world.step event).1.Fair (notes ++ (world.step event).2) := by
  cases event with
  | connect client =>
    exact World.Fair.still ⟨fair.tasks, fair.pending, fair.unborn, fair.known, fair.timely⟩
  | disconnect client =>
    exact World.Fair.still ⟨fair.tasks, fair.pending, fair.unborn, fair.known, fair.timely⟩
  | start attempts => exact startTask_fair fair attempts
  | tick task attempts => exact tick_fair fair task attempts
  | timeout index failureRaises attempts => exact timeout_fair fair index failureRaises attempts
  | answer client message attempts => exact messageFromClient_fair fair client message attempts

/-- Every run stays fair. -/
theorem run_fair (events : List Event) :
    (world.run events).1.Fair (notes ++ (world.run events).2) := by
  induction events generalizing world notes with
  | nil => exact fair.still
  | cons event events ih =>
    have rest := ih (step_fair fair event)
    rw [append_assoc] at rest
    exact rest

end

theorem step_limit (world : World) (event : Event) :
    (world.step event).1.parallelLimit = world.parallelLimit := by
  cases event with
  | connect client => rfl
  | disconnect client => rfl
  | start attempts => rfl
  | tick task attempts =>
    rw [World.step, World.tick]
    split <;> rfl
  | timeout index failureRaises attempts =>
    rw [World.step, World.timeout]
    split <;> rfl
  | answer client message attempts =>
    rw [World.step, World.messageFromClient]
    split
    · rfl
    · split <;> rfl

theorem run_limit (world : World) (events : List Event) :
    (world.run events).1.parallelLimit = world.parallelLimit := by
  induction events generalizing world with
  | nil => rfl
  | cons event events ih => exact (ih _).trans (step_limit world event)

theorem new_fair (limit : Nat) : (World.new limit).Fair [] where
  tasks _ := fair_new limit
  pending _ _ member := absurd member not_mem_nil
  unborn _ _ := ⟨rfl, rfl⟩
  known _ _ registered := nomatch registered
  timely _ member := absurd member not_mem_nil

end Fairness

/-- Each answer of a client that holds its task is known, the exceptions do not follow a refusal, and
a new task gets an identifier that is free. -/
def World.Allows (world : World) : Event → Prop
  | .connect _ | .disconnect _ => True
  | .start attempts => Calm attempts ∧ world.activeTasks ((world.lastId + 1) % 2 ^ 32) = none
  | .tick _ attempts | .timeout _ _ attempts => Calm attempts
  | .answer client message attempts => Calm attempts ∧
      ∀ parts ∈ parseAnswer message, ∀ task ∈ world.activeTasks parts.1,
        client ∈ (world.tasks task).activeClients → Known parts.2.1

instance (world : World) (event : Event) : Decidable (world.Allows event) :=
  match event with
  | .connect _ | .disconnect _ => .isTrue trivial
  | .start attempts => inferInstanceAs (Decidable (Calm attempts ∧
      world.activeTasks ((world.lastId + 1) % 2 ^ 32) = none))
  | .tick _ attempts | .timeout _ _ attempts => inferInstanceAs (Decidable (Calm attempts))
  | .answer client message attempts => inferInstanceAs (Decidable (Calm attempts ∧
      ∀ parts ∈ parseAnswer message, ∀ task ∈ world.activeTasks parts.1,
        client ∈ (world.tasks task).activeClients → Known parts.2.1))

def World.Orderly (world : World) : List Event → Prop
  | [] => True
  | event :: events => world.Allows event ∧ (world.step event).1.Orderly events

instance decidableOrderly (world : World) : (events : List Event) → Decidable (world.Orderly events)
  | [] => .isTrue trivial
  | event :: events =>
    have := decidableOrderly (world.step event).1 events
    inferInstanceAs (Decidable (_ ∧ _))

/-- The reports are counted, and a task that runs is found by its identifier. -/
structure World.Settled (world : World) (notes : List (Nat × Note)) : Prop where
  counted : ∀ task, (world.tasks task).Counted (notesOf task notes)
  registered : ∀ task, (world.tasks task).running = true →
    world.activeTasks (world.tasks task).taskId = some task

section Reports

variable {world : World} {notes : List (Nat × Note)} {task : Nat} {result : Result}

theorem World.Settled.still (settled : world.Settled notes) : world.Settled (notes ++ []) :=
  (append_nil notes).symm ▸ settled

/-- A task that finishes takes no other one from the active tasks. -/
theorem World.Settled.put (settled : world.Settled notes)
    (settles : result.Settles (world.tasks task) (notesOf task notes)) :
    (world.put task result).1.Settled (notes ++ (world.put task result).2) := by
  constructor
  case counted =>
    intro other
    rw [put_tasks, notesOf_append]
    split
    · next same =>
        subst same
        exact notesOf_own.symm ▸ settles.counted
    · next different =>
        rw [World.put]
        dsimp only
        rw [notesOf_other different, append_nil]
        exact settled.counted other
  case registered =>
    intro other running
    rw [put_tasks] at running ⊢
    rw [World.put]
    dsimp only
    by_cases ends : result.notes.any Note.ends = true
    · rw [if_pos ends, settles.taskId]
      have mine := settled.registered task (settles.ends ends)
      by_cases same : other = task
      · rw [if_pos same, settles.running, ends, Bool.not_true, Bool.and_false] at running
        cases running
      · rw [if_neg same] at running ⊢
        have theirs := settled.registered other running
        rw [update_of_ne, theirs]
        intro equal
        rw [equal, mine] at theirs
        exact same (Option.some.inj theirs).symm
    · rw [if_neg ends]
      by_cases same : other = task
      · rw [if_pos same] at running ⊢
        rw [settles.running, Bool.and_eq_true] at running
        rw [settles.taskId, same]
        exact settled.registered task running.1
      · rw [if_neg same] at running ⊢
        exact settled.registered other running

/-- A live task is registered. -/
theorem World.Settled.found (settled : world.Settled notes)
    (live : (world.tasks task).starter = true ∨ (world.tasks task).activeClients ≠ []) :
    world.registered task = true := by
  rw [World.registered, settled.registered task ((settled.counted task).live live)]
  rfl

variable {attempts : List Attempt}

/-- A new task is registered under a free number. -/
theorem startTask_settled (settled : world.Settled notes) (calm : Calm attempts)
    (free : world.activeTasks ((world.lastId + 1) % 2 ^ 32) = none) :
    (world.startTask attempts).1.Settled (notes ++ (world.startTask attempts).2) := by
  let started : Task := { world.tasks world.taskCount with
    running := true, taskId := (world.lastId + 1) % 2 ^ 32, starter := true }
  let begun : World := { world with
    tasks := update world.tasks world.taskCount started
    taskCount := world.taskCount + 1
    lastId := (world.lastId + 1) % 2 ^ 32
    activeTasks := update world.activeTasks ((world.lastId + 1) % 2 ^ 32)
      (some world.taskCount) }
  have counted : started.Counted (notesOf world.taskCount notes) := by
    have idle := settled.counted world.taskCount
    exact ⟨idle.apart, idle.reported, fun _ => rfl⟩
  have ready : begun.Settled notes := by
    constructor
    case counted =>
      intro task
      show (update world.tasks world.taskCount started task).Counted _
      rw [update_apply]
      split
      · next same => exact same ▸ counted
      · exact settled.counted task
    case registered =>
      intro task
      show (update world.tasks world.taskCount started task).running = true →
        update world.activeTasks ((world.lastId + 1) % 2 ^ 32) (some world.taskCount)
          (update world.tasks world.taskCount started task).taskId = some task
      rw [update_apply]
      split
      · next same => exact fun _ => same ▸ update_self _ _ _
      · intro running
        have theirs := settled.registered task running
        rw [update_of_ne, theirs]
        intro equal
        rw [equal, free] at theirs
        cases theirs
  have same : world.startTask attempts = begun.put world.taskCount
      (Task.proceed world.parallelLimit world.connected true attempts started) := by
    rw [World.startTask, World.put, World.put]
    dsimp only [begun]
    rw [update_idem]
    rfl
  rw [same]
  apply ready.put
  show Result.Settles (update world.tasks world.taskCount started world.taskCount) _ _
  rw [update_self]
  exact proceed_settles counted rfl calm

theorem tick_settled (settled : world.Settled notes) (task : Nat) (calm : Calm attempts) :
    (world.tick task attempts).1.Settled (notes ++ (world.tick task attempts).2) := by
  rw [World.tick]
  split
  · next starter =>
      rw [settled.found (.inl starter)]
      exact settled.put (distribute_settles (settled.counted task)
        ((settled.counted task).live (.inl starter)) calm)
  · exact settled.still

section

variable (fair : world.Fair notes)
include fair

theorem timeout_settled (settled : world.Settled notes) (index : Nat) (failureRaises : Bool)
    (calm : Calm attempts) :
    (world.timeout index failureRaises attempts).1.Settled
      (notes ++ (world.timeout index failureRaises attempts).2) := by
  rw [World.timeout]
  cases world.timeouts[index]? with
  | none => exact settled.still
  | some entry =>
    obtain ⟨task, client⟩ := entry
    have erased : World.Settled { world with timeouts := world.timeouts.eraseIdx index } notes :=
      ⟨settled.counted, settled.registered⟩
    apply erased.put
    by_cases held : client ∈ (world.tasks task).activeClients
    · rw [settled.found (.inr (ne_nil_of_mem held))]
      exact timeoutTask_settles (settled.counted task) (fair.tasks task).distinct calm
    · rw [Task.timeoutTask, if_neg held]
      exact settles_nothing (settled.counted task) false

theorem messageFromClient_settled (settled : world.Settled notes) {client message : Bytes}
    (allowed : world.Allows (.answer client message attempts)) :
    (world.messageFromClient client message attempts).1.Settled
      (notes ++ (world.messageFromClient client message attempts).2) := by
  obtain ⟨calm, known⟩ := allowed
  rw [World.messageFromClient]
  cases parsed : parseAnswer message with
  | none => exact settled.still
  | some parts =>
    dsimp only
    cases registered : world.activeTasks parts.1 with
    | none => exact settled.still
    | some task =>
      apply settled.put
      by_cases held : client ∈ (world.tasks task).activeClients
      · rw [settled.found (.inr (ne_nil_of_mem held))]
        exact answer_settles (settled.counted task) (fair.tasks task).distinct
          (known parts parsed task registered) calm
      · rw [Task.answer, if_neg held]
        exact settles_nothing (settled.counted task) false

theorem step_settled (settled : world.Settled notes) {event : Event}
    (allowed : world.Allows event) :
    (world.step event).1.Settled (notes ++ (world.step event).2) := by
  cases event with
  | connect client => exact World.Settled.still ⟨settled.counted, settled.registered⟩
  | disconnect client => exact World.Settled.still ⟨settled.counted, settled.registered⟩
  | start attempts => exact startTask_settled settled allowed.1 allowed.2
  | tick task attempts => exact tick_settled settled task allowed
  | timeout index failureRaises attempts =>
    exact timeout_settled fair settled index failureRaises allowed
  | answer client message attempts => exact messageFromClient_settled fair settled allowed

/-- Every orderly run stays settled. -/
theorem run_settled (settled : world.Settled notes) {events : List Event}
    (orderly : world.Orderly events) :
    (world.run events).1.Settled (notes ++ (world.run events).2) := by
  induction events generalizing world notes with
  | nil => exact settled.still
  | cons event events ih =>
    have rest := ih (step_fair fair event) (step_settled fair settled orderly.1) orderly.2
    rw [append_assoc] at rest
    exact rest

end

theorem new_settled (limit : Nat) : (World.new limit).Settled [] where
  counted _ := ⟨nofun, fun _ => rfl, fun live => live.elim nofun (absurd rfl)⟩
  registered _ running := nomatch running

/-- A fair task ends at most once, with nobody left. -/
theorem ends_once {limit : Nat} {task : Task} {notes : List Note} (fair : task.Fair limit notes) :
    notes.countP Note.ends ≤ 1 ∧ ∀ holders, .finished holders ∈ notes →
      holders = [] ∧ task.activeClients = [] := by
  have none : ∀ {before : List Note}, Open before → before.countP Note.ends = 0 := fun going =>
    countP_eq_zero.mpr fun note member => Bool.eq_false_iff.mp (going note member)
  rcases fair.ending with going | ended
  · refine ⟨(none going).le.trans (Nat.zero_le 1), fun holders member => ?_⟩
    cases going _ member
  · obtain ⟨before, going, parts⟩ := ended.last
    subst parts
    rw [countP_append, none going]
    refine ⟨le_rfl, fun holders member => ⟨?_, ended.free⟩⟩
    rcases mem_append.mp member with old | last
    · cases going _ old
    · cases mem_singleton.mp last
      rfl

/-- Each client is sent a task once, the limit holds, and a task finishes once, when nobody holds it.
Each client that a task is sent to is reported once, or it still holds the task and waits for a
timeout, when each answer is known and no exception follows a refusal. -/
theorem tasks_distributed (limit : Nat) (events : List Event) :
    (∀ task, (targets (notesOf task ((World.new limit).run events).2)).Nodup ∧
        (((World.new limit).run events).1.tasks task).activeClients.length ≤ limit ∧
        (notesOf task ((World.new limit).run events).2).countP Note.ends ≤ 1 ∧
        ∀ holders, .finished holders ∈ notesOf task ((World.new limit).run events).2 →
          holders = [] ∧ (((World.new limit).run events).1.tasks task).activeClients = []) ∧
      ((World.new limit).Orderly events →
        ∀ task, ∀ client ∈ targets (notesOf task ((World.new limit).run events).2),
          (reports (notesOf task ((World.new limit).run events).2)).count client = 1 ∨
            (reports (notesOf task ((World.new limit).run events).2)).count client = 0 ∧
              client ∈ (((World.new limit).run events).1.tasks task).activeClients ∧
              (task, client) ∈ ((World.new limit).run events).1.timeouts) := by
  have fair := run_fair (new_fair limit) events
  rw [nil_append] at fair
  constructor
  · intro task
    have mine := fair.tasks task
    rw [run_limit] at mine
    exact ⟨mine.once, mine.bounded, ends_once mine⟩
  · intro orderly task client sent
    have settled := run_settled (new_fair limit) (new_settled limit) orderly
    rw [nil_append] at settled
    have counted := settled.counted task
    rw [counted.reported]
    rcases (fair.tasks task).used client sent with held | finished
    · rw [if_neg (counted.apart client held)]
      exact .inr ⟨rfl, held, fair.pending task client held⟩
    · rw [if_pos finished]
      exact .inl rfl

/-- The second client has no plugin, the first one answers, and the third one gets a timeout. -/
def sampleEvents : List Event :=
  [.connect [1], .connect [2], .connect [3], .start [⟨0, false, .sent, false⟩],
    .tick 0 [⟨0, false, .refused, false⟩, ⟨0, false, .raised, false⟩],
    .answer [1] (word32 1 ++ [letter 'O', 7]) [], .answer [1] (word32 1 ++ [letter 'X']) [],
    .disconnect [3], .timeout 1 true [], .tick 0 [], .timeout 0 false []]

theorem tasks_distributed_sample :
    ∀ task, ∀ client ∈ targets (notesOf task ((World.new 2).run sampleEvents).2),
      (reports (notesOf task ((World.new 2).run sampleEvents).2)).count client = 1 ∨
        (reports (notesOf task ((World.new 2).run sampleEvents).2)).count client = 0 ∧
          client ∈ (((World.new 2).run sampleEvents).1.tasks task).activeClients ∧
          (task, client) ∈ ((World.new 2).run sampleEvents).1.timeouts :=
  (tasks_distributed 2 sampleEvents).2 (by decide +kernel)

/-- The client answers with a status that is not known. -/
def unknownEvents : List Event :=
  [.connect [1], .start [], .answer [1] (word32 1 ++ [letter 'X']) [], .timeout 0 false []]

/-- The client was sent the task and does not hold it, but it is never reported. The report of a
refusal that raises an exception is made again. -/
theorem tasks_distributed_not :
    (targets (notesOf 0 ((World.new 1).run unknownEvents).2) = [[1]] ∧
        (((World.new 1).run unknownEvents).1.tasks 0).activeClients = [] ∧
        ((World.new 1).run unknownEvents).1.timeouts = [] ∧
        (reports (notesOf 0 ((World.new 1).run unknownEvents).2)) = []) ∧
      reports (notesOf 0 ((World.new 1).run
        [.connect [1], .start [⟨0, false, .refused, true⟩], .timeout 0 false []]).2) = [[1], [1]] := by
  decide +kernel

end Reports

end Ucollect.Sniff
