import Ucollect.Proof.Sniff.Fairness

/-
This file counts the reports of one task, when no exception gets lost and each answer is known.
-/

namespace Ucollect.Sniff
open Library List

/-- Each client that has finished was reported once, and no other one was. -/
structure Task.Counted (task : Task) (notes : List Note) : Prop where
  apart : ∀ client ∈ task.activeClients, client ∉ task.finishedClients
  reported : ∀ client, (reports notes).count client = if client ∈ task.finishedClients then 1 else 0
  live : task.starter = true ∨ task.activeClients ≠ [] → task.running = true

/-- No exception follows a refusal: neither its report raises one, nor the next message. -/
def Calm : List Attempt → Prop
  | [] => True
  | attempt :: rest =>
    (attempt.outcome = .refused →
      attempt.failureRaises = false ∧ (rest.headD .plain).messageRaises = false) ∧ Calm rest

instance decidableCalm : (attempts : List Attempt) → Decidable (Calm attempts)
  | [] => .isTrue trivial
  | attempt :: rest =>
    have := decidableCalm rest
    inferInstanceAs (Decidable ((attempt.outcome = .refused →
      attempt.failureRaises = false ∧ (rest.headD .plain).messageRaises = false) ∧ Calm rest))

/-- The call counts its reports, and it clears the flag when it finishes the task. -/
structure Result.Settles (task : Task) (notes : List Note) (result : Result) : Prop where
  counted : result.task.Counted (notes ++ result.notes)
  running : result.task.running = (task.running && !result.notes.any Note.ends)
  taskId : result.task.taskId = task.taskId
  ends : result.notes.any Note.ends = true → task.running = true

section Steps

variable {task : Task} {notes more : List Note} {client : Bytes}

theorem calm_head {attempts : List Attempt} (calm : Calm attempts)
    (refuses : (attempts.headD .plain).outcome = .refused) :
    (attempts.headD .plain).failureRaises = false ∧
      (attempts.tail.headD .plain).messageRaises = false := by
  cases attempts with
  | nil => cases refuses
  | cons attempt rest => exact calm.1 refuses

theorem calm_tail {attempts : List Attempt} (calm : Calm attempts) : Calm attempts.tail := by
  cases attempts with
  | nil => trivial
  | cons attempt rest => exact calm.2

theorem reports_silent (silent : reports more = []) : reports (notes ++ more) = reports notes := by
  rw [reports_append, silent, append_nil]

section

variable (counted : task.Counted notes)
include counted

/-- One more client is reported and has finished. -/
theorem Task.Counted.add {finished : List Bytes} (told : reports more = [client])
    (unfinished : client ∉ task.finishedClients)
    (finishes : finished = client :: task.finishedClients) (other : Bytes) :
    (reports (notes ++ more)).count other = if other ∈ finished then 1 else 0 := by
  rw [reports_append, count_append, told, counted.reported, count_singleton, finishes]
  by_cases same : client = other
  · subst same
    rw [if_neg unfinished, if_pos (beq_self_eq_true _), if_pos mem_cons_self]
  · have different : ¬ (client == other) = true := fun equal => same (eq_of_beq equal)
    rw [if_neg different, Nat.add_zero]
    refine if_congr ?_ rfl rfl
    rw [mem_cons]
    exact ⟨.inr, fun either => either.resolve_left fun equal => same equal.symm⟩

/-- A refused client is reported once. -/
theorem Task.Counted.refuse (fresh : task.Fresh client) (told : reports more = [client]) :
    (task.refused client).Counted (notes ++ more) where
  apart other held finished := by
    rcases mem_cons.mp finished with rfl | known
    · exact fresh.1 held
    · exact counted.apart other held known
  reported := counted.add told fresh.2 rfl
  live := counted.live

/-- A client that got the task is not reported yet. -/
theorem Task.Counted.grant (fresh : task.Fresh client) (running : task.running = true)
    (silent : reports more = []) :
    (task.activate client).Counted (notes ++ more) where
  apart other held := by
    rcases mem_activate.mp held with known | rfl
    · exact counted.apart other known
    · exact fresh.2
  reported other := by
    rw [reports_silent silent]
    exact counted.reported other
  live _ := running

/-- A client that is done is reported once. -/
theorem Task.Counted.retire (distinct : task.activeClients.Nodup)
    (held : client ∈ task.activeClients) (told : reports more = [client]) :
    (task.retire client).Counted (notes ++ more) where
  apart other known finished := by
    rcases mem_cons.mp finished with rfl | before
    · exact distinct.not_mem_erase known
    · exact counted.apart other (mem_of_mem_erase known) before
  reported := counted.add told (counted.apart client held) rfl
  live _ := counted.live (.inr (ne_nil_of_mem held))

theorem settles_nothing (raised : Bool) : Result.Settles task notes ⟨task, [], raised⟩ where
  counted := (append_nil notes).symm ▸ counted
  running := (Bool.and_true _).symm
  taskId := rfl
  ends := nofun

theorem check_settles :
    (task.checkFinished true).Settles task notes ∧ (task.checkFinished true).raised = false := by
  rw [Task.checkFinished]
  split
  · next ends =>
      refine ⟨⟨⟨counted.apart, fun client => ?_, ?_⟩, (Bool.and_false _).symm, rfl, fun _ => ends.2⟩,
        rfl⟩
      · rw [reports_silent rfl]
        exact counted.reported client
      · rintro (starter | held)
        · cases starter
        · exact absurd ends.1 held
  · exact ⟨settles_nothing counted false, rfl⟩

end

end Steps

section Calls

variable {limit : Nat} {connected : List Bytes} {attempts : List Attempt} {task : Task}
  {notes : List Note} {client : Bytes} {result : Result}

/-- Only the message for the first client may raise an exception. -/
theorem Sends.settles (sends : Sends limit true attempts task result)
    (counted : task.Counted notes) (running : task.running = true) (calm : Calm attempts) :
    result.Settles task notes ∧
      (result.raised = true → (attempts.headD .plain).messageRaises = true) := by
  induction sends generalizing notes with
  | full full => exact ⟨settles_nothing counted false, nofun⟩
  | exhausted room =>
    obtain ⟨settles, returns⟩ := check_settles counted
    exact ⟨settles, fun raised => absurd (returns.symm.trans raised) Bool.false_ne_true⟩
  | message raises => exact ⟨settles_nothing counted true, fun _ => raises⟩
  | hands client outcome room fresh =>
    exact ⟨⟨counted.grant fresh running rfl, (Bool.and_true _).symm, rfl, nofun⟩, nofun⟩
  | @refuses attempts task inner client room fresh sends returns ih =>
    have refused : (task.refused client).Counted
        (notes ++ [.send client .refused, .failure client none]) := counted.refuse fresh rfl
    obtain ⟨settles, -⟩ := ih refused running (calm_tail calm)
    refine ⟨⟨?_, settles.running, settles.taskId, settles.ends⟩, nofun⟩
    rw [← append_assoc]
    exact settles.counted
  | @recovers attempts task inner client room fresh refuses sends raises ih =>
    have refused : (task.refused client).Counted
        (notes ++ [.send client .refused, .failure client none]) := counted.refuse fresh rfl
    obtain ⟨-, only⟩ := ih refused running (calm_tail calm)
    exact absurd ((calm_head calm refuses).2.symm.trans (only raises)) Bool.false_ne_true
  | fails client room fresh refuses raises =>
    exact absurd ((calm_head calm refuses).1.symm.trans raises) Bool.false_ne_true

theorem Result.Settles.andThen {next : Task → Result} (settles : result.Settles task notes)
    (rest : (next result.task).Settles result.task (notes ++ result.notes)) :
    (result.andThen next).Settles task notes := by
  rw [Result.andThen]
  split
  · exact settles
  · refine ⟨?_, ?_, rest.taskId.trans settles.taskId, fun ends => ?_⟩
    · dsimp only
      rw [← append_assoc]
      exact rest.counted
    · dsimp only
      rw [rest.running, settles.running, any_append, Bool.not_or, Bool.and_assoc]
    · dsimp only at ends
      rw [any_append, Bool.or_eq_true] at ends
      rcases ends with first | second
      · exact settles.ends first
      · have running := rest.ends second
        rw [settles.running, Bool.and_eq_true] at running
        exact running.1

section

variable (counted : task.Counted notes)
include counted

/-- Handing out the task settles. -/
theorem distribute_settles (running : task.running = true) (calm : Calm attempts) :
    (Task.distribute limit connected true attempts task).Settles task notes :=
  (sendToClient_sends.settles counted running calm).1

theorem proceed_settles (running : task.running = true) (calm : Calm attempts) :
    (Task.proceed limit connected true attempts task).Settles task notes := by
  have settles : (Task.distribute limit connected true attempts task).Settles task notes :=
    distribute_settles counted running calm
  exact settles.andThen (check_settles settles.counted).1

/-- A client that has answered, or has got a timeout, is reported. -/
theorem replace_settles {more : List Note} {raised : Bool} (distinct : task.activeClients.Nodup)
    (held : client ∈ task.activeClients) (told : reports more = [client])
    (goes : more.any Note.ends = false) (calm : Calm attempts) :
    Result.Settles task notes (Result.andThen ⟨task.retire client, more, raised⟩
      (Task.proceed limit connected true attempts)) := by
  have running := counted.live (.inr (ne_nil_of_mem held))
  have retired : (task.retire client).Counted (notes ++ more) :=
    counted.retire distinct held told
  have first : Result.Settles task notes ⟨task.retire client, more, raised⟩ :=
    ⟨retired, by rw [goes]; exact (Bool.and_true _).symm, rfl, fun _ => running⟩
  exact first.andThen (proceed_settles retired running calm)

/-- So does a client that timed out. -/
theorem timeoutTask_settles {failureRaises : Bool} (distinct : task.activeClients.Nodup)
    (calm : Calm attempts) :
    (Task.timeoutTask limit connected true attempts task client failureRaises).Settles task
      notes := by
  rw [Task.timeoutTask]
  split
  · next held => exact replace_settles counted distinct held rfl rfl calm
  · exact settles_nothing counted false

end

/-- The server knows what this status means. -/
def Known (status : UInt8) : Prop :=
  status = letter 'O' ∨ status = letter 'F' ∨ status = letter 'U' ∨ status = letter 'A'

instance (status : UInt8) : Decidable (Known status) := inferInstanceAs (Decidable (_ ∨ _))

theorem report_known {status : UInt8} {payload : Bytes} (known : Known status)
    (ends : status ≠ letter 'A') :
    reports (Task.report status client payload) = [client] ∧
      (Task.report status client payload).any Note.ends = false := by
  rw [Task.report]
  by_cases success : status = letter 'O'
  · rw [if_pos success]
    exact ⟨rfl, rfl⟩
  · by_cases failure : status = letter 'F'
    · rw [if_neg success, if_pos failure]
      exact ⟨rfl, rfl⟩
    · have unknown : status = letter 'U' :=
        ((known.resolve_left success).resolve_left failure).resolve_right ends
      rw [if_neg success, if_neg failure, if_pos unknown]
      exact ⟨rfl, rfl⟩

/-- So does an answer with a known status. -/
theorem answer_settles {status : UInt8} {payload : Bytes} (counted : task.Counted notes)
    (distinct : task.activeClients.Nodup) (known : client ∈ task.activeClients → Known status)
    (calm : Calm attempts) :
    (Task.answer limit connected true attempts task status client payload).Settles task notes := by
  rw [Task.answer]
  split
  · next held =>
      split
      · exact settles_nothing counted false
      · next ends =>
          obtain ⟨told, goes⟩ := @report_known client status payload (known held) ends
          exact replace_settles counted distinct held told goes calm
  · exact settles_nothing counted false

end Calls

end Ucollect.Sniff
