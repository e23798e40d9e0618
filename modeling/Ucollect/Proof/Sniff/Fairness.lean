import Ucollect.Proof.Sniff.Sending

/-
This file says what stays true of one task, whatever is called.
-/

namespace Ucollect.Sniff
open Library List

section Notes

/-- The client that the task was sent to. -/
def Note.target : Note → Option Bytes
  | .send client _ => some client
  | .abort _ | .success _ _ | .failure _ _ | .callLater _ | .finished _ => none

/-- The client that a success or a failure is reported for. -/
def Note.reported : Note → Option Bytes
  | .success client _ | .failure client _ => some client
  | .send _ _ | .abort _ | .callLater _ | .finished _ => none

def targets (notes : List Note) : List Bytes := notes.filterMap Note.target

def reports (notes : List Note) : List Bytes := notes.filterMap Note.reported

/-- The task has not finished. -/
def Open (notes : List Note) : Prop := ∀ note ∈ notes, note.ends = false

variable {first second : List Note}

theorem targets_append : targets (first ++ second) = targets first ++ targets second :=
  filterMap_append

/-- Nothing was sent. -/
theorem targets_silent (silent : targets second = []) : targets (first ++ second) = targets first := by
  rw [targets_append, silent, append_nil]

theorem reports_append : reports (first ++ second) = reports first ++ reports second :=
  filterMap_append

theorem open_append : Open (first ++ second) ↔ Open first ∧ Open second :=
  forall_mem_append

theorem open_refusal (client : Bytes) : Open [.send client .refused, .failure client none] := by
  simp [Open, Note.ends]

theorem open_later (client : Bytes) : Open [.callLater client] := by
  simp [Open, Note.ends]

end Notes

/-- The task has finished, and nothing happens to it any more. -/
structure Task.Over (task : Task) (notes : List Note) : Prop where
  still : task.running = false
  stopped : task.starter = false
  free : task.activeClients = []
  last : ∃ before, Open before ∧ notes = before ++ [.finished []]

/-- The notes are all that the task has caused so far. -/
structure Task.Fair (limit : Nat) (task : Task) (notes : List Note) : Prop where
  bounded : task.activeClients.length ≤ limit
  distinct : task.activeClients.Nodup
  once : (targets notes).Nodup
  used : ∀ client ∈ targets notes, client ∈ task.activeClients ∨ client ∈ task.finishedClients
  ending : Open notes ∨ task.Over notes

section Steps

variable {limit : Nat} {task : Task} {notes more : List Note} {client : Bytes} {registered : Bool}

theorem fair_new (limit : Nat) : Task.new.Fair limit [] where
  bounded := Nat.zero_le _
  distinct := nodup_nil
  once := nodup_nil
  used _ member := absurd member not_mem_nil
  ending := .inl fun _ member => absurd member not_mem_nil

theorem mem_activate {other : Bytes} :
    other ∈ (task.activate client).activeClients ↔ other ∈ task.activeClients ∨ other = client := by
  rw [Task.activate]
  dsimp only
  split
  · next known => exact ⟨.inl, fun either => either.elim id fun same => same ▸ known⟩
  · rw [mem_append, mem_singleton]

section

variable (fair : task.Fair limit notes)
include fair

/-- A fresh client was not sent the task before. -/
theorem Task.Fair.untold (fresh : task.Fresh client) :
    client ∉ targets notes := fun member => (fair.used client member).elim fresh.1 fresh.2

theorem Task.Fair.tell (fresh : task.Fresh client) (told : targets more = [client]) :
    (targets (notes ++ more)).Nodup := by
  rw [targets_append, told]
  refine nodup_append.mpr ⟨fair.once, nodup_singleton _, ?_⟩
  intro other known new added same
  cases mem_singleton.mp added
  exact fair.untold fresh (same ▸ known)

/-- The client has refused the task, so it does not get it again. -/
theorem Task.Fair.refuse (running : Open notes) (fresh : task.Fresh client)
    (told : targets more = [client]) (goes : Open more) :
    (task.refused client).Fair limit (notes ++ more) where
  bounded := fair.bounded
  distinct := fair.distinct
  once := fair.tell fresh told
  used other member := by
    rw [targets_append, told] at member
    rcases mem_append.mp member with known | new
    · exact (fair.used other known).imp_right (mem_cons_of_mem _)
    · cases mem_singleton.mp new
      exact .inr mem_cons_self
  ending := .inl (open_append.mpr ⟨running, goes⟩)

/-- There is room for one more client. -/
theorem Task.Fair.grant (running : Open notes) (room : task.activeClients.length < limit)
    (once : (targets (notes ++ more)).Nodup) (told : ∀ other ∈ targets more, other = client)
    (goes : Open more) :
    (task.activate client).Fair limit (notes ++ more) where
  bounded := by
    rw [Task.activate]
    dsimp only
    split
    · exact fair.bounded
    · rw [length_append]
      exact room
  distinct := by
    rw [Task.activate]
    dsimp only
    split
    · exact fair.distinct
    · next new =>
        refine nodup_append.mpr ⟨fair.distinct, nodup_singleton _, ?_⟩
        intro other known added same
        cases mem_singleton.mp same
        rintro rfl
        exact new known
  once := once
  used other member := by
    rw [targets_append] at member
    rw [mem_activate]
    rcases mem_append.mp member with known | new
    · exact (fair.used other known).imp_left .inl
    · exact .inl (.inr (told other new))
  ending := .inl (open_append.mpr ⟨running, goes⟩)

/-- The client gives the task back. -/
theorem Task.Fair.retire (running : Open notes) (told : targets more = []) (goes : Open more) :
    (task.retire client).Fair limit (notes ++ more) where
  bounded := (length_erase_le).trans fair.bounded
  distinct := fair.distinct.erase _
  once := by
    rw [targets_silent told]
    exact fair.once
  used other member := by
    rw [targets_silent told] at member
    rcases fair.used other member with active | finished
    · by_cases same : other = client
      · exact .inr (same ▸ mem_cons_self)
      · exact .inl ((mem_erase_of_ne same).mpr active)
    · exact .inr (mem_cons_of_mem _ finished)
  ending := .inl (open_append.mpr ⟨running, goes⟩)

end

theorem checkFinished_active :
    (task.checkFinished registered).task.activeClients = task.activeClients := by
  rw [Task.checkFinished]
  split
  · dsimp only
    split <;> rfl
  · rfl

/-- A task finishes when no client holds it. -/
theorem Task.Fair.check (fair : task.Fair limit notes) :
    (task.checkFinished registered).task.Fair limit
        (notes ++ (task.checkFinished registered).notes) ∧
      ((task.checkFinished registered).raised = true →
        Open (notes ++ (task.checkFinished registered).notes)) := by
  rw [Task.checkFinished]
  split
  · next ends =>
      have going : Open notes := fair.ending.resolve_right fun ended => by
        rw [ended.still] at ends
        exact Bool.false_ne_true ends.2
      dsimp only
      split
      · refine ⟨⟨fair.bounded, fair.distinct, ?_, ?_, .inr ⟨rfl, rfl, ends.1, notes, going, ?_⟩⟩,
          nofun⟩
        · rw [targets_silent rfl]
          exact fair.once
        · intro other member
          rw [targets_silent rfl] at member
          exact fair.used other member
        · rw [ends.1]
      · rw [append_nil]
        exact ⟨⟨fair.bounded, fair.distinct, fair.once, fair.used, .inl going⟩, fun _ => going⟩
  · dsimp only
    rw [append_nil]
    exact ⟨fair, nofun⟩

end Steps

/-- The clients that hold the task after a call held it before, or they get a timeout. -/
def Result.Waits (result : Result) (task : Task) : Prop :=
  ∀ client ∈ result.task.activeClients,
    client ∈ task.activeClients ∨ .callLater client ∈ result.notes

/-- The call keeps the task fair. -/
structure Result.Keeps (limit : Nat) (task : Task) (notes : List Note) (result : Result) : Prop where
  fair : result.task.Fair limit (notes ++ result.notes)
  waits : result.Waits task

section Sending

variable {limit : Nat} {task : Task} {notes : List Note} {registered : Bool} {result : Result}
  {attempts : List Attempt}

theorem keeps_nothing (fair : task.Fair limit notes) (raised : Bool) :
    Result.Keeps limit task notes ⟨task, [], raised⟩ :=
  ⟨(append_nil notes).symm ▸ fair, fun _ => .inl⟩

/-- An exception leaves the holders of the task as they are. -/
theorem Sends.keeps (sends : Sends limit registered attempts task result)
    (fair : task.Fair limit notes) (running : Open notes) :
    result.Keeps limit task notes ∧ (result.raised = true →
      Open (notes ++ result.notes) ∧ result.task.activeClients = task.activeClients) := by
  induction sends generalizing notes with
  | full full => exact ⟨keeps_nothing fair false, nofun⟩
  | exhausted room =>
    obtain ⟨kept, raised⟩ := @Task.Fair.check limit _ notes registered fair
    exact ⟨⟨kept, fun client member => .inl (checkFinished_active ▸ member)⟩, fun raises =>
      ⟨raised raises, checkFinished_active⟩⟩
  | message raises =>
    refine ⟨keeps_nothing fair true, fun _ => ⟨?_, rfl⟩⟩
    exact (append_nil notes).symm ▸ running
  | hands client outcome room fresh =>
    refine ⟨⟨fair.grant running room (fair.tell fresh rfl) ?_ ?_, fun other member => ?_⟩, nofun⟩
    · exact fun other member => mem_singleton.mp member
    · simp [Open, Note.ends]
    · rcases mem_activate.mp member with known | rfl
      · exact .inl known
      · exact .inr (mem_cons_of_mem _ mem_cons_self)
  | refuses client room fresh sends returns ih =>
    have goes := open_refusal client
    obtain ⟨kept, -⟩ :=
      ih (fair.refuse running fresh rfl goes) (open_append.mpr ⟨running, goes⟩)
    refine ⟨⟨?_, fun other member => ?_⟩, nofun⟩
    · rw [← append_assoc]
      exact kept.fair
    · exact (kept.waits other member).imp_right (mem_append_right _)
  | @recovers attempts task inner client room fresh refuses sends raises ih =>
    have goes := open_refusal client
    obtain ⟨kept, raised⟩ :=
      ih (fair.refuse running fresh rfl goes) (open_append.mpr ⟨running, goes⟩)
    obtain ⟨stays, same⟩ := raised raises
    have room : inner.task.activeClients.length < limit := by
      rw [same]
      exact room
    have once : (targets (notes ++ [.send client .refused, .failure client none] ++ inner.notes ++
        [.callLater client])).Nodup := by
      rw [targets_silent rfl]
      exact kept.fair.once
    refine ⟨⟨?_, fun other member => ?_⟩, nofun⟩
    · rw [← append_assoc, ← append_assoc]
      exact kept.fair.grant stays room once nofun (open_later client)
    · rcases mem_activate.mp member with known | rfl
      · exact .inl (same ▸ known)
      · exact .inr (mem_append_right _ mem_cons_self)
  | fails client room fresh refuses raises =>
    have goes := open_refusal client
    have kept := fair.refuse running fresh rfl goes
    have once : (targets (notes ++ [.send client .refused, .failure client none] ++
        [.callLater client])).Nodup := by
      rw [targets_silent rfl]
      exact kept.once
    refine ⟨⟨?_, fun other member => ?_⟩, nofun⟩
    · rw [← append_assoc]
      exact kept.grant (open_append.mpr ⟨running, goes⟩) room once nofun (open_later client)
    · rcases mem_activate.mp member with known | rfl
      · exact .inl known
      · exact .inr (mem_append_right _ mem_cons_self)

end Sending

section Calls

variable {limit : Nat} {connected : List Bytes} {registered : Bool} {attempts : List Attempt}
  {task : Task} {notes : List Note} {client : Bytes}

theorem distribute_keeps (fair : task.Fair limit notes) (running : Open notes) :
    (Task.distribute limit connected registered attempts task).Keeps limit task notes :=
  (sendToClient_sends.keeps fair running).1

/-- What the first step adds stays when the second one is skipped. -/
theorem Result.Keeps.andThen {result : Result} {next : Task → Result}
    (kept : result.Keeps limit task notes)
    (rest : (next result.task).Keeps limit result.task (notes ++ result.notes)) :
    (result.andThen next).Keeps limit task notes := by
  rw [Result.andThen]
  split
  · exact kept
  · refine ⟨?_, fun other member => ?_⟩
    · dsimp only
      rw [← append_assoc]
      exact rest.fair
    · rcases rest.waits other member with known | new
      · exact (kept.waits other known).imp_right (mem_append_left _)
      · exact .inr (mem_append_right _ new)

theorem proceed_keeps (fair : task.Fair limit notes) (running : Open notes) :
    (Task.proceed limit connected registered attempts task).Keeps limit task notes := by
  have kept := @distribute_keeps limit connected registered attempts task notes fair running
  exact kept.andThen ⟨kept.fair.check.1, fun other member => .inl (checkFinished_active ▸ member)⟩

/-- A task that is held, or that has its start timer, is not over. -/
theorem Task.Fair.going (fair : task.Fair limit notes)
    (live : task.starter = true ∨ task.activeClients ≠ []) : Open notes :=
  fair.ending.resolve_right fun ended => live.elim
    (fun starter => Bool.false_ne_true (ended.stopped.symm.trans starter))
    (fun held => held ended.free)

theorem start_keeps (fair : task.Fair limit notes) (running : Open notes) (taskId : Nat) :
    (Task.start limit connected registered attempts task taskId).Keeps limit task notes := by
  have started : Task.Fair limit { task with running := true, taskId, starter := true } notes :=
    ⟨fair.bounded, fair.distinct, fair.once, fair.used, .inl running⟩
  have kept := @proceed_keeps limit connected registered attempts _ notes started running
  exact ⟨kept.fair, kept.waits⟩

/-- The client gives the task back, and the next one may get it. -/
theorem replace_keeps {more : List Note} {raised : Bool} (fair : task.Fair limit notes)
    (member : client ∈ task.activeClients) (told : targets more = []) (goes : Open more) :
    Result.Keeps limit (task.retire client) notes
      (Result.andThen ⟨task.retire client, more, raised⟩
        (Task.proceed limit connected registered attempts)) := by
  have running := fair.going (.inr (ne_nil_of_mem member))
  have kept : (task.retire client).Fair limit (notes ++ more) := fair.retire running told goes
  have first : Result.Keeps limit (task.retire client) notes ⟨task.retire client, more, raised⟩ :=
    ⟨kept, fun _ => .inl⟩
  exact first.andThen (proceed_keeps kept (open_append.mpr ⟨running, goes⟩))

theorem Result.Keeps.retired {result : Result} (kept : result.Keeps limit (task.retire client) notes)
    (distinct : task.activeClients.Nodup) {other : Bytes}
    (member : other ∈ result.task.activeClients) :
    other ∈ task.activeClients ∧ other ≠ client ∨ .callLater other ∈ result.notes := by
  refine (kept.waits other member).imp_left fun held => ⟨mem_of_mem_erase held, ?_⟩
  rintro rfl
  exact distinct.not_mem_erase held

/-- A client with a timeout does not hold the task any more. -/
theorem timeoutTask_keeps {failureRaises : Bool} (fair : task.Fair limit notes) :
    (Task.timeoutTask limit connected registered attempts task client failureRaises).task.Fair limit
        (notes ++ (Task.timeoutTask limit connected registered attempts task client
          failureRaises).notes) ∧
      ∀ other ∈ (Task.timeoutTask limit connected registered attempts task client
          failureRaises).task.activeClients,
        other ∈ task.activeClients ∧ other ≠ client ∨ .callLater other ∈
          (Task.timeoutTask limit connected registered attempts task client failureRaises).notes := by
  rw [Task.timeoutTask]
  split
  · next member =>
      have kept := @replace_keeps limit connected registered attempts task notes client
        [.abort client, .failure client none] failureRaises fair member rfl
        (by simp [Open, Note.ends])
      exact ⟨kept.fair, fun other => kept.retired fair.distinct⟩
  · next absent =>
      refine ⟨(keeps_nothing fair false).fair, fun other member => .inl ⟨member, ?_⟩⟩
      rintro rfl
      exact absent member

theorem open_report (status : UInt8) (payload : Bytes) : Open (Task.report status client payload) := by
  rw [Task.report]
  split
  · simp [Open, Note.ends]
  · split
    · simp [Open, Note.ends]
    · split <;> simp [Open, Note.ends]

theorem targets_report (status : UInt8) (payload : Bytes) :
    targets (Task.report status client payload) = [] := by
  rw [Task.report]
  split
  · rfl
  · split
    · rfl
    · split <;> rfl

theorem answer_keeps {status : UInt8} {payload : Bytes} (fair : task.Fair limit notes) :
    (Task.answer limit connected registered attempts task status client payload).Keeps limit task
      notes := by
  rw [Task.answer]
  split
  · next member =>
      split
      · exact keeps_nothing fair false
      · have kept := @replace_keeps limit connected registered attempts task notes client
          (Task.report status client payload) false fair member (targets_report status payload)
          (open_report status payload)
        exact ⟨kept.fair, fun other held => (kept.retired fair.distinct held).imp_left And.left⟩
  · exact keeps_nothing fair false

end Calls

end Ucollect.Sniff
