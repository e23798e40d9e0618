import Ucollect.Construction.Sniff.Tasks
import Mathlib.Data.List.GetD

/-
This file says once what one call does to a task.
-/

namespace Ucollect.Sniff
open Library List

/-- A client without the task may get it. -/
def Task.Fresh (task : Task) (client : Bytes) : Prop :=
  client ∉ task.activeClients ∧ client ∉ task.finishedClients

def Task.refused (task : Task) (client : Bytes) : Task :=
  { task with finishedClients := client :: task.finishedClients }

/-- This relation has one rule for each way through `__send_to_client`. -/
inductive Sends (limit : Nat) (registered : Bool) : List Attempt → Task → Result → Prop where
  | full {attempts : List Attempt} {task : Task} (full : limit ≤ task.activeClients.length) :
      Sends limit registered attempts task ⟨task, [], false⟩
  | exhausted {attempts : List Attempt} {task : Task} (room : task.activeClients.length < limit) :
      Sends limit registered attempts task (task.checkFinished registered)
  | message {attempts : List Attempt} {task : Task} (raises : (attempts.headD .plain).messageRaises = true) :
      Sends limit registered attempts task ⟨task, [], true⟩
  | hands {attempts : List Attempt} {task : Task} (client : Bytes) (outcome : Outcome)
      (room : task.activeClients.length < limit) (fresh : task.Fresh client) :
      Sends limit registered attempts task
        ⟨task.activate client, [.send client outcome, .callLater client], false⟩
  | refuses {attempts : List Attempt} {task : Task} {inner : Result} (client : Bytes) (room : task.activeClients.length < limit)
      (fresh : task.Fresh client) (sends : Sends limit registered attempts.tail
        (task.refused client) inner) (returns : inner.raised = false) :
      Sends limit registered attempts task
        ⟨inner.task, [.send client .refused, .failure client none] ++ inner.notes, false⟩
  | recovers {attempts : List Attempt} {task : Task} {inner : Result} (client : Bytes) (room : task.activeClients.length < limit)
      (fresh : task.Fresh client) (refuses : (attempts.headD .plain).outcome = .refused)
      (sends : Sends limit registered attempts.tail (task.refused client) inner)
      (raises : inner.raised = true) :
      Sends limit registered attempts task ⟨inner.task.activate client,
        [.send client .refused, .failure client none] ++ inner.notes ++ [.callLater client], false⟩
  | fails {attempts : List Attempt} {task : Task} (client : Bytes) (room : task.activeClients.length < limit)
      (fresh : task.Fresh client) (refuses : (attempts.headD .plain).outcome = .refused)
      (raises : (attempts.headD .plain).failureRaises = true) :
      Sends limit registered attempts task ⟨(task.refused client).activate client,
        [.send client .refused, .failure client none] ++ [.callLater client], false⟩

section Sending

variable {limit fuel : Nat} {connected : List Bytes} {registered : Bool} {task : Task}
  {attempts : List Attempt}

instance (task : Task) (client : Bytes) : Decidable (task.Fresh client) :=
  inferInstanceAs (Decidable (_ ∧ _))

theorem mem_available {client : Bytes} (member : client ∈ task.available connected) :
    task.Fresh client := by
  have free := (mem_filter.mp member).2
  exact of_decide_eq_true free

/-- The random client is an available one. -/
theorem mem_picked {first : Bytes} {rest : List Bytes}
    (known : task.available connected = first :: rest) (pick : Nat) :
    (first :: rest).getD (pick % (rest.length + 1)) first ∈ task.available connected := by
  have inside : pick % (rest.length + 1) < (first :: rest).length := Nat.mod_lt _ (Nat.succ_pos _)
  rw [known, getD_eq_getElem _ _ inside]
  exact getElem_mem inside

/-- The clients are tried one after another. -/
theorem sendToClient_sends :
    Sends limit registered attempts task
      (Task.sendToClient limit connected registered fuel attempts task) := by
  induction fuel generalizing attempts task with
  | zero =>
    rw [Task.sendToClient.eq_def]
    by_cases full : limit ≤ task.activeClients.length
    · rw [if_pos full]
      exact .full full
    · rw [if_neg full]
      exact .exhausted (not_le.mp full)
  | succ fuel ih =>
    rw [Task.sendToClient.eq_def]
    by_cases full : limit ≤ task.activeClients.length
    · rw [if_pos full]
      exact .full full
    · rw [if_neg full]
      have room := not_le.mp full
      cases some : task.available connected with
      | nil => exact .exhausted room
      | cons first rest =>
        dsimp only
        have fresh := mem_available (mem_picked some (attempts.headD .plain).pick)
        split
        · next raises => exact .message raises
        · split
          · next refuses =>
              rw [Result.andThen]
              dsimp only
              cases raises : (attempts.headD .plain).failureRaises with
              | true => exact .fails _ room fresh refuses raises
              | false =>
                rw [if_neg Bool.false_ne_true]
                dsimp only
                split
                · next raised => exact .recovers _ room fresh refuses ih raised
                · next returns =>
                    have returns := Bool.eq_false_iff.mpr returns
                    rw [returns]
                    exact .refuses _ room fresh ih returns
          · exact .hands _ _ room fresh

end Sending

end Ucollect.Sniff
