import Mathlib.Data.List.Nodup

/-
This file contains commands that wait in a queue before they are executed.
-/

namespace Ucollect.Library
open List Option Function

section Commands

variable {State Command : Type} (run : State → Command → Option State)

/-- Nothing comes out of a list with a command that fails. -/
def runAll (state : State) (commands : List Command) : Option State := commands.foldlM run state

structure Deferred (State Command : Type) where
  now : State
  queue : List Command

def Deferred.enqueue (deferred : Deferred State Command) (commands : List Command) :
    Deferred State Command :=
  { deferred with queue := deferred.queue ++ commands }

/-- The first commands of the queue are executed. -/
def Deferred.execute (deferred : Deferred State Command) (count : Nat) :
    Option (Deferred State Command) :=
  (runAll run deferred.now (deferred.queue.take count)).map fun now =>
    ⟨now, deferred.queue.drop count⟩

/-- This is the state when nothing is waiting any more. -/
def Deferred.settle (deferred : Deferred State Command) : Option State :=
  runAll run deferred.now deferred.queue

variable {run} {state : State} {deferred next : Deferred State Command} {count : Nat}

theorem runAll_cons (state : State) (command : Command) (commands : List Command) :
    runAll run state (command :: commands) =
      (run state command).bind fun next => runAll run next commands := by
  rw [runAll, foldlM_cons]
  rfl

theorem runAll_append (state : State) (first second : List Command) :
    runAll run state (first ++ second) =
      (runAll run state first).bind fun next => runAll run next second := by
  rw [runAll, foldlM_append]
  rfl

/-- Two lists run one after the other. -/
theorem runAll_trans {first second : List Command} {middle last : State}
    (begun : runAll run state first = some middle) (ended : runAll run middle second = some last) :
    runAll run state (first ++ second) = some last := by
  rw [runAll_append, begun, bind_some, ended]

theorem settle_enqueue (deferred : Deferred State Command) (commands : List Command) :
    (deferred.enqueue commands).settle run =
      (deferred.settle run).bind fun next => runAll run next commands :=
  runAll_append _ _ _

/-- A queue that settles can be executed to any point. -/
theorem execute_of_settle (settled : deferred.settle run = some state) (count : Nat) :
    ∃ next, deferred.execute run count = some next ∧ next.settle run = some state := by
  rw [Deferred.settle, ← take_append_drop count deferred.queue, runAll_append,
    bind_eq_some_iff] at settled
  obtain ⟨now, ran, rest⟩ := settled
  exact ⟨⟨now, deferred.queue.drop count⟩, by rw [Deferred.execute, ran]; rfl, rest⟩

end Commands

section Groups

variable {Key Value Command Item : Type} [DecidableEq Key]
  {run : (Key → Value) → Command → Option (Key → Value)}

/-- Each item writes its own key. -/
def writeEach (key : Item → Key) (value : Item → Value) (store : Key → Value) (items : List Item) :
    Key → Value :=
  items.foldl (fun store item => update store (key item) (value item)) store

variable {key : Item → Key} {value : Item → Value} {store : Key → Value} {items : List Item}

theorem writeEach_of_notMem {other : Key} (absent : other ∉ items.map key) :
    writeEach key value store items other = store other := by
  induction items generalizing store with
  | nil => rfl
  | cons item items ih =>
    rw [map_cons, mem_cons, not_or] at absent
    rw [writeEach, foldl_cons, ← writeEach, ih absent.2, update_of_ne absent.1]

theorem writeEach_of_mem (distinct : (items.map key).Nodup) {item : Item} (member : item ∈ items) :
    writeEach key value store items (key item) = value item := by
  induction items generalizing store with
  | nil => cases member
  | cons head items ih =>
    rw [map_cons, nodup_cons] at distinct
    rw [writeEach, foldl_cons, ← writeEach]
    rcases mem_cons.mp member with rfl | later
    · rw [writeEach_of_notMem distinct.1, update_self]
    · exact ih distinct.2 later

/-- The items run one after the other when none of them depends on the keys of the others. -/
theorem runAll_each (commands : Item → List Command) (distinct : (items.map key).Nodup)
    (each : ∀ item ∈ items, ∀ current : Key → Value,
      (∀ other, (∀ later ∈ items, key later = other → other = key item) →
        current other = store other) →
      runAll run current (commands item) =
        some (update current (key item) (value item))) :
    runAll run store (items.flatMap commands) = some (writeEach key value store items) := by
  induction items generalizing store with
  | nil => rfl
  | cons item items ih =>
    rw [map_cons, nodup_cons] at distinct
    rw [flatMap_cons, writeEach, foldl_cons, ← writeEach]
    have first : runAll run store (commands item) =
        some (update store (key item) (value item)) :=
      each item mem_cons_self store fun _ _ => rfl
    apply runAll_trans first
    apply ih distinct.2
    intro later member current same
    apply each later (mem_cons_of_mem _ member)
    intro other free
    have differs : other ≠ key item ∨ other = key later := by
      by_cases equal : key item = other
      · exact .inr (free item mem_cons_self equal)
      · exact .inl (Ne.symm equal)
    have apart : key later ≠ key item := fun equal =>
      distinct.1 (equal ▸ List.mem_map_of_mem member)
    rw [same other fun another inside => free another (mem_cons_of_mem _ inside)]
    rcases differs with differs | rfl
    · rw [update_of_ne differs]
    · rw [update_of_ne apart]

end Groups

end Ucollect.Library
