import Mathlib.Data.List.GetD
import Ucollect.Construction.Core.Interfaces

/-
This file proves when the statistics of the interfaces are the differences that they should be.
-/

namespace Ucollect.Capture
open List Option
open MemPool (Machine)

variable {machine : Machine} {count : Nat}

section Reports

/-- These are the items of an interface in the result. -/
def itemsOf (result : List (Size machine)) (interface : Nat) : Counters machine :=
  fun item => result.getD (1 + 3 * interface + item.offset) 0

/-- The totals of an interface are known when both directions have an answer. -/
def totals (interface : Nat) (call : Call) : Option (Counters machine) :=
  match call interface pcapDirIn, call interface pcapDirOut with
  | some first, some second => some fun item =>
    BitVec.ofNat _ (first.value item).toNat + BitVec.ofNat _ (second.value item).toNat
  | _, _ => none

/-- The maximum of all items stands for a failure, and other reports are differences. -/
def expected (last : Counters machine) : Option (Counters machine) → Counters machine
  | none => fun _ => BitVec.allOnes _
  | some now => now - last

/-- These are the totals at the last call that was successful, or at the start. -/
def lastTotals (interface : Nat) (earlier : List Call) : Counters machine :=
  ((earlier.filterMap (totals interface)).getLast?).getD 0

/-- Every call reports the expected items of every interface. -/
def Right (machine : Machine) (count : Nat) (calls : List Call) : Prop :=
  ∀ k call result, calls[k]? = some call → (run calls (opened machine count))[k]? = some result →
    ∀ interface < count, itemsOf result interface =
      expected (lastTotals interface (calls.take k)) (totals interface call)

/-- An interface fails only when it had no packets before, and is not asked again. -/
def Quiet (before : Counters machine) : List (Option (Counters machine)) → Prop
  | [] => True
  | none :: later => before = 0 ∧ later = []
  | some now :: later => Quiet now later

/-- This is what an interface keeps after a call. -/
def kept : Option (Counters machine) → Counters machine
  | none => fun _ => BitVec.allOnes _
  | some now => now

theorem readDirections_eq (call : Call) (interface : Nat) :
    readDirections [call interface pcapDirIn, call interface pcapDirOut] 0 =
      (kept (totals interface call) : Counters machine) := by
  unfold totals
  cases call interface pcapDirIn with
  | none => rfl
  | some first =>
    cases call interface pcapDirOut with
    | none => rfl
    | some second =>
      funext item
      exact congrArg (· + BitVec.ofNat _ (second.value item).toNat) (BitVec.zero_add _)

theorem flatMap_getD {items : List (Counters machine)} {interface : Nat}
    (inside : interface < items.length) (item : Item) :
    (items.flatMap fun items => [items .received, items .dropped, items .ifDropped]).getD
      (3 * interface + item.offset) 0 = items[interface] item := by
  induction items generalizing interface with
  | nil => exact absurd inside (Nat.not_lt_zero _)
  | cons first items ih =>
    cases interface with
    | zero => cases item <;> rfl
    | succ interface =>
      rw [flatMap_cons, getElem_cons_succ, ← ih (Nat.lt_of_succ_lt_succ inside),
        show 3 * (interface + 1) + item.offset = (3 * interface + item.offset) + 3 by omega]
      rfl

/-- A report is the difference to what the interface kept. -/
theorem itemsOf_loopPcapStats {call : Call} {interfaces : List (Counters machine)} {interface : Nat}
    (inside : interface < interfaces.length) :
    itemsOf (loopPcapStats call interfaces).1 interface =
      kept (totals interface call) - interfaces.getD interface 0 := by
  funext item
  rw [itemsOf, loopPcapStats, show 1 + 3 * interface + item.offset = 3 * interface + item.offset + 1 by omega,
    getD_cons_succ, flatMap_getD (by simpa using inside)]
  simp only [getElem_zipWith, getElem_mapIdx, readDirections_eq, getD_eq_getElem _ _ inside]

end Reports

section Runs

variable {interfaces : List (Counters machine)} {earlier calls : List Call}

/-- These are the expected reports of one interface, from what it kept and from its last totals. -/
def Reported (stored last : Counters machine) : List (Option (Counters machine)) → Prop
  | [] => True
  | now :: later => kept now - stored = expected last now ∧ Reported (kept now) (now.getD last) later

theorem lastTotals_concat (interface : Nat) (earlier : List Call) (call : Call) :
    (lastTotals interface (earlier ++ [call]) : Counters machine) =
      (totals interface call).getD (lastTotals interface earlier) := by
  unfold lastTotals
  rw [filterMap_append]
  cases known : (totals interface call : Option (Counters machine)) with
  | none => rw [filterMap_cons_none known, filterMap_nil, append_nil, getD_none]
  | some now =>
    rw [filterMap_cons_some known, filterMap_nil, List.getLast?_concat, getD_some, getD_some]

theorem length_loopPcapStats (call : Call) :
    (loopPcapStats call interfaces).2.length = interfaces.length := length_mapIdx

theorem getD_loopPcapStats {call : Call} {interface : Nat} (inside : interface < interfaces.length) :
    (loopPcapStats call interfaces).2.getD interface 0 = kept (totals interface call) := by
  rw [getD_eq_getElem _ _ (by rwa [length_loopPcapStats])]
  simp only [loopPcapStats, getElem_mapIdx, readDirections_eq]

/-- The interfaces do not see each other. -/
theorem reported_of_run : (∀ k call result, calls[k]? = some call → (run calls interfaces)[k]? = some result →
      ∀ interface < interfaces.length, itemsOf result interface =
        expected (lastTotals interface (earlier ++ calls.take k)) (totals interface call)) ↔
    ∀ interface < interfaces.length,
      Reported (interfaces.getD interface 0) (lastTotals interface earlier) (calls.map (totals interface)) := by
  induction calls generalizing interfaces earlier with
  | nil => exact ⟨fun _ _ _ => trivial, fun _ _ _ _ found => absurd found (by simp)⟩
  | cons first calls ih =>
    have later := @ih (loopPcapStats first interfaces).2 (earlier ++ [first])
    rw [length_loopPcapStats] at later
    constructor
    · intro right interface inside
      refine ⟨?_, ?_⟩
      · have answer := right 0 first (loopPcapStats first interfaces).1 rfl rfl interface inside
        rwa [take_zero, append_nil, itemsOf_loopPcapStats inside] at answer
      · have rest := later.mp (fun k call result found given interface inside => by
          have answer := right (k + 1) call result found given interface inside
          rw [take_succ_cons] at answer
          rwa [append_assoc, singleton_append]) interface inside
        rwa [getD_loopPcapStats inside, lastTotals_concat] at rest
    · intro reported k call result found given interface inside
      cases k with
      | zero =>
        cases found
        have answer : result = (loopPcapStats first interfaces).1 := (Option.some.inj given).symm
        rw [answer, itemsOf_loopPcapStats inside, (reported interface inside).1, take_zero,
          append_nil]
      | succ k =>
        have rest := later.mpr (fun interface inside => by
          rw [getD_loopPcapStats inside, lastTotals_concat]
          exact (reported interface inside).2) k call result found given interface inside
        rwa [append_assoc, singleton_append, ← take_succ_cons] at rest

/-- An item has at least one bit. -/
theorem allOnes_ne_zero (machine : Machine) : BitVec.allOnes (8 * machine.word) ≠ 0 := by
  cases machine <;> decide

theorem reported_iff (before : Counters machine) (readings : List (Option (Counters machine))) :
    Reported before before readings ↔ Quiet before readings := by
  induction readings generalizing before with
  | nil => exact Iff.rfl
  | cons now later ih =>
    cases now with
    | some now => exact (and_iff_right rfl).trans (ih now)
    | none =>
      constructor
      · rintro ⟨marked, rest⟩
        have silent : before = 0 := by
          funext item
          exact sub_eq_self.mp (congrFun marked item)
        subst silent
        refine ⟨rfl, ?_⟩
        cases later with
        | nil => rfl
        | cons next later =>
          have wrong := congrFun rest.1 Item.received
          cases next with
          | none => exact absurd ((sub_self _).symm.trans wrong).symm (allOnes_ne_zero machine)
          | some next => exact absurd (sub_right_injective wrong) (allOnes_ne_zero machine)
      · rintro ⟨rfl, rfl⟩
        exact ⟨funext fun item => BitVec.sub_zero _, trivial⟩

/-- The reports are right when an interface fails only at the end, with no packets before. -/
theorem loopPcapStats_right (machine : Machine) (count : Nat) (calls : List Call) :
    Right machine count calls ↔
      ∀ interface < count, Quiet (0 : Counters machine) (calls.map (totals interface)) := by
  have run := @reported_of_run machine (opened machine count) [] calls
  rw [opened, length_replicate] at run
  refine run.trans (forall₂_congr fun interface inside => ?_)
  rw [getD_replicate _ inside]
  exact reported_iff 0 _

/-- The interface has seen one packet, and then its statistics fail. -/
theorem failure_not_marked :
    ¬Right .wide 1 [fun _ _ => some ⟨1, 0, 0⟩, fun _ _ => none] := by
  intro right
  have wrong := right 1 _ _ rfl rfl 0 (by decide)
  exact absurd (congrFun wrong .received) (by decide)

end Runs

end Ucollect.Capture
