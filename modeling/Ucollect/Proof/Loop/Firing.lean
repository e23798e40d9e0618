import Ucollect.Proof.Loop.TimeoutArray

/-
Every timeout leaves the array once, by its fire, its cancellation or the end of its plugin.
-/

namespace Ucollect.Core
open MemPool List Option Function

variable {P : Type} {machine : Machine} {loop next : TimeoutLoop P} {timeout other : Timeout (Call P)}

/-- Timeouts due at the same time keep the order of their additions. -/
def Timeout.Before (first second : Timeout (Call P)) : Prop :=
  first.due < second.due ∨
    first.due = second.due ∧ first.callback.serial < second.callback.serial

/-- The timeouts of a loop, in the array and out of it. -/
def TimeoutLoop.all (loop : TimeoutLoop P) : List (Timeout (Call P)) :=
  loop.array.pending ++ (loop.fired.map (·.2) ++ (loop.cancelled.map (·.2) ++
    loop.destroyed.map (·.2)))

structure TimeoutLoop.Orderly (loop : TimeoutLoop P) : Prop where
  represented : loop.array.Represents ⟨loop.array.pending, loop.array.counter⟩
  sorted : loop.array.pending.Pairwise Timeout.Before
  distinct : (loop.array.pending.map (·.id)).Nodup
  accounted : (loop.all.map (·.callback.serial)).Perm (List.range loop.added.length)
  recorded : ∀ timeout ∈ loop.array.pending, loop.added[timeout.callback.serial]? =
    some (timeout.due, timeout.callback.context)
  firedDue : ∀ entry ∈ loop.fired, entry.2.due ≤ entry.1 ∧ entry.1 ≤ loop.now ∧
    loop.added[entry.2.callback.serial]?.map (·.1) = some entry.2.due
  firedOrder : (loop.fired.map (·.2)).Pairwise Timeout.Before
  firedFirst : ∀ entry ∈ loop.fired, ∀ timeout ∈ loop.array.pending, entry.2.Before timeout
  cancels : loop.cancelled.map (·.1) = loop.cancels
  cancelledId : ∀ entry ∈ loop.cancelled, entry.2.id = entry.1
  destroyedContext : ∀ entry ∈ loop.destroyed, entry.2.callback.context = some entry.1

/-- An operation fails only when the identifier is not pending, the clock has run out, or all the
identifiers are in use. -/
def TimeoutFault.Excused (machine : Machine) (loop : TimeoutLoop P) : TimeoutFault P → Prop
  | .op (.add after _) =>
    clockModulus ≤ loop.now + max 1 after.toNat ∨ machine.limit ≤ loop.array.pending.length
  | .op (.cancel id) => id ∉ loop.array.pending.map (·.id)
  | .memory => False

/-- A run goes on in order, or it stops in order at an excused fault. -/
def TimeoutLoop.Outcome (machine : Machine) : Except (TimeoutLoop P × TimeoutFault P) (TimeoutLoop P) → Prop
  | .ok next => next.Orderly
  | .error (last, fault) => last.Orderly ∧ fault.Excused machine last

theorem TimeoutLoop.start_orderly (now : Nat) : (start P now).Orderly where
  represented := ⟨⟨[], rfl⟩, rfl, rfl⟩
  sorted := List.Pairwise.nil
  distinct := nodup_nil
  accounted := List.Perm.refl _
  recorded := fun _ member => absurd member not_mem_nil
  firedDue := fun _ member => absurd member not_mem_nil
  firedOrder := List.Pairwise.nil
  firedFirst := fun _ member => absurd member not_mem_nil
  cancels := rfl
  cancelledId := fun _ member => absurd member not_mem_nil
  destroyedContext := fun _ member => absurd member not_mem_nil

theorem TimeoutLoop.Orderly.serial_lt (orderly : loop.Orderly)
    (member : timeout ∈ loop.array.pending) : timeout.callback.serial < loop.added.length := by
  rw [← mem_range, ← orderly.accounted.mem_iff]
  exact List.mem_map_of_mem (mem_append_left _ member)

/-- No timeout is in the array twice. -/
theorem TimeoutLoop.Orderly.nodup (orderly : loop.Orderly) : loop.array.pending.Nodup :=
  Nodup.of_map _ orderly.distinct

/-- The pending timeouts in front of a new one are due no later, those behind it later. -/
theorem insertTimeout_sorted {timeouts : List (Timeout (Call P))}
    (sorted : timeouts.Pairwise Timeout.Before)
    (older : ∀ other ∈ timeouts, other.callback.serial < timeout.callback.serial) :
    (insertTimeout timeouts timeout).Pairwise Timeout.Before := by
  have joined : (timeouts.rdropWhile fun other => timeout.due < other.due) ++
      (timeouts.rtakeWhile fun other => timeout.due < other.due) = timeouts :=
    rdropWhile_append_rtakeWhile
  have parts := sorted
  rw [← joined, pairwise_append] at parts
  obtain ⟨front, back, across⟩ := parts
  have dues : timeouts.Pairwise fun first second => first.due ≤ second.due := by
    apply sorted.imp
    rintro first second (less | ⟨same, -⟩)
    · exact less.le
    · exact same.le
  rw [insertTimeout, pairwise_append]
  refine ⟨front, pairwise_cons.mpr ⟨fun other member => .inl (due_behind member), back⟩, ?_⟩
  intro first member second behind
  rcases mem_cons.mp behind with rfl | behind
  · have young := older first (by rw [← joined]; exact mem_append_left _ member)
    rcases Nat.lt_or_eq_of_le (due_ahead dues member) with less | same
    · exact .inl less
    · exact .inr ⟨same, young⟩
  · exact across first member second behind

/-- The array after a step represents the pending timeouts it lists. -/
theorem TimeoutArray.Represents.self {array : TimeoutArray (Call P)}
    {timers : Timers (Call P)} (represents : array.Represents timers) :
    array.Represents ⟨array.pending, array.counter⟩ := by
  rw [represents.pending_eq, represents.counter]
  exact represents

section Steps

variable [DecidableEq P]

theorem TimeoutLoop.add_orderly (orderly : loop.Orderly) (after : UInt32) (context : Option P) :
    (loop.op machine (.add after context) = none ∧
        (TimeoutFault.op (.add after context)).Excused machine loop) ∨
      ∃ next, loop.op machine (.add after context) = some next ∧ next.Orderly ∧
        ∃ id, next.array.pending = insertTimeout loop.array.pending
          ⟨loop.now + max 1 after.toNat, id, context, loop.added.length⟩ := by
  by_cases late : clockModulus ≤ loop.now + max 1 after.toNat
  · left
    exact ⟨by rw [op, TimeoutArray.loopTimeoutAdd_late late]; rfl, .inl late⟩
  rcases TimeoutArray.loopTimeoutAdd_eq orderly.represented (Nat.lt_of_not_le late)
    ⟨context, loop.added.length⟩ with ⟨failed, stopped⟩ | ⟨id, list, array, added, worked, holds⟩
  · left
    refine ⟨by rw [op, stopped]; rfl, .inr ?_⟩
    by_contra few
    obtain ⟨id, next, added⟩ := @Timers.add_some (Call P) machine ⟨loop.array.pending, loop.array.counter⟩
      (Nat.lt_of_not_le few) loop.now after.toNat ⟨context, loop.added.length⟩
    cases failed.symm.trans added
  right
  have pending : array.pending = insertTimeout loop.array.pending
      ⟨loop.now + max 1 after.toNat, id, context, loop.added.length⟩ := by
    rw [holds.pending_eq]
    simp only [Timers.add, map_eq_some_iff, Prod.mk.injEq] at added
    obtain ⟨found, -, rfl, rfl⟩ := added
    have delay : (if after.toNat = 0 then 1 else after.toNat) = max 1 after.toNat := by
      split <;> omega
    rw [delay]
  have order := insertTimeout_perm loop.array.pending
    (⟨loop.now + max 1 after.toNat, id, context, loop.added.length⟩ : Timeout (Call P))
  refine ⟨_, by rw [op, worked]; rfl, ?_, id, pending⟩
  constructor
  case represented => exact holds.self
  case sorted =>
    show array.pending.Pairwise Timeout.Before
    rw [pending]
    exact insertTimeout_sorted orderly.sorted fun other member => orderly.serial_lt member
  case distinct =>
    have distinct := Timers.add_nodup added orderly.distinct
    rw [Timers.ids, ← holds.pending_eq] at distinct
    exact distinct
  case accounted =>
    have grown : (array.pending.map (·.callback.serial)).Perm
        (loop.added.length :: loop.array.pending.map (·.callback.serial)) := by
      rw [pending]
      exact order.map _
    simp only [all, map_append, length_append, length_singleton, range_succ]
    apply (grown.append_right _).trans
    apply (List.Perm.cons _ _).trans (perm_append_singleton _ _).symm
    simpa [all] using orderly.accounted
  case recorded =>
    intro timeout member
    change timeout ∈ array.pending at member
    rw [pending, order.mem_iff, mem_cons] at member
    rcases member with rfl | old
    · simp
    · rw [List.getElem?_append_left (orderly.serial_lt old)]
      exact orderly.recorded timeout old
  case firedDue =>
    intro entry member
    obtain ⟨due, time, record⟩ := orderly.firedDue entry member
    refine ⟨due, time, ?_⟩
    obtain ⟨addition, found, -⟩ := map_eq_some_iff.mp record
    obtain ⟨inside, -⟩ := List.getElem?_eq_some_iff.mp found
    rwa [List.getElem?_append_left inside]
  case firedOrder => exact orderly.firedOrder
  case firedFirst =>
    intro entry member timeout waiting
    change timeout ∈ array.pending at waiting
    rw [pending, order.mem_iff, mem_cons] at waiting
    rcases waiting with rfl | old
    · obtain ⟨due, time, -⟩ := orderly.firedDue entry member
      left
      show entry.2.due < loop.now + max 1 after.toNat
      omega
    · exact orderly.firedFirst entry member timeout old
  case cancels => exact orderly.cancels
  case cancelledId => exact orderly.cancelledId
  case destroyedContext => exact orderly.destroyedContext

omit [DecidableEq P] in
/-- A step that takes timeouts out of the array and records where they went keeps the order. -/
theorem TimeoutLoop.Orderly.shrink (orderly : loop.Orderly)
    (represented : next.array.Represents ⟨next.array.pending, next.array.counter⟩)
    (fewer : next.array.pending.Sublist loop.array.pending) (added : next.added = loop.added)
    (now : next.now = loop.now) (fired : next.fired = loop.fired)
    (moved : next.all.Perm loop.all) (cancels : next.cancelled.map (·.1) = next.cancels)
    (cancelledId : ∀ entry ∈ next.cancelled, entry.2.id = entry.1)
    (destroyedContext : ∀ entry ∈ next.destroyed, entry.2.callback.context = some entry.1) :
    next.Orderly where
  represented := represented
  sorted := orderly.sorted.sublist fewer
  distinct := orderly.distinct.sublist (fewer.map _)
  accounted := by
    rw [added]
    exact (moved.map _).trans orderly.accounted
  recorded := fun timeout member => by
    rw [added]
    exact orderly.recorded timeout (fewer.subset member)
  firedDue := by
    rw [fired, now, added]
    exact orderly.firedDue
  firedOrder := by
    rw [fired]
    exact orderly.firedOrder
  firedFirst := fun entry member timeout waiting => by
    rw [fired] at member
    exact orderly.firedFirst entry member timeout (fewer.subset waiting)
  cancels := cancels
  cancelledId := cancelledId
  destroyedContext := destroyedContext

/-- The only timeout that leaves is the one between the parts that stay. -/
theorem filter_middle {A : Type} [DecidableEq A] {before after : List A} {middle : A}
    (distinct : (before ++ middle :: after).Nodup) :
    (before ++ middle :: after).filter (fun other => other ∉ before ++ after) = [middle] := by
  have absent := (nodup_middle.mp distinct).notMem
  have front : before.filter (fun other => other ∉ before ++ after) = [] := by
    apply filter_eq_nil_iff.mpr
    intro other member
    simp [member]
  have back : after.filter (fun other => other ∉ before ++ after) = [] := by
    apply filter_eq_nil_iff.mpr
    intro other member
    simp [member]
  rw [filter_append, filter_cons_of_pos (by simpa using absent), front, back]
  rfl

/-- A cancellation takes out the timeout with the identifier and no other. -/
theorem TimeoutLoop.cancel_orderly (orderly : loop.Orderly) (id : Nat) :
    (loop.op machine (.cancel id) = none ∧ (TimeoutFault.op (.cancel id)).Excused machine loop) ∨
      ∃ next, loop.op machine (.cancel id) = some next ∧ next.Orderly ∧
        next.array.pending.Sublist loop.array.pending ∧
        ∃ before timeout after, timeout.id = id ∧
          loop.array.pending = before ++ timeout :: after ∧
          next.array.pending = before ++ after := by
  rcases TimeoutArray.loopTimeoutCancel_eq orderly.represented id with
    ⟨failed, stopped⟩ | ⟨list, array, cancelled, worked, holds⟩
  · left
    refine ⟨by rw [op, stopped]; rfl, ?_⟩
    intro present
    rw [Timers.cancel, Timers.ids, if_pos present] at failed
    cases failed
  right
  obtain ⟨before, timeout, after, same, split, erased⟩ := Timers.cancel_cases cancelled
  change loop.array.pending = _ at split
  have pending : array.pending = before ++ after := holds.pending_eq.trans erased
  have gone : departed loop.array array = [timeout] := by
    rw [departed, split, pending]
    exact filter_middle (by rw [← split]; exact orderly.nodup)
  have fewer : array.pending.Sublist loop.array.pending := by
    rw [pending, split]
    exact (sublist_cons_self _ _).append_left _
  refine ⟨_, by rw [op, worked]; rfl, ?_, fewer, before, timeout, after, same, split, pending⟩
  refine orderly.shrink holds.self fewer rfl rfl rfl ?_ ?_ ?_ ?_
  · simp only [all, gone, pending, split, map_append, map_cons, map_nil, append_assoc, cons_append,
      nil_append]
    apply Perm.append_left
    have swapped := @List.perm_middle _ timeout
      (after ++ (loop.fired.map (·.2) ++ loop.cancelled.map (·.2))) (loop.destroyed.map (·.2))
    simpa using swapped
  · simp [gone, orderly.cancels]
  · intro entry member
    rcases mem_append.mp member with old | new
    · exact orderly.cancelledId entry old
    · rw [gone, map_singleton, mem_singleton] at new
      rw [new]
      exact same
  · exact orderly.destroyedContext

/-- The end of a plugin takes out its timeouts and no other. -/
theorem TimeoutLoop.pluginDestroy_orderly (orderly : loop.Orderly) (plugin : P) :
    ∃ next, loop.pluginDestroy plugin = some next ∧ next.Orderly ∧
      next.array.pending =
        loop.array.pending.filter fun timeout => timeout.callback.context ≠ some plugin := by
  obtain ⟨array, worked, holds⟩ := TimeoutArray.pluginDestroy_eq orderly.represented
    fun call => call.context = some plugin
  have pending : array.pending =
      loop.array.pending.filter fun timeout => timeout.callback.context ≠ some plugin := by
    rw [holds.pending_eq]
    apply filter_congr
    intro timeout member
    simp
  have gone : departed loop.array array =
      loop.array.pending.filter fun timeout => timeout.callback.context = some plugin := by
    rw [departed, pending]
    apply filter_congr
    intro timeout member
    simp [member]
  have fewer : array.pending.Sublist loop.array.pending := by
    rw [pending]
    exact filter_sublist
  refine ⟨_, by rw [pluginDestroy, worked]; rfl, ?_, pending⟩
  refine orderly.shrink holds.self fewer rfl rfl rfl ?_ ?_ ?_ ?_
  · have parts : (loop.array.pending.filter (fun timeout =>
        timeout.callback.context ≠ some plugin) ++ loop.array.pending.filter (fun timeout =>
          timeout.callback.context = some plugin)).Perm loop.array.pending := by
      have split := filter_append_perm
        (fun timeout : Timeout (Call P) => timeout.callback.context ≠ some plugin)
        loop.array.pending
      simpa using split
    have behind := (@List.perm_append_comm _ (loop.fired.map (·.2) ++ (loop.cancelled.map (·.2) ++
      loop.destroyed.map (·.2))) (loop.array.pending.filter fun timeout =>
        timeout.callback.context = some plugin)).append_left array.pending
    rw [← pending] at parts
    have whole := parts.append_right (loop.fired.map (·.2) ++ (loop.cancelled.map (·.2) ++
      loop.destroyed.map (·.2)))
    rw [append_assoc] at whole
    simpa [all, gone, comp_def] using behind.trans whole
  · exact orderly.cancels
  · exact orderly.cancelledId
  · intro entry member
    rcases mem_append.mp member with old | new
    · exact orderly.destroyedContext entry old
    · rw [gone, List.mem_map] at new
      obtain ⟨timeout, found, rfl⟩ := new
      simpa using (mem_filter.mp found).2

omit [DecidableEq P] in
theorem TimeoutLoop.tick_orderly (orderly : loop.Orderly) (elapsed : Nat) :
    { loop with now := loop.now + elapsed }.Orderly where
  represented := orderly.represented
  sorted := orderly.sorted
  distinct := orderly.distinct
  accounted := orderly.accounted
  recorded := orderly.recorded
  firedDue := fun entry member => by
    obtain ⟨due, time, record⟩ := orderly.firedDue entry member
    exact ⟨due, Nat.le_add_right_of_le time, record⟩
  firedOrder := orderly.firedOrder
  firedFirst := orderly.firedFirst
  cancels := orderly.cancels
  cancelledId := orderly.cancelledId
  destroyedContext := orderly.destroyedContext

/-- A kept plugin gets its timeouts with their numbers, due times and identifiers. -/
theorem TimeoutLoop.migrate_orderly (orderly : loop.Orderly) (original plugin : P) :
    (loop.migrate original plugin).Orderly := by
  have holds := TimeoutArray.migrate_represents orderly.represented fun call : Call P =>
    { call with context := moveContext original plugin call.context }
  have pending := holds.pending_eq
  constructor
  case represented => exact holds.self
  case sorted =>
    show List.Pairwise Timeout.Before (loop.array.migrate _).pending
    rw [pending, pairwise_map]
    exact orderly.sorted
  case distinct =>
    show ((loop.array.migrate _).pending.map (·.id)).Nodup
    rw [pending, List.map_map]
    exact orderly.distinct
  case accounted =>
    have serials : (loop.migrate original plugin).all.map (·.callback.serial) =
        loop.all.map (·.callback.serial) := by
      simp only [all, migrate, pending, map_append, List.map_map]
      rfl
    rw [serials, migrate, length_map]
    exact orderly.accounted
  case recorded =>
    intro timeout member
    change timeout ∈ (loop.array.migrate _).pending at member
    rw [pending, List.mem_map] at member
    obtain ⟨old, waiting, rfl⟩ := member
    simp only [migrate, List.getElem?_map, orderly.recorded old waiting, map_some]
  case firedDue =>
    intro entry member
    obtain ⟨due, time, record⟩ := orderly.firedDue entry member
    refine ⟨due, time, ?_⟩
    simp only [migrate, List.getElem?_map, Option.map_map]
    exact record
  case firedOrder => exact orderly.firedOrder
  case firedFirst =>
    intro entry member timeout waiting
    change timeout ∈ (loop.array.migrate _).pending at waiting
    rw [pending, List.mem_map] at waiting
    obtain ⟨old, stood, rfl⟩ := waiting
    exact orderly.firedFirst entry member old stood
  case cancels => exact orderly.cancels
  case cancelledId => exact orderly.cancelledId
  case destroyedContext => exact orderly.destroyedContext

omit [DecidableEq P] in
/-- The timeout that fires is the first one, and it is due. -/
theorem TimeoutLoop.fire_orderly (orderly : loop.Orderly) {array : TimeoutArray (Call P)}
    {rest : List (Timeout (Call P))} (first : loop.array.pending = timeout :: rest)
    (due : timeout.due ≤ loop.now)
    (represents : array.Represents ⟨rest, loop.array.counter⟩) :
    ({ loop with
      array := array
      fired := loop.fired ++ [(loop.now, timeout)] } : TimeoutLoop P).Orderly := by
  have pending := represents.pending_eq
  have fewer : array.pending.Sublist loop.array.pending := by
    rw [pending, first]
    exact sublist_cons_self _ _
  have here : timeout ∈ loop.array.pending := by
    rw [first]
    exact mem_cons_self
  have ahead := orderly.sorted
  rw [first, pairwise_cons] at ahead
  constructor
  case represented => exact represents.self
  case sorted => exact orderly.sorted.sublist fewer
  case distinct => exact orderly.distinct.sublist (fewer.map _)
  case accounted =>
    apply List.Perm.trans _ orderly.accounted
    apply List.Perm.map
    have moved := @List.perm_middle _ timeout (rest ++ loop.fired.map (·.2))
      (loop.cancelled.map (·.2) ++ loop.destroyed.map (·.2))
    simpa [all, pending, first] using moved
  case recorded => exact fun other member => orderly.recorded other (fewer.subset member)
  case firedDue =>
    intro entry member
    rcases mem_append.mp member with old | new
    · exact orderly.firedDue entry old
    · rw [mem_singleton.mp new]
      exact ⟨due, Nat.le_refl _, by rw [orderly.recorded timeout here]; rfl⟩
  case firedOrder =>
    simp only [map_append, map_singleton]
    rw [pairwise_append]
    refine ⟨orderly.firedOrder, pairwise_singleton _ _, ?_⟩
    intro old member new same
    rw [mem_singleton.mp same]
    obtain ⟨entry, known, rfl⟩ := List.mem_map.mp member
    exact orderly.firedFirst entry known timeout here
  case firedFirst =>
    intro entry member other waiting
    rcases mem_append.mp member with old | new
    · exact orderly.firedFirst entry old other (fewer.subset waiting)
    · rw [mem_singleton.mp new]
      change other ∈ array.pending at waiting
      rw [pending] at waiting
      exact ahead.1 other waiting
  case cancels => exact orderly.cancels
  case cancelledId => exact orderly.cancelledId
  case destroyedContext => exact orderly.destroyedContext

theorem TimeoutLoop.op_orderly (orderly : loop.Orderly) (op : TimeoutOp P) :
    (loop.op machine op = none ∧ (TimeoutFault.op op).Excused machine loop) ∨
      ∃ next, loop.op machine op = some next ∧ next.Orderly := by
  cases op with
  | add after context =>
    rcases add_orderly orderly after context with failed | ⟨next, worked, kept, -⟩
    · exact .inl failed
    · exact .inr ⟨next, worked, kept⟩
  | cancel id =>
    rcases cancel_orderly orderly id with failed | ⟨next, worked, kept, -⟩
    · exact .inl failed
    · exact .inr ⟨next, worked, kept⟩

theorem TimeoutLoop.op_now {op : TimeoutOp P} (worked : loop.op machine op = some next) :
    next.now = loop.now := by
  cases op with
  | add after context =>
    obtain ⟨added, -, rfl⟩ := map_eq_some_iff.mp worked
    rfl
  | cancel id =>
    obtain ⟨array, -, rfl⟩ := map_eq_some_iff.mp worked
    rfl

/-- This counts the rounds that the processing of the timeouts still needs. -/
def TimeoutLoop.dueCount (loop : TimeoutLoop P) : Nat :=
  (loop.array.pending.filter fun timeout => timeout.due ≤ loop.now).length

theorem TimeoutLoop.op_dueCount {op : TimeoutOp P} (orderly : loop.Orderly)
    (worked : loop.op machine op = some next) : next.dueCount ≤ loop.dueCount := by
  have now := op_now worked
  cases op with
  | add after context =>
    rcases add_orderly orderly after context with ⟨failed, -⟩ | ⟨same, again, -, id, pending⟩
    · cases failed.symm.trans worked
    · obtain rfl := Option.some.inj (again.symm.trans worked)
      -- The new timeout is due after the current time.
      rw [dueCount, dueCount, now, pending, filter_insertTimeout]
      have later : ¬ loop.now + max 1 after.toNat ≤ loop.now := by omega
      exact decide_eq_false later
  | cancel id =>
    rcases cancel_orderly orderly id with ⟨failed, -⟩ | ⟨same, again, -, fewer, -⟩
    · cases failed.symm.trans worked
    · obtain rfl := Option.some.inj (again.symm.trans worked)
      rw [dueCount, dueCount, now]
      exact (fewer.filter _).length_le

variable (machine) in
theorem TimeoutLoop.ops_outcome (orderly : loop.Orderly) (ops : List (TimeoutOp P)) :
    Outcome machine (loop.ops machine ops) := by
  induction ops generalizing loop with
  | nil => exact orderly
  | cons op rest ih =>
    rw [TimeoutLoop.ops]
    rcases op_orderly orderly op with ⟨failed, excused⟩ | ⟨next, worked, kept⟩
    · rw [failed]
      exact ⟨orderly, excused⟩
    · rw [worked]
      exact ih kept

theorem TimeoutLoop.ops_settles (orderly : loop.Orderly) {ops : List (TimeoutOp P)}
    (worked : loop.ops machine ops = .ok next) : next.dueCount ≤ loop.dueCount := by
  induction ops generalizing loop with
  | nil =>
    cases worked
    exact Nat.le_refl _
  | cons op rest ih =>
    rw [TimeoutLoop.ops] at worked
    rcases op_orderly orderly op with ⟨failed, -⟩ | ⟨middle, first, kept⟩
    · rw [failed] at worked
      cases worked
    · rw [first] at worked
      exact (ih kept worked).trans (op_dueCount orderly first)

theorem TimeoutLoop.process_outcome (orderly : loop.Orderly) (rounds : Nat)
    (callbacks : List (TimeoutCallback P)) : Outcome machine (process machine rounds loop callbacks) := by
  induction rounds generalizing loop callbacks with
  | zero => exact orderly
  | succ rounds ih =>
    rw [process]
    rcases TimeoutArray.takeDue_eq orderly.represented loop.now with
      ⟨idle, -⟩ | ⟨timeout, rest, first, due, taken, represents⟩
    · rw [idle]
      exact orderly
    · rw [taken]
      have kept := ops_outcome machine (fire_orderly orderly first due represents)
        (callbacks.headD ⟨[], false⟩).ops
      simp only [bind, Except.bind]
      split
      case h_1 stopped result =>
        rw [result] at kept
        exact kept
      case h_2 middle result =>
        rw [result] at kept
        split
        · exact kept
        · exact ih kept callbacks.tail

/-- The processing does not end before the first timeout of the next time. -/
theorem TimeoutLoop.process_settles (orderly : loop.Orderly) {rounds : Nat}
    {callbacks : List (TimeoutCallback P)} (enough : loop.dueCount ≤ rounds)
    (returns : ∀ callback ∈ callbacks, callback.crashes = false)
    (worked : process machine rounds loop callbacks = .ok next) :
    ∀ timeout ∈ next.array.pending, next.now < timeout.due := by
  induction rounds generalizing loop callbacks with
  | zero =>
    cases worked
    intro timeout member
    have none_due := eq_nil_of_length_eq_zero (Nat.le_zero.mp enough)
    rw [filter_eq_nil_iff] at none_due
    simpa using none_due timeout member
  | succ rounds ih =>
    rw [process] at worked
    rcases TimeoutArray.takeDue_eq orderly.represented loop.now with
      ⟨idle, waits⟩ | ⟨timeout, rest, first, due, taken, represents⟩
    · rw [idle] at worked
      cases worked
      intro timeout member
      have sorted := orderly.sorted
      cases pending : next.array.pending with
      | nil =>
        rw [pending] at member
        cases member
      | cons head tail =>
        simp only [pending] at member waits sorted
        have early : next.now < head.due := waits head rfl
        rcases mem_cons.mp member with rfl | behind
        · exact early
        · rcases (pairwise_cons.mp sorted).1 timeout behind with less | ⟨same, -⟩
          · omega
          · omega
    · rw [taken] at worked
      have kept := fire_orderly orderly first due represents
      have outcome := ops_outcome machine kept (callbacks.headD ⟨[], false⟩).ops
      have goes_on : (callbacks.headD ⟨[], false⟩).crashes = false := by
        cases callbacks with
        | nil => rfl
        | cons callback rest => exact returns callback mem_cons_self
      simp only [bind, Except.bind, goes_on, Bool.false_eq_true, if_false] at worked
      split at worked
      case h_1 stopped result => cases worked
      case h_2 middle result =>
        rw [result] at outcome
        apply ih outcome _ (fun callback member => returns callback (mem_of_mem_tail member))
          worked
        have counted := ops_settles kept result
        have pending := represents.pending_eq
        have fewer : ({ loop with
            array := loop.array.remove 0
            fired := loop.fired ++ [(loop.now, timeout)] } : TimeoutLoop P).dueCount + 1 =
              loop.dueCount := by
          simp only [dueCount, pending]
          simp only at first
          rw [first, filter_cons_of_pos (by simpa using due), length_cons]
        omega

variable (machine) in
theorem TimeoutLoop.step_outcome (orderly : loop.Orderly) (event : TimeoutEvent P) :
    Outcome machine (loop.step machine event) := by
  cases event with
  | call op => exact ops_outcome machine orderly [op]
  | destroy plugin =>
    obtain ⟨next, worked, kept, -⟩ := pluginDestroy_orderly orderly plugin
    rw [step, worked]
    exact kept
  | migrate original plugin => exact migrate_orderly orderly original plugin
  | tick elapsed => exact tick_orderly orderly elapsed
  | process callbacks => exact process_outcome orderly loop.array.count callbacks

variable (machine) in
theorem TimeoutLoop.run_outcome (orderly : loop.Orderly) (events : List (TimeoutEvent P)) :
    Outcome machine (loop.run machine events) := by
  induction events generalizing loop with
  | nil => exact orderly
  | cons event events ih =>
    have kept := step_outcome machine orderly event
    rw [run, foldlM_cons]
    cases result : loop.step machine event with
    | error stopped =>
      rw [result] at kept
      exact kept
    | ok next =>
      rw [result] at kept
      exact ih kept

/-- A cancellation and the end of a plugin remove what they are for and nothing else, and no due
timeout is left behind. -/
structure TimeoutLoop.Exact (machine : Machine) (loop : TimeoutLoop P) : Prop where
  cancel : ∀ id ∈ loop.array.pending.map (·.id), ∃ next, loop.step machine (.call (.cancel id)) = .ok next ∧
    next.array.pending = loop.array.pending.filter fun timeout => timeout.id ≠ id
  destroy : ∀ plugin, ∃ next, loop.step machine (.destroy plugin) = .ok next ∧
    next.array.pending =
      loop.array.pending.filter fun timeout => timeout.callback.context ≠ some plugin
  process : ∀ callbacks : List (TimeoutCallback P), (∀ callback ∈ callbacks, callback.crashes = false) →
    ∀ next, loop.step machine (.process callbacks) = .ok next →
      ∀ timeout ∈ next.array.pending, next.now < timeout.due

theorem TimeoutLoop.Orderly.exact (orderly : loop.Orderly) : loop.Exact machine where
  cancel := by
    intro id present
    rcases cancel_orderly orderly id with
      ⟨-, absent⟩ | ⟨next, worked, -, -, before, timeout, after, same, split, pending⟩
    · exact absurd present absent
    · refine ⟨next, by rw [step, ops, worked]; rfl, ?_⟩
      have distinct := orderly.distinct
      rw [split, map_append, map_cons, nodup_middle, nodup_cons, same, ← map_append] at distinct
      have others : (before ++ after).filter (fun timeout => timeout.id ≠ id) = before ++ after := by
        apply filter_eq_self.mpr
        intro other member
        have different : other.id ≠ id := fun equal =>
          distinct.1 (List.mem_map.mpr ⟨other, member, equal⟩)
        simpa using different
      rw [pending, split, filter_append, filter_cons_of_neg (by simp [same]), ← filter_append,
        others]
  destroy := by
    intro plugin
    obtain ⟨next, worked, -, pending⟩ := pluginDestroy_orderly orderly plugin
    exact ⟨next, by rw [step, worked], pending⟩
  process := by
    intro callbacks returns next worked
    apply process_settles orderly _ returns worked
    rw [orderly.represented.count]
    exact length_filter_le _ _

/-- Whatever happens to the timeouts of a loop, in whatever order, each of them is fired once and
on time, or taken away by its own cancellation or the end of its plugin. -/
theorem TimeoutLoop.timeouts_orderly (machine : Machine) (now : Nat)
    (events : List (TimeoutEvent P)) :
    match (start P now).run machine events with
    | .ok loop => loop.Orderly ∧ loop.Exact machine
    | .error (loop, fault) => loop.Orderly ∧ loop.Exact machine ∧ fault.Excused machine loop := by
  have outcome := run_outcome machine (start_orderly now) events
  cases result : (start P now).run machine events with
  | ok loop =>
    rw [result] at outcome
    exact ⟨outcome, outcome.exact⟩
  | error stopped =>
    rw [result] at outcome
    exact ⟨outcome.1, outcome.1.exact, outcome.2⟩

end Steps

example : (((TimeoutLoop.start Nat 0).run .narrow [.call (.add 5 (some 1)), .call (.add 5 none),
    .call (.add 3 (some 2)), .tick 5, .process [⟨[.add 0 none, .cancel 2], false⟩]]).toOption.map
      fun loop => loop.fired.map (·.2.callback.serial)) = some [2, 0] := by
  decide +kernel

end Ucollect.Core
