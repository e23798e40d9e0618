import Ucollect.Proof.Uplink.Timeouts

/-
The array holds the timeouts of `Timers` in its first slots, and each operation on the slots does
what the operation on the list does.
-/

namespace Ucollect.Core
open MemPool List Option

variable {C : Type} {machine : Machine} {array next : TimeoutArray C} {timers : Timers C}
  {timeouts : List (Timeout C)} {slots : List (Option (Timeout C))}

/-- The first slots hold the pending timeouts. -/
structure TimeoutArray.Represents (array : TimeoutArray C) (timers : Timers C) : Prop where
  held : ∃ rest, array.slots = timers.timeouts.map some ++ rest
  count : array.count = timers.timeouts.length
  counter : array.counter = timers.counter

theorem TimeoutArray.Represents.pending_eq (represents : array.Represents timers) :
    array.pending = timers.timeouts := by
  obtain ⟨rest, held⟩ := represents.held
  rw [pending, held, represents.count, take_left' (length_map _), filterMap_map]
  exact filterMap_some

theorem readSlot_held {before after : List (Timeout C)} {timeout : Timeout C}
    {rest : List (Option (Timeout C))} :
    readSlot ((before ++ timeout :: after).map some ++ rest) before.length = some timeout := by
  rw [readSlot, List.getElem?_append_left (by simp), List.getElem?_map]
  simp

theorem writeSlot_hole {front rest : List (Option (Timeout C))} {hole : Option (Timeout C)}
    {timeout : Timeout C} :
    writeSlot (front ++ hole :: rest) front.length timeout =
      some (front ++ some timeout :: rest) := by
  rw [writeSlot, if_pos (by simp), set_append_right _ _ (Nat.le_refl _), Nat.sub_self,
    set_cons_zero]

/-- An array with room has a hole behind the pending timeouts. -/
theorem growSlots_hole (held : ∃ rest, slots = timeouts.map some ++ rest) :
    ∃ hole rest, growSlots slots timeouts.length = timeouts.map some ++ hole :: rest := by
  obtain ⟨rest, rfl⟩ := held
  rw [growSlots]
  split
  case isTrue full =>
    have none_left : rest = [] := by
      rw [length_append, length_map] at full
      exact eq_nil_of_length_eq_zero (by omega)
    subst none_left
    simp only [append_nil, length_map] at full ⊢
    rw [take_of_length_le (by simp)]
    obtain ⟨room, more⟩ : ∃ room, (if timeouts.length * 2 = 0 then 2 else timeouts.length * 2) -
        timeouts.length = room + 1 :=
      Nat.exists_eq_succ_of_ne_zero (by split <;> omega)
    rw [more, replicate_succ]
    exact ⟨none, _, rfl⟩
  case isFalse room =>
    cases rest with
    | nil => simp at room
    | cons hole rest => exact ⟨hole, rest, rfl⟩

/-- The shift opens the hole where the sorted insertion puts the timeout. -/
theorem shiftSlots_eq (due : Nat) (timeouts : List (Timeout C)) (hole : Option (Timeout C))
    (rest : List (Option (Timeout C))) :
    ∃ left, shiftSlots due (timeouts.map some ++ hole :: rest) timeouts.length =
      some ((timeouts.rdropWhile fun other => due < other.due).map some ++
          left :: ((timeouts.rtakeWhile fun other => due < other.due).map some ++ rest),
        (timeouts.rdropWhile fun other => due < other.due).length) := by
  induction timeouts using List.reverseRecOn generalizing hole rest with
  | nil => exact ⟨hole, by simp [shiftSlots]⟩
  | append_singleton timeouts last ih =>
    have read : readSlot ((timeouts ++ [last]).map some ++ hole :: rest) timeouts.length =
        some last := readSlot_held
    rw [length_append, length_singleton, shiftSlots, read]
    simp only [bind_eq_bind, bind_some]
    by_cases later : due < last.due
    · -- The last timeout moves into the hole and leaves the next one.
      have written : writeSlot ((timeouts ++ [last]).map some ++ hole :: rest)
          (timeouts.length + 1) last =
            some (timeouts.map some ++ some last :: some last :: rest) := by
        have written := @writeSlot_hole C ((timeouts ++ [last]).map some) rest hole last
        simpa using written
      rw [if_pos later, written, bind_some, rdropWhile_concat_pos _ _ _ (by simpa using later),
        rtakeWhile_concat_pos _ _ _ (by simpa using later)]
      obtain ⟨left, shifted⟩ := ih (some last) (some last :: rest)
      refine ⟨left, ?_⟩
      rw [shifted]
      simp
    · rw [if_neg later, rdropWhile_concat_neg _ _ _ (by simpa using later),
        rtakeWhile_concat_neg _ _ _ (by simpa using later)]
      exact ⟨hole, by simp⟩

/-- The check reads the slots of the pending timeouts and no other. -/
theorem idTaken_eq {hole id : Nat} {find : Nat → Timeout C} {positions : List Nat}
    (read : ∀ position ∈ positions, position ≠ hole →
      readSlot slots position = some (find position)) :
    idTaken slots hole id positions =
      some (decide (∃ position ∈ positions, position ≠ hole ∧ (find position).id = id)) := by
  induction positions with
  | nil => simp [idTaken]
  | cons position rest ih =>
    have later := ih fun other member => read other (mem_cons_of_mem _ member)
    rw [idTaken]
    by_cases here : position = hole
    · rw [if_pos here, later]
      simp [here]
    · rw [if_neg here, read position mem_cons_self here]
      simp only [bind_eq_bind, bind_some]
      by_cases same : (find position).id = id
      · simp [same, here]
      · simp [same, later]

theorem idTaken_hole (before after : List (Timeout C)) (hole : Option (Timeout C))
    (rest : List (Option (Timeout C))) (id : Nat) :
    idTaken (before.map some ++ hole :: (after.map some ++ rest)) before.length id
        (List.range ((before ++ after).length + 1)) =
      some (decide (id ∈ (before ++ after).map (·.id))) := by
  have first : ∀ position (small : position < before.length),
      readSlot (before.map some ++ hole :: (after.map some ++ rest)) position =
        some (before.get ⟨position, small⟩) := by
    intro position small
    rw [readSlot, List.getElem?_append_left (by simpa using small), List.getElem?_map,
      List.getElem?_eq_getElem small]
    rfl
  have second : ∀ position (small : position < after.length),
      readSlot (before.map some ++ hole :: (after.map some ++ rest))
        (before.length + 1 + position) = some (after.get ⟨position, small⟩) := by
    intro position small
    rw [readSlot, List.getElem?_append_right (by simp; omega)]
    have index : before.length + 1 + position - (before.map some).length = position + 1 := by
      rw [length_map]
      omega
    rw [index, List.getElem?_cons_succ, List.getElem?_append_left (by simpa using small),
      List.getElem?_map, List.getElem?_eq_getElem small]
    rfl
  rcases before_after : before ++ after with _ | ⟨some_timeout, others⟩
  · obtain ⟨rfl, rfl⟩ := append_eq_nil_iff.mp before_after
    rfl
  · -- Outside the list of the pending timeouts the finder may answer anything.
    let find : Nat → Timeout C := fun position =>
      if position < before.length then before.getD position some_timeout
      else after.getD (position - before.length - 1) some_timeout
    have read : ∀ position ∈ List.range ((before ++ after).length + 1), position ≠ before.length →
        readSlot (before.map some ++ hole :: (after.map some ++ rest)) position =
          some (find position) := by
      intro position member different
      rw [mem_range, length_append] at member
      by_cases small : position < before.length
      · rw [first position small]
        simp [find, small]
      · have shifted := second (position - before.length - 1) (by omega)
        rw [show before.length + 1 + (position - before.length - 1) = position by omega] at shifted
        rw [shifted]
        have inside : position - before.length - 1 < after.length := by omega
        simp [find, small, inside]
    rw [← before_after, idTaken_eq read]
    congr 1
    apply decide_eq_decide.mpr
    simp only [mem_range, length_append, map_append, mem_append, List.mem_map]
    constructor
    · rintro ⟨position, inside, different, same⟩
      by_cases small : position < before.length
      · left
        refine ⟨before.get ⟨position, small⟩, List.get_mem _ _, ?_⟩
        simpa [find, small] using same
      · right
        have inside : position - before.length - 1 < after.length := by omega
        refine ⟨after.get ⟨_, inside⟩, List.get_mem _ _, ?_⟩
        simpa [find, small, inside] using same
    · rintro (⟨timeout, member, same⟩ | ⟨timeout, member, same⟩)
      · obtain ⟨position, small, rfl⟩ := getElem_of_mem member
        exact ⟨position, by omega, by omega, by simpa [find, small] using same⟩
      · obtain ⟨position, small, rfl⟩ := getElem_of_mem member
        refine ⟨before.length + 1 + position, by omega, by omega, ?_⟩
        have index : before.length + 1 + position - before.length - 1 = position := by omega
        have far : ¬ before.length + 1 + position < before.length := by omega
        simpa [find, far, index, small] using same

theorem searchId_eq (before after : List (Timeout C)) (hole : Option (Timeout C))
    (rest : List (Option (Timeout C))) (tries counter : Nat) :
    searchId machine (before.map some ++ hole :: (after.map some ++ rest)) (before ++ after).length
        before.length tries counter =
      freshId machine ((before ++ after).map (·.id)) tries counter := by
  induction tries generalizing counter with
  | zero => rfl
  | succ tries ih =>
    simp only [searchId, freshId, idTaken_hole, bind_eq_bind, bind_some, decide_eq_true_eq]
    rw [ih]

/-- A delay of zero is raised to one. -/
theorem delay_toNat (after : UInt32) :
    (if after = 0 then 1 else after).toNat = max 1 after.toNat := by
  split
  case isTrue zero =>
    subst zero
    rfl
  case isFalse positive =>
    have : after.toNat ≠ 0 := fun zero => positive (UInt32.toNat_inj.mp zero)
    omega

/-- An addition before the end of the clock does what it does to the list. -/
theorem TimeoutArray.loopTimeoutAdd_eq (represents : array.Represents timers) {now : Nat}
    {after : UInt32} (early : now + max 1 after.toNat < clockModulus) (callback : C) :
    (timers.add machine now after.toNat callback = none ∧ array.loopTimeoutAdd machine now after callback = none) ∨
      ∃ id list next, timers.add machine now after.toNat callback = some (id, list) ∧
        array.loopTimeoutAdd machine now after callback = some (id, next) ∧ next.Represents list := by
  have same : (if after.toNat = 0 then 1 else after.toNat) = max 1 after.toNat := by
    split <;> omega
  obtain ⟨hole, rest, grown⟩ := growSlots_hole represents.held
  obtain ⟨left, shifted⟩ := shiftSlots_eq (now + max 1 after.toNat) timers.timeouts hole rest
  have searched := @searchId_eq C machine
    (timers.timeouts.rdropWhile fun other => now + max 1 after.toNat < other.due)
    (timers.timeouts.rtakeWhile fun other => now + max 1 after.toNat < other.due)
    left rest (timers.timeouts.length + 1) timers.counter
  rw [rdropWhile_append_rtakeWhile] at searched
  have later : now < now + max 1 after.toNat := by omega
  simp only [loopTimeoutAdd, represents.count, represents.counter, grown, delay_toNat,
    Nat.mod_eq_of_lt early, shifted, bind_eq_bind, bind_some, searched, later,
    if_true, Timers.add, Timers.ids, same]
  cases freshId machine (timers.timeouts.map (·.id)) (timers.timeouts.length + 1) timers.counter with
  | none => exact .inl ⟨rfl, rfl⟩
  | some id =>
    right
    have written := @writeSlot_hole C
      ((timers.timeouts.rdropWhile fun other => now + max 1 after.toNat < other.due).map some)
      ((timers.timeouts.rtakeWhile fun other => now + max 1 after.toNat < other.due).map some ++
        rest) left ⟨now + max 1 after.toNat, id, callback⟩
    rw [length_map] at written
    simp only [bind_some, map_some, written]
    refine ⟨_, _, _, rfl, rfl, ⟨rest, ?_⟩, ?_, rfl⟩
    · simp [insertTimeout]
    · exact (insertTimeout_perm _ _).length_eq.symm

/-- The assertion fails at the end of the clock. -/
theorem TimeoutArray.loopTimeoutAdd_late {now : Nat} {after : UInt32}
    (late : clockModulus ≤ now + max 1 after.toNat) (callback : C) :
    array.loopTimeoutAdd machine now after callback = none := by
  have bound : after.toNat < 2 ^ 32 := after.toNat_lt
  have wrapped : ¬ now < (now + max 1 after.toNat) % clockModulus := by
    have small : max 1 after.toNat < clockModulus := by
      rw [clockModulus]
      omega
    rw [clockModulus] at late small ⊢
    omega
  simp only [loopTimeoutAdd, delay_toNat, wrapped, if_false, bind_eq_bind, bind_fun_none]

theorem TimeoutArray.remove_represents {before after : List (Timeout C)} {timeout : Timeout C}
    (represents : array.Represents timers) (split : timers.timeouts = before ++ timeout :: after) :
    (array.remove before.length).Represents { timers with timeouts := before ++ after } := by
  obtain ⟨rest, held⟩ := represents.held
  have count : array.count = before.length + 1 + after.length := by
    rw [represents.count, split, length_append, length_cons]
    omega
  refine ⟨⟨array.slots.drop (array.count - 1), ?_⟩, ?_, represents.counter⟩
  · have first : array.slots.take before.length = before.map some := by
      rw [held, split, map_append, append_assoc]
      exact take_left' (length_map _)
    have second : (array.slots.drop (before.length + 1)).take (array.count - 1 - before.length) =
        after.map some := by
      have shape : array.slots =
          (before.map some ++ [some timeout]) ++ (after.map some ++ rest) := by
        rw [held, split]
        simp
      rw [shape, drop_left' (by simp)]
      exact take_left' (by rw [length_map]; omega)
    rw [remove, first, second, map_append]
  · simp only [remove, length_append]
    omega

theorem eraseP_split {before after : List (Timeout C)} {timeout : Timeout C} {id : Nat}
    (absent : id ∉ before.map (·.id)) (same : timeout.id = id) :
    (before ++ timeout :: after).eraseP (fun other => other.id == id) = before ++ after := by
  rw [eraseP_append_right _ (fun other member matched => absent
    (List.mem_map.mpr ⟨other, member, by simpa using matched⟩)), eraseP_cons_of_pos
    (by simpa using same)]

/-- The loop of the cancellation has passed the timeouts before its position. -/
theorem TimeoutArray.cancelFrom_eq (represents : array.Represents timers) (id : Nat)
    (before after : List (Timeout C)) (split : timers.timeouts = before ++ after)
    (absent : id ∉ before.map (·.id)) :
    (timers.cancel id = none ∧ array.cancelFrom id after.length before.length = none) ∨
      ∃ list next, timers.cancel id = some list ∧
        array.cancelFrom id after.length before.length = some next ∧ next.Represents list := by
  induction after generalizing before with
  | nil =>
    left
    rw [append_nil] at split
    rw [Timers.cancel, if_neg (by rwa [Timers.ids, split])]
    exact ⟨rfl, rfl⟩
  | cons timeout after ih =>
    obtain ⟨rest, held⟩ := represents.held
    have read : readSlot array.slots before.length = some timeout := by
      rw [held, split]
      exact readSlot_held
    rw [length_cons, cancelFrom, read]
    simp only [bind_eq_bind, bind_some]
    by_cases same : timeout.id = id
    · right
      have present : id ∈ timers.ids := by
        rw [Timers.ids, split, List.mem_map]
        exact ⟨timeout, by simp, same⟩
      rw [if_pos same, Timers.cancel, if_pos present]
      refine ⟨_, _, rfl, rfl, ?_⟩
      rw [split, eraseP_split absent same]
      exact remove_represents represents split
    · rw [if_neg same]
      have next := ih (before ++ [timeout]) (by rw [split, append_assoc]; rfl) (by
        rw [map_append, mem_append, map_singleton, mem_singleton]
        exact fun member => member.elim absent fun equal => same equal.symm)
      rwa [length_append, length_singleton] at next

theorem TimeoutArray.loopTimeoutCancel_eq (represents : array.Represents timers) (id : Nat) :
    (timers.cancel id = none ∧ array.loopTimeoutCancel id = none) ∨
      ∃ list next, timers.cancel id = some list ∧
        array.loopTimeoutCancel id = some next ∧ next.Represents list := by
  rw [loopTimeoutCancel, represents.count]
  exact cancelFrom_eq represents id [] timers.timeouts rfl not_mem_nil

/-- The timeouts before the position stay, those behind it are still to be checked. -/
theorem TimeoutArray.destroyFrom_eq (owned : C → Bool) (before after : List (Timeout C))
    (array : TimeoutArray C) (timers : Timers C) (represents : array.Represents timers)
    (split : timers.timeouts = before ++ after) :
    ∃ next, destroyFrom owned after.length array before.length = some next ∧
      next.Represents { timers with
        timeouts := before ++ after.filter fun timeout => !owned timeout.callback } := by
  induction after generalizing before array timers with
  | nil =>
    refine ⟨array, rfl, ?_⟩
    rw [filter_nil, ← split]
    exact represents
  | cons timeout after ih =>
    obtain ⟨rest, held⟩ := represents.held
    have read : readSlot array.slots before.length = some timeout := by
      rw [held, split]
      exact readSlot_held
    have inside : before.length < array.count := by
      rw [represents.count, split, length_append, length_cons]
      omega
    rw [length_cons, destroyFrom, if_pos inside, read]
    simp only [bind_eq_bind, bind_some]
    cases mine : owned timeout.callback with
    | true =>
      rw [if_pos rfl, filter_cons_of_neg (by simp [mine])]
      exact ih before _ { timers with timeouts := before ++ after }
        (remove_represents represents split) rfl
    | false =>
      rw [if_neg (by simp), filter_cons_of_pos (by simp [mine])]
      have next := ih (before ++ [timeout]) array timers represents
        (by rw [split, append_assoc]; rfl)
      rwa [length_append, length_singleton, append_assoc] at next

/-- The timeouts of the plugin go, the others stay in their order. -/
theorem TimeoutArray.pluginDestroy_eq (represents : array.Represents timers) (owned : C → Bool) :
    ∃ next, array.pluginDestroy owned = some next ∧ next.Represents { timers with
      timeouts := timers.timeouts.filter fun timeout => !owned timeout.callback } := by
  rw [pluginDestroy, represents.count]
  exact destroyFrom_eq owned [] timers.timeouts array timers represents rfl

theorem TimeoutArray.migrate_represents (represents : array.Represents timers) (move : C → C) :
    (array.migrate move).Represents { timers with
      timeouts := timers.timeouts.map fun timeout =>
        { timeout with callback := move timeout.callback } } := by
  obtain ⟨rest, held⟩ := represents.held
  refine ⟨⟨rest, ?_⟩, ?_, represents.counter⟩
  · rw [migrate, represents.count, held, take_left' (length_map _), drop_left' (length_map _),
      List.map_map, List.map_map]
    rfl
  · rw [length_map]
    exact represents.count

/-- The first timeout is taken when it is due. -/
theorem TimeoutArray.takeDue_eq (represents : array.Represents timers) (now : Nat) :
    (array.takeDue now = some none ∧ ∀ timeout ∈ timers.timeouts.head?, now < timeout.due) ∨
      ∃ timeout rest, timers.timeouts = timeout :: rest ∧ timeout.due ≤ now ∧
        array.takeDue now = some (some (timeout, array.remove 0)) ∧
        (array.remove 0).Represents { timers with timeouts := rest } := by
  cases listed : timers.timeouts with
  | nil =>
    left
    rw [takeDue, if_pos (by rw [represents.count, listed]; rfl)]
    exact ⟨rfl, by simp⟩
  | cons timeout rest =>
    obtain ⟨tail, held⟩ := represents.held
    have read : readSlot array.slots 0 = some timeout := by
      rw [held, listed]
      rfl
    rw [takeDue, if_neg (by rw [represents.count, listed]; simp), read]
    simp only [bind_eq_bind, bind_some]
    by_cases due : timeout.due ≤ now
    · right
      rw [if_pos due]
      exact ⟨timeout, rest, rfl, due, rfl, @remove_represents C array timers [] rest timeout
        represents listed⟩
    · left
      rw [if_neg due]
      refine ⟨rfl, ?_⟩
      intro first same
      rw [List.head?_cons, mem_some_iff] at same
      subst same
      exact Nat.lt_of_not_le due

end Ucollect.Core
