import Ucollect.Proof.Refused.Census

namespace Ucollect.Refused
open List Function

open Core Library

section Found

variable {world next : World} {d : Connection}

/-- These are the fields that decide when the send timeout is called. -/
def World.timers (world : World) : Bool × Bool × Nat × List Nat :=
  (world.active, world.timeoutScheduled, world.timeoutId, world.pending)

/-- No connection has a mark that only a message gives. -/
def World.Unmarked (world : World) : Prop := ∀ d ∈ world.connections, d.transmitted = false

/-- Events keep the timers and give no marks. -/
structure Steady (world next : World) : Prop where
  timers : next.timers = world.timers
  unmarked : world.Unmarked → next.Unmarked

theorem Steady.refl (world : World) : Steady world world := ⟨rfl, id⟩

theorem Steady.trans {first second third : World} (early : Steady first second)
    (late : Steady second third) : Steady first third :=
  ⟨late.timers.trans early.timers, fun unmarked => late.unmarked (early.unmarked unmarked)⟩

theorem World.Unmarked.put (unmarked : world.Unmarked) {row : Connection}
    (plain : row.transmitted = false) :
    ∀ d ∈ putRow Connection.id row world.connections, d.transmitted = false := by
  intro d member
  obtain ⟨other, known, result⟩ := List.mem_map.mp member
  split at result
  · exact result ▸ plain
  · exact result ▸ unmarked other known

theorem World.count_eq (world : World) (d : Connection) :
    world.count d = { world with
      sendV4 := world.sendV4 + if d.rejected && !d.v6 then 1 else 0
      sendV6 := world.sendV6 + if d.rejected && d.v6 then 1 else 0 } := by
  unfold World.count
  cases d.rejected <;> cases d.v6 <;> rfl

/-- The undecided connections are counted and listed. -/
theorem World.Sound.undecided_listed (sound : world.Sound) (member : d ∈ world.connections)
    (undecided : d.completed = false) : world.undecided ≠ 0 ∧ d.id ∈ world.timeoutList := by
  constructor
  · rw [sound.counted.undecided]
    apply Nat.ne_of_gt
    exact countP_pos_iff.mpr ⟨d, member, by simp [undecided]⟩
  · apply sound.listed.entries.mem_iff.mpr
    exact List.mem_map_of_mem (mem_filter.mpr ⟨member, by simp [undecided]⟩)

variable {new : Connection}

/-- The assertions about a decided connection hold. -/
theorem World.Sound.complete_eq (sound : world.Sound) (member : d ∈ world.connections)
    (undecided : d.completed = false) (same : new.id = d.id) :
    (world.count new).complete new = .ok ({ world with
      undecided := world.undecided - 1
      finished := world.finished + 1
      sendV4 := world.sendV4 + if new.rejected && !new.v6 then 1 else 0
      sendV6 := world.sendV6 + if new.rejected && new.v6 then 1 else 0
      timeoutList := world.timeoutList.erase d.id
      history := world.history ++ [new] }.put { new with completed := true }) := by
  obtain ⟨counted, listed⟩ := sound.undecided_listed member undecided
  rw [World.count_eq, World.complete]
  simp only
  rw [if_neg counted, if_neg (not_not.mpr (same ▸ listed)), same]

/-- A decided connection leaves the list. -/
theorem World.Sound.completes (sound : world.Sound) (member : d ∈ world.connections)
    (undecided : d.completed = false) (follows : Follows d new) :
    Concludes (fun next => next.Sound ∧ Steady world next ∧
        next.timeoutList = world.timeoutList.erase d.id)
      (fun _ => False) ((world.count new).complete new) := by
  have same : ({ new with completed := true } : Connection).id = d.id := follows.id
  obtain ⟨others, before, after⟩ := exists_others sound.keyed.ids member same
  rw [sound.complete_eq member undecided follows.id, ← follows.id]
  refine ⟨?_, ⟨rfl, fun unmarked => ?_⟩, rfl⟩
  · exact ((sound.perm before.symm).complete follows undecided).perm after
  · exact unmarked.put (follows.transmitted.trans (unmarked d member))

/-- A connection that is not decided yet keeps its place. -/
theorem World.Sound.puts (sound : world.Sound) (member : d ∈ world.connections)
    (undecided : d.completed = false) (follows : Follows d new) :
    (world.put new).Sound ∧ Steady world (world.put new) := by
  obtain ⟨others, before, after⟩ := exists_others sound.keyed.ids member follows.id
  constructor
  · exact ((sound.perm before.symm).replace follows undecided).perm after
  · exact ⟨rfl, fun unmarked => unmarked.put (follows.transmitted.trans (unmarked d member))⟩

/-- An event on an undecided connection keeps the books. -/
theorem World.Sound.handleEventFound (sound : world.Sound) (member : d ∈ world.connections)
    (undecided : d.completed = false) (type : EventType) (nakType : Char) :
    Concludes (fun next => next.Sound ∧ Steady world next ∧
        ((d.see type nakType).decided → next.timeoutList = world.timeoutList.erase d.id))
      (fun _ => False) (world.handleEventFound type nakType d) := by
  have follows := d.see_follows type nakType
  simp only [World.handleEventFound]
  split
  case isTrue decided =>
    apply (sound.completes member undecided follows).weaken
    · intro next ⟨stands, steady, erased⟩
      exact ⟨stands, steady, fun _ => erased⟩
    · exact fun _ => id
  case isFalse open' =>
    obtain ⟨stands, steady⟩ := sound.puts member undecided follows
    exact ⟨stands, steady, fun decided => absurd decided open'⟩

end Found

section New

variable {world : World}

variable {key : ConnKey}

theorem World.lookup_eq_none (missing : world.lookup key = none) :
    key ∉ world.connections.map Connection.key := by
  intro present
  obtain ⟨d, member, same⟩ := List.mem_map.mp present
  have other := List.find?_eq_none.mp missing d member
  simp [same] at other

theorem World.lookup_eq_some {d : Connection} (found : world.lookup key = some d) :
    d ∈ world.connections :=
  mem_of_find?_eq_some found

/-- The new connection is the youngest one of the list. -/
theorem World.Listed.append_first (listed : world.Listed) (keyed : world.Keyed) {v6 : Bool} :
    { world.append (world.create v6 key) with
      connections := world.create v6 key :: world.connections }.Listed := by
  obtain ⟨entries, times, same, ordered⟩ := listed
  have known : ∀ id ∈ world.timeoutList, id ≠ world.created ∧ times id ≤ world.now := by
    intro id member
    obtain ⟨d, inside, rfl⟩ := List.mem_map.mp (entries.mem_iff.mp member)
    have present := mem_of_mem_filter inside
    exact ⟨(keyed.created d present).ne, same d present ▸ keyed.past d present⟩
  constructor
  case entries => exact (entries.append_right [world.created]).trans perm_append_comm
  case ordered =>
    refine ⟨update times world.created world.now, ?_, ?_⟩
    · intro d member
      rcases mem_cons.mp member with rfl | inside
      · exact update_self _ _ _
      · rw [update_of_ne (keyed.created d inside).ne]
        exact same d inside
    · apply pairwise_append.mpr ⟨?_, pairwise_singleton _ _, ?_⟩
      · apply ordered.imp_of_mem
        intro first second one other le
        rw [update_of_ne (known first one).1, update_of_ne (known second other).1]
        exact le
      · intro first one second new
        have youngest : second = world.created := mem_singleton.mp new
        rw [youngest, update_of_ne (known first one).1, update_self]
        exact (known first one).2

/-- A new connection is the first row here, and its place in the table does not matter. -/
theorem World.Sound.append_first (sound : world.Sound) {v6 : Bool}
    (missing : key ∉ world.connections.map Connection.key)
    (length : key.address.length = copiedLen v6) :
    { world.append (world.create v6 key) with
      connections := world.create v6 key :: world.connections }.Sound := by
  have old : ∀ good : Connection → Prop, good (world.create v6 key) →
      (∀ d ∈ world.connections, good d) → ∀ d ∈ world.create v6 key :: world.connections, good d := by
    intro good one all d member
    rcases mem_cons.mp member with rfl | inside
    · exact one
    · exact all d inside
  constructor
  case keyed =>
    constructor
    case ids =>
      apply nodup_cons.mpr ⟨?_, sound.keyed.ids⟩
      intro present
      obtain ⟨d, member, same⟩ := List.mem_map.mp present
      exact absurd (sound.keyed.created d member) (same ▸ Nat.lt_irrefl _)
    case keys => exact nodup_cons.mpr ⟨missing, sound.keyed.keys⟩
    case created =>
      exact old _ (Nat.lt_succ_self _) fun d member =>
        Nat.lt_succ_of_lt (sound.keyed.created d member)
    case past => exact old _ (Nat.le_refl _) sound.keyed.past
    case family => exact old _ length sound.keyed.family
    case marks => exact old _ nofun sound.keyed.marks
    case settled =>
      apply old _ ?_ sound.keyed.settled
      intro recorded
      exact absurd (sound.keyed.known _ recorded) (Nat.lt_irrefl _)
    case known => exact fun id recorded => Nat.lt_succ_of_lt (sound.keyed.known id recorded)
  case counted =>
    refine { sound.counted with undecided := ?undecided }
    case undecided =>
      exact (congrArg Nat.succ sound.counted.undecided).trans (countP_cons_of_pos rfl).symm
  case listed => exact sound.listed.append_first sound.keyed
  case reported => exact ⟨sound.reported.once, sound.reported.covers⟩

theorem World.Sound.append (sound : world.Sound) {v6 : Bool} {key : ConnKey}
    (missing : key ∉ world.connections.map Connection.key)
    (length : key.address.length = copiedLen v6) :
    (world.append (world.create v6 key)).Sound ∧
      Steady world (world.append (world.create v6 key)) := by
  constructor
  · exact (sound.append_first missing length).perm (perm_append_singleton _ _)
  · refine ⟨rfl, fun unmarked d member => ?_⟩
    rcases mem_append.mp member with inside | new
    · exact unmarked d inside
    · rw [mem_singleton.mp new]
      rfl

/-- A seen event keeps the books, also where it starts a new connection. -/
theorem World.Sound.handleEvent (sound : world.Sound) {seen : Seen}
    (event : seen.type ≠ .timeout) :
    Concludes (fun next => next.Sound ∧ Steady world next) (fun _ => False)
      (world.handleEvent seen) := by
  rw [World.handleEvent]
  split
  case h_1 missing =>
    rw [if_neg event]
    split
    case isTrue => exact ⟨sound, .refl world⟩
    case isFalse =>
      have length : seen.key.address.length = copiedLen seen.v6 := by
        rw [Seen.key, length_map, length_range]
      obtain ⟨stands, steady⟩ := sound.append (World.lookup_eq_none missing) length
      have member : world.create seen.v6 seen.key ∈
          (world.append (world.create seen.v6 seen.key)).connections :=
        mem_append_right _ (mem_singleton.mpr rfl)
      apply (stands.handleEventFound member rfl seen.type seen.nakType).weaken
      · exact fun next found => ⟨found.1, steady.trans found.2.1⟩
      · exact fun _ => id
  case h_2 d found =>
    split
    case isTrue => exact ⟨sound, .refl world⟩
    case isFalse undecided =>
      apply (sound.handleEventFound (World.lookup_eq_some found)
        (Bool.not_eq_true _ ▸ undecided) seen.type seen.nakType).weaken
      · exact fun next kept => ⟨kept.1, kept.2.1⟩
      · exact fun _ => id

end New

section Timeouts

variable {world : World}

/-- The list has only undecided connections of the table. -/
theorem World.Sound.deref (sound : world.Sound) {id : Nat} (listed : id ∈ world.timeoutList) :
    ∃ d, world.deref id = some d ∧ d ∈ world.connections ∧ d.completed = false ∧ d.id = id := by
  obtain ⟨d, inside, rfl⟩ := List.mem_map.mp (sound.listed.entries.mem_iff.mp listed)
  obtain ⟨member, undecided⟩ := mem_filter.mp inside
  exact ⟨d, find_row sound.keyed.ids member, member, by simpa using undecided, rfl⟩

theorem World.Sound.list_nodup (sound : world.Sound) : world.timeoutList.Nodup := by
  apply sound.listed.entries.nodup_iff.mpr
  exact sound.keyed.ids.sublist (filter_sublist.map _)

theorem Connection.timeout_decided (d : Connection) : (d.see .timeout '\x00').decided = true := rfl

/-- The loop over the heads of the list ends, since each round takes one of them away. -/
theorem World.Sound.timeoutsEvaluate (fuel : Nat) {world : World} (sound : world.Sound)
    (enough : world.timeoutList.length ≤ fuel) :
    Concludes (fun next => next.Sound ∧ Steady world next) (fun _ => False)
      (world.timeoutsEvaluate fuel) := by
  induction fuel generalizing world with
  | zero =>
    have empty : world.timeoutList = [] := eq_nil_of_length_eq_zero (Nat.le_zero.mp enough)
    rw [World.timeoutsEvaluate, empty]
    exact ⟨sound, .refl world⟩
  | succ fuel ih =>
    rw [World.timeoutsEvaluate]
    split
    case h_1 => exact ⟨sound, .refl world⟩
    case h_2 id rest list =>
      obtain ⟨d, found, member, undecided, rfl⟩ :=
        sound.deref (list ▸ mem_cons_self : id ∈ world.timeoutList)
      rw [found]
      simp only
      split
      case isFalse => exact ⟨sound, .refl world⟩
      case isTrue =>
        apply (sound.handleEventFound member undecided .timeout '\x00').bind
        rintro next ⟨stands, steady, erased⟩
        have left : next.timeoutList = rest := by
          rw [erased d.timeout_decided, list, erase_cons_head]
        have distinct := list ▸ sound.list_nodup
        have moved : next.timeoutList.head? ≠ some d.id := by
          rw [left]
          exact fun head => (nodup_cons.mp distinct).1 (mem_of_mem_head? head)
        rw [World.advanced, if_neg moved]
        have shorter : next.timeoutList.length ≤ fuel := by
          rw [list, length_cons] at enough
          rw [left]
          exact Nat.le_of_succ_le_succ enough
        apply (ih stands shorter).weaken
        · exact fun last ends => ⟨ends.1, steady.trans ends.2⟩
        · exact fun _ fault => fault

end Timeouts

end Ucollect.Refused
