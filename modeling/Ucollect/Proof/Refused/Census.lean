import Ucollect.Construction.Refused.Connections
import Ucollect.Library.Outcomes

namespace Ucollect.Refused
open List

open Core Library

section Census

/-- The connection was tried and not accepted, and it is in no message yet. -/
def Connection.waiting (d : Connection) : Bool := d.completed && d.rejected && !d.transmitted

/-- The counters are the census of the table. -/
structure World.Counted (world : World) : Prop where
  undecided : world.undecided = world.connections.countP fun d => !d.completed
  finished : world.finished = world.connections.countP fun d => d.completed
  sendV4 : world.sendV4 = world.connections.countP fun d => d.waiting && !d.v6
  sendV6 : world.sendV6 = world.connections.countP fun d => d.waiting && d.v6

/-- The list has the undecided connections in the order of their times. -/
structure World.Listed (world : World) : Prop where
  entries : world.timeoutList.Perm
    ((world.connections.filter fun d => !d.completed).map Connection.id)
  ordered : ∃ times : Nat → Nat, (∀ d ∈ world.connections, times d.id = d.time) ∧
    world.timeoutList.Pairwise fun first second => times first ≤ times second

/-- A connection that was tried and not accepted has one record in one message, or it waits. -/
structure World.Reported (world : World) : Prop where
  once : (world.history.map Connection.id).Nodup
  covers : ((world.history.filter Connection.rejected).map Connection.record).Perm
    (world.messages.flatten ++
      (world.connections.filter Connection.waiting).map Connection.record)

/-- The table has one connection for each identifier and for each key. -/
structure World.Keyed (world : World) : Prop where
  ids : (world.connections.map Connection.id).Nodup
  keys : (world.connections.map Connection.key).Nodup
  created : ∀ d ∈ world.connections, d.id < world.created
  past : ∀ d ∈ world.connections, d.time ≤ world.now
  family : ∀ d ∈ world.connections, d.key.address.length = copiedLen d.v6
  marks : ∀ d ∈ world.connections, d.transmitted → d.completed
  settled : ∀ d ∈ world.connections, d.id ∈ world.history.map Connection.id → d.completed
  known : ∀ id ∈ world.history.map Connection.id, id < world.created

structure World.Sound (world : World) : Prop where
  keyed : world.Keyed
  counted : world.Counted
  listed : world.Listed
  reported : world.Reported

variable {world : World} {rows : List Connection}

/-- The order of the table does not matter. -/
theorem World.Sound.perm (sound : world.Sound) (perm : rows.Perm world.connections) :
    { world with connections := rows }.Sound := by
  have inside : ∀ d ∈ rows, d ∈ world.connections := fun d member => perm.mem_iff.mp member
  constructor
  case keyed =>
    constructor
    case ids => exact (perm.map _).nodup_iff.mpr sound.keyed.ids
    case keys => exact (perm.map _).nodup_iff.mpr sound.keyed.keys
    case created => exact fun d member => sound.keyed.created d (inside d member)
    case past => exact fun d member => sound.keyed.past d (inside d member)
    case family => exact fun d member => sound.keyed.family d (inside d member)
    case marks => exact fun d member => sound.keyed.marks d (inside d member)
    case settled => exact fun d member => sound.keyed.settled d (inside d member)
    case known => exact sound.keyed.known
  case counted =>
    constructor
    case undecided => exact sound.counted.undecided.trans (perm.countP_eq _).symm
    case finished => exact sound.counted.finished.trans (perm.countP_eq _).symm
    case sendV4 => exact sound.counted.sendV4.trans (perm.countP_eq _).symm
    case sendV6 => exact sound.counted.sendV6.trans (perm.countP_eq _).symm
  case listed =>
    obtain ⟨times, same, ordered⟩ := sound.listed.ordered
    constructor
    case entries => exact sound.listed.entries.trans ((perm.filter _).map _).symm
    case ordered => exact ⟨times, fun d member => same d (inside d member), ordered⟩
  case reported =>
    constructor
    case once => exact sound.reported.once
    case covers => exact sound.reported.covers.trans (((perm.filter _).map _).symm.append_left _)

end Census

section Replacement

variable {world : World} {old new : Connection} {others : List Connection}

/-- An event changes only what is known about the connection. -/
structure Follows (old new : Connection) : Prop where
  id : new.id = old.id
  key : new.key = old.key
  time : new.time = old.time
  v6 : new.v6 = old.v6
  transmitted : new.transmitted = old.transmitted
  completed : new.completed = old.completed

theorem Connection.see_follows (d : Connection) (type : EventType) (nakType : Char) :
    Follows d (d.see type nakType) := by
  cases type <;> exact ⟨rfl, rfl, rfl, rfl, rfl, rfl⟩

/-- The row of the table has the same facts after an event. -/
theorem World.Keyed.replace (keyed : { world with connections := old :: others }.Keyed)
    (follows : Follows old new) : { world with connections := new :: others }.Keyed := by
  have each : ∀ good : Connection → Prop, (∀ d ∈ old :: others, good d) → good new →
      ∀ d ∈ new :: others, good d := by
    intro good all one d member
    rcases mem_cons.mp member with rfl | inside
    · exact one
    · exact all d (mem_cons_of_mem _ inside)
  constructor
  case ids =>
    have ids := keyed.ids
    simp only [map_cons, follows.id] at ids ⊢
    exact ids
  case keys =>
    have keys := keyed.keys
    simp only [map_cons, follows.key] at keys ⊢
    exact keys
  case created => exact each _ keyed.created (follows.id ▸ keyed.created old mem_cons_self)
  case past => exact each _ keyed.past (follows.time ▸ keyed.past old mem_cons_self)
  case family =>
    apply each _ keyed.family
    rw [follows.key, follows.v6]
    exact keyed.family old mem_cons_self
  case marks =>
    apply each _ keyed.marks
    rw [follows.transmitted, follows.completed]
    exact keyed.marks old mem_cons_self
  case settled =>
    apply each _ keyed.settled
    rw [follows.id, follows.completed]
    exact keyed.settled old mem_cons_self
  case known => exact keyed.known

/-- An event may leave the connection undecided. -/
theorem World.Sound.replace (sound : { world with connections := old :: others }.Sound)
    (follows : Follows old new) (undecided : old.completed = false) :
    { world with connections := new :: others }.Sound := by
  have open' : new.completed = false := follows.completed.trans undecided
  have quiet : old.waiting = false := by simp [Connection.waiting, undecided]
  have quiet' : new.waiting = false := by simp [Connection.waiting, open']
  constructor
  case keyed => exact sound.keyed.replace follows
  case counted =>
    obtain ⟨counted, finished, sendV4, sendV6⟩ := sound.counted
    simp only [countP_cons, undecided, quiet] at counted finished sendV4 sendV6
    constructor <;> simpa only [countP_cons, open', quiet']
  case listed =>
    obtain ⟨entries, times, same, ordered⟩ := sound.listed
    constructor
    case entries =>
      simp only [filter_cons, undecided, open', Bool.not_false, if_true, map_cons,
        follows.id] at entries ⊢
      exact entries
    case ordered =>
      refine ⟨times, fun d member => ?_, ordered⟩
      rcases mem_cons.mp member with rfl | inside
      · rw [follows.id, follows.time]
        exact same old mem_cons_self
      · exact same d (mem_cons_of_mem _ inside)
  case reported =>
    obtain ⟨once, covers⟩ := sound.reported
    constructor
    case once => exact once
    case covers =>
      simp only [filter_cons, quiet, quiet', Bool.false_eq_true, if_false] at covers ⊢
      exact covers

end Replacement

section Completion

variable {world : World} {old new : Connection} {others : List Connection}

/-- The counters, the list and the history take note of the completed connection. -/
def World.completed (world : World) (d : Connection) (others : List Connection) : World :=
  { world with
    connections := { d with completed := true } :: others
    undecided := world.undecided - 1
    finished := world.finished + 1
    sendV4 := world.sendV4 + if d.rejected && !d.v6 then 1 else 0
    sendV6 := world.sendV6 + if d.rejected && d.v6 then 1 else 0
    timeoutList := world.timeoutList.erase d.id
    history := world.history ++ [d] }

theorem World.Keyed.not_recorded (keyed : { world with connections := old :: others }.Keyed)
    (undecided : old.completed = false) : old.id ∉ world.history.map Connection.id := by
  intro recorded
  have completed := keyed.settled old mem_cons_self recorded
  exact absurd completed (by simp [undecided])

theorem World.Keyed.complete (keyed : { world with connections := old :: others }.Keyed)
    (follows : Follows old new) : (world.completed new others).Keyed := by
  have replaced := keyed.replace follows
  constructor
  case ids => exact replaced.ids
  case keys => exact replaced.keys
  case created =>
    intro d member
    rcases mem_cons.mp member with rfl | inside
    · exact replaced.created new mem_cons_self
    · exact replaced.created d (mem_cons_of_mem _ inside)
  case past =>
    intro d member
    rcases mem_cons.mp member with rfl | inside
    · exact replaced.past new mem_cons_self
    · exact replaced.past d (mem_cons_of_mem _ inside)
  case family =>
    intro d member
    rcases mem_cons.mp member with rfl | inside
    · exact replaced.family new mem_cons_self
    · exact replaced.family d (mem_cons_of_mem _ inside)
  case marks =>
    intro d member marked
    rcases mem_cons.mp member with rfl | inside
    · rfl
    · exact replaced.marks d (mem_cons_of_mem _ inside) marked
  case settled =>
    intro d member recorded
    rcases mem_cons.mp member with rfl | inside
    · rfl
    · simp only [World.completed, map_append, mem_append, map_cons, map_nil,
        mem_singleton] at recorded
      rcases recorded with earlier | same
      · exact replaced.settled d (mem_cons_of_mem _ inside) earlier
      · exact absurd (same ▸ List.mem_map_of_mem inside) (nodup_cons.mp replaced.ids).1
  case known =>
    intro id recorded
    simp only [World.completed, map_append, mem_append, map_cons, map_nil,
      mem_singleton] at recorded
    rcases recorded with earlier | rfl
    · exact replaced.known id earlier
    · exact replaced.created new mem_cons_self

theorem World.Counted.complete (counted : { world with connections := old :: others }.Counted)
    (follows : Follows old new) (undecided : old.completed = false)
    (unmarked : old.transmitted = false) : (world.completed new others).Counted := by
  have unmarked' : new.transmitted = false := follows.transmitted.trans unmarked
  obtain ⟨undecided', finished, sendV4, sendV6⟩ := counted
  simp only [countP_cons, undecided, Connection.waiting, Bool.not_false, if_true, Bool.false_and,
    Bool.false_eq_true, if_false, Nat.add_zero] at undecided' finished sendV4 sendV6
  constructor
  case undecided =>
    simp only [World.completed, countP_cons, Bool.not_true, Bool.false_eq_true, if_false]
    omega
  case finished =>
    simp only [World.completed, countP_cons, if_true]
    omega
  case sendV4 =>
    simp only [World.completed, countP_cons, Connection.waiting, Connection.rejected, unmarked',
      Bool.true_and, Bool.not_false, Bool.and_true]
    rw [sendV4]
    rfl
  case sendV6 =>
    simp only [World.completed, countP_cons, Connection.waiting, Connection.rejected, unmarked',
      Bool.true_and, Bool.not_false, Bool.and_true]
    rw [sendV6]
    rfl

theorem World.Listed.complete (listed : { world with connections := old :: others }.Listed)
    (follows : Follows old new) (undecided : old.completed = false) :
    (world.completed new others).Listed := by
  obtain ⟨entries, times, same, ordered⟩ := listed
  constructor
  case entries =>
    have erased := entries.erase old.id
    simp only [filter_cons, undecided, Bool.not_false, if_true, map_cons, erase_cons_head] at erased
    simp only [World.completed, filter_cons, Bool.not_true, Bool.false_eq_true, if_false,
      follows.id]
    exact erased
  case ordered =>
    refine ⟨times, fun d member => ?_, ordered.sublist erase_sublist⟩
    rcases mem_cons.mp member with rfl | inside
    · exact follows.id ▸ follows.time ▸ same old mem_cons_self
    · exact same d (mem_cons_of_mem _ inside)

theorem World.Reported.complete (reported : { world with connections := old :: others }.Reported)
    (follows : Follows old new) (undecided : old.completed = false)
    (unmarked : old.transmitted = false) (absent : old.id ∉ world.history.map Connection.id) :
    (world.completed new others).Reported := by
  have unmarked' : new.transmitted = false := follows.transmitted.trans unmarked
  obtain ⟨once, covers⟩ := reported
  constructor
  case once =>
    simp only [World.completed, map_append, map_cons, map_nil]
    apply List.Nodup.append once (nodup_singleton _)
    simpa only [disjoint_singleton, follows.id] using absent
  case covers =>
    simp only [filter_cons, Connection.waiting, undecided, Bool.false_and, Bool.false_eq_true,
      if_false] at covers
    by_cases rejected : new.rejected
    · have waits : ({ new with completed := true } : Connection).waiting := by
        simp only [Connection.waiting, unmarked', Bool.true_and, Bool.not_false, Bool.and_true]
        exact rejected
      simp only [World.completed, filter_append, map_append, filter_cons, rejected, waits, if_true,
        filter_nil, map_cons, map_nil]
      have moved := (covers.append_right [new.record]).trans perm_append_comm
      exact moved.trans (perm_middle.symm :
        (new.record :: (world.messages.flatten ++ _)).Perm (world.messages.flatten ++ new.record :: _))
    · have quiet : ({ new with completed := true } : Connection).waiting = false := by
        simp only [Connection.waiting, Bool.true_and, Bool.and_eq_false_iff]
        exact .inl (Bool.not_eq_true _ ▸ rejected)
      simp only [World.completed, filter_append, filter_cons, rejected, quiet, Bool.false_eq_true,
        if_false, filter_nil, append_nil]
      exact covers

/-- A connection is completed in the table and in all that follows the table. -/
theorem World.Sound.complete (sound : { world with connections := old :: others }.Sound)
    (follows : Follows old new) (undecided : old.completed = false) :
    (world.completed new others).Sound := by
  have unmarked : old.transmitted = false := by
    by_contra marked
    have completed := sound.keyed.marks old mem_cons_self (by simpa using marked)
    exact absurd completed (by simp [undecided])
  constructor
  case keyed => exact sound.keyed.complete follows
  case counted => exact sound.counted.complete follows undecided unmarked
  case listed => exact sound.listed.complete follows undecided
  case reported =>
    exact sound.reported.complete follows undecided unmarked (sound.keyed.not_recorded undecided)

end Completion

end Ucollect.Refused
