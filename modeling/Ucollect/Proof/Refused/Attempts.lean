import Ucollect.Proof.Refused.Bookkeeping

/-
This file proves that the table and the messages have the connections that the packets show.
-/

namespace Ucollect.Refused
open List Option

open Core Library

section Attempts

/-- A connection is what was seen of it, the first sight first. -/
structure Attempt where
  id : Nat
  key : ConnKey
  time : Nat
  v6 : Bool
  sights : List (EventType × Char)
  deriving DecidableEq, Repr

namespace Attempt
open List Option

variable (attempt : Attempt)

def saw (type : EventType) : Bool := attempt.sights.any fun sight => sight.1 = type

/-- The last refusal gives the reason. -/
def refusal : Option Char :=
  (attempt.sights.filter fun sight => sight.1 = .nak).getLast?.map Prod.snd

/-- The outcome of a started connection is known, or nobody waits for it any more. -/
def decided : Bool :=
  attempt.saw .timeout || attempt.saw .syn && (attempt.saw .ack || attempt.saw .nak)

def refused : Bool := attempt.saw .syn && !attempt.saw .ack

/-- The server learns this about a refused connection. -/
def record : Record where
  id := attempt.id
  time := attempt.time
  reason := attempt.refusal.getD 'T'
  family := if attempt.v6 then 6 else 4
  locPort := attempt.key.locPort
  remPort := attempt.key.remPort
  address := attempt.key.address

def note (type : EventType) (nakType : Char) : Attempt :=
  { attempt with sights := attempt.sights ++ [(type, nakType)] }

/-- This is the row of an undecided connection. -/
def connection : Connection where
  id := attempt.id
  key := attempt.key
  time := attempt.time
  syn := attempt.saw .syn
  ack := attempt.saw .ack
  nak := attempt.saw .nak
  timedOut := attempt.saw .timeout
  v6 := attempt.v6
  completed := false
  transmitted := false
  nakType := attempt.refusal.getD '\x00'

/-- The flags of the row follow from the sights. -/
theorem connection_note (type : EventType) (nakType : Char) :
    (attempt.note type nakType).connection = attempt.connection.see type nakType := by
  cases type <;> simp [connection, note, saw, refusal, Connection.see, filter_append]

theorem connection_record (family : attempt.key.address.length = copiedLen attempt.v6) :
    attempt.connection.record = attempt.record := by
  have whole : attempt.key.address.take (copiedLen attempt.v6) = attempt.key.address :=
    take_of_length_le family.le
  have reason : (if attempt.saw .nak then attempt.refusal.getD '\x00' else 'T') =
      attempt.refusal.getD 'T' := by
    cases naks : attempt.sights.filter fun sight => sight.1 = .nak with
    | nil =>
      have none : attempt.saw .nak = false := by
        rw [filter_eq_nil_iff] at naks
        rw [saw, List.any_eq_false]
        exact naks
      rw [none, refusal, naks]
      rfl
    | cons first rest =>
      have some : attempt.saw .nak = true := by
        have member : first ∈ attempt.sights.filter fun sight => sight.1 = .nak :=
          naks ▸ mem_cons_self
        rw [saw, List.any_eq_true]
        exact ⟨first, mem_filter.mp member⟩
      rw [some, if_pos rfl, refusal, naks, List.getLast?_cons]
      rfl
  simp only [Connection.record, connection, record, whole]
  congr 1

end Attempt

/-- The observer knows the configuration and the clock. It numbers the connections in the order of their
first packets, and it knows the decided ones that the plugin has not forgotten. -/
structure Watch where
  now : Nat
  active : Bool
  version : Nat
  limit : Nat
  timeout : Nat
  count : Nat
  undecided : List Attempt
  decided : List Attempt
  remembered : List ConnKey

namespace Watch
open List Option

variable (watch : Watch)

def start : Watch := ⟨0, false, 0, 0, 30000, 0, [], [], []⟩

def note (attempt : Attempt) (type : EventType) (nakType : Char) : Watch :=
  let noted := attempt.note type nakType
  if noted.decided then
    { watch with
      undecided := watch.undecided.filter fun other => other.id != attempt.id
      decided := watch.decided ++ [noted]
      remembered := attempt.key :: watch.remembered }
  else { watch with undecided := putRow Attempt.id noted watch.undecided }

def opened (seen : Seen) : Attempt := ⟨watch.count, seen.key, watch.now, seen.v6, []⟩

/-- A sight belongs to an undecided connection, or it opens one as long as there is room. -/
def see (seen : Seen) : Watch :=
  match watch.undecided.find? fun attempt => attempt.key = seen.key with
  | some attempt => watch.note attempt seen.type seen.nakType
  | none =>
    if seen.key ∈ watch.remembered ∨ watch.limit ≤ watch.undecided.length then watch
    else
      { watch with
        undecided := watch.undecided ++ [watch.opened seen]
        count := watch.count + 1 }.note (watch.opened seen) seen.type seen.nakType

def expired (attempt : Attempt) : Bool := (attempt.time + watch.timeout) % 2 ^ 64 < watch.now

/-- The oldest connections time out. -/
def timeOut (watch : Watch) : List Attempt → Watch
  | [] => watch
  | attempt :: rest =>
    if watch.expired attempt then (watch.note attempt .timeout '\x00').timeOut rest else watch

/-- An active plugin looks at the packets of IP. -/
def observe : Event → Watch
  | .tick elapsed => { watch with now := watch.now + elapsed }
  | .packet width memory info _ =>
    if watch.active ∧ (innermost info).layer = 'I' ∧
        ((innermost info).ipProtocol = 4 ∨ (innermost info).ipProtocol = 6) then
      let watch := (packetEvents width memory (innermost info)).foldl see watch
      watch.timeOut watch.undecided
    else watch
  | .uplinkData packet =>
    if watch.version = packet.version then watch
    else
      { watch with
        active := true
        version := packet.version
        limit := packet.undecidedLimit
        timeout := packet.timeout }
  | .connected _ => watch
  | .sendTimeout _ => watch

/-- A decided connection may be tried again when the plugin has forgotten it. -/
def forget (world : World) : Watch :=
  { watch with
    remembered := watch.remembered.filter fun key => key ∈ world.connections.map Connection.key }

/-- The observer follows the events, and it asks the plugin only what it still has. -/
def run (watch : Watch) (world : World) : List Event → Watch
  | [] => watch
  | event :: events =>
    match world.step event with
    | .error _ => watch
    | .ok next => run ((watch.observe event).forget next) next events

end Watch

/-- The undecided rows are the undecided connections. A decided connection that was started and not
accepted has one record in one message, or it waits for a message. -/
structure Watch.Booked (watch : Watch) (world : World) : Prop where
  undecided : (world.connections.filter fun d => !d.completed).Perm
    (watch.undecided.map Attempt.connection)
  once : (watch.decided.map Attempt.id).Nodup
  covers : ((watch.decided.filter Attempt.refused).map Attempt.record).Perm
    (world.messages.flatten ++
      (world.connections.filter Connection.waiting).map Connection.record)

end Attempts

section Showing

variable {watch : Watch} {world next : World} {attempt : Attempt}

/-- The observer and the plugin agree between two callbacks. -/
structure Watch.Shows (watch : Watch) (world : World) : Prop where
  settings : world.settings =
    (watch.now, watch.active, watch.version, watch.limit, watch.timeout, watch.count)
  list : world.timeoutList = watch.undecided.map Attempt.id
  rows : ∀ attempt ∈ watch.undecided, attempt.connection ∈ world.connections
  history : world.history = watch.decided.map Attempt.connection
  remembered : ∀ key, key ∈ watch.remembered ↔
    ∃ d ∈ world.connections, d.key = key ∧ d.completed = true
  family : ∀ attempt ∈ watch.undecided ++ watch.decided,
    attempt.key.address.length = copiedLen attempt.v6

theorem Watch.start_shows : Watch.start.Shows World.start where
  settings := rfl
  list := rfl
  rows := nofun
  history := rfl
  remembered := by simp [Watch.start, World.start]
  family := nofun

/-- An undecided row is an undecided connection. -/
theorem Watch.Shows.row (shows : watch.Shows world) (sound : world.Sound) {d : Connection}
    (member : d ∈ world.connections) (undecided : d.completed = false) :
    ∃ attempt ∈ watch.undecided, attempt.connection = d := by
  have listed := (sound.undecided_listed member undecided).2
  rw [shows.list] at listed
  obtain ⟨attempt, known, same⟩ := List.mem_map.mp listed
  exact ⟨attempt, known, row_unique sound.keyed.ids (shows.rows attempt known) member same⟩

theorem Watch.Shows.ids_nodup (shows : watch.Shows world) (sound : world.Sound) :
    (watch.undecided.map Attempt.id).Nodup := shows.list ▸ sound.list_nodup

/-- A decided row has another identifier than an undecided connection. -/
theorem Watch.Shows.apart (shows : watch.Shows world) (sound : world.Sound)
    (member : attempt ∈ watch.undecided) {d : Connection} (known : d ∈ world.connections)
    (completed : d.completed = true) : d.id ≠ attempt.id := by
  intro same
  have equal := row_unique sound.keyed.ids known (shows.rows attempt member) same
  rw [equal] at completed
  cases completed

variable {type : EventType} {nakType : Char}

theorem Watch.Shows.note_decided (shows : watch.Shows world) (sound : world.Sound)
    (member : attempt ∈ watch.undecided) (decided : (attempt.note type nakType).decided = true)
    (ran : (world.count (attempt.note type nakType).connection).complete
      (attempt.note type nakType).connection = .ok next) :
    (watch.note attempt type nakType).Shows next := by
  have row := shows.rows attempt member
  have same : (attempt.note type nakType).connection.id = attempt.connection.id := rfl
  rw [sound.complete_eq row rfl same] at ran
  cases ran
  have ids := shows.ids_nodup sound
  simp only [Watch.note, if_pos decided]
  constructor
  case settings => exact shows.settings
  case list =>
    change world.timeoutList.erase attempt.id = _
    rw [shows.list, ids.erase_eq_filter, List.filter_map]
    rfl
  case rows =>
    intro other known
    obtain ⟨inside, differs⟩ := mem_filter.mp known
    exact mem_putRow_of_ne (shows.rows other inside) (bne_iff_ne.mp differs)
  case history =>
    change world.history ++ [_] = _
    rw [shows.history, map_append]
    rfl
  case remembered =>
    intro key
    rw [mem_cons, shows.remembered]
    constructor
    · rintro (rfl | ⟨d, known, same, completed⟩)
      · exact ⟨_, mem_putRow_self (shows.rows attempt member) rfl, rfl, rfl⟩
      · exact ⟨d, mem_putRow_of_ne known (shows.apart sound member known completed), same,
          completed⟩
    · rintro ⟨d, known, same, completed⟩
      rcases of_mem_putRow known with rfl | ⟨old, -⟩
      · exact .inl same.symm
      · exact .inr ⟨d, old, same, completed⟩
  case family =>
    intro other known
    have old := shows.family
    simp only [mem_append, mem_filter, mem_singleton] at known
    rcases known with ⟨inside, -⟩ | inside | rfl
    · exact old other (mem_append_left _ inside)
    · exact old other (mem_append_right _ inside)
    · exact old attempt (mem_append_left _ member)

theorem Watch.Shows.note_undecided (shows : watch.Shows world) (sound : world.Sound)
    (member : attempt ∈ watch.undecided) (undecided : (attempt.note type nakType).decided = false) :
    (watch.note attempt type nakType).Shows
      (world.put (attempt.note type nakType).connection) := by
  rw [Watch.note]
  simp only [undecided, Bool.false_eq_true, if_false]
  constructor
  case settings => exact shows.settings
  case list =>
    change world.timeoutList = _
    rw [shows.list, putRow, List.map_map]
    apply map_congr_left
    intro other known
    rw [Function.comp_apply]
    split
    · next same => exact same
    · rfl
  case rows =>
    intro other known
    rcases of_mem_putRow known with rfl | ⟨inside, differs⟩
    · exact mem_putRow_self (shows.rows attempt member) rfl
    · exact mem_putRow_of_ne (shows.rows other inside) differs
  case history => exact shows.history
  case remembered =>
    intro key
    rw [shows.remembered]
    constructor
    · rintro ⟨d, known, same, completed⟩
      exact ⟨d, mem_putRow_of_ne known (shows.apart sound member known completed), same, completed⟩
    · rintro ⟨d, known, same, completed⟩
      rcases of_mem_putRow known with rfl | ⟨old, -⟩
      · cases completed
      · exact ⟨d, old, same, completed⟩
  case family =>
    intro other known
    rcases mem_append.mp known with inside | inside
    · rcases of_mem_putRow inside with rfl | ⟨old, -⟩
      · exact shows.family attempt (mem_append_left _ member)
      · exact shows.family other (mem_append_left _ old)
    · exact shows.family other (mem_append_right _ inside)

theorem Watch.Shows.note (shows : watch.Shows world) (sound : world.Sound)
    (member : attempt ∈ watch.undecided)
    (ran : world.handleEventFound type nakType attempt.connection = .ok next) :
    (watch.note attempt type nakType).Shows next := by
  simp only [World.handleEventFound, ← attempt.connection_note] at ran
  split at ran
  case isTrue decided => exact shows.note_decided sound member decided ran
  case isFalse undecided =>
    cases ran
    exact shows.note_undecided sound member (Bool.not_eq_true _ ▸ undecided)

end Showing

section Sights

variable {watch : Watch} {world next : World}

section

variable (shows : watch.Shows world)
include shows

/-- The undecided connection is found by its key. -/
theorem Watch.Shows.find_some (sound : world.Sound) {attempt : Attempt}
    (member : attempt ∈ watch.undecided) :
    (watch.undecided.find? fun other => other.key = attempt.key) = some attempt := by
  have present : (watch.undecided.find? fun other => other.key = attempt.key).isSome :=
    List.find?_isSome.mpr ⟨attempt, member, decide_eq_true rfl⟩
  obtain ⟨other, found⟩ := isSome_iff_exists.mp present
  have known := mem_of_find?_eq_some found
  have same : other.key = attempt.key := by simpa using List.find?_some found
  have equal := row_unique sound.keyed.keys (shows.rows other known) (shows.rows attempt member) same
  rw [found, row_unique (shows.ids_nodup sound) known member (congrArg Connection.id equal)]

theorem Watch.Shows.find_none {key : ConnKey}
    (absent : ∀ d ∈ world.connections, d.key = key → d.completed = true) :
    (watch.undecided.find? fun other => other.key = key) = none := by
  rw [List.find?_eq_none]
  intro other known same
  have completed := absent _ (shows.rows other known) (of_decide_eq_true same)
  cases completed

theorem Watch.Shows.length_eq (sound : world.Sound) : watch.undecided.length = world.undecided := by
  rw [sound.counted.undecided, countP_eq_length_filter, ← length_map Connection.id,
    ← sound.listed.entries.length_eq, shows.list, length_map]

theorem Watch.Shows.agree :
    world.now = watch.now ∧ world.active = watch.active ∧ world.configVersion = watch.version ∧
      world.undecidedLimit = watch.limit ∧ world.timeout = watch.timeout ∧
      world.created = watch.count := by
  simpa [World.settings] using shows.settings

theorem Watch.Shows.opened_eq (seen : Seen) :
    (watch.opened seen).connection = world.create seen.v6 seen.key := by
  obtain ⟨now, -, -, -, -, count⟩ := shows.agree
  simp [Attempt.connection, Watch.opened, World.create, Attempt.saw, Attempt.refusal, now, count]

/-- A first sight opens a connection in both. -/
theorem Watch.Shows.opens (seen : Seen) :
    { watch with
      undecided := watch.undecided ++ [watch.opened seen]
      count := watch.count + 1 }.Shows (world.append (world.create seen.v6 seen.key)) := by
  have created := shows.opened_eq seen
  constructor
  case settings =>
    obtain ⟨now, active, version, limit, timeout, count⟩ := shows.agree
    simp only [World.settings, World.append, now, active, version, limit, timeout, count]
  case list =>
    simp only [World.append, shows.list, map_append, map_cons, map_nil, ← created]
    rfl
  case rows =>
    intro attempt known
    rcases mem_append.mp known with inside | new
    · exact mem_append_left _ (shows.rows attempt inside)
    · rw [mem_singleton.mp new, created]
      exact mem_append_right _ (mem_singleton.mpr rfl)
  case history => exact shows.history
  case remembered =>
    intro key
    rw [shows.remembered]
    constructor
    · rintro ⟨d, known, same⟩
      exact ⟨d, mem_append_left _ known, same⟩
    · rintro ⟨d, known, same, completed⟩
      rcases mem_append.mp known with inside | new
      · exact ⟨d, inside, same, completed⟩
      · rw [mem_singleton.mp new] at completed
        cases completed
  case family =>
    intro attempt known
    simp only [mem_append, mem_singleton] at known
    rcases known with (inside | rfl) | inside
    · exact shows.family attempt (mem_append_left _ inside)
    · simp only [Watch.opened, Seen.key, length_map, length_range]
    · exact shows.family attempt (mem_append_right _ inside)

/-- The plugin and the observer do the same with a sight. -/
theorem Watch.Shows.see (sound : world.Sound) {seen : Seen} (event : seen.type ≠ .timeout)
    (ran : world.handleEvent seen = .ok next) :
    (watch.see seen).Shows next := by
  rw [World.handleEvent] at ran
  split at ran
  case h_1 missing =>
    have absent := World.lookup_eq_none missing
    have unknown := shows.find_none fun d member same =>
      absurd (List.mem_map.mpr ⟨d, member, same⟩) absent
    obtain ⟨-, -, -, limit, -, -⟩ := shows.agree
    rw [Watch.see, unknown]
    rw [if_neg event, ← shows.length_eq sound, limit] at ran
    split at ran
    case isTrue full =>
      cases ran
      rw [if_pos (.inr full)]
      exact shows
    case isFalse room =>
      have forgotten : seen.key ∉ watch.remembered := by
        rw [shows.remembered]
        rintro ⟨d, member, same, -⟩
        exact absent (List.mem_map.mpr ⟨d, member, same⟩)
      have length : seen.key.address.length = copiedLen seen.v6 := by
        rw [Seen.key, length_map, length_range]
      have opened := shows.opens seen
      have member : watch.opened seen ∈ watch.undecided ++ [watch.opened seen] :=
        mem_append_right _ (mem_singleton.mpr rfl)
      rw [if_neg (not_or.mpr ⟨forgotten, room⟩)]
      apply opened.note (sound.append absent length).1 member
      rw [shows.opened_eq seen]
      exact ran
  case h_2 d found =>
    have member := World.lookup_eq_some found
    have same : d.key = seen.key := by simpa using List.find?_some found
    split at ran
    case isTrue completed =>
      cases ran
      have unknown := shows.find_none fun other known equal => by
        rw [row_unique sound.keyed.keys known member (equal.trans same.symm)]
        exact completed
      rw [Watch.see, unknown]
      have remembered := (shows.remembered seen.key).mpr ⟨d, member, same, completed⟩
      rw [if_pos (.inl remembered)]
      exact shows
    case isFalse undecided =>
      obtain ⟨attempt, known, rfl⟩ := shows.row sound member (Bool.not_eq_true _ ▸ undecided)
      have place := shows.find_some sound known
      rw [show attempt.key = seen.key from same] at place
      rw [Watch.see, place]
      exact shows.note sound known ran

theorem Watch.Shows.expired_eq (attempt : Attempt) :
    world.expired attempt.connection = watch.expired attempt := by
  obtain ⟨now, -, -, -, timeout, -⟩ := shows.agree
  rw [World.expired, Watch.expired, now, timeout]
  rfl

/-- The oldest connection is decided when it times out. -/
theorem Watch.Shows.note_timeout (sound : world.Sound) {attempt : Attempt} {rest : List Attempt}
    (undecided : watch.undecided = attempt :: rest) :
    (watch.note attempt .timeout '\x00').undecided = rest := by
  have decided : (attempt.note .timeout '\x00').decided = true := by
    simp [Attempt.decided, Attempt.saw, Attempt.note]
  have ids := shows.ids_nodup sound
  rw [undecided, map_cons, nodup_cons] at ids
  simp only [Watch.note, decided, if_true, undecided, filter_cons, bne_self_eq_false,
    Bool.false_eq_true, if_false]
  rw [filter_eq_self]
  intro other known
  exact bne_iff_ne.mpr fun same => ids.1 (List.mem_map.mpr ⟨other, known, same⟩)

/-- The heads of the list time out in both. -/
theorem Watch.Shows.timeOut {fuel : Nat} (sound : world.Sound)
    (ran : world.timeoutsEvaluate fuel = .ok next) :
    (watch.timeOut watch.undecided).Shows next := by
  generalize undecided : watch.undecided = attempts
  induction attempts generalizing watch world fuel with
  | nil =>
    rw [World.timeoutsEvaluate, shows.list, undecided] at ran
    cases ran
    exact shows
  | cons attempt rest ih =>
    have member : attempt ∈ watch.undecided := undecided ▸ mem_cons_self
    have found : world.deref attempt.id = some attempt.connection :=
      find_row sound.keyed.ids (shows.rows attempt member)
    rw [World.timeoutsEvaluate, shows.list, undecided, map_cons] at ran
    simp only [found, shows.expired_eq] at ran
    rw [Watch.timeOut]
    split at ran
    case isTrue old =>
      rw [if_pos old]
      cases fuel with
      | zero => cases ran
      | succ fuel =>
        obtain ⟨noted, handled, later⟩ := bind_returns ran
        obtain ⟨moved, advanced, last⟩ := bind_returns later
        have kept := (sound.handleEventFound (shows.rows attempt member) rfl .timeout
          '\x00').value handled
        have same : noted = moved := by
          rw [World.advanced] at advanced
          split at advanced
          · cases advanced
          · exact Except.ok.inj advanced
        rw [← same] at last
        exact ih (shows.note sound member handled) kept.1 last
          (shows.note_timeout sound undecided)
    case isFalse current =>
      cases ran
      rw [if_neg current]
      exact shows

end

end Sights

section Callbacks

variable {watch : Watch} {world next : World}

section

variable (shows : watch.Shows world)
include shows

/-- The observer keeps the connections that the plugin keeps. -/
theorem Watch.Shows.idles (sound : world.Sound) (idles : Idles world next) :
    (watch.forget next).Shows next where
  settings := idles.settings.trans shows.settings
  list := idles.list.trans shows.list
  rows attempt known := idles.undecided _ (shows.rows attempt known) rfl
  history := idles.history.trans shows.history
  remembered key := by
    rw [Watch.forget, mem_filter, decide_eq_true_iff, shows.remembered, List.mem_map]
    constructor
    · rintro ⟨⟨old, known, same, completed⟩, d, member, key⟩
      obtain ⟨other, inside, otherKey, otherCompleted⟩ := idles.known d member
      have equal := row_unique sound.keyed.keys inside known
        (otherKey.trans (key.trans same.symm))
      exact ⟨d, member, key, otherCompleted.symm.trans (equal ▸ completed)⟩
    · rintro ⟨d, member, same, completed⟩
      obtain ⟨old, known, oldKey, oldCompleted⟩ := idles.known d member
      exact ⟨⟨old, known, oldKey.trans same, oldCompleted.trans completed⟩, d, member, same⟩
  family := shows.family

theorem Watch.Shows.sights {sights : List Seen} (serving : world.Serving)
    (events : ∀ seen ∈ sights, seen.type ≠ .timeout)
    (ran : sights.foldlM World.handleEvent world = .ok next) :
    (sights.foldl Watch.see watch).Shows next ∧ next.Serving := by
  induction sights generalizing watch world with
  | nil =>
    cases ran
    exact ⟨shows, serving⟩
  | cons seen sights ih =>
    rw [foldlM_cons] at ran
    obtain ⟨middle, handled, rest⟩ := bind_returns ran
    have event := events seen mem_cons_self
    have kept := (serving.sound.handleEvent event).value handled
    exact ih (shows.see serving.sound event handled) (serving.steady kept.1 kept.2)
      (fun other member => events other (mem_cons_of_mem _ member)) rest

theorem Watch.Shows.packet (resting : world.Resting) {width : Width} {memory : PacketMemory}
    {info : PacketInfo} {answers : Answers}
    (ran : world.packet width memory info answers = .ok next) :
    ((watch.observe (.packet width memory info answers)).forget next).Shows next := by
  have active := shows.agree.2.1
  have same : Idles world world := .of_perm rfl rfl rfl (.refl _)
  simp only [World.packet] at ran
  rw [Watch.observe]
  split at ran
  case isTrue idle =>
    cases ran
    have off : ¬ watch.active = true := by simpa [← active] using idle
    rw [if_neg fun on => off on.1]
    exact shows.idles resting.sound same
  case isFalse isActive =>
    split at ran
    case isTrue other =>
      cases ran
      rw [if_neg fun on => by have isIp := on.2; tauto]
      exact shows.idles resting.sound same
    case isFalse other =>
      have on : world.active = true := by simpa using isActive
      have isIp : (innermost info).layer = 'I' ∧
          ((innermost info).ipProtocol = 4 ∨ (innermost info).ipProtocol = 6) := by tauto
      have serving := resting.serving on
      rw [if_pos ⟨active ▸ on, isIp⟩]
      obtain ⟨seen, handled, rest⟩ := bind_returns ran
      obtain ⟨current, evaluated, last⟩ := bind_returns rest
      obtain ⟨sights, serves⟩ := shows.sights serving (packetEvents_type _ _ _) handled
      have timed := (serves.sound.timeoutsEvaluate _ le_rfl).value evaluated
      have limits := ((serves.steady timed.1 timed.2).limitsCheck answers).value last
      exact (sights.timeOut serves.sound evaluated).idles timed.1 limits.2

theorem Watch.Shows.uplinkData (resting : world.Resting) {packet : ConfigPacket}
    (ran : world.uplinkData packet = .ok next) :
    ((watch.observe (.uplinkData packet)).forget next).Shows next := by
  have sound := ((resting.uplinkData packet).value ran).sound
  obtain ⟨now, active, version, limit, timeout, count⟩ := shows.agree
  have observed : (watch.observe (.uplinkData packet)).Shows next := by
    rw [World.uplinkData, version] at ran
    rw [Watch.observe]
    split at ran
    case isTrue known =>
      cases ran
      rw [if_pos known]
      exact shows
    case isFalse new =>
      let configured : World := { world with
        configVersion := packet.version
        finishedLimit := packet.finishedLimit
        sendLimit := packet.sendLimit
        undecidedLimit := packet.undecidedLimit
        timeout := packet.timeout
        maxAge := packet.maxAge }
      have cancellable : configured.Cancellable := resting.cancellable
      change (configured.cancelTimeout >>= _) = _ at ran
      rw [cancellable.cancelTimeout] at ran
      cases ran
      rw [if_neg new]
      refine ⟨?_, shows.list, shows.rows, shows.history, shows.remembered, shows.family⟩
      simp only [World.settings, World.schedule, World.addTimeout, configured, now, count]
  exact observed.idles sound (.of_perm rfl rfl rfl (.refl _))

/-- Every callback keeps the observer and the plugin together. -/
theorem Watch.Shows.step (resting : world.Resting) {event : Event}
    (ran : world.step event = .ok next) : ((watch.observe event).forget next).Shows next := by
  cases event with
  | tick elapsed =>
    cases ran
    obtain ⟨now, active, version, limit, timeout, count⟩ := shows.agree
    have later : (watch.observe (.tick elapsed)).Shows
        { world with now := world.now + elapsed } := by
      refine ⟨?_, shows.list, shows.rows, shows.history, shows.remembered, shows.family⟩
      simp only [World.settings, Watch.observe, now, active, version, limit, timeout, count]
    exact later.idles (resting.sound.later elapsed) (.of_perm rfl rfl rfl (.refl _))
  | packet width memory info answers => exact shows.packet resting ran
  | uplinkData packet => exact shows.uplinkData resting ran
  | connected answers => exact shows.idles resting.sound ((resting.connected answers).value ran).2
  | sendTimeout answers => exact shows.idles resting.sound ((resting.fire answers).value ran).2

theorem Watch.Shows.run {events : List Event} (resting : world.Resting)
    (ran : world.run events = .ok next) :
    (watch.run world events).Shows next := by
  induction events generalizing watch world with
  | nil =>
    cases ran
    exact shows
  | cons event events ih =>
    rw [World.run, foldlM_cons] at ran
    obtain ⟨middle, stepped, rest⟩ := bind_returns ran
    rw [Watch.run, stepped]
    exact ih (shows.step resting stepped) ((resting.step event).value stepped) rest

theorem Watch.Shows.records :
    (world.history.filter Connection.rejected).map Connection.record =
      (watch.decided.filter Attempt.refused).map Attempt.record := by
  rw [shows.history, List.filter_map, List.map_map]
  apply map_congr_left
  intro attempt known
  exact attempt.connection_record
    (shows.family attempt (mem_append_right _ (mem_of_mem_filter known)))

theorem Watch.Shows.booked (sound : world.Sound) : watch.Booked world where
  undecided := by
    have rows : (world.connections.filter fun d => !d.completed).Nodup :=
      (sound.keyed.ids.of_map _).filter _
    have ids : ((watch.undecided.map Attempt.connection).map Connection.id).Nodup := by
      rw [List.map_map]
      exact shows.ids_nodup sound
    rw [perm_ext_iff_of_nodup rows (ids.of_map _)]
    intro d
    rw [mem_filter, List.mem_map]
    constructor
    · rintro ⟨member, undecided⟩
      exact shows.row sound member (by simpa using undecided)
    · rintro ⟨attempt, known, rfl⟩
      exact ⟨shows.rows attempt known, rfl⟩
  once := by
    have once := sound.reported.once
    rw [shows.history, List.map_map] at once
    exact once
  covers := shows.records ▸ sound.reported.covers

end

/-- In every run the assertions hold, the counters are the census of the table, the list has the undecided
connections in order, a configured plugin has one pending send timeout, and each connection that the
packets show as tried and not accepted waits or is in one message. After two send timeouts it does not
wait. -/
theorem run_booked (events : List Event) :
    ∃ world, World.start.run events = .ok world ∧
      world.Counted ∧ world.Listed ∧ (Watch.start.run World.start events).Booked world ∧
      world.pending = (if world.active then [world.timeoutId] else []) ∧
      ∀ first second, ∃ last,
        world.run [.sendTimeout first, .sendTimeout second] = .ok last ∧
        (((Watch.start.run World.start events).decided.filter Attempt.refused).map
          Attempt.record).Perm last.messages.flatten := by
  have concludes := run_resting events
  cases ended : World.start.run events with
  | error fault => exact (concludes.fault ended).elim
  | ok world =>
    have resting := concludes.value ended
    have shows := Watch.start_shows.run World.start_resting ended
    refine ⟨world, rfl, resting.sound.counted, resting.sound.listed, shows.booked resting.sound,
      ?_, ?_⟩
    · cases active : world.active with
      | true => exact (resting.active active).pending
      | false => exact (resting.idle active).2.1
    · intro first second
      have twice := resting.fire_twice first second
      cases finished : world.run [.sendTimeout first, .sendTimeout second] with
      | error fault => exact (twice.fault finished).elim
      | ok last =>
        obtain ⟨rests, same, silent⟩ := twice.value finished
        have covers := rests.sound.reported.covers
        rw [silent.filter_eq, map_nil, append_nil, same, shows.records] at covers
        exact ⟨last, rfl, covers⟩

end Callbacks

end Ucollect.Refused
