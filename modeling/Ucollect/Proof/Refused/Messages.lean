import Ucollect.Proof.Refused.Handling

namespace Ucollect.Refused
open List

open Core Library

section Serialization

/-- A message marks what it reports and what nobody will report. -/
def Connection.mark (d : Connection) : Connection :=
  { d with transmitted := d.transmitted || d.completed }

/-- These are the bytes that the waiting connections take. -/
def room (rows : List Connection) : Nat :=
  (rows.countP fun d => d.waiting && !d.v6) * (connRecordSize + 4) +
    (rows.countP fun d => d.waiting && d.v6) * (connRecordSize + 16)

variable {params : SerializeParams} {d : Connection}

theorem room_cons (d : Connection) (rows : List Connection) :
    room (d :: rows) = room rows + if d.waiting then connRecordSize + copiedLen d.v6 else 0 := by
  simp only [room, countP_cons, copiedLen]
  cases d.waiting <;> cases d.v6 <;> simp [Nat.add_mul] <;> omega

/-- What does not wait only gets its mark. -/
theorem serializeCallback_quiet (quiet : d.waiting = false) :
    serializeCallback params d = .ok (params, d.mark) := by
  rcases d with ⟨id, key, time, syn, ack, nak, timedOut, v6, completed, transmitted, nakType⟩
  simp only [Connection.waiting, Connection.rejected] at quiet
  simp only [serializeCallback, Connection.mark]
  cases completed
  · simp
  · cases transmitted
    · cases syn <;> cases ack <;> simp_all
    · simp

theorem serializeCallback_waiting (waiting : d.waiting = true)
    (family : d.key.address.length = copiedLen d.v6)
    (fits : connRecordSize + copiedLen d.v6 ≤ params.size) :
    serializeCallback params d =
      .ok (⟨params.size - (connRecordSize + copiedLen d.v6), params.records ++ [d.record]⟩,
        d.mark) := by
  simp only [Connection.waiting, Connection.rejected, Bool.and_eq_true, Bool.not_eq_true'] at waiting
  obtain ⟨⟨completed, syn, ack⟩, plain⟩ := waiting
  have size : d.key.size = copiedLen d.v6 + 4 := congrArg (· + 4) family
  unfold serializeCallback Connection.mark
  simp only [completed, plain, syn, ack, size, not_lt.mpr fits]
  simp

theorem serializeAll_cons {first last : SerializeParams} {row : Connection}
    {rows rest : List Connection} (one : serializeCallback params d = .ok (first, row))
    (others : serializeAll first rows = .ok (last, rest)) :
    serializeAll params (d :: rows) = .ok (last, row :: rest) := by
  rw [serializeAll, one]
  change serializeAll first rows >>= _ = _
  rw [others]
  rfl

/-- The message has room for the records of all waiting connections. -/
theorem serializeAll_eq {rows : List Connection}
    (family : ∀ d ∈ rows, d.key.address.length = copiedLen d.v6) (rest : Nat)
    (records : List Record) :
    serializeAll ⟨rest + room rows, records⟩ rows =
      .ok (⟨rest, records ++ (rows.filter Connection.waiting).map Connection.record⟩,
        rows.map Connection.mark) := by
  induction rows generalizing records with
  | nil => simp [serializeAll, room]
  | cons d rows ih =>
    have later := ih fun d member => family d (mem_cons_of_mem _ member)
    cases waiting : d.waiting with
    | false =>
      rw [filter_cons_of_neg (Bool.not_eq_true _ ▸ waiting), room_cons, waiting]
      exact serializeAll_cons (serializeCallback_quiet waiting) (later records)
    | true =>
      have needed : room (d :: rows) = room rows + (connRecordSize + copiedLen d.v6) := by
        rw [room_cons, waiting, if_pos rfl]
      have fits : connRecordSize + copiedLen d.v6 ≤ rest + room (d :: rows) := by omega
      have one := @serializeCallback_waiting ⟨rest + room (d :: rows), records⟩ d waiting
        (family d mem_cons_self) fits
      have taken : rest + room (d :: rows) - (connRecordSize + copiedLen d.v6) =
          rest + room rows := by omega
      simp only [taken] at one
      rw [filter_cons_of_pos waiting, map_cons, append_cons]
      exact serializeAll_cons one (later _)

end Serialization

section Sending

variable {world : World} {rows : List Connection}

/-- No connection waits for a message. -/
def World.Silent (world : World) : Prop := ∀ d ∈ world.connections, d.waiting = false

/-- The send timeout may be cancelled. -/
def World.Cancellable (world : World) : Prop :=
  world.pending = if world.timeoutScheduled then [world.timeoutId] else []

/-- One send timeout is pending. -/
structure World.Awaiting (world : World) : Prop where
  scheduled : world.timeoutScheduled = true
  pending : world.pending = [world.timeoutId]

theorem Connection.mark_waiting (d : Connection) : d.mark.waiting = false := by
  simp only [Connection.waiting, Connection.mark]
  cases d.completed <;> simp

theorem Connection.mark_undecided (d : Connection) (undecided : d.completed = false) :
    d.mark = d := by
  cases d
  cases undecided
  simp [Connection.mark]

theorem Connection.unmark_mark {d : Connection} (plain : d.transmitted = false) :
    d.mark.unmark = d := by
  cases d
  cases plain
  rfl

/-- The waiting connections get into the message. -/
def World.report (world : World) (rows : List Connection) : World :=
  { world with
    connections := rows.map Connection.mark
    timeoutMissed := false
    sendV4 := 0
    sendV6 := 0
    messages := world.messages ++ [(rows.filter Connection.waiting).map Connection.record] }

theorem World.Keyed.report (keyed : { world with connections := rows }.Keyed) :
    (world.report rows).Keyed := by
  have each : ∀ good : Connection → Prop, (∀ d ∈ rows, good d.mark) →
      ∀ d ∈ rows.map Connection.mark, good d := by
    intro good all d member
    obtain ⟨d, known, rfl⟩ := List.mem_map.mp member
    exact all d known
  constructor
  case ids =>
    have same : (rows.map Connection.mark).map Connection.id = rows.map Connection.id :=
      List.map_map
    exact same ▸ keyed.ids
  case keys =>
    have same : (rows.map Connection.mark).map Connection.key = rows.map Connection.key :=
      List.map_map
    exact same ▸ keyed.keys
  case created => exact each _ keyed.created
  case past => exact each _ keyed.past
  case family => exact each _ keyed.family
  case marks =>
    apply each
    intro d member marked
    rcases Bool.or_eq_true_iff.mp marked with earlier | completed
    · exact keyed.marks d member earlier
    · exact completed
  case settled => exact each _ keyed.settled
  case known => exact keyed.known

theorem World.Counted.report (counted : { world with connections := rows }.Counted) :
    (world.report rows).Counted := by
  have none : ∀ other : Connection → Bool,
      (rows.map Connection.mark).countP (fun d => d.waiting && other d) = 0 := by
    intro other
    rw [countP_map, countP_eq_zero]
    intro d _
    simp [d.mark_waiting]
  constructor
  case undecided =>
    simp only [World.report, countP_map]
    exact counted.undecided
  case finished =>
    simp only [World.report, countP_map]
    exact counted.finished
  case sendV4 => exact (none _).symm
  case sendV6 => exact (none _).symm

theorem World.Listed.report (listed : { world with connections := rows }.Listed) :
    (world.report rows).Listed := by
  obtain ⟨entries, times, same, ordered⟩ := listed
  constructor
  case entries =>
    have undecided : ((rows.map Connection.mark).filter fun d => !d.completed).map Connection.id =
        (rows.filter fun d => !d.completed).map Connection.id := by
      rw [List.filter_map, List.map_map]
      rfl
    exact undecided ▸ entries
  case ordered =>
    refine ⟨times, fun d member => ?_, ordered⟩
    obtain ⟨d, known, rfl⟩ := List.mem_map.mp member
    exact same d known

theorem World.Reported.report (reported : { world with connections := rows }.Reported) :
    (world.report rows).Reported := by
  have none : (rows.map Connection.mark).filter Connection.waiting = [] := by
    rw [filter_eq_nil_iff]
    intro d member
    obtain ⟨d, _, rfl⟩ := List.mem_map.mp member
    simp [d.mark_waiting]
  constructor
  case once => exact reported.once
  case covers =>
    simp only [World.report, none, flatten_append, flatten_cons, flatten_nil, map_nil, append_nil]
    exact reported.covers

/-- The books stay correct when a message takes the waiting connections. -/
theorem World.Sound.report (sound : { world with connections := rows }.Sound) :
    (world.report rows).Sound :=
  ⟨sound.keyed.report, sound.counted.report, sound.listed.report, sound.reported.report⟩

theorem World.report_silent : (world.report rows).Silent := by
  intro d member
  obtain ⟨d, _, rfl⟩ := List.mem_map.mp member
  exact d.mark_waiting

theorem World.Sound.messageSize_eq (sound : world.Sound) :
    world.messageSize = room world.connections := by
  rw [World.messageSize, sound.counted.sendV4, sound.counted.sendV6, room]

theorem room_perm (perm : rows.Perm world.connections) : room rows = room world.connections := by
  rw [room, perm.countP_eq, perm.countP_eq, room]

/-- The message is full, and the table is as the message leaves it. -/
theorem World.Sound.send_eq (sound : world.Sound) (answers : Answers) (force : Bool) :
    world.send answers force =
      .ok (world.finish answers force
        (((answers.walk.order world.connections).filter Connection.waiting).map Connection.record)
        ((answers.walk.order world.connections).map Connection.mark)) := by
  have perm := answers.walk.perm world.connections
  have family := fun d member => sound.keyed.family d (perm.mem_iff.mp member)
  have serialized := serializeAll_eq family 0 []
  rw [Nat.zero_add, room_perm perm, ← sound.messageSize_eq] at serialized
  rw [World.send, serialized]
  rfl

end Sending

section Transmission

variable {world next : World}

/-- These are the fields that the books are about. -/
def World.books (world : World) : List Connection × Nat × Nat × Nat × Nat × List Nat × Nat × Nat ×
    List (List Record) × List Connection :=
  (world.connections, world.undecided, world.finished, world.sendV4, world.sendV6,
    world.timeoutList, world.now, world.created, world.messages, world.history)

theorem World.Sound.of_books (sound : world.Sound) (same : next.books = world.books) :
    next.Sound := by
  simp only [World.books, Prod.mk.injEq] at same
  obtain ⟨connections, undecided, finished, sendV4, sendV6, list, now, created, messages, history⟩ :=
    same
  obtain ⟨keyed, counted, listed, reported⟩ := sound
  constructor
  case keyed =>
    constructor
    case ids => exact connections ▸ keyed.ids
    case keys => exact connections ▸ keyed.keys
    case created => exact connections ▸ created ▸ keyed.created
    case past => exact connections ▸ now ▸ keyed.past
    case family => exact connections ▸ keyed.family
    case marks => exact connections ▸ keyed.marks
    case settled => exact connections ▸ history ▸ keyed.settled
    case known => exact history ▸ created ▸ keyed.known
  case counted =>
    constructor <;> rw [connections]
    case undecided => exact undecided.trans counted.undecided
    case finished => exact finished.trans counted.finished
    case sendV4 => exact sendV4.trans counted.sendV4
    case sendV6 => exact sendV6.trans counted.sendV6
  case listed =>
    constructor <;> rw [connections, list]
    case entries => exact listed.entries
    case ordered => exact listed.ordered
  case reported =>
    constructor <;> rw [history]
    case once => exact reported.once
    case covers => exact connections ▸ messages ▸ reported.covers

/-- These fields only change with the clock, the configuration and new connections. -/
def World.settings (world : World) : Nat × Bool × Nat × Nat × Nat × Nat :=
  (world.now, world.active, world.configVersion, world.undecidedLimit, world.timeout, world.created)

/-- Nothing happens to the undecided connections, and no decided one is new. -/
structure Idles (world next : World) : Prop where
  settings : next.settings = world.settings
  list : next.timeoutList = world.timeoutList
  history : next.history = world.history
  undecided : ∀ d ∈ world.connections, d.completed = false → d ∈ next.connections
  known : ∀ d ∈ next.connections, ∃ old ∈ world.connections,
    old.key = d.key ∧ old.completed = d.completed

theorem Idles.of_perm (settings : next.settings = world.settings)
    (list : next.timeoutList = world.timeoutList) (history : next.history = world.history)
    (perm : next.connections.Perm world.connections) : Idles world next where
  settings := settings
  list := list
  history := history
  undecided _ member _ := perm.mem_iff.mpr member
  known d member := ⟨d, perm.mem_iff.mp member, rfl, rfl⟩

theorem Idles.trans {first second third : World} (early : Idles first second)
    (late : Idles second third) : Idles first third where
  settings := late.settings.trans early.settings
  list := late.list.trans early.list
  history := late.history.trans early.history
  undecided d member open' := late.undecided d (early.undecided d member open') open'
  known d member := by
    obtain ⟨middle, inside, key, completed⟩ := late.known d member
    obtain ⟨old, known, oldKey, oldCompleted⟩ := early.known middle inside
    exact ⟨old, known, oldKey.trans key, oldCompleted.trans completed⟩

/-- A transmission that is done leaves no connection waiting. -/
structure Transmitted (world : World) (force done : Bool) (next : World) : Prop where
  sound : next.Sound
  awaiting : next.Awaiting
  active : next.active = world.active
  idles : Idles world next
  silent : done = true → next.Silent
  unmarked : done = false → next.Unmarked
  forced : force = true → done = true

theorem World.Sound.finish (sound : world.Sound) (unmarked : world.Unmarked)
    (awaiting : world.Awaiting) (answers : Answers) (force : Bool) :
    let result := world.finish answers force
      (((answers.walk.order world.connections).filter Connection.waiting).map Connection.record)
      ((answers.walk.order world.connections).map Connection.mark)
    Transmitted world force result.1 result.2 := by
  have perm := answers.walk.perm world.connections
  have walked := sound.perm perm
  simp only [World.finish]
  split
  case isTrue kept =>
    have back : ((answers.walk.order world.connections).map Connection.mark).map
        Connection.unmark = answers.walk.order world.connections := by
      rw [List.map_map]
      conv_rhs => rw [← List.map_id (answers.walk.order world.connections)]
      apply map_congr_left
      intro d member
      exact Connection.unmark_mark (unmarked d (perm.mem_iff.mp member))
    rw [back]
    simp only [Bool.and_eq_true, Bool.not_eq_true'] at kept
    constructor
    case sound => exact walked
    case awaiting => exact ⟨awaiting.scheduled, awaiting.pending⟩
    case active => rfl
    case idles => exact .of_perm rfl rfl rfl perm
    case silent => exact nofun
    case unmarked => exact fun _ d member => unmarked d (perm.mem_iff.mp member)
    case forced => exact fun force => absurd kept.2 (by simp [force])
  case isFalse =>
    constructor
    case sound => exact walked.report
    case awaiting => exact ⟨awaiting.scheduled, awaiting.pending⟩
    case active => rfl
    case idles =>
      refine ⟨rfl, rfl, rfl, fun d member open' => ?_, fun d member => ?_⟩
      · exact List.mem_map.mpr ⟨d, perm.mem_iff.mpr member, d.mark_undecided open'⟩
      · obtain ⟨old, known, rfl⟩ := List.mem_map.mp member
        exact ⟨old, perm.mem_iff.mp known, rfl, rfl⟩
    case silent => exact fun _ => World.report_silent
    case unmarked => exact nofun
    case forced => exact fun _ => rfl

theorem World.Cancellable.cancelTimeout (cancellable : world.Cancellable) :
    world.cancelTimeout = .ok { world with pending := [] } := by
  rw [World.cancelTimeout]
  rw [World.Cancellable] at cancellable
  split
  case isTrue scheduled =>
    rw [if_pos scheduled] at cancellable
    rw [cancellable, if_pos (mem_singleton.mpr rfl), erase_cons_head]
  case isFalse idle =>
    rw [if_neg idle] at cancellable
    rw [← cancellable]

/-- The send timeout is set again before anything is sent. -/
theorem World.Sound.transmit (sound : world.Sound) (unmarked : world.Unmarked)
    (cancellable : world.Cancellable) (answers : Answers) (force : Bool) :
    Concludes (fun result => Transmitted world force result.1 result.2) (fun _ => False)
      (world.transmit answers force) := by
  rw [World.transmit, cancellable.cancelTimeout]
  let ready := ({ world with pending := [] } : World).schedule
  have stands : ready.Sound := sound.of_books rfl
  have awaiting : ready.Awaiting := ⟨rfl, rfl⟩
  change Concludes _ _ (if (!force && !answers.connected) = true then .ok (false, ready)
    else ready.send answers force)
  split
  case isTrue blocked =>
    simp only [Bool.and_eq_true, Bool.not_eq_true'] at blocked
    constructor
    case sound => exact stands
    case awaiting => exact awaiting
    case active => rfl
    case idles => exact .of_perm rfl rfl rfl (.refl _)
    case silent => exact nofun
    case unmarked => exact fun _ => unmarked
    case forced => exact fun force => absurd blocked.1 (by simp [force])
  case isFalse =>
    rw [stands.send_eq answers force]
    have finished := stands.finish unmarked awaiting answers force
    have idles : Idles world ready := .of_perm rfl rfl rfl (.refl _)
    exact ⟨finished.sound, finished.awaiting, finished.active, idles.trans finished.idles,
      finished.silent, finished.unmarked, finished.forced⟩

end Transmission

end Ucollect.Refused
