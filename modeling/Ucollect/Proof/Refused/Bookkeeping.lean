import Ucollect.Proof.Refused.Messages

namespace Ucollect.Refused
open List

open Core Library

section Consolidation

variable {world : World} {rows : List Connection} {d : Connection}

theorem Connection.useful_undecided (marks : d.transmitted → d.completed)
    (undecided : d.completed = false) : d.useful = true := by
  have plain : d.transmitted = false := by
    by_contra marked
    exact absurd (marks (by simpa using marked)) (by simp [undecided])
  simp [Connection.useful, undecided, plain]

/-- The useful connections that are completed are the waiting ones. -/
theorem Connection.useful_completed (completed : d.completed = true) : d.useful = d.waiting := by
  simp only [Connection.useful, Connection.waiting, Connection.rejected, completed, Bool.true_and]
  cases d.transmitted <;> cases d.ack <;> cases d.syn <;> rfl

theorem Connection.useful_waiting (waiting : d.waiting = true) : d.useful = true := by
  have completed : d.completed = true := by
    simp only [Connection.waiting, Bool.and_eq_true] at waiting
    exact waiting.1.1
  rw [Connection.useful_completed completed, waiting]

/-- A selection of useful connections is the same after consolidation. -/
theorem filter_useful {good : Connection → Bool}
    (each : ∀ d ∈ rows, good d = true → d.useful = true) :
    (rows.filter Connection.useful).filter good = rows.filter good := by
  rw [List.filter_filter]
  apply filter_congr
  intro d member
  cases holds : good d with
  | false => rfl
  | true => simp [each d member holds]

theorem countP_useful {good : Connection → Bool}
    (each : ∀ d ∈ rows, good d = true → d.useful = true) :
    (rows.filter Connection.useful).countP good = rows.countP good := by
  rw [countP_eq_length_filter, countP_eq_length_filter, filter_useful each]

/-- A completed connection of the new table waits. -/
theorem countP_kept (other : Connection → Bool) :
    (rows.filter Connection.useful).countP (fun d : Connection => d.completed && other d) =
      rows.countP fun d => d.waiting && other d := by
  rw [countP_filter]
  apply countP_congr
  intro d _
  cases completed : d.completed with
  | false => simp [Connection.waiting, completed]
  | true => simp [d.useful_completed completed, and_comm]

/-- The useful connections keep the books, and only finished ones are lost. -/
theorem World.Sound.keep (sound : { world with connections := rows }.Sound) :
    { world with
      connections := rows.filter Connection.useful
      finished := (rows.filter Connection.useful).countP fun d : Connection => d.completed }.Sound := by
  obtain ⟨keyed, counted, listed, reported⟩ := sound
  have part : List.Sublist (rows.filter Connection.useful) rows := filter_sublist
  have undecided : ∀ d ∈ rows, (!d.completed) = true → d.useful = true := fun d member fresh =>
    Connection.useful_undecided (keyed.marks d member) (by simpa using fresh)
  have waiting : ∀ d ∈ rows, d.waiting = true → d.useful = true := fun d _ =>
    Connection.useful_waiting
  have waiting' : ∀ other : Connection → Bool, ∀ d ∈ rows, (d.waiting && other d) = true →
      d.useful = true := fun other d member both =>
    waiting d member (Bool.and_eq_true_iff.mp both).1
  constructor
  case keyed =>
    constructor
    case ids => exact keyed.ids.sublist (part.map _)
    case keys => exact keyed.keys.sublist (part.map _)
    case created => exact fun d member => keyed.created d (part.subset member)
    case past => exact fun d member => keyed.past d (part.subset member)
    case family => exact fun d member => keyed.family d (part.subset member)
    case marks => exact fun d member => keyed.marks d (part.subset member)
    case settled => exact fun d member => keyed.settled d (part.subset member)
    case known => exact keyed.known
  case counted =>
    constructor
    case undecided => exact counted.undecided.trans (countP_useful undecided).symm
    case finished => rfl
    case sendV4 => exact counted.sendV4.trans (countP_useful (waiting' _)).symm
    case sendV6 => exact counted.sendV6.trans (countP_useful (waiting' _)).symm
  case listed =>
    obtain ⟨entries, times, same, ordered⟩ := listed
    constructor
    case entries =>
      simp only [filter_useful undecided]
      exact entries
    case ordered => exact ⟨times, fun d member => same d (part.subset member), ordered⟩
  case reported =>
    constructor
    case once => exact reported.once
    case covers =>
      simp only [filter_useful waiting]
      exact reported.covers

/-- The assertions of a consolidation hold. -/
theorem World.Sound.consolidate (sound : world.Sound) (answers : Answers) :
    Concludes (fun next => next.Sound ∧ next.Unmarked ∧ next.timers = world.timers ∧
        Idles world next ∧ (world.Silent → next.Silent))
      (fun _ => False) (world.consolidate answers) := by
  have perm := answers.walk.perm world.connections
  have walked := sound.perm perm
  have kept := walked.keep
  have found : (world.timeoutList.all fun id =>
      ((answers.walk.order world.connections).filter Connection.useful).any fun d =>
        d.id = id) = true := by
    rw [List.all_eq_true]
    intro id listed
    obtain ⟨d, inside, same⟩ := List.mem_map.mp (kept.listed.entries.mem_iff.mp listed)
    exact List.any_eq_true.mpr ⟨d, mem_of_mem_filter inside, decide_eq_true same⟩
  have fewer : ((answers.walk.order world.connections).filter Connection.useful).countP
      (fun d => d.completed) ≤ world.finished := by
    rw [walked.counted.finished]
    exact filter_sublist.countP_le
  have sendV4 := walked.counted.sendV4.trans (countP_kept fun d => !d.v6).symm
  have sendV6 := walked.counted.sendV6.trans (countP_kept fun d => d.v6).symm
  simp only [World.consolidate]
  rw [found, if_neg (by simp), if_neg (not_not.mpr kept.counted.undecided), if_neg (not_lt.mpr fewer),
    if_neg (not_not.mpr sendV4), if_neg (not_not.mpr sendV6)]
  refine ⟨kept, ?_, rfl, ⟨rfl, rfl, rfl, ?_, ?_⟩, ?_⟩
  · intro d member
    have useful := (mem_filter.mp member).2
    simp only [Connection.useful, Bool.and_eq_true, Bool.not_eq_true'] at useful
    exact useful.1.1
  · intro d member open'
    have useful := Connection.useful_undecided (sound.keyed.marks d member) open'
    exact mem_filter.mpr ⟨perm.mem_iff.mpr member, useful⟩
  · exact fun d member => ⟨d, perm.mem_iff.mp (mem_of_mem_filter member), rfl, rfl⟩
  · exact fun silent d member => silent d (perm.mem_iff.mp (mem_of_mem_filter member))

end Consolidation

section Callbacks

variable {world : World}

/-- This holds between two callbacks. -/
structure World.Resting (world : World) : Prop where
  sound : world.Sound
  unmarked : world.Unmarked
  active : world.active = true → world.Awaiting
  idle : world.active = false →
    world.timeoutScheduled = false ∧ world.pending = [] ∧ world.connections = []

theorem World.Awaiting.cancellable (awaiting : world.Awaiting) : world.Cancellable := by
  rw [World.Cancellable, awaiting.scheduled, awaiting.pending, if_pos rfl]

theorem World.Awaiting.of_timers {next : World} (awaiting : world.Awaiting)
    (same : next.timers = world.timers) : next.Awaiting := by
  simp only [World.timers, Prod.mk.injEq] at same
  obtain ⟨_, scheduled, id, pending⟩ := same
  constructor
  case scheduled => exact scheduled.trans awaiting.scheduled
  case pending => exact id ▸ pending.trans awaiting.pending

/-- The state of an active plugin after one of its callbacks. -/
structure World.Serving (world : World) : Prop where
  sound : world.Sound
  unmarked : world.Unmarked
  active : world.active = true
  awaiting : world.Awaiting

theorem World.Serving.resting (serving : world.Serving) : world.Resting := by
  refine { serving with active := ?active, idle := ?idle }
  case active => exact fun _ => serving.awaiting
  case idle => exact fun idle => absurd serving.active (by simp [idle])

/-- A steady part of a callback serves on. -/
theorem World.Serving.steady {next : World} (serving : world.Serving) (sound : next.Sound)
    (steady : Steady world next) : next.Serving := by
  have same := steady.timers
  simp only [World.timers, Prod.mk.injEq] at same
  constructor
  case sound => exact sound
  case unmarked => exact steady.unmarked serving.unmarked
  case active => exact same.1.trans serving.active
  case awaiting => exact serving.awaiting.of_timers steady.timers

/-- A transmission is followed by a consolidation where it is done. -/
theorem Transmitted.consolidateIf {next : World} {force done needed : Bool}
    (transmitted : Transmitted world force done next) (active : world.active = true)
    (answers : Answers) (covers : done = true → needed = true) :
    Concludes (fun last => last.Serving ∧ Idles world last ∧ (done = true → last.Silent))
      (fun _ => False) (next.consolidateIf answers needed) := by
  rw [World.consolidateIf]
  split
  case isTrue =>
    apply (transmitted.sound.consolidate answers).weaken
    · rintro last ⟨sound, unmarked, timers, idles, silent⟩
      have same := timers
      simp only [World.timers, Prod.mk.injEq] at same
      refine ⟨⟨sound, unmarked, ?_, transmitted.awaiting.of_timers timers⟩,
        transmitted.idles.trans idles, ?_⟩
      · exact same.1.trans (transmitted.active.trans active)
      · exact fun success => silent (transmitted.silent success)
    · exact fun _ fault => fault
  case isFalse left =>
    have failed : done = false := by
      by_contra success
      exact left (covers (by simpa using success))
    refine ⟨⟨transmitted.sound, transmitted.unmarked failed, ?_, transmitted.awaiting⟩,
      transmitted.idles, ?_⟩
    · exact transmitted.active.trans active
    · exact fun success => absurd success (by simp [failed])

theorem World.Serving.transmit (serving : world.Serving) (answers : Answers) (force : Bool) :
    Concludes (fun result => Transmitted world force result.1 result.2) (fun _ => False)
      (world.transmit answers force) :=
  serving.sound.transmit serving.unmarked serving.awaiting.cancellable answers force

/-- Nothing is sent where nothing waits long enough. -/
theorem World.Serving.transmitLimit (serving : world.Serving) (answers : Answers) :
    Concludes (fun result => ∃ force, Transmitted world force result.1 result.2) (fun _ => False)
      (world.transmitLimit answers) := by
  rw [World.transmitLimit]
  split
  case isTrue =>
    apply (serving.transmit answers _).weaken
    · exact fun result transmitted => ⟨_, transmitted⟩
    · exact fun _ fault => fault
  case isFalse =>
    refine ⟨false, ?_⟩
    constructor
    case sound => exact serving.sound
    case awaiting => exact serving.awaiting
    case active => rfl
    case idles => exact .of_perm rfl rfl rfl (.refl _)
    case silent => exact nofun
    case unmarked => exact fun _ => serving.unmarked
    case forced => exact nofun

theorem World.Serving.limitsCheck (serving : world.Serving) (answers : Answers) :
    Concludes (fun next => next.Serving ∧ Idles world next) (fun _ => False)
      (world.limitsCheck answers) := by
  apply (serving.transmitLimit answers).bind
  rintro ⟨done, next⟩ ⟨force, transmitted⟩
  apply (transmitted.consolidateIf serving.active answers _).weaken
  · exact fun last ends => ⟨ends.1, ends.2.1⟩
  · exact fun _ fault => fault
  · intro success
    rw [show done = true from success, Bool.or_true]

theorem World.Sound.silent_of_zero (sound : world.Sound)
    (zero : world.sendV4 = 0 ∧ world.sendV6 = 0) : world.Silent := by
  have v4 := countP_eq_zero.mp (sound.counted.sendV4.symm.trans zero.1)
  have v6 := countP_eq_zero.mp (sound.counted.sendV6.symm.trans zero.2)
  intro d member
  have plain := v4 d member
  have long := v6 d member
  cases family : d.v6 <;> simp_all

theorem World.Sound.zero_of_silent (sound : world.Sound) (silent : world.Silent) :
    world.sendV4 = 0 ∧ world.sendV6 = 0 := by
  have none : ∀ other : Connection → Bool,
      world.connections.countP (fun d => d.waiting && other d) = 0 := by
    intro other
    rw [countP_eq_zero]
    intro d member
    simp [silent d member]
  exact ⟨sound.counted.sendV4.trans (none _), sound.counted.sendV6.trans (none _)⟩

/-- The send timeout sets itself again, and a missed one makes the next one leave nothing. -/
structure Fired (world next : World) : Prop where
  serving : next.Serving
  idles : Idles world next
  attempted : next.Silent ∨ next.timeoutMissed = true
  forced : world.Silent ∨ world.timeoutMissed = true → next.Silent

theorem World.Serving.sendTimeout (serving : world.Serving) (answers : Answers) :
    Concludes (Fired world) (fun _ => False)
      (({ world with pending := [] } : World).sendTimeout answers) := by
  rw [World.sendTimeout]
  split
  case isTrue zero =>
    have silent := serving.sound.silent_of_zero zero
    constructor
    case serving =>
      refine { serving with sound := ?sound, awaiting := ?awaiting }
      case sound => exact serving.sound.of_books rfl
      case awaiting => exact ⟨serving.awaiting.scheduled, rfl⟩
    case idles => exact .of_perm rfl rfl rfl (.refl _)
    case attempted => exact .inl silent
    case forced => exact fun _ => silent
  case isFalse some =>
    let ready : World := { world with pending := [], timeoutScheduled := false }
    have stands : ready.Sound := serving.sound.of_books rfl
    have rests : Idles world ready := .of_perm rfl rfl rfl (.refl _)
    apply (stands.transmit serving.unmarked rfl answers world.timeoutMissed).bind
    rintro ⟨done, next⟩ transmitted
    have active : next.active = true := transmitted.active.trans serving.active
    simp only [World.miss]
    split
    case isTrue success =>
      apply (transmitted.sound.consolidate answers).weaken
      · rintro last ⟨sound, unmarked, timers, idles, silent⟩
        have same := timers
        simp only [World.timers, Prod.mk.injEq] at same
        constructor
        case serving =>
          exact ⟨sound, unmarked, same.1.trans active, transmitted.awaiting.of_timers timers⟩
        case idles => exact rests.trans (transmitted.idles.trans idles)
        case attempted => exact .inl (silent (transmitted.silent success))
        case forced => exact fun _ => silent (transmitted.silent success)
      · exact fun _ fault => fault
    case isFalse failed =>
      constructor
      case serving =>
        constructor
        case sound => exact transmitted.sound.of_books rfl
        case unmarked => exact transmitted.unmarked (Bool.not_eq_true _ ▸ failed)
        case active => exact active
        case awaiting => exact ⟨transmitted.awaiting.scheduled, transmitted.awaiting.pending⟩
      case idles =>
        have marks : Idles next { next with timeoutMissed := true } :=
          .of_perm rfl rfl rfl (.refl _)
        exact rests.trans (transmitted.idles.trans marks)
      case attempted => exact .inr rfl
      case forced =>
        rintro (silent | missed)
        · exact absurd (serving.sound.zero_of_silent silent) some
        · exact absurd (transmitted.forced missed) failed

theorem World.Serving.fire (serving : world.Serving) (answers : Answers) :
    Concludes (Fired world) (fun _ => False) (world.fire answers) := by
  rw [World.fire, serving.awaiting.pending]
  exact serving.sendTimeout answers

end Callbacks

section Runs

variable {world : World}

theorem World.Resting.serving (resting : world.Resting) (active : world.active = true) :
    world.Serving :=
  ⟨resting.sound, resting.unmarked, active, resting.active active⟩

theorem World.Resting.cancellable (resting : world.Resting) : world.Cancellable := by
  cases active : world.active with
  | true => exact (resting.active active).cancellable
  | false =>
    obtain ⟨scheduled, pending, _⟩ := resting.idle active
    rw [World.Cancellable, scheduled, pending]
    rfl

/-- A new configuration starts the plugin or its send timeout again. -/
theorem World.Resting.uplinkData (resting : world.Resting) (packet : ConfigPacket) :
    Concludes World.Resting (fun _ => False) (world.uplinkData packet) := by
  rw [World.uplinkData]
  split
  case isTrue => exact resting
  case isFalse =>
    let configured : World := { world with
      configVersion := packet.version
      finishedLimit := packet.finishedLimit
      sendLimit := packet.sendLimit
      undecidedLimit := packet.undecidedLimit
      timeout := packet.timeout
      maxAge := packet.maxAge }
    have cancellable : configured.Cancellable := resting.cancellable
    change Concludes _ _ (configured.cancelTimeout >>= _)
    rw [cancellable.cancelTimeout]
    apply World.Serving.resting
    constructor
    case sound => exact resting.sound.of_books rfl
    case unmarked => exact resting.unmarked
    case active => rfl
    case awaiting => exact ⟨rfl, rfl⟩

theorem World.Resting.connected (resting : world.Resting) (answers : Answers) :
    Concludes (fun next => next.Resting ∧ Idles world next) (fun _ => False)
      (world.connected answers) := by
  rw [World.connected]
  split
  case isTrue => exact ⟨resting, .of_perm rfl rfl rfl (.refl _)⟩
  case isFalse active =>
    have serving := resting.serving (by simpa using active)
    split
    case isTrue =>
      apply (serving.transmit answers false).bind
      rintro ⟨done, next⟩ transmitted
      apply (transmitted.consolidateIf serving.active answers id).weaken
      · exact fun last ends => ⟨ends.1.resting, ends.2.1⟩
      · exact fun _ fault => fault
    case isFalse =>
      apply (serving.limitsCheck answers).weaken
      · exact fun next serves => ⟨serves.1.resting, serves.2⟩
      · exact fun _ fault => fault

theorem tcpEvents_type {v6 : Bool} {direction : Direction} {flags : Nat} {src dst : Nat → UInt8}
    {ports : Ends Nat} : ∀ seen ∈ tcpEvents v6 direction flags src dst ports, seen.type ≠ .timeout := by
  intro seen member
  have one : ∀ (test : Prop) [Decidable test] (event : Seen), event.type ≠ .timeout →
      seen ∈ (if test then [event] else []) → seen.type ≠ .timeout := by
    intro test _ event other inside
    split at inside
    · exact mem_singleton.mp inside ▸ other
    · cases inside
  simp only [tcpEvents, mem_append] at member
  rcases member with (syn | ack) | nak
  · refine one _ _ ?_ syn
    exact nofun
  · refine one _ _ ?_ ack
    exact nofun
  · refine one _ _ ?_ nak
    exact nofun

/-- The callback never says that a connection timed out. -/
theorem packetEvents_type (width : Width) (memory : PacketMemory) (info : PacketInfo) :
    ∀ seen ∈ packetEvents width memory info, seen.type ≠ .timeout := by
  intro seen member
  rcases mem_append.mp member with tcp | icmp
  · split at tcp
    · exact tcpEvents_type seen tcp
    · cases tcp
  · split at icmp
    · cases icmp
    · rw [mem_singleton.mp icmp]
      exact nofun

theorem World.Serving.evaluate (serving : world.Serving) (answers : Answers) :
    Concludes World.Resting (fun _ => False) (world.evaluate answers) := by
  apply (serving.sound.timeoutsEvaluate _ le_rfl).bind
  rintro next ⟨sound, steady⟩
  apply ((serving.steady sound steady).limitsCheck answers).weaken
  · exact fun last serves => serves.1.resting
  · exact fun _ fault => fault

theorem World.Resting.packet (resting : world.Resting) (width : Width) (memory : PacketMemory)
    (info : PacketInfo) (answers : Answers) :
    Concludes World.Resting (fun _ => False) (world.packet width memory info answers) := by
  simp only [World.packet]
  split
  case isTrue => exact resting
  case isFalse active =>
    split
    case isTrue => exact resting
    case isFalse =>
      have serving := resting.serving (by simpa using active)
      have handled := @concludes_foldlM Fault World Seen World.Serving (fun _ => False)
        World.handleEvent (packetEvents width memory (innermost info)) world serving
        fun next serves seen member =>
          (serves.sound.handleEvent (packetEvents_type _ _ _ seen member)).weaken
            (fun _ kept => serves.steady kept.1 kept.2) (fun _ fault => fault)
      exact handled.bind fun next serves => serves.evaluate answers

theorem World.Sound.later (sound : world.Sound) (elapsed : Nat) :
    { world with now := world.now + elapsed }.Sound := by
  obtain ⟨keyed, counted, listed, reported⟩ := sound
  constructor
  case keyed =>
    refine { keyed with past := ?past }
    case past => exact fun d member => Nat.le_add_right_of_le (keyed.past d member)
  case counted => exact ⟨counted.undecided, counted.finished, counted.sendV4, counted.sendV6⟩
  case listed => exact ⟨listed.entries, listed.ordered⟩
  case reported => exact ⟨reported.once, reported.covers⟩

theorem World.Resting.fire (resting : world.Resting) (answers : Answers) :
    Concludes (fun next => next.Resting ∧ Idles world next) (fun _ => False)
      (world.fire answers) := by
  cases active : world.active with
  | true =>
    apply ((resting.serving active).fire answers).weaken
    · exact fun next fired => ⟨fired.serving.resting, fired.idles⟩
    · exact fun _ fault => fault
  | false =>
    rw [World.fire, (resting.idle active).2.1]
    exact ⟨resting, .of_perm rfl rfl rfl (.refl _)⟩

/-- Every callback keeps the books. -/
theorem World.Resting.step (resting : world.Resting) (event : Event) :
    Concludes World.Resting (fun _ => False) (world.step event) := by
  cases event with
  | tick elapsed =>
    refine { resting with sound := ?sound, active := ?active }
    case sound => exact resting.sound.later elapsed
    case active =>
      exact fun active => ⟨(resting.active active).scheduled, (resting.active active).pending⟩
  | packet width memory info answers => exact resting.packet width memory info answers
  | uplinkData packet => exact resting.uplinkData packet
  | connected answers =>
    exact (resting.connected answers).weaken (fun _ kept => kept.1) (fun _ fault => fault)
  | sendTimeout answers =>
    exact (resting.fire answers).weaken (fun _ kept => kept.1) (fun _ fault => fault)

theorem World.start_resting : World.start.Resting := by
  constructor
  case sound =>
    constructor
    case keyed => constructor <;> simp [World.start]
    case counted => constructor <;> rfl
    case listed => exact ⟨.refl _, fun _ => 0, nofun, .nil⟩
    case reported => exact ⟨.nil, .refl _⟩
  case unmarked => exact nofun
  case active => exact nofun
  case idle => exact fun _ => ⟨rfl, rfl, rfl⟩

theorem run_resting (events : List Event) :
    Concludes World.Resting (fun _ => False) (World.start.run events) :=
  concludes_foldlM World.start_resting fun _ resting event _ => resting.step event

/-- Two send timeouts leave no connection waiting. -/
theorem World.Resting.fire_twice (resting : world.Resting) (first second : Answers) :
    Concludes (fun last => last.Resting ∧ last.history = world.history ∧ last.Silent)
      (fun _ => False) (world.run [.sendTimeout first, .sendTimeout second]) := by
  rw [World.run, foldlM_cons]
  cases active : world.active with
  | false =>
    obtain ⟨_, pending, empty⟩ := resting.idle active
    have unchanged : ∀ answers, world.step (.sendTimeout answers) = .ok world := by
      intro answers
      rw [World.step, World.fire, pending]
    rw [unchanged first]
    change Concludes _ _ (world.step (.sendTimeout second) >>= _)
    rw [unchanged second]
    refine ⟨resting, rfl, ?_⟩
    rw [World.Silent, empty]
    exact nofun
  | true =>
    apply ((resting.serving active).fire first).bind
    intro next fired
    apply (fired.serving.fire second).bind
    intro last again
    exact ⟨again.serving.resting, again.idles.history.trans fired.idles.history,
      again.forced fired.attempted⟩

theorem World.Silent.filter_eq (silent : world.Silent) :
    world.connections.filter Connection.waiting = [] := by
  rw [filter_eq_nil_iff]
  intro d member
  simp [silent d member]

end Runs

end Ucollect.Refused
