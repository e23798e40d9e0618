import Ucollect.Proof.Fake.Slots

/-
The callbacks keep the slots settled: a denial is pending exactly while an open connection waits for
it, and a closed connection has no timeouts.
-/

namespace Ucollect.Fake.Telnet
open Library Core List Option Function

section Reading

variable {slot : Nat} {world after : World} {conn : ConnData}

/-- The inactivity timeout was started just now. -/
structure Reading (slot : Nat) (world : World) : Prop where
  around : Around slot world
  opened : Open slot (world.slots slot) (world.view slot)
  fresh : ∀ timeout ∈ world.view slot, timeout.callback = .inactive slot →
    world.now + connTimeout ≤ timeout.due

/-- The connection and the timeouts change, and there may be entries for logins. -/
structure Handles (slot : Nat) (before after : World) : Prop where
  others : ∀ other ≠ slot, after.slots other = before.slots other
  fd : (after.slots slot).fd = (before.slots slot).fd
  connection : (after.slots slot).connection = (before.slots slot).connection
  closed : (after.slots slot).closed = (before.slots slot).closed
  sockets : after.sockets = before.sockets
  accepted : after.accepted = before.accepted
  closings : after.closings = before.closings
  log : ∃ logins, (∀ entry ∈ logins, entry.connection = (before.slots slot).connection ∧
    entry.type = .login) ∧ after.log = before.log ++ logins

@[simp] theorem setConn_slots (world : World) (slot : Nat) (conn : ConnData) :
    (world.setConn slot conn).slots slot = { world.slots slot with conn } :=
  update_self _ _ _

@[simp] theorem setConn_conn (world : World) (slot : Nat) (conn : ConnData) :
    (world.setConn slot conn).conn slot = conn := by
  rw [World.conn, setConn_slots]

@[simp] theorem setConn_setConn (world : World) (slot : Nat) (conn next : ConnData) :
    (world.setConn slot conn).setConn slot next = world.setConn slot next := by
  rw [World.setConn, setConn_slots]
  simp [World.setConn, World.setTag]

@[simp] theorem setConn_view (world : World) (slot : Nat) (conn : ConnData) (other : Nat) :
    (world.setConn slot conn).view other = world.view other := rfl

/-- A change of the connection or of the timeouts has no effect outside of the slot. -/
theorem Handles.of_tag (others : ∀ other ≠ slot, after.slots other = world.slots other)
    (fd : (after.slots slot).fd = (world.slots slot).fd)
    (connection : (after.slots slot).connection = (world.slots slot).connection)
    (closed : (after.slots slot).closed = (world.slots slot).closed)
    (sockets : after.sockets = world.sockets) (accepted : after.accepted = world.accepted)
    (closings : after.closings = world.closings) (log : after.log = world.log) :
    Handles slot world after where
  others
  fd
  connection
  closed
  sockets
  accepted
  closings
  log := ⟨[], fun _ member => absurd member not_mem_nil, by rw [log, append_nil]⟩

theorem handles_refl (slot : Nat) (world : World) : Handles slot world world :=
  Handles.of_tag (fun _ _ => rfl) rfl rfl rfl rfl rfl rfl rfl

theorem handles_setConn (slot : Nat) (world : World) (conn : ConnData) :
    Handles slot world (world.setConn slot conn) := by
  apply Handles.of_tag
  case others => exact fun _ different => update_of_ne different _ _
  case fd => rw [setConn_slots]
  case connection => rw [setConn_slots]
  case closed => rw [setConn_slots]
  all_goals rfl

theorem handles_setTimers (timers : Timers Callback) :
    Handles slot world (world.setTimers timers) :=
  Handles.of_tag (fun _ _ => rfl) rfl rfl rfl rfl rfl rfl rfl

theorem handles_logAttempt (world : World) (slot : Nat) :
    Handles slot world (logAttempt world slot) where
  others _ _ := rfl
  fd := rfl
  connection := rfl
  closed := rfl
  sockets := rfl
  accepted := rfl
  closings := rfl
  log := by
    refine ⟨[_], ?_, rfl⟩
    intro entry member
    rw [mem_singleton.mp member]
    exact ⟨rfl, rfl⟩

theorem Handles.trans {final : World} (first : Handles slot world after)
    (second : Handles slot after final) : Handles slot world final where
  others other different := (second.others other different).trans (first.others other different)
  fd := second.fd.trans first.fd
  connection := second.connection.trans first.connection
  closed := second.closed.trans first.closed
  sockets := second.sockets.trans first.sockets
  accepted := second.accepted.trans first.accepted
  closings := second.closings.trans first.closings
  log := by
    obtain ⟨logins, logged, log⟩ := first.log
    obtain ⟨more, loggedMore, logMore⟩ := second.log
    refine ⟨logins ++ more, ?_, by rw [logMore, log, append_assoc]⟩
    rw [first.connection] at loggedMore
    intro entry member
    rcases mem_append.mp member with before | behind
    · exact logged entry before
    · exact loggedMore entry behind

theorem Reading.edits (reading : Reading slot world) (edits : Edits (world.conn slot) conn) :
    Reading slot (world.setConn slot conn) where
  around := reading.around.setTag _
  opened := by
    have opened := reading.opened
    rw [setConn_slots, setConn_view]
    constructor
    case small => exact opened.small
    case number => exact opened.number
    case alive => exact opened.alive
    case active => exact opened.active
    case owner => exact edits.tag.trans opened.owner
    case sound => exact edits.sound opened.sound
    case ready => exact edits.ready opened.sound opened.ready
    case watched =>
      have watched := opened.watched
      rw [Watched, Denying, Armed] at watched ⊢
      rw [World.conn] at edits
      simp only [edits.position, edits.denialTimeout]
      exact watched
  fresh := reading.fresh

theorem sound_startLine (sound : conn.Sound) (field : Field) : (conn.startLine field).Sound where
  username := sound.username
  password := sound.password
  base := rfl
  line other offset same := by
    cases same
    decide

/-- The line ends, and the password gets its own. -/
theorem processLogin_eq {field : Field} {offset : Nat} (sending : Sending)
    (line : (world.conn slot).line = some (field, offset))
    (written : (world.conn slot).write field offset 0 = .ok conn) :
    processLogin world slot sending = .ok (match sending with
      | none => (world.setConn slot { conn.startLine .password with position := .wantPassword }, true)
      | some error => (world.setConn slot (sendAll (conn.startLine .password) (some error)).1, false)) := by
  rw [processLogin, line]
  simp only [written, ok_bind]
  cases sending with
  | none => rfl
  | some error => rfl

theorem Reading.line (reading : Reading slot world)
    (talks : (world.conn slot).position ≠ .waitDenial) :
    ∃ field offset, (world.conn slot).line = some (field, offset) ∧ offset < lineMax := by
  have ready := reading.opened.ready
  have small := reading.opened.sound.line
  rw [ConnData.Ready] at ready
  cases position : (world.conn slot).position with
  | wantLogin =>
    rw [World.conn] at position
    rw [position] at ready
    obtain ⟨offset, line⟩ := ready
    exact ⟨.username, offset, line, small _ _ line⟩
  | wantPassword =>
    rw [World.conn] at position
    rw [position] at ready
    obtain ⟨offset, line⟩ := ready
    exact ⟨.password, offset, line, small _ _ line⟩
  | waitDenial => exact absurd position talks

/-- The flag tells whether the reading goes on. -/
structure Handled (slot : Nat) (before after : World) (good : Bool) : Prop where
  handles : Handles slot before after
  reads : after.reads = before.reads
  inputs : after.inputs = before.inputs
  around : Around slot after
  sound : (after.conn slot).Sound
  reading : good = true → Reading slot after
  closable : Closable slot (after.slots slot) (after.view slot)

theorem Reading.handled (reading : Reading slot after) (handles : Handles slot world after)
    (reads : after.reads = world.reads) (inputs : after.inputs = world.inputs) (good : Bool) :
    Handled slot world after good where
  handles
  reads
  inputs
  around := reading.around
  sound := reading.opened.sound
  reading _ := reading
  closable := reading.opened.closable

/-- While the dialogue goes on only the inactivity timeout is pending. -/
theorem Reading.armed (reading : Reading slot world)
    (talks : (world.conn slot).position ≠ .waitDenial) :
    Armed slot (world.slots slot) (world.view slot) := by
  have watched := reading.opened.watched
  rwa [Watched, if_neg talks] at watched

theorem processLogin_ok (reading : Reading slot world)
    (position : (world.conn slot).position = .wantLogin) (sending : Sending) :
    ∃ after good, processLogin world slot sending = .ok (after, good) ∧
      Handled slot world after good := by
  have talks : (world.conn slot).position ≠ .waitDenial := by
    rw [position]
    decide
  have armed := reading.armed talks
  have opened := reading.opened
  obtain ⟨field, offset, line, small⟩ := reading.line talks
  obtain ⟨written, write, edits, -⟩ := write_ok opened.sound field small 0
  have sound := sound_startLine (edits.sound opened.sound) .password
  rw [processLogin_eq sending line write]
  cases sending with
  | none =>
    refine ⟨_, true, rfl, ?_⟩
    refine Reading.handled ?_ (handles_setConn _ _ _) rfl rfl true
    constructor
    case around => exact reading.around.setTag _
    case fresh => exact reading.fresh
    case opened =>
      rw [setConn_slots, setConn_view]
      constructor
      case small => exact opened.small
      case number => exact opened.number
      case alive => exact opened.alive
      case active => exact opened.active
      case owner => exact edits.tag.trans opened.owner
      case sound => exact ⟨sound.username, sound.password, sound.base, sound.line⟩
      case ready => exact ⟨0, rfl⟩
      case watched =>
        rw [Watched, if_neg (fun same => by cases same)]
        exact armed
  | some error =>
    refine ⟨_, false, rfl, ?_⟩
    constructor
    case handles => exact handles_setConn _ _ _
    case reads => rfl
    case inputs => rfl
    case around => exact reading.around.setTag _
    case sound =>
      rw [setConn_conn]
      exact (edits_sendAll _ _).sound sound
    case reading =>
      intro good
      cases good
    case closable =>
      rw [setConn_slots, setConn_view]
      constructor
      case owner => exact edits.tag.trans opened.owner
      case denying =>
        intro waits
        exact absurd (edits.position.symm.trans waits) talks
      case flagged =>
        intro _
        rw [Flagged, if_pos opened.active]
        exact armed

/-- The attempt is logged, and its denial is pending. -/
theorem processPassword_eq {field : Field} {offset id : Nat} {timers : Timers Callback}
    (added : world.addTimeout denialTimeout (.denial slot) = .ok (id, world.setTimers timers))
    (line : (world.conn slot).line = some (field, offset))
    (written : ((world.conn slot).awaitDenial id).write field offset 0 = .ok conn) :
    processPassword world slot = .ok
      ((logAttempt ((world.setTimers timers).setConn slot conn) slot).setConn slot
        { conn with line := none, lineBase := none }, true) := by
  have line' : (((world.setTimers timers).conn slot).awaitDenial id).line = some (field, offset) := line
  have written' : (((world.setTimers timers).conn slot).awaitDenial id).write field offset 0 =
      .ok conn := written
  rw [processPassword, added, ok_bind]
  simp only [line', written', ok_bind]

/-- The denial is due before the inactivity timeout that was started just now. -/
theorem processPassword_ok (reading : Reading slot world)
    (position : (world.conn slot).position = .wantPassword) :
    ∃ after, processPassword world slot = .ok (after, true) ∧ Handled slot world after true := by
  have talks : (world.conn slot).position ≠ .waitDenial := by
    rw [position]
    decide
  have opened := reading.opened
  obtain ⟨due, armed⟩ := reading.armed talks
  obtain ⟨field, offset, line, small⟩ := reading.line talks
  have few : (world.view slot).length ≤ 2 := by
    rw [armed]
    exact Nat.le_succ 1
  have positive : denialTimeout ≠ 0 := by decide
  have short : denialTimeout ≤ connTimeout := by decide
  have own : (Callback.denial slot).slot = slot := rfl
  obtain ⟨id, timers, added, around, held⟩ := addTimeout_ok reading.around few positive short own
  have sound : ((world.conn slot).awaitDenial id).Sound :=
    ⟨opened.sound.username, opened.sound.password, opened.sound.base, opened.sound.line⟩
  obtain ⟨written, write, edits, -⟩ := write_ok sound field small 0
  have inside : ⟨due, (world.slots slot).inactivityTimeout, .inactive slot⟩ ∈ world.view slot := by
    rw [armed]
    exact mem_singleton_self _
  have late : world.now + connTimeout ≤ due := reading.fresh _ inside rfl
  have soon : world.now + denialTimeout < due := by
    have shorter : denialTimeout < connTimeout := by decide
    omega
  rw [armed] at held
  refine ⟨_, processPassword_eq added line write, ?_⟩
  have tag : ((logAttempt ((world.setTimers timers).setConn slot written) slot).setConn slot
      { written with line := none, lineBase := none }).slots slot = { world.slots slot with
        conn := { written with line := none, lineBase := none } } := by
    rw [setConn_slots, logAttempt, logWrapper_slots, setConn_slots, setTimers_slots]
  refine Reading.handled ?_ ?_ (by rfl) (by rfl) true
  · constructor
    case around => exact ((around.setTag _).logWrapper _ _ _ _).setTag _
    case opened =>
      rw [tag]
      refine { opened with owner := ?owner, sound := ?sound, ready := ?ready, watched := ?watched }
      case owner => exact edits.tag.trans opened.owner
      case sound =>
        have sound := edits.sound sound
        exact ⟨sound.username, sound.password, rfl, fun _ _ same => by cases same⟩
      case ready => rw [ConnData.Ready, edits.position]; rfl
      case watched =>
        rw [Watched, if_pos (by exact edits.position)]
        refine ⟨world.now + denialTimeout, due, soon, ?_⟩
        rw [show written.denialTimeout = id from edits.denialTimeout]
        exact held
    case fresh =>
      intro timeout member inactive
      rcases mem_cons.mp (held.mem_iff.mp member) with rfl | old
      · cases inactive
      · rw [mem_singleton.mp old]
        exact late
  · have waits : Handles slot world ((world.setTimers timers).setConn slot written) :=
      (handles_setTimers timers).trans (handles_setConn _ _ _)
    exact (waits.trans (handles_logAttempt _ slot)).trans (handles_setConn _ _ _)

theorem processLine_ok (reading : Reading slot world) (sending : Sending) :
    ∃ after good, processLine world slot sending = .ok (after, good) ∧
      Handled slot world after good := by
  rw [processLine]
  cases position : (world.conn slot).position with
  | wantLogin => exact processLogin_ok reading position sending
  | wantPassword =>
    obtain ⟨after, processed, handled⟩ := processPassword_ok reading position
    exact ⟨after, true, processed, handled⟩
  | waitDenial => exact ⟨world, true, rfl, reading.handled (handles_refl _ _) rfl rfl true⟩

/-- The automaton goes back to normal characters. -/
theorem Handled.normal {good : Bool} (handled : Handled slot world after good) :
    ∃ final, (if good = true then
        Except.ok (after.setConn slot { after.conn slot with expect := .none }, true)
      else Except.ok (after, false) : Except Fault (World × Bool)) = .ok (final, good) ∧
      Handled slot world final good := by
  cases good with
  | false => exact ⟨after, rfl, handled⟩
  | true =>
    have edits : Edits (after.conn slot) { after.conn slot with expect := .none } :=
      Edits.of_line rfl rfl rfl rfl rfl rfl rfl
    refine ⟨_, rfl, ?_⟩
    apply Reading.handled _ (handled.handles.trans (handles_setConn _ _ _)) handled.reads
      handled.inputs
    exact (handled.reading rfl).edits edits

theorem lfHandle_ok (reading : Reading slot world) (ch : UInt8) (sending : Sending) :
    ∃ after good, lfHandle world slot ch sending = .ok (after, good) ∧
      Handled slot world after good := by
  rw [lfHandle]
  split
  case isTrue =>
    obtain ⟨after, good, processed, handled⟩ := processLine_ok reading sending
    obtain ⟨final, normal, last⟩ := handled.normal
    rw [processed, ok_bind]
    exact ⟨final, good, normal, last⟩
  case isFalse =>
    have same : Handled slot world world true :=
      reading.handled (handles_refl _ _) rfl rfl true
    obtain ⟨final, normal, last⟩ := same.normal
    exact ⟨final, true, normal, last⟩

theorem Reading.edited (reading : Reading slot world) (edits : Edits (world.conn slot) conn)
    (good : Bool) : Handled slot world (world.setConn slot conn) good :=
  (reading.edits edits).handled (handles_setConn _ _ _) rfl rfl good

theorem charHandle_ok (reading : Reading slot world) (ch : UInt8) (sending : Sending) :
    ∃ after good, charHandle world slot ch sending = .ok (after, good) ∧
      Handled slot world after good := by
  have sound := reading.opened.sound
  rw [charHandle]
  cases (world.conn slot).expect with
  | none =>
    obtain ⟨conn, handled, edits⟩ := edits_normalHandle sound ch
    simp only [handled, ok_bind]
    exact ⟨_, true, rfl, reading.edited edits true⟩
  | cmd => exact ⟨_, _, rfl, reading.edited (edits_cmdHandle sound ch sending) _⟩
  | opcode => exact ⟨_, _, rfl, reading.edited (edits_optionHandle _ sending) _⟩
  | params => exact ⟨_, true, rfl, reading.edited (edits_paramsHandle _ ch) true⟩
  | paramsEnd => exact ⟨_, true, rfl, reading.edited (edits_paramsEndHandle _ ch) true⟩
  | lf => exact lfHandle_ok reading ch sending

end Reading

section Visits

variable {slot : Nat} {world after : World}

/-- The connection is closed with one entry in the log and one call. -/
structure Closes (slot : Nat) (before after : World) : Prop where
  others : ∀ other ≠ slot, after.slots other = before.slots other
  fd : (after.slots slot).fd = none
  sockets : after.sockets = releaseFd before.sockets (before.slots slot).fd
  accepted : after.accepted = before.accepted
  closings : after.closings = before.closings ++ [((before.slots slot).connection, slot)]
  log : ∃ logins last, (∀ entry ∈ logins, entry.connection = (before.slots slot).connection ∧
    entry.type = .login) ∧ last.connection = (before.slots slot).connection ∧
    last.type ∈ [EventType.lost, .disconnect, .timeout] ∧
    after.log = before.log ++ logins ++ [last]

theorem closes_shut (alive : (world.slots slot).closed = false) (error : Bool)
    (reason : Option String) (timers : Timers Callback) :
    Closes slot world (world.shut slot error reason timers) where
  others _ different := update_of_ne different _ _
  fd := by rw [shut_slots]
  sockets := rfl
  accepted := rfl
  closings := rfl
  log := by
    refine ⟨[], ⟨_, if error then .lost else .disconnect, reason, none, none⟩,
      fun _ member => absurd member not_mem_nil, rfl, ?_, ?_⟩
    · cases error <;> simp
    · rw [World.shut, alive, append_nil]
      rfl

theorem Closes.before {first : World} (handles : Handles slot first world)
    (closes : Closes slot world after) : Closes slot first after where
  others other different :=
    (closes.others other different).trans (handles.others other different)
  fd := closes.fd
  sockets := by rw [closes.sockets, handles.sockets, handles.fd]
  accepted := closes.accepted.trans handles.accepted
  closings := by rw [closes.closings, handles.closings, handles.connection]
  log := by
    obtain ⟨logins, logged, log⟩ := handles.log
    obtain ⟨more, last, loggedMore, same, kind, logMore⟩ := closes.log
    rw [handles.connection] at loggedMore same
    refine ⟨logins ++ more, last, ?_, same, kind, ?_⟩
    · intro entry member
      rcases mem_append.mp member with before | behind
      · exact logged entry before
      · exact loggedMore entry behind
    · rw [logMore, log]
      simp only [append_assoc]

/-- After a visit of the slot its connection is still open, or it is closed. -/
inductive Visited (slot : Nat) (before after : World) : Prop where
  | stays (handles : Handles slot before after) (settled : after.Settled)
  | closes (closes : Closes slot before after) (settled : after.Settled)

theorem Visited.settled (visited : Visited slot world after) : after.Settled := by
  cases visited with
  | stays _ settled => exact settled
  | closes _ settled => exact settled

theorem Visited.before {first : World} (handles : Handles slot first world)
    (visited : Visited slot world after) : Visited slot first after := by
  cases visited with
  | stays later settled => exact .stays (handles.trans later) settled
  | closes later settled => exact .closes (later.before handles) settled

theorem Reading.visited (reading : Reading slot world) : Visited slot world world :=
  .stays (handles_refl slot world) (reading.around.settled (.inl reading.opened))

theorem doClose_visited (around : Around slot world)
    (alive : (world.slots slot).closed = false) (sound : (world.conn slot).Sound)
    (closable : Closable slot (world.slots slot) (world.view slot)) (error : Bool) :
    ∃ after, doClose world slot error = .ok after ∧ Visited slot world after := by
  obtain ⟨timers, closed, kept, idle⟩ := doClose_ok around closable error
  refine ⟨_, closed, .closes (closes_shut alive error _ timers) ?_⟩
  apply settled_shut kept idle sound
  intro other same
  rw [closable.owner] at same
  exact (Option.some.inj same).symm

section

variable (reading : Reading slot world)
include reading

theorem Reading.note (input : Input) : Reading slot (world.note slot input) where
  around := reading.around.same (fun _ _ => rfl) rfl rfl
  opened := reading.opened
  fresh := reading.fresh

theorem Reading.receive (bytes : Bytes) : Reading slot (world.receive slot bytes) where
  around := reading.around.same (fun _ _ => rfl) rfl rfl
  opened := reading.opened
  fresh := reading.fresh

/-- The bytes of a message are handled one by one. -/
theorem charsHandle_ok (bytes : List (UInt8 × Sending)) :
    ∃ after, charsHandle world slot bytes = .ok after ∧ Visited slot world after := by
  induction bytes generalizing world with
  | nil => exact ⟨world, rfl, reading.visited⟩
  | cons byte bytes hypothesis =>
    obtain ⟨ch, sending⟩ := byte
    have noted : Handles slot world (world.note slot (.byte ch)) :=
      Handles.of_tag (fun _ _ => rfl) rfl rfl rfl rfl rfl rfl rfl
    obtain ⟨middle, good, processed, handled⟩ :=
      charHandle_ok (reading.note (.byte ch)) ch sending
    rw [charsHandle, processed, ok_bind]
    cases good with
    | true =>
      obtain ⟨after, rest, visited⟩ := hypothesis (handled.reading rfl)
      exact ⟨after, rest, (visited.before handled.handles).before noted⟩
    | false =>
      have alive := (noted.trans handled.handles).closed.trans reading.opened.alive
      obtain ⟨after, closed, visited⟩ := doClose_visited handled.around alive handled.sound
        handled.closable (middle.conn slot).protocolError
      exact ⟨after, closed, (visited.before handled.handles).before noted⟩

/-- Received data leaves the slot settled. -/
theorem telnetData_ok (receipt : Receipt) :
    ∃ after, telnetData world slot receipt = .ok after ∧ Visited slot world after := by
  cases receipt with
  | again => exact ⟨world, rfl, reading.visited⟩
  | failed error =>
    have edits : Edits (world.conn slot) { world.conn slot with closeReason := some error } :=
      Edits.of_line rfl rfl rfl rfl rfl rfl rfl
    have next := reading.edits edits
    obtain ⟨after, closed, visited⟩ := doClose_visited next.around next.opened.alive
      next.opened.sound next.opened.closable true
    exact ⟨after, closed, visited.before (handles_setConn _ _ _)⟩
  | closed =>
    have edits : Edits (world.conn slot) (world.conn slot).remoteClosed :=
      Edits.of_line rfl rfl rfl rfl rfl rfl rfl
    have next := reading.edits edits
    obtain ⟨after, closed, visited⟩ := doClose_visited next.around next.opened.alive
      next.opened.sound next.opened.closable false
    exact ⟨after, closed, visited.before (handles_setConn _ _ _)⟩
  | data bytes =>
    obtain ⟨after, read, visited⟩ := charsHandle_ok (reading.receive _) bytes
    refine ⟨after, read, visited.before ?_⟩
    exact Handles.of_tag (fun _ _ => rfl) rfl rfl rfl rfl rfl rfl rfl

end

theorem activity_closed (closed : (world.slots slot).closed = true) :
    activity world slot = .ok world := by
  rw [activity, if_pos closed]

/-- A new inactivity timeout takes the place of the old one. -/
theorem activity_ok (around : Around slot world) (alive : (world.slots slot).closed = false)
    (rest : List (Timeout Callback)) (few : rest.length ≤ 1)
    (held : if (world.slots slot).inactivityTimeoutActive then
        ∃ due, (world.view slot).Perm
          (⟨due, (world.slots slot).inactivityTimeout, .inactive slot⟩ :: rest)
      else world.view slot = rest) :
    ∃ id timers, activity world slot = .ok ((world.setTimers timers).setTag slot
        { world.slots slot with inactivityTimeout := id, inactivityTimeoutActive := true }) ∧
      Around slot (world.setTimers timers) ∧
      (viewOf timers slot).Perm (⟨world.now + connTimeout, id, .inactive slot⟩ :: rest) := by
  have positive : connTimeout ≠ 0 := by decide
  have own : (Callback.inactive slot).slot = slot := rfl
  cases active : (world.slots slot).inactivityTimeoutActive with
  | false =>
    rw [active, if_neg Bool.false_ne_true] at held
    have room : (world.view slot).length ≤ 2 := by
      rw [held]
      exact few.trans (Nat.le_succ 1)
    obtain ⟨id, timers, added, kept, view⟩ := addTimeout_ok around room positive le_rfl own
    rw [held] at view
    refine ⟨id, timers, ?_, kept, view⟩
    rw [activity, alive]
    simp only [active, Bool.false_eq_true, if_false, added, ok_bind, setTimers_slots]
  | true =>
    rw [active, if_pos rfl] at held
    obtain ⟨due, held⟩ := held
    obtain ⟨middle, cancelled, around, left⟩ := cancelTimeout_ok around held
    have room : ((world.setTimers middle).view slot).length ≤ 2 := by
      rw [setTimers_view, left.length_eq]
      exact few.trans (Nat.le_succ 1)
    obtain ⟨id, timers, added, kept, view⟩ := addTimeout_ok around room positive le_rfl own
    refine ⟨id, timers, ?_, kept, view.trans (left.cons _)⟩
    rw [activity, alive]
    simp only [active, Bool.false_eq_true, if_false, if_true, cancelled, added, ok_bind,
      setTimers_slots]
    rfl

/-- The tag after `activity`. -/
def FdTag.touch (tag : FdTag) (id : Nat) : FdTag :=
  { tag with inactivityTimeout := id, inactivityTimeoutActive := true }

/-- The slot is read with a timeout of just now. -/
theorem reading_touch {id : Nat} {timers : Timers Callback} {rest : List (Timeout Callback)}
    (around : Around slot (world.setTimers timers))
    (held : (viewOf timers slot).Perm (⟨world.now + connTimeout, id, .inactive slot⟩ :: rest))
    (others : ∀ timeout ∈ rest, timeout.callback ≠ .inactive slot)
    (opened : Open slot ((world.slots slot).touch id) (viewOf timers slot)) :
    Reading slot ((world.setTimers timers).setTag slot ((world.slots slot).touch id)) where
  around := around.setTag _
  opened := by
    have tag : ((world.setTimers timers).setTag slot ((world.slots slot).touch id)).slots slot =
        (world.slots slot).touch id := update_self _ _ _
    rw [tag]
    exact opened
  fresh := by
    intro timeout member inactive
    rcases mem_cons.mp (held.mem_iff.mp member) with rfl | old
    · exact le_rfl
    · exact absurd inactive (others timeout old)

theorem handles_touch (world : World) (slot id : Nat) (timers : Timers Callback) :
    Handles slot world ((world.setTimers timers).setTag slot ((world.slots slot).touch id)) := by
  have tag : ((world.setTimers timers).setTag slot ((world.slots slot).touch id)).slots slot =
      (world.slots slot).touch id := update_self _ _ _
  apply Handles.of_tag
  case others => exact fun _ different => update_of_ne different _ _
  case fd => rw [tag]; rfl
  case connection => rw [tag]; rfl
  case closed => rw [tag]; rfl
  all_goals rfl

theorem Open.touch {tag : FdTag} {view after : List (Timeout Callback)} {id : Nat}
    (opened : Open slot tag view) (watched : Watched slot (tag.touch id) after) :
    Open slot (tag.touch id) after where
  small := opened.small
  number := opened.number
  alive := opened.alive
  active := rfl
  owner := opened.owner
  sound := opened.sound
  ready := opened.ready
  watched

/-- Activity puts the inactivity timeout off. -/
theorem Open.activity (around : Around slot world)
    (opened : Open slot (world.slots slot) (world.view slot)) :
    ∃ after, activity world slot = .ok after ∧ Handles slot world after ∧ Reading slot after := by
  have watched := opened.watched
  rw [Watched] at watched
  split at watched
  case isTrue waits =>
    obtain ⟨soon, late, sooner, held⟩ := watched
    have swapped := held.trans (List.Perm.swap _ _ [])
    have inside := (mem_filter.mp (swapped.mem_iff.mpr mem_cons_self)).1
    have recent := around.recent _ inside
    obtain ⟨id, timers, acted, kept, view⟩ := activity_ok around opened.alive _ le_rfl (by
      rw [if_pos opened.active]
      exact ⟨late, swapped⟩)
    refine ⟨_, acted, handles_touch world slot id timers, reading_touch kept view ?_ ?_⟩
    · intro timeout member inactive
      rw [mem_singleton.mp member] at inactive
      cases inactive
    · apply opened.touch
      rw [Watched, if_pos (by exact waits)]
      refine ⟨soon, world.now + connTimeout, lt_of_lt_of_le sooner recent, ?_⟩
      exact view.trans (List.Perm.swap _ _ [])
  case isFalse talks =>
    obtain ⟨due, armed⟩ := watched
    obtain ⟨id, timers, acted, kept, view⟩ := activity_ok around opened.alive [] (Nat.zero_le 1) (by
      rw [if_pos opened.active]
      exact ⟨due, by rw [armed]⟩)
    refine ⟨_, acted, handles_touch world slot id timers, reading_touch kept view ?_ ?_⟩
    · exact fun _ member => absurd member not_mem_nil
    · apply opened.touch
      rw [Watched, if_neg (by exact talks)]
      exact ⟨world.now + connTimeout, view.eq_singleton⟩

/-- A ready descriptor leaves its slot settled. -/
theorem fdReady_ok (settled : world.Settled) (number : (world.slots slot).fd ≠ none)
    (receipt : Receipt) :
    ∃ after, fdReady world slot receipt = .ok after ∧ Visited slot world after := by
  rcases settled.slots slot with opened | shut
  · obtain ⟨middle, acted, handles, reading⟩ := opened.activity (settled.around opened.small)
    obtain ⟨after, read, visited⟩ := telnetData_ok reading receipt
    refine ⟨after, ?_, visited.before handles⟩
    rw [fdReady, acted, ok_bind, read]
  · exact absurd shut.number number

/-- The connection is open, and only the inactivity timeout is pending. -/
structure Waking (slot : Nat) (world : World) : Prop where
  around : Around slot world
  number : (world.slots slot).fd ≠ none
  alive : (world.slots slot).closed = false
  active : (world.slots slot).inactivityTimeoutActive = true
  armed : Armed slot (world.slots slot) (world.view slot)

/-- The connection has another login. -/
theorem Waking.login (waking : Waking slot world) (conn : ConnData) (owner : conn.tag = some slot)
    (sound : conn.Sound) (position : conn.position = .wantLogin) :
    Visited slot world (world.setConn slot (conn.startLine .username)) := by
  apply Visited.stays (handles_setConn _ _ _)
  apply (waking.around.setTag _).settled
  left
  change Open slot ((world.setConn slot (conn.startLine .username)).slots slot) (world.view slot)
  rw [setConn_slots]
  constructor
  case small => exact waking.around.small
  case number => exact waking.number
  case alive => exact waking.alive
  case active => exact waking.active
  case owner => exact owner
  case sound => exact sound_startLine sound .username
  case ready =>
    rw [ConnData.Ready, show (conn.startLine .username).position = .wantLogin from position]
    exact ⟨0, rfl⟩
  case watched =>
    rw [Watched, if_neg (fun waits => by cases position.symm.trans waits)]
    exact waking.armed

theorem Waking.close (waking : Waking slot world) (conn : ConnData) (owner : conn.tag = some slot)
    (sound : conn.Sound) (position : conn.position = .wantLogin) (error : Bool) :
    ∃ after, doClose (world.setConn slot conn) slot error = .ok after ∧
      Visited slot world after := by
  have closable : Closable slot ((world.setConn slot conn).slots slot)
      ((world.setConn slot conn).view slot) := by
    rw [setConn_slots, setConn_view]
    constructor
    case owner => exact owner
    case denying =>
      intro waits
      cases position.symm.trans waits
    case flagged =>
      intro _
      rw [Flagged, if_pos (by exact waking.active)]
      exact waking.armed
  have sound : ((world.setConn slot conn).conn slot).Sound := by
    rw [setConn_conn]
    exact sound
  have alive : ((world.setConn slot conn).slots slot).closed = false := by
    rw [setConn_slots]
    exact waking.alive
  obtain ⟨after, closed, visited⟩ := doClose_visited (waking.around.setConn conn) alive sound
    closable error
  exact ⟨after, closed, visited.before (handles_setConn _ _ _)⟩

/-- So does a denial whose time has come. -/
theorem sendDenial_ok (waking : Waking slot world) (owner : (world.conn slot).tag = some slot)
    (sound : (world.conn slot).Sound) (denial prompt : Sending) :
    ∃ after, sendDenial world slot denial prompt = .ok after ∧ Visited slot world after := by
  have noted : Handles slot world (world.note slot .denied) :=
    Handles.of_tag (fun _ _ => rfl) rfl rfl rfl rfl rfl rfl rfl
  have waking : Waking slot (world.note slot .denied) := {
    around := waking.around.same (fun _ _ => rfl) rfl rfl
    number := waking.number
    alive := waking.alive
    active := waking.active
    armed := waking.armed }
  rw [sendDenial]
  cases denial with
  | some error =>
    have denied : (sendAll (world.conn slot).wantLogin (some error)).1.Sound :=
      sound.congr rfl rfl rfl rfl
    obtain ⟨after, closed, visited⟩ := waking.close
      (sendAll (world.conn slot).wantLogin (some error)).1 owner denied rfl true
    exact ⟨after, closed, visited.before noted⟩
  | none =>
    have again : (world.conn slot).wantLogin.countAttempt.Sound := sound.congr rfl rfl rfl rfl
    simp only [sendAll]
    split
    case isTrue =>
      obtain ⟨after, closed, visited⟩ := waking.close
        { (world.conn slot).wantLogin.countAttempt with closeReason := some "Attempts" } owner
        (sound.congr rfl rfl rfl rfl) rfl false
      exact ⟨after, closed, visited.before noted⟩
    case isFalse =>
      cases prompt with
      | none =>
        have visited := waking.login (world.conn slot).wantLogin.countAttempt owner again rfl
        exact ⟨_, rfl, visited.before noted⟩
      | some error =>
        have started := (edits_sendAll _ (some error)).sound (sound_startLine again .username)
        obtain ⟨after, closed, visited⟩ := waking.close
          (sendAll ((world.conn slot).wantLogin.countAttempt.startLine .username)
            (some error)).1 owner started rfl true
        exact ⟨after, closed, visited.before noted⟩

/-- The timeout is logged before the connection is closed. -/
def World.expired (world : World) (slot : Nat) : World where
  slots := update world.slots slot { world.slots slot with
    inactivityTimeoutActive := false, closed := true }
  sockets := world.sockets
  timers := world.timers
  now := world.now
  log := world.log ++ [⟨(world.slots slot).connection, .timeout, none, none, none⟩]
  accepted := world.accepted
  closings := world.closings
  reads := world.reads
  inputs := world.inputs

theorem expired_slots (world : World) (slot : Nat) : (world.expired slot).slots slot =
    { world.slots slot with inactivityTimeoutActive := false, closed := true } :=
  update_self _ _ _

theorem connInactive_eq (world : World) (slot : Nat) :
    connInactive world slot (world.slots slot).inactivityTimeout =
      connClosed (world.expired slot) (some slot) false (some "timeout") := by
  simp [connInactive, World.expired, World.setTag, logWrapper]

theorem closes_expired (world : World) (slot : Nat) (timers : Timers Callback) :
    Closes slot world ((world.expired slot).shut slot false (some "timeout") timers) where
  others _ different := by
    rw [World.shut, World.expired]
    simp [different]
  fd := by rw [shut_slots]
  sockets := by
    change releaseFd world.sockets ((world.expired slot).slots slot).fd = _
    rw [expired_slots]
  accepted := rfl
  closings := by
    change world.closings ++ [(((world.expired slot).slots slot).connection, slot)] = _
    rw [expired_slots]
  log := by
    refine ⟨[], ⟨(world.slots slot).connection, .timeout, none, none, none⟩,
      fun _ member => absurd member not_mem_nil, rfl, ?_, ?_⟩
    · exact mem_cons_of_mem _ (mem_cons_of_mem _ (mem_singleton_self _))
    · rw [World.shut, expired_slots, append_nil]
      exact append_nil _

/-- The connection has been inactive for too long, and nothing else is pending. -/
theorem connInactive_ok (around : Around slot world) (sound : (world.conn slot).Sound)
    (owner : (world.conn slot).tag = some slot) (idle : world.view slot = []) :
    ∃ after, connInactive world slot (world.slots slot).inactivityTimeout = .ok after ∧
      Visited slot world after := by
  have marked : Around slot (world.expired slot) :=
    around.same (fun _ different => update_of_ne different _ _) rfl rfl
  have flagged : Flagged slot ((world.expired slot).slots slot) ((world.expired slot).view slot) := by
    rw [Flagged, expired_slots, if_neg Bool.false_ne_true]
    exact idle
  obtain ⟨timers, closed, kept, left⟩ := connClosed_ok marked flagged false (some "timeout")
  refine ⟨_, (connInactive_eq world slot).trans closed, .closes (closes_expired world slot timers) ?_⟩
  apply settled_shut kept left
  · rw [World.conn, expired_slots]
    exact sound
  · intro other same
    rw [World.conn, expired_slots] at same
    exact (Option.some.inj (owner.symm.trans same)).symm

end Visits

section Accepting

variable {slot number : Nat} {world after : World}

/-- The slot is filled with the accepted socket. -/
def World.filled (world : World) (slot number : Nat) : World :=
  { world with
    sockets := acceptFd world.sockets number
    accepted := world.accepted ++ [(world.sockets.next, slot)] }.setTag slot
      { world.slots slot with
        fd := some number, connection := world.sockets.next, closed := false }

theorem emptySlot_some (empty : world.emptySlot = some slot) :
    slot < maxConn ∧ (world.slots slot).fd = none := by
  have found := List.find?_some empty
  have member := mem_of_find?_eq_some empty
  exact ⟨mem_range.mp member, by simpa using found⟩

/-- The connection is in the slot, with one entry in the log. -/
structure Accepts (slot number : Nat) (before after : World) : Prop where
  free : (before.slots slot).fd = none
  others : ∀ other ≠ slot, after.slots other = before.slots other
  fd : (after.slots slot).fd = some number
  connection : (after.slots slot).connection = before.sockets.next
  sockets : after.sockets = acceptFd before.sockets number
  accepted : after.accepted = before.accepted ++ [(before.sockets.next, slot)]
  closings : after.closings = before.closings
  log : after.log = before.log ++ [⟨before.sockets.next, .connect, none, none, none⟩]

theorem telnetConnSetFd_sent (world : World) (slot : Nat) :
    telnetConnSetFd world slot none =
      .ok (world.setConn slot ((world.conn slot).reset.assign slot)) := by
  simp only [telnetConnSetFd, sendAll, if_true, ok_bind, setConn_conn, setConn_setConn]

theorem filled_slots (world : World) (slot number : Nat) : (world.filled slot number).slots slot =
    { world.slots slot with
      fd := some number, connection := world.sockets.next, closed := false } :=
  update_self _ _ _

theorem filled_around (settled : world.Settled) (small : slot < maxConn) (number : Nat) :
    Around slot (world.filled slot number) :=
  (settled.around small).same (fun _ different => update_of_ne different _ _) rfl rfl

/-- The world in which the connection is logged. -/
def World.connected (world : World) (slot number : Nat) : World :=
  logWrapper ((world.filled slot number).setConn slot ((world.conn slot).reset.assign slot)) slot
    .connect none none none

theorem connected_slots (world : World) (slot number : Nat) :
    (world.connected slot number).slots slot = { world.slots slot with
      fd := some number, connection := world.sockets.next, closed := false,
      conn := (world.conn slot).reset.assign slot } := by
  rw [World.connected, logWrapper_slots, setConn_slots, filled_slots]

theorem fdAccept_sent (empty : world.emptySlot = some slot) (number : Nat) :
    fdAccept world number none = activity (world.connected slot number) slot := by
  have conn : (world.filled slot number).conn slot = world.conn slot := by
    rw [World.conn, filled_slots]
  rw [fdAccept, empty]
  change (do
    let world ← telnetConnSetFd (world.filled slot number) slot none
    activity (logWrapper world slot .connect none none none) slot) = _
  rw [telnetConnSetFd_sent, ok_bind, conn]
  rfl

theorem reset_sound {conn : ConnData} (sound : conn.Sound) (slot : Nat) :
    (conn.reset.assign slot).Sound :=
  (sound_startLine (sound.congr rfl rfl rfl rfl) .username).congr rfl rfl rfl rfl

theorem accepts_connected (free : (world.slots slot).fd = none) (number id : Nat)
    (timers : Timers Callback) :
    Accepts slot number world (((world.connected slot number).setTimers timers).setTag slot
      (((world.connected slot number).slots slot).touch id)) := by
  have handles := handles_touch (world.connected slot number) slot id timers
  have tag := connected_slots world slot number
  constructor
  case free => exact free
  case others =>
    intro other different
    rw [handles.others other different]
    simp [World.connected, World.filled, World.setConn, World.setTag, different]
  case fd => rw [handles.fd, tag]
  case connection => rw [handles.connection, tag]
  case sockets => rfl
  case accepted => rfl
  case closings => rfl
  case log =>
    change world.log ++ [⟨(((world.filled slot number).setConn slot _).slots slot).connection, _, _,
      _, _⟩] = _
    rw [setConn_slots, filled_slots]

/-- An accepted connection opens an empty slot. -/
theorem accept_sent (settled : world.Settled) (empty : world.emptySlot = some slot)
    (number : Nat) : ∃ after, fdAccept world number none = .ok after ∧
      Accepts slot number world after ∧ after.Settled := by
  obtain ⟨small, free⟩ := emptySlot_some empty
  rcases settled.slots slot with opened | shut
  · exact absurd free opened.number
  · have around : Around slot (world.connected slot number) :=
      ((filled_around settled small number).setConn _).logWrapper _ _ _ _
    have tag := connected_slots world slot number
    have idle : (world.connected slot number).view slot = [] := shut.idle
    obtain ⟨id, timers, acted, kept, view⟩ := activity_ok around (by rw [tag]) [] (Nat.zero_le 1) (by
      rw [tag, if_neg (by simp [shut.inactive])]
      exact idle)
    refine ⟨_, (fdAccept_sent empty number).trans acted, accepts_connected free number id timers, ?_⟩
    have reading := reading_touch kept view (fun _ member => absurd member not_mem_nil) (by
      rw [tag]
      constructor
      case small => exact small
      case number => exact some_ne_none number
      case alive => rfl
      case active => rfl
      case owner => rfl
      case sound => exact reset_sound shut.sound slot
      case ready => exact ⟨0, rfl⟩
      case watched =>
        rw [Watched, if_neg (fun waits => by cases waits)]
        exact ⟨_, view.eq_singleton⟩)
    exact reading.around.settled (.inl reading.opened)

/-- The first prompt could not be sent. -/
def World.unsent (world : World) (slot number : Nat) (error : String) : World :=
  (world.filled slot number).setConn slot (sendAll (world.conn slot).reset (some error)).1

theorem unsent_slots (world : World) (slot number : Nat) (error : String) :
    (world.unsent slot number error).slots slot = { world.slots slot with
      fd := some number, connection := world.sockets.next, closed := false,
      conn := (sendAll (world.conn slot).reset (some error)).1 } := by
  rw [World.unsent, setConn_slots, filled_slots]

/-- The connection is closed for the tag of an earlier connection in the slot. -/
theorem fdAccept_unsent (empty : world.emptySlot = some slot) (number : Nat) (error : String) :
    fdAccept world number (some error) = (do
      let closed ← connClosed (world.unsent slot number error) (world.conn slot).tag true
        (sendAll (world.conn slot).reset (some error)).1.closeReason
      activity (logWrapper (closed.setConn slot ((closed.conn slot).assign slot)) slot .connect none
        none none) slot) := by
  have conn : (world.filled slot number).conn slot = world.conn slot := by
    rw [World.conn, filled_slots]
  have unsent := unsent_slots world slot number error
  have close : doClose (world.unsent slot number error) slot true =
      connClosed (world.unsent slot number error) (world.conn slot).tag true
        (sendAll (world.conn slot).reset (some error)).1.closeReason := by
    rw [doClose, World.conn, unsent, if_neg (fun waits => by cases waits), ok_bind]
    change connClosed _ ((world.unsent slot number error).slots slot).conn.tag true
      ((world.unsent slot number error).slots slot).conn.closeReason = _
    rw [unsent]
    rfl
  rw [fdAccept, empty]
  change (do
    let world ← telnetConnSetFd (world.filled slot number) slot (some error)
    activity (logWrapper world slot .connect none none none) slot) = _
  rw [telnetConnSetFd, conn, ← close]
  simp only [sendAll, Bool.false_eq_true, if_false]
  change (doClose (world.unsent slot number error) slot true >>= fun closed => _) >>= _ = _
  cases doClose (world.unsent slot number error) slot true with
  | error fault => rfl
  | ok closed => rfl

/-- A first prompt that cannot be sent closes the connection, or it ends the program. -/
theorem accept_unsent (settled : world.Settled) (empty : world.emptySlot = some slot)
    (number : Nat) (error : String) :
    fdAccept world number (some error) = .error .nullTag ∨
      ∃ after, fdAccept world number (some error) = .ok after ∧ after.Settled := by
  obtain ⟨small, free⟩ := emptySlot_some empty
  rcases settled.slots slot with opened | shut
  · exact absurd free opened.number
  · rw [fdAccept_unsent empty]
    cases owner : (world.conn slot).tag with
    | none => exact .inl rfl
    | some other =>
      obtain rfl := shut.owner other owner
      have unsent := unsent_slots world other number error
      have around : Around other (world.unsent other number error) :=
        (filled_around settled small number).setConn _
      have flagged : Flagged other ((world.unsent other number error).slots other)
          ((world.unsent other number error).view other) := by
        rw [Flagged, unsent, if_neg (by simp [shut.inactive])]
        exact shut.idle
      obtain ⟨timers, closed, kept, idle⟩ := connClosed_ok around flagged true
        (sendAll (world.conn other).reset (some error)).1.closeReason
      right
      rw [closed, ok_bind, activity_closed (by rw [logWrapper_slots, setConn_slots, shut_slots])]
      refine ⟨_, rfl, ?_⟩
      have shutAround : Around other ((world.unsent other number error).shut other true
          (sendAll (world.conn other).reset (some error)).1.closeReason timers) :=
        kept.same (fun _ different => update_of_ne different _ _) rfl rfl
      apply ((shutAround.setConn _).logWrapper _ _ _ _).settled
      right
      rw [logWrapper_slots, setConn_slots, shut_slots, World.conn, shut_slots, unsent]
      constructor
      case number => rfl
      case inactive => rfl
      case owner => exact fun _ same => (Option.some.inj same).symm
      case sound =>
        have reset := sound_startLine (shut.sound.congr rfl rfl rfl rfl) .username
        exact reset.congr rfl rfl rfl rfl
      case idle => exact idle

end Accepting

section Runs

variable {slot : Nat} {world after : World} {timeout : Timeout Callback}
  {rest : List (Timeout Callback)}

/-- The first timeout leaves its slot. -/
theorem World.Settled.fired (settled : world.Settled) (small : timeout.callback.slot < maxConn)
    (first : world.timers.timeouts = timeout :: rest) :
    Around timeout.callback.slot (world.setTimers { world.timers with timeouts := rest }) ∧
      world.view timeout.callback.slot =
        timeout :: viewOf { world.timers with timeouts := rest } timeout.callback.slot ∧
      ∀ later ∈ rest, timeout.due ≤ later.due := by
  obtain ⟨timed, view, others, later⟩ := settled.timed.fired first
  refine ⟨(settled.around small).timers timed others ?_, view, later⟩
  intro other member
  apply settled.recent
  rw [first]
  exact mem_cons_of_mem _ member

/-- A timeout of a slot finds its connection open. -/
theorem World.Settled.opened (settled : world.Settled)
    (first : world.timers.timeouts = timeout :: rest) :
    Open timeout.callback.slot (world.slots timeout.callback.slot)
      (world.view timeout.callback.slot) := by
  rcases settled.slots timeout.callback.slot with opened | shut
  · exact opened
  · have view := (settled.timed.fired first).2.1
    rw [show viewOf world.timers timeout.callback.slot = [] from shut.idle] at view
    cases view

/-- The inactivity timeout never comes before a denial. -/
theorem fire_inactive (settled : world.Settled) (first : world.timers.timeouts = timeout :: rest)
    (called : timeout.callback = .inactive slot) :
    ∃ after, connInactive (world.setTimers { world.timers with timeouts := rest }) slot timeout.id =
        .ok after ∧ Visited slot world after := by
  have own : timeout.callback.slot = slot := by rw [called, Callback.slot]
  have opened := settled.opened first
  obtain ⟨around, view, later⟩ := settled.fired opened.small first
  rw [own] at opened around view
  have watched := opened.watched
  rw [Watched] at watched
  split at watched
  case isTrue =>
    obtain ⟨soon, late, sooner, held⟩ := watched
    rw [view] at held
    exfalso
    rcases mem_cons.mp (held.mem_iff.mp mem_cons_self) with same | other
    · rw [same] at called
      cases called
    · have same := mem_singleton.mp other
      have swapped := held.trans (List.Perm.swap _ _ [])
      rw [same] at swapped
      have denial := (mem_filter.mp
        (swapped.cons_inv.mem_iff.mpr (mem_singleton_self _))).1
      have order := later _ denial
      rw [same] at order
      exact absurd sooner (Nat.not_lt.mpr order)
  case isFalse =>
    obtain ⟨due, armed⟩ := watched
    rw [view, List.cons.injEq] at armed
    obtain ⟨rfl, idle⟩ := armed
    obtain ⟨after, fired, visited⟩ := connInactive_ok around opened.sound opened.owner idle
    exact ⟨after, fired, visited.before (handles_setTimers _)⟩

/-- The denial fires, and then only the inactivity timeout is pending. -/
theorem fire_denial (settled : world.Settled) (first : world.timers.timeouts = timeout :: rest)
    (called : timeout.callback = .denial slot) (denial prompt : Sending) :
    ∃ after, sendDenial (world.setTimers { world.timers with timeouts := rest }) slot denial prompt =
        .ok after ∧ Visited slot world after := by
  have own : timeout.callback.slot = slot := by rw [called, Callback.slot]
  have opened := settled.opened first
  obtain ⟨around, view, later⟩ := settled.fired opened.small first
  rw [own] at opened around view
  have watched := opened.watched
  rw [Watched] at watched
  split at watched
  case isTrue =>
    obtain ⟨soon, late, sooner, held⟩ := watched
    rw [view] at held
    rcases mem_cons.mp (held.mem_iff.mp mem_cons_self) with same | other
    · rw [same] at held
      have waking : Waking slot (world.setTimers { world.timers with timeouts := rest }) := {
        around
        number := opened.number
        alive := opened.alive
        active := opened.active
        armed := ⟨late, held.cons_inv.eq_singleton⟩ }
      obtain ⟨after, fired, visited⟩ := sendDenial_ok waking opened.owner opened.sound denial prompt
      exact ⟨after, fired, visited.before (handles_setTimers _)⟩
    · rw [mem_singleton.mp other] at called
      cases called
  case isFalse =>
    obtain ⟨due, armed⟩ := watched
    rw [view, List.cons.injEq] at armed
    rw [armed.1] at called
    cases called

/-- This is what a step may do when the first prompts are sent. -/
inductive Stepped (before after : World) : Prop where
  | idle (slots : after.slots = before.slots) (sockets : after.sockets = before.sockets)
      (accepted : after.accepted = before.accepted) (closings : after.closings = before.closings)
      (log : after.log = before.log)
  | visited {slot : Nat} (number : (before.slots slot).fd ≠ none)
      (visited : Visited slot before after)
  | accepts {slot number : Nat} (unused : number ∉ before.sockets.opened.map Prod.fst)
      (accepts : Accepts slot number before after)
  | extra (slots : after.slots = before.slots) (sockets : after.sockets = throwOut before.sockets)
      (accepted : after.accepted = before.accepted) (closings : after.closings = before.closings)
      (log : after.log = before.log ++
        [⟨before.sockets.next, .connectExtra, none, none, none⟩])

theorem stepped_refl (world : World) : Stepped world world := .idle rfl rfl rfl rfl rfl

/-- The first prompt, if there is one, is sent. -/
def Event.prompted : Event → Prop
  | .accept _ sending => sending = none
  | _ => True

section

variable (settled : world.Settled)
include settled

theorem step_fire (denial prompt : Sending) :
    ∃ after, step world (.fire denial prompt) = .ok after ∧ Stepped world after ∧
      after.Settled := by
  rw [step]
  cases first : world.timers.timeouts with
  | nil => exact ⟨world, rfl, stepped_refl world, settled⟩
  | cons timeout rest =>
    simp only
    split
    case isFalse => exact ⟨world, rfl, stepped_refl world, settled⟩
    case isTrue =>
      have opened := settled.opened first
      cases called : timeout.callback with
      | inactive slot =>
        rw [called, Callback.slot] at opened
        obtain ⟨after, fired, visited⟩ := fire_inactive settled first called
        exact ⟨after, fired, .visited opened.number visited, visited.settled⟩
      | denial slot =>
        rw [called, Callback.slot] at opened
        obtain ⟨after, fired, visited⟩ := fire_denial settled first called denial prompt
        exact ⟨after, fired, .visited opened.number visited, visited.settled⟩

theorem step_ready (slot : Nat) (receipt : Receipt) :
    ∃ after, step world (.ready slot receipt) = .ok after ∧ Stepped world after ∧
      after.Settled := by
  rw [step]
  cases number : (world.slots slot).fd with
  | none => exact ⟨world, rfl, stepped_refl world, settled⟩
  | some fd =>
    have filled : (world.slots slot).fd ≠ none := by
      rw [number]
      exact some_ne_none fd
    simp only
    split
    case isTrue =>
      obtain ⟨after, read, visited⟩ := fdReady_ok settled filled receipt
      exact ⟨after, read, .visited filled visited, visited.settled⟩
    case isFalse => exact ⟨world, rfl, stepped_refl world, settled⟩

theorem step_wait (milliseconds : Nat) :
    ∃ after, step world (.wait milliseconds) = .ok after ∧ Stepped world after ∧
      after.Settled := by
  refine ⟨_, rfl, .idle rfl rfl rfl rfl rfl, settled.timed, ?_, settled.slots⟩
  intro timeout member
  have recent := settled.recent timeout member
  change timeout.due ≤ world.now + milliseconds + connTimeout
  omega

/-- Every prompted event leaves the world settled. -/
theorem step_ok (event : Event) (prompted : event.prompted) :
    ∃ after, step world event = .ok after ∧ Stepped world after ∧ after.Settled := by
  cases event with
  | fire denial prompt => exact step_fire settled denial prompt
  | ready slot receipt => exact step_ready settled slot receipt
  | wait milliseconds => exact step_wait settled milliseconds
  | accept number sending =>
    rw [Event.prompted] at prompted
    subst prompted
    rw [step]
    split
    case isTrue => exact ⟨world, rfl, stepped_refl world, settled⟩
    case isFalse unused =>
      cases empty : world.emptySlot with
      | some slot =>
        obtain ⟨after, accepted, accepts, next⟩ := accept_sent settled empty number
        exact ⟨after, accepted, .accepts unused accepts, next⟩
      | none =>
        rw [fdAccept, empty]
        exact ⟨_, rfl, .extra rfl rfl rfl rfl rfl, settled.timed, settled.recent,
          settled.slots⟩

/-- Only a first prompt that was not sent can end the program. -/
theorem step_settled (event : Event) :
    Concludes World.Settled (fun fault => fault = .nullTag) (step world event) := by
  by_cases prompted : event.prompted
  · obtain ⟨after, stepped, -, next⟩ := step_ok settled event prompted
    rw [stepped]
    exact next
  · cases event with
    | fire denial prompt => exact absurd trivial prompted
    | ready slot receipt => exact absurd trivial prompted
    | wait milliseconds => exact absurd trivial prompted
    | accept number sending =>
      cases sending with
      | none => exact absurd rfl prompted
      | some error =>
        rw [step]
        split
        case isTrue => exact settled
        case isFalse unused =>
          cases empty : world.emptySlot with
          | some slot =>
            rcases accept_unsent settled empty number error with fault | ⟨after, ok, next⟩
            · rw [fault]
              rfl
            · rw [ok]
              exact next
          | none =>
            rw [fdAccept, empty]
            exact ⟨settled.timed, settled.recent, settled.slots⟩

end

theorem start_settled : World.start.Settled where
  timed := ⟨nodup_nil, List.Pairwise.nil⟩
  recent _ member := absurd member not_mem_nil
  slots _ := .inr ⟨rfl, rfl, fun _ same => (by cases same), connAlloc_sound, rfl⟩

/-- A run stays settled, unless it stops at the null tag of a lost prompt. -/
theorem run_settled (settled : world.Settled) (events : List Event) :
    Concludes World.Settled (fun fault => fault = .nullTag) (run world events) := by
  induction events generalizing world with
  | nil => exact settled
  | cons event events hypothesis =>
    rw [run]
    exact (step_settled settled event).bind fun next kept => hypothesis kept

/-- The pointer of the line is inside its buffer with space for the zero, and a denial is pending
exactly for an open connection that waits for it. -/
structure Consistent (world : World) (slot : Nat) : Prop where
  inside : ∀ field offset, (world.conn slot).line = some (field, offset) →
    (world.conn slot).lineBase = some field ∧ offset < ((world.conn slot).buffer field).length
  missing : (world.conn slot).line = none →
    (world.slots slot).fd = none ∨ (world.conn slot).position = .waitDenial
  denial : world.timers.pending (.denial slot) =
    if (world.slots slot).fd ≠ none ∧ (world.conn slot).position = .waitDenial then
      [(world.conn slot).denialTimeout]
    else []

theorem pending_view (timers : Timers Callback) (callback : Callback) :
    timers.pending callback = ((viewOf timers callback.slot).filter fun timeout =>
      timeout.callback = callback).map (·.id) := by
  rw [Timers.pending, viewOf, List.filter_filter]
  congr 2
  funext timeout
  by_cases same : timeout.callback = callback
  · simp [same]
  · simp [same]

theorem pending_denial (settled : Settled slot (world.slots slot) (world.view slot)) :
    world.timers.pending (.denial slot) =
      if (world.slots slot).fd ≠ none ∧ (world.conn slot).position = .waitDenial then
        [(world.conn slot).denialTimeout]
      else [] := by
  rw [pending_view, Callback.slot]
  change ((world.view slot).filter _).map _ = _
  rcases settled with opened | shut
  · have watched := opened.watched
    rw [Watched] at watched
    split at watched
    case isTrue waits =>
      obtain ⟨soon, late, -, held⟩ := watched
      rw [if_pos ⟨opened.number, waits⟩]
      have filtered := (held.filter fun timeout => timeout.callback = .denial slot).map (·.id)
      exact (by simpa using filtered)
    case isFalse talks =>
      obtain ⟨due, armed⟩ := watched
      rw [if_neg (fun both => talks both.2), armed]
      simp
  · rw [if_neg (fun both => both.1 shut.number), shut.idle]
    rfl

theorem World.Settled.consistent (settled : world.Settled) (slot : Nat) :
    Consistent world slot where
  inside field offset line := by
    have sound : (world.conn slot).Sound := by
      rcases settled.slots slot with opened | shut
      · exact opened.sound
      · exact shut.sound
    refine ⟨by rw [sound.base, line, map_some], ?_⟩
    have small := sound.line field offset line
    rw [sound.length]
    omega
  missing line := by
    rcases settled.slots slot with opened | shut
    · right
      have ready := opened.ready
      rw [ConnData.Ready] at ready
      cases position : (world.conn slot).position with
      | waitDenial => rfl
      | wantLogin =>
        rw [position] at ready
        obtain ⟨offset, same⟩ := ready
        cases line.symm.trans same
      | wantPassword =>
        rw [position] at ready
        obtain ⟨offset, same⟩ := ready
        cases line.symm.trans same
    · exact .inl shut.number
  denial := pending_denial (settled.slots slot)

/-- No sanity check of the dialogue fails, and no write is outside of a buffer. -/
theorem dialogue_consistent (events : List Event) :
    Concludes (fun world => ∀ slot, Consistent world slot) (fun fault => fault = .nullTag)
      (run World.start events) :=
  (run_settled start_settled events).weaken (fun _ settled slot => settled.consistent slot)
    fun _ same => same

/-- The other side closes the connection while a denial is pending. -/
def closedWhileDenied : List Event :=
  [.accept 4 none,
    .ready 0 (.data [(carriageReturn, none), (lineFeed, none), (carriageReturn, none),
      (lineFeed, none)]),
    .ready 0 .closed]

theorem denial_forgotten : (run World.start closedWhileDenied).toOption.map (fun world =>
    ((world.conn 0).position, world.timers.pending (.denial 0))) = some (.waitDenial, []) := by
  decide +kernel

end Runs

end Ucollect.Fake.Telnet
