import Ucollect.Proof.Uplink.Closing
import Ucollect.Proof.Uplink.Timing

namespace Ucollect.Core
open Library

variable {Z : Type}

/-- These are the parts of the system that take part in the receiving of messages. -/
structure Reception (Z : Type) where
  receiver : Receiver Z
  isOpen : Bool
  socket : Socket
  phase : ReadPhase
  turns : List Turn
  received : Bytes

/-- The part of a connection that reading depends on. -/
def Connection.reception (connection : Connection Z) : Reception Z where
  receiver := connection.receiver
  isOpen := connection.isOpen
  socket := connection.socket
  phase := connection.phase
  turns := connection.history.turns
  received := connection.history.received

def System.reception (system : System Z) : Reception Z := system.connection.reception

/-- The invariant is about the receiving and survives the end of the connection. -/
structure Untimed (invariant : System Z → Prop) : Prop where
  keep : ∀ before after : System Z, after.reception = before.reception →
    invariant before → invariant after
  hangUp : ∀ (system : System Z) (timers : Timers Callback), invariant system →
    invariant (system.hungUp timers)

namespace Untimed

variable {invariant : System Z → Prop} (untimed : Untimed invariant)
include untimed

theorem durable : Durable invariant invariant fun _ => True where
  frame before after same _ holds :=
    untimed.keep before after (congrArg Connection.reception same) holds
  add system _ _ _ holds _ := untimed.keep system _ rfl holds
  cancel system _ _ holds _ _ _ := untimed.keep system _ rfl holds
  jumps _ holds := holds
  deaths _ _ := trivial
  schedule system _ _ _ holds _ _ := untimed.keep system _ rfl holds
  hangUp system timers holds _ := untimed.hangUp system timers holds
  unschedule system _ holds _ _ := untimed.keep system _ rfl holds

theorem modifyUplink {update : Uplink Z → Uplink Z}
    (same : ∀ system : System Z,
      { system with uplink := update system.uplink }.reception = system.reception) :
    Keeps invariant invariant (fun _ => True) (modifyUplink update) :=
  meets_modify fun system holds => untimed.keep system _ (same system) holds

theorem schedulePing : Keeps invariant invariant (fun _ => True) (schedulePing (Z := Z)) := by
  apply meets_pointwise
  intro system holds
  apply (schedulePing_meets system).weaken (fun _ stands => stands)
  · rintro _ _ ⟨id, timers, -, rfl⟩
    exact untimed.keep system _ rfl holds
  · rintro _ _ rfl
    trivial

theorem sendPing : Keeps invariant invariant (fun _ => True) (sendPing (Z := Z)) := by
  have reconnects := untimed.durable.reconnectFromEvent
  apply Keeps.bind (untimed.modifyUplink fun _ => rfl)
  intro _
  apply Keeps.get
  intro system
  split
  · exact .bind reconnects fun _ => untimed.modifyUplink fun _ => rfl
  · apply Keeps.bind (untimed.modifyUplink fun _ => rfl)
    intro _
    exact .bind (untimed.durable.sendOwnMessage reconnects _ _) fun _ => untimed.schedulePing

variable {inflater : Inflater Z} (opens : ∀ system : System Z, invariant system →
  system.uplink.isOpen = false → invariant (system.connected inflater))
include opens

theorem reconnectNow : Keeps invariant invariant (fun _ => True) (reconnectNow inflater) := by
  apply Keeps.bind (untimed.modifyUplink fun _ => rfl)
  intro _
  apply untimed.durable.toStable.uplinkConnect inflater (fun _ _ => .inr trivial)
    (untimed.durable.connectFail trivial)
  apply meets_pointwise
  rintro system ⟨holds, closed⟩
  apply (openConnection_meets inflater system).weaken (fun _ stands => stands)
  · rintro _ _ ⟨id, timers, -, rfl⟩
    exact untimed.keep (system.connected inflater) _ rfl (opens system holds closed)
  · rintro _ _ rfl
    trivial

end Untimed

/-- The invariant holds between two calls of `uplink_read`. -/
def Idle (invariant : System Z → Prop) (system : System Z) : Prop :=
  invariant system ∧ system.phase = .idle

namespace Untimed

variable {invariant : System Z → Prop} (untimed : Untimed invariant) {inflater : Inflater Z}
include untimed

theorem idle : Untimed (Idle invariant) where
  keep before after same holds :=
    ⟨untimed.keep before after same holds.1, (congrArg Reception.phase same).trans holds.2⟩
  hangUp system timers holds := ⟨untimed.hangUp system timers holds.1, holds.2⟩

/-- A plugin that fails between two calls of `uplink_read` interrupts nothing. -/
theorem protectIdle {program : LoopM Z Unit} (recovery : Recovery) {start : System Z}
    (holds : Idle invariant start)
    (keeps : Keeps (Idle invariant) (Idle invariant) (fun _ => True) program) :
    Outcome invariant (fun _ => True) (finishEvent (loopProtect recovery program) start) := by
  have durable := untimed.idle.durable
  have recovers : Meets (Idle invariant) (recover recovery) (fun _ => Idle invariant)
      (Leaves (Idle invariant) fun _ => True) := by
    apply durable.toStable.recover durable.reconnectFromEvent recovery
    intro system holds
    rw [System.recovered_idle holds.2]
    exact untimed.idle.keep system _ rfl holds
  exact (outcome_protected (keeps.start holds) recovers trivial).weaken fun _ holds => holds.1

/-- The reconnect timeout fires between two calls of `uplink_read`. -/
theorem connectOutcome {recovery : Recovery} {start : System Z} (holds : Idle invariant start)
    (opens : ∀ system : System Z, Idle invariant system → system.uplink.isOpen = false →
      Idle invariant (system.connected inflater)) :
    Outcome invariant (fun _ => True)
      (finishEvent (loopProtect recovery (Core.reconnectNow inflater)) start) :=
  untimed.protectIdle recovery holds (untimed.idle.reconnectNow opens)

theorem idleCases {system : System Z} (event : Event)
    (holds : system.phase = .idle → invariant system)
    (connects : ∀ owner world recovery first rest, event = .timeout owner world recovery →
      system.phase = .idle → system.timers.timeouts = first :: rest →
      first.callback = .reconnectNow →
      Outcome invariant (fun _ => True) (finishEvent
        (loopProtect recovery (Core.reconnectNow inflater))
        { system with timers := { system.timers with timeouts := rest }, world := world })) :
    IdleCases inflater invariant (fun _ => True) system event := by
  have durable := untimed.idle.durable
  have reconnects := durable.reconnectFromEvent
  have start : ∀ timers world, system.phase = .idle →
      Idle invariant { system with timers := timers, world := world } :=
    fun _ _ idle => untimed.idle.keep system _ rfl ⟨holds idle, idle⟩
  constructor
  case loopGetNow => exact fun _ _ idle => untimed.keep system _ rfl (holds idle)
  case timeout =>
    intro owner world recovery first rest same idle pending
    cases callback : first.callback with
    | sendPing => exact untimed.protectIdle recovery (start _ world idle) untimed.idle.sendPing
    | reconnectNow => exact connects owner world recovery first rest same idle pending callback
    | other =>
      exact untimed.protectIdle recovery (start _ world idle)
        (durable.runCallback reconnects owner)
  case plugin =>
    intro owner world recovery _ idle
    exact untimed.protectIdle recovery (start _ world idle) (durable.runCallback reconnects owner)
  case strayRead =>
    intro world recovery _ idle
    exact untimed.protectIdle recovery (start _ world idle) (durable.errReadStray trivial)
  case reconfigure =>
    intro world commit _ idle
    have configures := durable.configureTarget commit.target
      fun system _ holds => untimed.idle.keep system _ rfl holds
    have commits := durable.loopConfigCommit reconnects commit configures
      (.inr fun _ holds => holds)
    have ended := outcome_finishEvent (commits.start (start system.timers world idle)) trivial
    exact ended.weaken fun _ holds => holds.1

end Untimed

/-- The connection is open while `uplink_read` runs. -/
def System.Active (system : System Z) : Prop :=
  system.phase = .idle ∨ system.uplink.isOpen = true

theorem idle_untimed : Untimed fun system : System Z => system.phase = .idle where
  keep _ _ same idle := (congrArg Reception.phase same).trans idle
  hangUp _ _ idle := idle

/-- A recovery ends the call of `uplink_read`. -/
theorem recover_idle (recovery : Recovery) :
    Meets (fun _ : System Z => True) (recover recovery) (fun _ system => system.phase = .idle)
      (Leaves (fun system => system.phase = .idle) fun _ => True) :=
  idle_untimed.durable.toStable.recover idle_untimed.durable.reconnectFromEvent recovery
    fun _ _ => rfl

theorem opened_timely :
    Timely (fun system : System Z => system.uplink.isOpen = true) (fun _ => True) fun _ => True where
  frame _ _ same _ opened := (congrArg Connection.isOpen same).trans opened
  add _ _ _ _ opened _ := opened
  cancel _ _ _ opened _ _ _ := opened
  jumps _ _ := trivial
  deaths _ _ := trivial
  retime _ _ same _ opened := (congrArg Timing.isOpen same).trans opened

theorem anything_timely :
    Timely (fun _ : System Z => True) (fun _ => True) fun _ => True where
  frame _ _ _ _ _ := trivial
  add _ _ _ _ _ _ := trivial
  cancel _ _ _ _ _ _ _ := trivial
  jumps _ _ := trivial
  deaths _ _ := trivial
  retime _ _ _ _ _ := trivial

/-- Receiving stops only where the connection is open. -/
theorem receive_active (inflater : Inflater Z) (limit : Nat) :
    Meets (fun system => system.uplink.isOpen = true) (uplinkReceive inflater limit)
      (fun _ => System.Active) (Leaves (fun _ => True) fun _ => True) :=
  opened_timely.uplinkReceive (fun _ _ => trivial) (meets_anything _) (meets_anything _) inflater
    limit (fun _ _ => .inl rfl) (fun _ _ opened => .inr opened)

/-- So does handling. -/
theorem handle_active (limit : Nat) (system : System Z) :
    Meets (fun current => current = system) (uplinkHandle limit) (fun _ => System.Active)
      (Leaves (fun _ => True) fun _ => True) := by
  apply anything_timely.uplinkHandle limit trivial
    ⟨fun _ => meets_anything _, fun _ => meets_anything _, fun _ => meets_anything _⟩
  intro system _
  cases opened : system.uplink.isOpen with
  | true => exact .inr opened
  | false => exact .inl rfl

theorem IdleCases.weaken {inflater : Inflater Z} {good weaker : System Z → Prop}
    {accepted : Death → Prop} {system : System Z} {event : Event}
    (cases : IdleCases inflater good accepted system event)
    (finish : ∀ system, good system → weaker system) :
    IdleCases inflater weaker accepted system event where
  loopGetNow now same idle := finish _ (cases.loopGetNow now same idle)
  timeout owner world recovery first rest same idle pending :=
    (cases.timeout owner world recovery first rest same idle pending).weaken finish
  plugin owner world recovery same idle :=
    (cases.plugin owner world recovery same idle).weaken finish
  strayRead world recovery same idle := (cases.strayRead world recovery same idle).weaken finish
  reconfigure world commit same idle := (cases.reconfigure world commit same idle).weaken finish

/-- Between two events the connection is idle or open. -/
theorem step_active (inflater : Inflater Z) (system : System Z) (event : Event)
    (active : system.Active) :
    Outcome System.Active (fun _ => True) (system.step inflater event) := by
  have cases : IdleCases inflater System.Active (fun _ => True) system event :=
    (idle_untimed.idleCases event id fun _ _ _ _ _ _ idle _ _ =>
      idle_untimed.connectOutcome ⟨idle, idle⟩ fun _ idle _ => idle).weaken fun _ idle => .inl idle
  have recovers : ∀ recovery, Meets (fun _ : System Z => True) (recover recovery)
      (fun _ => System.Active) (Leaves (fun system => system.phase = .idle) fun _ => True) :=
    fun recovery => (recover_idle recovery).weaken (fun _ holds => holds)
      (fun _ _ idle => .inl idle) (fun _ _ left => left)
  apply StepCases.outcome
  refine ⟨cases, ?arrive, ?remoteClose, ?uplinkRead, ?receive, ?handle⟩
  case arrive => exact fun _ _ opened => .inr opened
  case remoteClose => exact fun _ opened => .inr opened
  case uplinkRead =>
    intro _ _
    cases opened : system.uplink.isOpen with
    | true => exact .inr opened
    | false => exact .inl rfl
  case receive =>
    intro world recovery limit _ phase
    have opened : system.uplink.isOpen = true := active.resolve_left (by simp [phase])
    exact outcome_protected ((receive_active inflater limit).start opened) (recovers recovery)
      trivial
  case handle =>
    intro world recovery limit _ _
    exact outcome_protected (handle_active limit _) (recovers recovery) trivial

end Ucollect.Core
