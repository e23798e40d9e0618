import Ucollect.Proof.Uplink.Reconnect

namespace Ucollect.Core
open Library List Option

variable {Z : Type}

section Events

variable {system : System Z} {timeout : Timeout Callback} {rest : List (Timeout Callback)}
  {world : World}

/-- Only a waiting connection has a reconnect that can fire. -/
theorem System.Settled.firedReconnect (settled : system.Settled)
    (first : system.timers.timeouts = timeout :: rest)
    (reconnect : timeout.callback = .reconnectNow) :
    ({ system with
      timers := { system.timers with timeouts := rest }
      world := world
      uplink := { system.uplink with reconnectScheduled := false } } : System Z).Loose := by
  have waiting := settled.waiting
  rw [Timers.pending_fired first, if_pos reconnect] at waiting
  have scheduled : system.uplink.reconnectScheduled = true := by
    by_contra free
    simp [free] at waiting
  have closed : system.uplink.isOpen = false := by
    have balance := settled.balance
    simpa [scheduled] using balance
  exact ⟨(settled.toTimed.firedReconnect first reconnect).retime rfl, closed, rfl⟩

theorem schedulePing_settled {condition : World → Prop} :
    Keeps (System.SettledIn condition) (System.SettledIn condition) Death.Ordinary
      (schedulePing (Z := Z)) := by
  apply meets_pointwise
  rintro system ⟨settled, holds⟩
  apply (schedulePing_meets system).weaken (fun _ stands => stands)
  · rintro _ _ ⟨id, timers, added, rfl⟩
    exact ⟨⟨settled.toTimed.armed added, settled.balance⟩, holds⟩
  · rintro _ _ rfl
    trivial

/-- The callback of the ping keeps the uplink settled in a calm world. -/
theorem sendPing_settled (settled : system.Settled) (calm : world.Calm)
    (first : system.timers.timeouts = timeout :: rest) (ping : timeout.callback = .sendPing) :
    Meets (fun current => current =
        { system with timers := { system.timers with timeouts := rest }, world := world })
      sendPing (fun _ => System.SettledIn World.Calm)
      (Leaves (System.SettledIn World.Calm) Death.Ordinary) := by
  have timely := settled_timely (Z := Z) calm_lasting
  have quiets : Meets (fun current => current =
        { system with timers := { system.timers with timeouts := rest }, world := world })
      (modifyUplink (Z := Z) fun uplink => { uplink with pingScheduled := false })
      (fun _ => System.SettledIn World.Calm)
      (Leaves (System.SettledIn World.Calm) Death.Ordinary) := by
    rintro _ rfl
    exact ⟨⟨(settled.toTimed.firedPing first ping).retime rfl, settled.balance⟩, calm⟩
  apply Meets.bind quiets
  intro _
  apply Keeps.get
  intro system
  split
  · refine Keeps.bind reconnectFromEvent_settled fun _ => ?_
    exact timely.retimed (fun _ => rfl) (fun _ => rfl)
  · refine Meets.bind (timely.retimed (fun _ => rfl) (fun _ => rfl)) fun _ => ?_
    exact Keeps.bind (timely.sendOwnMessage reconnectFromEvent_settled _ _) fun _ =>
      schedulePing_settled

/-- A calm world is one of the worlds. -/
theorem settled_of_settledIn {program : LoopM Z Unit} {condition : World → Prop}
    {before : System Z → Prop}
    (meets : Meets before program (fun _ => System.SettledIn condition)
      (Leaves (System.SettledIn condition) Death.Ordinary)) :
    Meets before program (fun _ => System.Settled) (Leaves System.Settled Death.Ordinary) := by
  apply meets.weaken (fun _ holds => holds) (fun _ _ holds => holds.1)
  intro exit system left
  cases exit with
  | jump => exact left.1
  | died death => exact left

theorem fireTimeout_settled (inflater : Inflater Z) (owner : Nat) (settled : system.Settled)
    (calm : world.Calm) (first : system.timers.timeouts = timeout :: rest) :
    Meets (fun current => current =
        { system with timers := { system.timers with timeouts := rest }, world := world })
      (fireTimeout inflater owner timeout.callback) (fun _ => System.Settled)
      (Leaves System.Settled Death.Ordinary) := by
  cases callback : timeout.callback with
  | sendPing => exact settled_of_settledIn (sendPing_settled settled calm first callback)
  | reconnectNow =>
    rintro _ rfl
    simpa only [fireTimeout, reconnectNow, eval_bind, eval_modifyUplink] using
      uplinkConnect_loose inflater _ (settled.firedReconnect first callback)
  | other =>
    have kept : System.SettledIn World.Calm { system with
        timers := { system.timers with timeouts := rest }, world := world } :=
      ⟨⟨(settled.toTimed.firedOther first callback).retime rfl, settled.balance⟩, calm⟩
    exact settled_of_settledIn
      (((settled_timely calm_lasting).runCallback reconnectFromEvent_settled owner).start kept)

theorem Uplink.sameTarget_some {uplink : Uplink Z} {target : Target}
    (same : uplink.sameTarget target = some true) : uplink.remoteName ≠ none := by
  intro unnamed
  simp [Uplink.sameTarget, unnamed, sameString] at same

/-- The uplink reconnects to a target that is not the old one. -/
theorem configureTarget_settled (target : Option Target) :
    Keeps (System.SettledIn World.Calm) (System.SettledIn World.Calm) Death.Ordinary
      (configureTarget (Z := Z) target) := by
  cases target with
  | none => exact .pure ()
  | some target =>
    apply meets_get
    rintro system ⟨settled, calm⟩
    have timed : (system.configured target).Timed :=
      ⟨settled.distinct, settled.waiting, settled.ping⟩
    split
    · exact fun _ _ => trivial
    case h_2 same compared =>
      cases same with
      | false =>
        have configures : Meets (fun current => current = system)
            (modify fun system => system.configured target)
            (fun _ next => next.Timed ∧ next.world.Calm)
            (Leaves (System.SettledIn World.Calm) Death.Ordinary) := by
          rintro _ rfl
          exact ⟨timed, calm⟩
        refine Meets.bind configures fun _ => ?_
        apply (reconnectFromEvent_severs.waiting reconnectFromEvent_leaving).weaken
          (fun _ holds => holds)
        · exact fun _ _ holds => ⟨holds.1.settled, holds.2⟩
        · intro exit system left
          cases exit with
          | jump => exact ⟨left.1.settled, left.2⟩
          | died death => exact left
      | true =>
        have named := Uplink.sameTarget_some compared
        rintro _ rfl
        refine ⟨⟨timed, .inl ?_⟩, calm⟩
        exact settled.balance.resolve_right fun unnamed => named unnamed.1

theorem recover_settled (recovery : Recovery) :
    Meets System.Settled (recover recovery) (fun _ => System.Settled (Z := Z))
      (Leaves (fun _ => True) Death.Ordinary) := by
  have stable : Stable (Z := Z) (System.SettledIn World.Any) (fun _ => True) Death.Ordinary :=
    { (settled_timely any_lasting).toSteady with jumps := fun _ _ => trivial }
  have reconnects : Keeps (System.SettledIn World.Any) (fun _ => True) Death.Ordinary
      (reconnectFromEvent (Z := Z)) :=
    reconnectFromEvent_waiting.weaken (fun _ holds => holds.1.toTimed)
      (fun _ _ waiting => ⟨waiting.settled, trivial⟩) (fun _ _ left => left)
  exact (stable.recover reconnects recovery fun _ settled => ⟨settled.retime rfl, trivial⟩).weaken
    (fun _ settled => settled) (fun _ _ holds => holds.1) (fun _ _ left => left)

theorem protected_settled {program : LoopM Z Unit} {start : System Z} (recovery : Recovery)
    (body : Meets (fun system => system = start) program (fun _ => System.Settled)
      (Leaves System.Settled Death.Ordinary)) :
    Outcome System.Settled Death.Ordinary (finishEvent (loopProtect recovery program) start) :=
  outcome_protected body (recover_settled recovery) trivial

end Events

/-- No disconnected callback of the event leaves the uplink between two states. -/
def System.ReconnectFits (system : System Z) : Event → Prop
  | .arrive _ | .remoteClose | .loopGetNow _ | .uplinkRead => True
  | .receive world _ | .timeout _ world _ | .plugin _ world _ | .reconfigure world _ => world.Calm
  | .handle world _ => if system.uplink.reaction = .rejection then world.Mild else world.Calm
  | .strayRead world _ => world.Mild

instance (system : System Z) (event : Event) : Decidable (system.ReconnectFits event) :=
  match event with
  | .arrive _ | .remoteClose | .loopGetNow _ | .uplinkRead => .isTrue trivial
  | .receive world _ | .timeout _ world _ | .plugin _ world _ | .reconfigure world _ =>
    inferInstanceAs (Decidable world.Calm)
  | .handle _ _ => inferInstanceAs (Decidable (ite _ _ _))
  | .strayRead world _ => inferInstanceAs (Decidable world.Mild)

section Steps

theorem receive_settled (inflater : Inflater Z) (limit : Nat) :
    Meets (fun system => System.SettledIn World.Calm system ∧ system.uplink.isOpen = true)
      (uplinkReceive inflater limit) (fun _ => System.Settled)
      (Leaves System.Settled Death.Ordinary) := by
  have settled := settled_timely (Z := Z) calm_lasting
  have timely : Timely (Z := Z)
      (fun system => System.SettledIn World.Calm system ∧ system.uplink.isOpen = true)
      (fun _ => True) Death.Ordinary :=
    { frame := fun before after same rest holds =>
        ⟨settled.frame before after same rest holds.1,
          (congrArg Connection.isOpen same).trans holds.2⟩
      add := fun system delay id timers holds added =>
        ⟨settled.add system delay id timers holds.1 added, holds.2⟩
      cancel := fun system timeout timers holds member other cancelled =>
        ⟨settled.cancel system timeout timers holds.1 member other cancelled, holds.2⟩
      jumps := fun _ _ => trivial
      deaths := fun _ ordinary => ordinary
      retime := fun before after same world holds =>
        ⟨settled.retime before after same world holds.1,
          (congrArg Timing.isOpen same).trans holds.2⟩ }
  have receives : Meets
      (fun system => System.SettledIn World.Calm system ∧ system.uplink.isOpen = true)
      (uplinkReceive inflater limit) (fun _ => System.SettledIn World.Calm)
      (Leaves (System.SettledIn World.Calm) Death.Ordinary) := by
    apply timely.uplinkReceive (fun _ holds => holds.1) _ closedByRemote_settled inflater limit
    · exact fun _ holds => ⟨holds.1.retime rfl, holds.2⟩
    · exact fun _ _ holds => ⟨holds.1.1.retime rfl, holds.1.2⟩
    · exact reconnectFromEvent_settled.weaken (fun _ holds => holds.1) (fun _ _ holds => holds)
        (fun _ _ left => left)
  exact settled_of_settledIn receives

theorem handle_settled (limit : Nat) {system : System Z} {world : World}
    (settled : system.Settled)
    (fits : if system.uplink.reaction = .rejection then world.Mild else world.Calm) :
    Meets (fun current => current = system.withWorld world) (uplinkHandle limit)
      (fun _ => System.Settled) (Leaves System.Settled Death.Ordinary) := by
  have start : (system.withWorld world).Settled := settled.retime rfl
  by_cases rejected : system.uplink.reaction = .rejection
  · rw [if_pos rejected] at fits
    have reacts : Reconnects (Z := Z) (system.withWorld world).uplink.reaction
        (System.SettledIn World.Mild) (System.SettledIn World.Mild) (System.SettledIn World.Mild)
        (System.SettledIn World.Mild) Death.Ordinary := by
      refine ⟨fun clears => ?_, fun answers => ?_, fun _ => handleRejection_settled⟩
      · exact absurd (rejected ▸ clears : Reaction.rejection.Clears) (by decide)
      · exact absurd (rejected ▸ answers : Reaction.rejection = .pong ∨ Reaction.rejection = _)
          (by decide)
    exact settled_of_settledIn ((settled_timely mild_lasting).uplinkHandle limit ⟨start, fits⟩
      reacts fun _ holds => ⟨holds.1.retime rfl, holds.2⟩)
  · rw [if_neg rejected] at fits
    have reacts : Reconnects (Z := Z) (system.withWorld world).uplink.reaction
        (System.SettledIn World.Calm) (System.SettledIn World.Calm) (System.SettledIn World.Calm)
        (System.SettledIn World.Calm) Death.Ordinary :=
      ⟨fun _ => reconnectFromEvent_settled, fun _ => reconnectFromEvent_settled,
        fun same => absurd same rejected⟩
    exact settled_of_settledIn ((settled_timely calm_lasting).uplinkHandle limit ⟨start, fits⟩
      reacts fun _ holds => ⟨holds.1.retime rfl, holds.2⟩)

theorem step_settled (inflater : Inflater Z) (system : System Z) (event : Event)
    (settled : system.Settled) (active : system.Active) (fits : system.ReconnectFits event) :
    Outcome System.Settled Death.Ordinary (system.step inflater event) := by
  have start : ∀ world, (system.withWorld world).Settled := fun _ => settled.retime rfl
  have calm := settled_timely (Z := Z) calm_lasting
  apply StepCases.outcome
  refine ⟨⟨?loopGetNow, ?timeout, ?plugin, ?strayRead, ?reconfigure⟩, ?arrive, ?remoteClose,
    ?uplinkRead, ?receive, ?handle⟩
  case arrive => exact fun _ _ _ => settled.retime rfl
  case remoteClose => exact fun _ _ => settled.retime rfl
  case loopGetNow => exact fun _ _ _ => settled.retime rfl
  case uplinkRead => exact fun _ _ => settled.retime rfl
  case receive =>
    rintro world recovery limit rfl phase
    have opened : system.uplink.isOpen = true := active.resolve_left (by simp [phase])
    exact protected_settled recovery
      ((receive_settled inflater limit).start ⟨⟨start world, fits⟩, opened⟩)
  case handle =>
    rintro world recovery limit rfl _
    exact protected_settled recovery (handle_settled limit settled fits)
  case timeout =>
    rintro owner _ recovery first rest rfl _ pending
    exact protected_settled recovery (fireTimeout_settled inflater owner settled fits pending)
  case plugin =>
    rintro owner world recovery rfl _
    exact protected_settled recovery (settled_of_settledIn
      ((calm.runCallback reconnectFromEvent_settled owner).start ⟨start world, fits⟩))
  case strayRead =>
    rintro world recovery rfl _
    exact protected_settled recovery (settled_of_settledIn
      (errReadStray_settled.start ⟨start world, fits⟩))
  case reconfigure =>
    rintro world commit rfl _
    have commits := calm.loopConfigCommit reconnectFromEvent_settled commit
      (configureTarget_settled commit.target) (.inr fun _ holds => holds)
    have ended := outcome_finishEvent (commits.start ⟨start world, fits⟩) trivial
    exact ended.weaken fun _ holds => holds.1

end Steps

/-- The connection is open and no reconnect timeout is pending. -/
def System.Connected (system : System Z) : Prop :=
  system.uplink.isOpen = true ∧ system.timers.pending .reconnectNow = []

/-- The connection is closed and its reconnect timeout is the only one pending. -/
def System.Reconnecting (system : System Z) : Prop :=
  system.uplink.isOpen = false ∧
    system.timers.pending .reconnectNow = [system.uplink.reconnectId]

def System.ReconnectMachine (system : System Z) : Prop :=
  Xor system.Connected system.Reconnecting ∧
    (system.uplink.reconnectScheduled = true ↔ system.Reconnecting)

theorem System.Settled.machine {system : System Z} (settled : system.Settled)
    (named : system.uplink.remoteName ≠ none) : system.ReconnectMachine := by
  have balance := settled.balance.resolve_right fun unnamed => named unnamed.1
  have waiting := settled.waiting
  cases opened : system.uplink.isOpen with
  | true => simp_all [ReconnectMachine, Connected, Reconnecting, Xor]
  | false => simp_all [ReconnectMachine, Connected, Reconnecting, Xor]

theorem created_settled (inflateState : Z) (now : Nat) :
    (System.created inflateState now).Settled :=
  ⟨⟨nodup_nil, rfl, nofun⟩, .inr ⟨rfl, rfl, rfl⟩⟩

/-- Every run in fitting worlds keeps the uplink connected or waiting, and its guards hold. -/
theorem run_keeps_reconnect_machine (inflater : Inflater Z) (inflateState : Z) (now : Nat)
    (events : List Event)
    (fits : (System.created inflateState now).RunFits inflater System.ReconnectFits events) :
    (∀ system, (System.created inflateState now).run inflater events = .ok system →
      system.uplink.remoteName ≠ none → system.ReconnectMachine) ∧
    ∀ failed, (System.created inflateState now).run inflater events =
      .error (.died (.assertion failed)) → failed = .timeoutMissing := by
  have step : ∀ (system : System Z) event, system.Settled ∧ system.Active → system.ReconnectFits event →
      Outcome (fun system => system.Settled ∧ system.Active) Death.Ordinary
        (system.step inflater event) :=
    fun system event good fits => (step_settled inflater system event good.1 good.2 fits).both
      (step_active inflater system event good.2)
  have kept := run_outcome step ⟨created_settled inflateState now, .inl rfl⟩ fits
  constructor
  · intro system reached
    rw [reached] at kept
    exact kept.1.machine
  · intro failed died
    rw [died] at kept
    exact kept

/-- This plugin is active from the start. -/
def activePlugin : Plugin := ⟨[1], 1, [], [], true⟩

/-- A callback of the plugin sends data and loses the connection. -/
def losingWorld (disconnects : List (List PluginAction)) : World :=
  { World.calm with depth := 5, callbacks := [[.send [] .lost]], disconnects := disconnects }

def reconnecting : List Event :=
  connecting [activePlugin] ++ [.plugin 0 (losingWorld [[.send [] .lost, .fail]]) .none]

theorem run_keeps_reconnect_machine_closed :
    ∃ system, (System.created () 0).run idleInflater reconnecting = .ok system ∧
      system.uplink.isOpen = false ∧ system.ReconnectMachine := by
  have closes : reaches ((System.created () 0).run idleInflater reconnecting)
      (fun system => system.uplink.remoteName.isSome && !system.uplink.isOpen) = true := by
    decide +kernel
  obtain ⟨system, reached, closed⟩ := exists_of_reaches closes
  simp only [Bool.and_eq_true, Bool.not_eq_true', isSome_iff_ne_none] at closed
  exact ⟨system, reached, closed.2, (run_keeps_reconnect_machine idleInflater () 0 reconnecting
    (by decide +kernel)).1 system reached closed.1⟩

/-- The disconnected callback fails while the connection is still open. -/
def interrupted : List Event :=
  connecting [activePlugin] ++ [.plugin 0 (losingWorld [[.fail]]) .none]

/-- The disconnected callback of a stray read loses the connection. -/
def crossed : List Event :=
  connecting [activePlugin] ++ [.strayRead (losingWorld [[.send [] .lost]]) .none]

theorem failing_callbacks_break_reconnect_machine :
    (∃ system, (System.created () 0).run idleInflater interrupted = .ok system ∧
      system.uplink.remoteName ≠ none ∧ ¬ system.ReconnectMachine) ∧
    (System.created () 0).run idleInflater crossed =
      .error (.died (.assertion .connectFailWhileScheduled)) := by
  constructor
  · have breaks : reaches ((System.created () 0).run idleInflater interrupted) (fun system =>
        system.uplink.remoteName.isSome && system.uplink.isOpen &&
          system.uplink.reconnectScheduled) = true := by decide +kernel
    obtain ⟨system, reached, broken⟩ := exists_of_reaches breaks
    simp only [Bool.and_eq_true, isSome_iff_ne_none] at broken
    obtain ⟨⟨named, opened⟩, scheduled⟩ := broken
    refine ⟨system, reached, named, fun machine => ?_⟩
    have closed := (machine.2.mp scheduled).1
    simp [opened] at closed
  · exact eq_of_stopOf (by decide +kernel)

end Ucollect.Core
