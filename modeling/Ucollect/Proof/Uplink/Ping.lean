import Ucollect.Proof.Uplink.Timeouts

namespace Ucollect.Core
open Library

variable {Z : Type}

/-- An open connection has one ping timeout, and a closed one has none. -/
structure System.Pinged (system : System Z) : Prop extends system.Timed where
  pings : system.timers.pending .sendPing =
    if system.uplink.isOpen then [system.uplink.pingTimeout] else []
  flag : system.uplink.pingScheduled = system.uplink.isOpen

/-- No ping timeout is pending while the callback of the last one runs. -/
structure System.Silent (system : System Z) : Prop extends system.Timed where
  pings : system.timers.pending .sendPing = []
  flag : system.uplink.pingScheduled = false

namespace System

variable {system : System Z} {timers : Timers Callback} {delay id : Nat}

theorem Silent.closed (silent : system.Silent) (closed : system.uplink.isOpen = false) :
    system.Pinged :=
  ⟨silent.toTimed, by rw [silent.pings, closed]; rfl, silent.flag.trans closed.symm⟩

/-- An opened connection gets its ping timeout. -/
theorem Silent.armed (silent : system.Silent) (opened : system.uplink.isOpen = true)
    (added : system.timers.add .wide system.now delay .sendPing = some (id, timers)) :
    (system.armed id timers).Pinged where
  toTimed := silent.toTimed.armed added
  pings := by
    have only : timers.pending .sendPing = [id] := Timers.add_pending added silent.pings
    simpa [System.armed, opened] using only
  flag := opened.symm

/-- A closed connection has none. -/
theorem Pinged.closed_silent (pinged : system.Pinged) (closed : system.uplink.isOpen = false) :
    system.Silent :=
  ⟨pinged.toTimed, by rw [pinged.pings, closed]; rfl, pinged.flag.trans closed⟩

theorem Pinged.retime {after : System Z} (pinged : system.Pinged)
    (same : after.timing = system.timing) : after.Pinged where
  toTimed := pinged.toTimed.retime same
  pings := by
    have sameTimers : after.timers = system.timers := congrArg Timing.timers same
    have samePing : after.uplink.pingTimeout = system.uplink.pingTimeout :=
      congrArg Timing.pingTimeout same
    have sameOpen : after.uplink.isOpen = system.uplink.isOpen := congrArg Timing.isOpen same
    rw [sameTimers, samePing, sameOpen]
    exact pinged.pings
  flag := by
    have sameFlag : after.uplink.pingScheduled = system.uplink.pingScheduled :=
      congrArg Timing.pingScheduled same
    have sameOpen : after.uplink.isOpen = system.uplink.isOpen := congrArg Timing.isOpen same
    rw [sameFlag, sameOpen]
    exact pinged.flag

theorem Silent.retime {after : System Z} (silent : system.Silent)
    (same : after.timing = system.timing) : after.Silent where
  toTimed := silent.toTimed.retime same
  pings := by
    have sameTimers : after.timers = system.timers := congrArg Timing.timers same
    rw [sameTimers]
    exact silent.pings
  flag := (congrArg Timing.pingScheduled same).trans silent.flag

end System

namespace System

variable {system : System Z} {timers : Timers Callback}

/-- A closed connection takes its ping timeout with it. -/
theorem Pinged.silenced (pinged : system.Pinged) (silenced : system.Silenced timers) :
    timers.pending .sendPing = [] := by
  have pings := pinged.pings
  rw [Silenced, pinged.flag] at silenced
  cases opened : system.uplink.isOpen with
  | true =>
    rw [opened, if_pos rfl] at silenced pings
    exact Timers.cancel_pending silenced pinged.distinct pings
  | false =>
    rw [opened, if_neg (by decide)] at silenced pings
    rw [silenced, pings]

theorem Silent.silenced (silent : system.Silent) (silenced : system.Silenced timers) :
    timers.pending .sendPing = [] := by
  rw [Silenced, silent.flag, if_neg (by decide)] at silenced
  rw [silenced, silent.pings]

end System

theorem pinged_durable : Durable (Z := Z) System.Pinged System.Pinged fun _ => True where
  frame _ _ same _ pinged := pinged.retime (congrArg Connection.timing same)
  add _ _ _ _ pinged added :=
    ⟨pinged.addOther added, (Timers.add_pending_other _ added (by decide)).trans pinged.pings,
      pinged.flag⟩
  cancel _ _ _ pinged member other cancelled :=
    ⟨pinged.cancelOther member other cancelled,
      (pinged.otherPending member other cancelled (by decide)).trans pinged.pings, pinged.flag⟩
  jumps _ holds := holds
  deaths _ _ := trivial
  schedule _ _ _ _ pinged free added :=
    ⟨pinged.scheduled free added, (Timers.add_pending_other _ added (by decide)).trans pinged.pings,
      pinged.flag⟩
  unschedule _ _ pinged waits cancelled :=
    ⟨pinged.unscheduled waits cancelled,
      (pinged.unscheduledPings waits cancelled).trans pinged.pings, pinged.flag⟩
  hangUp _ _ pinged silenced := ⟨pinged.hungUp silenced, pinged.silenced silenced, rfl⟩

theorem silent_durable : Durable (Z := Z) System.Silent System.Silent fun _ => True where
  frame _ _ same _ silent := silent.retime (congrArg Connection.timing same)
  add _ _ _ _ silent added :=
    ⟨silent.addOther added, (Timers.add_pending_other _ added (by decide)).trans silent.pings,
      silent.flag⟩
  cancel _ _ _ silent member other cancelled :=
    ⟨silent.cancelOther member other cancelled,
      (silent.otherPending member other cancelled (by decide)).trans silent.pings, silent.flag⟩
  jumps _ holds := holds
  deaths _ _ := trivial
  schedule _ _ _ _ silent free added :=
    ⟨silent.scheduled free added, (Timers.add_pending_other _ added (by decide)).trans silent.pings,
      silent.flag⟩
  unschedule _ _ silent waits cancelled :=
    ⟨silent.unscheduled waits cancelled,
      (silent.unscheduledPings waits cancelled).trans silent.pings, silent.flag⟩
  hangUp _ _ silent silenced := ⟨silent.hungUp silenced, silent.silenced silenced, rfl⟩

theorem pinged_timely : Timely (Z := Z) System.Pinged System.Pinged fun _ => True where
  toStable := pinged_durable.toStable
  retime _ _ same _ pinged := pinged.retime same

/-- A new connection arms its first ping. -/
theorem openConnection_pinged (inflater : Inflater Z) :
    Meets (fun system => System.Pinged system ∧ system.uplink.isOpen = false)
      (openConnection inflater) (fun _ => System.Pinged) (Leaves System.Pinged fun _ => True) := by
  apply meets_pointwise
  rintro system ⟨pinged, closed⟩
  have silent := pinged.closed_silent closed
  have connected : (system.connected inflater).Silent :=
    ⟨⟨silent.distinct, silent.waiting, silent.ping⟩, silent.pings, silent.flag⟩
  apply (openConnection_meets inflater system).weaken (fun _ stands => stands)
  · rintro _ _ ⟨id, timers, added, rfl⟩
    exact connected.armed rfl added
  · rintro _ _ rfl
    trivial

/-- Connecting keeps the ping timeout in step with the connection. -/
theorem uplinkConnect_pinged (inflater : Inflater Z) :
    Keeps System.Pinged System.Pinged (fun _ => True) (uplinkConnect inflater) :=
  pinged_durable.toStable.uplinkConnect inflater (fun _ _ => .inr trivial)
    (pinged_durable.connectFail trivial) (openConnection_pinged inflater)

section SendPing

variable {system : System Z}

/-- Too many pings without an answer close the connection. -/
theorem sendPing_unanswered (silent : system.Silent) (calm : system.world.Calm) :
    Meets (fun current => current = system)
      (reconnectFromEvent >>= fun _ =>
        modifyUplink fun uplink => { uplink with pingsUnanswered := 0 })
      (fun _ => System.Pinged) (Leaves System.Pinged fun _ => True) := by
  have severs := silent_durable.reconnectFromEvent.both (reconnectFromEvent_severs (Z := Z))
  have pinged : Meets (fun system : System Z => system.Silent ∧ system.world.Calm)
      reconnectFromEvent (fun _ => System.Pinged) (Leaves System.Pinged fun _ => True) := by
    apply severs.weaken (fun _ holds => holds)
    · exact fun _ next holds => holds.1.closed holds.2.2
    · intro exit next left
      cases exit with
      | jump => exact left.1.closed left.2.2
      | died death => trivial
  apply Meets.bind (pinged.start ⟨silent, calm⟩)
  exact fun _ => pinged_timely.retimed (fun _ => rfl) (fun _ => rfl)

theorem sendOwnMessage_silent (silent : system.Silent) (opened : system.uplink.isOpen = true)
    (kept : system.world.sends.head? ≠ some .lost) (reconnect : LoopM Z Unit) (type : UInt8)
    (data : Bytes) :
    Meets (fun current => current = system) (sendOwnMessage reconnect type data)
      (fun _ next => next.Silent ∧ next.uplink.isOpen = true)
      (Leaves System.Pinged fun _ => True) := by
  intro current stands
  subst stands
  have next : ∀ sent world, ({ current with sentMessages := sent, world := world } : System Z).Silent :=
    fun sent world => silent.retime rfl
  cases sends : current.world.sends with
  | nil => simp [sendOwnMessage, takeSend, uplinkSendMessage, eval_bind, opened, sends, next]
  | cons delivery rest =>
    cases delivery with
    | delivered => simp [sendOwnMessage, takeSend, uplinkSendMessage, eval_bind, opened, sends, next]
    | lost => simp [sends] at kept
    | fatal => simp [sendOwnMessage, takeSend, uplinkSendMessage, eval_bind, opened, sends, Leaves]

/-- The next ping is armed unless this one loses the connection. -/
theorem sendPing_answered (silent : system.Silent) (opened : system.uplink.isOpen = true)
    (kept : system.world.sends.head? ≠ some .lost) :
    Meets (fun current => current = system)
      (modifyUplink (fun uplink => { uplink with
          pingsUnanswered := uplink.pingsUnanswered + 1 }) >>= fun _ =>
        sendOwnMessage reconnectFromEvent (letter 'P') [] >>= fun _ => schedulePing)
      (fun _ => System.Pinged) (Leaves System.Pinged fun _ => True) := by
  let counted : System Z := { system with uplink := { system.uplink with
    pingsUnanswered := system.uplink.pingsUnanswered + 1 } }
  have counts : Meets (fun current => current = system)
      (modifyUplink (Z := Z) fun uplink => { uplink with
        pingsUnanswered := uplink.pingsUnanswered + 1 })
      (fun _ next => next = counted) (Leaves System.Pinged fun _ => True) := by
    rintro _ rfl
    rfl
  have silentStill : counted.Silent := silent.retime rfl
  apply Meets.bind counts
  intro _
  apply Meets.bind (sendOwnMessage_silent silentStill opened kept _ _ _)
  intro _
  apply meets_pointwise
  rintro system ⟨silent, opened⟩
  apply (schedulePing_meets system).weaken (fun _ stands => stands)
  · rintro _ _ ⟨id, timers, added, rfl⟩
    exact silent.armed opened added
  · rintro _ _ rfl
    trivial

/-- The world answers the ping that is due, or it lets the connection end. -/
def System.Answers (system : System Z) (world : World) : Prop :=
  if system.uplink.pingsUnanswered ≥ pingCount then world.Calm
  else world.sends.head? ≠ some .lost

instance (system : System Z) (world : World) : Decidable (system.Answers world) :=
  inferInstanceAs (Decidable (ite _ _ _))

theorem sendPing_pinged {timeout : Timeout Callback} {rest : List (Timeout Callback)}
    {world : World} (pinged : system.Pinged) (first : system.timers.timeouts = timeout :: rest)
    (ping : timeout.callback = .sendPing) (answers : system.Answers world) :
    Meets (fun current => current =
        { system with timers := { system.timers with timeouts := rest }, world := world })
      sendPing (fun _ => System.Pinged) (Leaves System.Pinged fun _ => True) := by
  let fired : System Z := { system with
    timers := { system.timers with timeouts := rest }
    world := world
    uplink := { system.uplink with pingScheduled := false } }
  have pings := pinged.pings
  rw [Timers.pending_fired first, if_pos ping] at pings
  have opened : system.uplink.isOpen = true := by
    by_contra closed
    simp [closed] at pings
  have silent : fired.Silent := by
    refine ⟨(pinged.toTimed.firedPing first ping).retime rfl, ?_, rfl⟩
    rw [opened, if_pos rfl] at pings
    exact (List.cons.inj pings).2
  rintro _ rfl
  unfold System.Answers at answers
  split at answers
  case isTrue unanswered =>
    have closes := sendPing_unanswered silent answers fired rfl
    simpa only [sendPing, eval_bind, eval_modifyUplink, eval_get, if_pos unanswered] using closes
  case isFalse answered =>
    have rearms := sendPing_answered silent opened answers fired rfl
    simpa only [sendPing, eval_bind, eval_modifyUplink, eval_get, if_neg answered] using rearms

end SendPing

/-- A timeout that is not a ping keeps the ping timeout. -/
theorem System.Pinged.fired {system : System Z} {timeout : Timeout Callback}
    {rest : List (Timeout Callback)} (pinged : system.Pinged)
    (first : system.timers.timeouts = timeout :: rest) (other : timeout.callback ≠ .sendPing) :
    ({ system.timers with timeouts := rest } : Timers Callback).pending .sendPing =
      if system.uplink.isOpen then [system.uplink.pingTimeout] else [] := by
  have pings := pinged.pings
  rw [Timers.pending_fired first, if_neg other] at pings
  exact pings

theorem fireTimeout_pinged (inflater : Inflater Z) (owner : Nat) {system : System Z}
    {timeout : Timeout Callback} {rest : List (Timeout Callback)} {world : World}
    (pinged : system.Pinged) (first : system.timers.timeouts = timeout :: rest)
    (answers : timeout.callback = .sendPing → system.Answers world) :
    Meets (fun current => current =
        { system with timers := { system.timers with timeouts := rest }, world := world })
      (fireTimeout inflater owner timeout.callback) (fun _ => System.Pinged)
      (Leaves System.Pinged fun _ => True) := by
  cases callback : timeout.callback with
  | sendPing => exact sendPing_pinged pinged first callback (answers callback)
  | reconnectNow =>
    have kept : ({ system with
        timers := { system.timers with timeouts := rest }
        world := world
        uplink := { system.uplink with reconnectScheduled := false } } : System Z).Pinged :=
      ⟨(pinged.toTimed.firedReconnect first callback).retime rfl,
        pinged.fired first (by simp [callback]), pinged.flag⟩
    rintro _ rfl
    simpa only [fireTimeout, reconnectNow, eval_bind, eval_modifyUplink] using
      uplinkConnect_pinged inflater _ kept
  | other =>
    have kept : ({ system with
        timers := { system.timers with timeouts := rest }, world := world } : System Z).Pinged :=
      ⟨(pinged.toTimed.firedOther first callback).retime rfl,
        pinged.fired first (by simp [callback]), pinged.flag⟩
    exact (pinged_durable.runCallback pinged_durable.reconnectFromEvent owner).start kept

/-- Every ping that fires is answered by its world. -/
def System.PingFits (system : System Z) : Event → Prop
  | .timeout _ world _ =>
    system.timers.timeouts.head?.map (·.callback) = some .sendPing → system.Answers world
  | _ => True

instance (system : System Z) (event : Event) : Decidable (system.PingFits event) :=
  match event with
  | .timeout _ _ _ => inferInstanceAs (Decidable (_ → _))
  | .arrive _ | .remoteClose | .loopGetNow _ | .uplinkRead | .receive _ _ | .handle _ _
  | .plugin _ _ _ | .strayRead _ _ | .reconfigure _ _ => .isTrue trivial

theorem recover_pinged (recovery : Recovery) :
    Meets (System.Pinged (Z := Z)) (recover recovery) (fun _ => System.Pinged)
      (Leaves System.Pinged fun _ => True) :=
  pinged_durable.toStable.recover pinged_durable.reconnectFromEvent recovery
    fun _ pinged => pinged.retime rfl

/-- A protected program that keeps the ping timeout keeps it also where a plugin fails. -/
theorem protected_pinged {program : LoopM Z Unit} {start : System Z} (recovery : Recovery)
    (body : Meets (fun system => system = start) program (fun _ => System.Pinged)
      (Leaves System.Pinged fun _ => True)) :
    Outcome System.Pinged (fun _ => True) (finishEvent (loopProtect recovery program) start) :=
  outcome_protected body (recover_pinged recovery) trivial

theorem step_pinged (inflater : Inflater Z) (system : System Z) (event : Event)
    (pinged : system.Pinged) (fits : system.PingFits event) :
    Outcome System.Pinged (fun _ => True) (system.step inflater event) := by
  have reconnects := pinged_durable (Z := Z).reconnectFromEvent
  have start : ∀ world, (system.withWorld world).Pinged := fun _ => pinged.retime rfl
  apply StepCases.outcome
  refine ⟨⟨?loopGetNow, ?timeout, ?plugin, ?strayRead, ?reconfigure⟩, ?arrive, ?remoteClose,
    ?uplinkRead, ?receive, ?handle⟩
  case arrive => exact fun _ _ _ => pinged.retime rfl
  case remoteClose => exact fun _ _ => pinged.retime rfl
  case loopGetNow => exact fun _ _ _ => pinged.retime rfl
  case uplinkRead => exact fun _ _ => pinged.retime rfl
  case receive =>
    intro world recovery limit _ _
    have receives := pinged_timely.uplinkReceive (fun _ holds => holds) reconnects
      (pinged_durable.closedByRemote trivial) inflater limit
      (fun _ pinged => pinged.retime rfl) (fun _ _ pinged => pinged.retime rfl)
    exact protected_pinged recovery (receives.start (start world))
  case handle =>
    intro world recovery limit _ _
    have reacts : ∀ reaction, Reconnects (Z := Z) reaction System.Pinged System.Pinged
        System.Pinged System.Pinged fun _ => True :=
      fun _ => ⟨fun _ => reconnects, fun _ => reconnects, fun _ =>
        pinged_durable.handleRejection trivial⟩
    exact protected_pinged recovery (pinged_timely.uplinkHandle limit (start world) (reacts _)
      fun _ pinged => pinged.retime rfl)
  case timeout =>
    rintro owner world recovery first rest rfl _ pending
    exact protected_pinged recovery (fireTimeout_pinged inflater owner pinged pending
      fun ping => fits (by rw [pending]; exact congrArg some ping))
  case plugin =>
    intro owner world recovery _ _
    exact protected_pinged recovery
      ((pinged_durable.runCallback reconnects owner).start (start world))
  case strayRead =>
    intro world recovery _ _
    exact protected_pinged recovery ((pinged_durable.errReadStray trivial).start (start world))
  case reconfigure =>
    intro world commit _ _
    have configures := pinged_durable.configureTarget commit.target
      fun (system : System Z) target (pinged : system.Pinged) => ⟨⟨pinged.distinct, pinged.waiting,
        pinged.ping⟩, pinged.pings, pinged.flag⟩
    exact outcome_finishEvent ((pinged_durable.loopConfigCommit reconnects commit configures
      (.inr fun _ holds => holds)).start (start world)) trivial

/-- At most one ping timeout is pending, exactly when the connection is open, and the uplink
knows it. -/
def System.PingTimer (system : System Z) : Prop :=
  (system.timers.pending .sendPing).length ≤ 1 ∧
    (system.timers.pending .sendPing ≠ [] ↔ system.uplink.isOpen = true) ∧
    ∀ id ∈ system.timers.pending .sendPing,
      system.uplink.pingScheduled = true ∧ system.uplink.pingTimeout = id

instance (system : System Z) : Decidable system.PingTimer :=
  inferInstanceAs (Decidable (_ ∧ _ ∧ _))

theorem System.Pinged.timer {system : System Z} (pinged : system.Pinged) : system.PingTimer := by
  have pings := pinged.pings
  have flag := pinged.flag
  cases opened : system.uplink.isOpen with
  | true => simp_all [PingTimer]
  | false => simp_all [PingTimer]

theorem created_pinged (inflateState : Z) (now : Nat) :
    (System.created inflateState now).Pinged :=
  ⟨⟨List.nodup_nil, rfl, nofun⟩, rfl, rfl⟩

/-- Every run whose pings are answered keeps one ping timeout for an open connection. -/
theorem run_keeps_ping_timer (inflater : Inflater Z) (inflateState : Z) (now : Nat)
    (events : List Event) (system : System Z)
    (fits : (System.created inflateState now).RunFits inflater System.PingFits events)
    (reached : (System.created inflateState now).run inflater events = .ok system) :
    system.PingTimer := by
  have kept := run_outcome (step_pinged inflater) (created_pinged inflateState now) fits
  rw [reached] at kept
  exact System.Pinged.timer kept

def pinging : List Event := connecting [] ++ [.loopGetNow 62000, .timeout 0 .calm .none]

theorem run_keeps_ping_timer_answered :
    ∃ system, (System.created () 0).run idleInflater pinging = .ok system ∧
      system.uplink.isOpen = true ∧ system.PingTimer := by
  have opens : reaches ((System.created () 0).run idleInflater pinging)
      (fun system => system.uplink.isOpen) = true := by decide +kernel
  obtain ⟨system, reached, opened⟩ := exists_of_reaches opens
  exact ⟨system, reached, opened,
    run_keeps_ping_timer idleInflater () 0 pinging system (by decide +kernel) reached⟩

/-- The ping that is due loses the connection. -/
def losing : List Event :=
  connecting [] ++ [.loopGetNow 62000, .timeout 0 { World.calm with sends := [.lost] } .none]

theorem lost_ping_leaves_ping_timer :
    ∃ system, (System.created () 0).run idleInflater losing = .ok system ∧
      ¬ system.PingTimer := by
  have breaks : reaches ((System.created () 0).run idleInflater losing)
      (fun system => ! decide system.PingTimer) = true := by decide +kernel
  obtain ⟨system, reached, broken⟩ := exists_of_reaches breaks
  exact ⟨system, reached, by simpa using broken⟩

end Ucollect.Core
