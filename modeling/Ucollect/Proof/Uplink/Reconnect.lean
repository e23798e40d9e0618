import Ucollect.Proof.Uplink.Reception
import Ucollect.Proof.Uplink.Timeouts

namespace Ucollect.Core
open Library

variable {Z : Type}

theorem timed_durable : Durable (Z := Z) System.Timed System.Timed Death.Ordinary where
  frame _ _ same _ timed := timed.retime (congrArg Connection.timing same)
  add _ _ _ _ timed added := timed.addOther added
  cancel _ _ _ timed member other cancelled := timed.cancelOther member other cancelled
  jumps _ timed := timed
  deaths _ ordinary := ordinary
  schedule _ _ _ _ timed free added := timed.scheduled free added
  hangUp _ _ timed silenced := timed.hungUp silenced
  unschedule _ _ timed waits cancelled := timed.unscheduled waits cancelled

section Leaving

/-- A reconnect is scheduled. -/
structure System.Leaving (system : System Z) : Prop extends system.Timed where
  scheduled : system.uplink.reconnectScheduled = true

/-- The connection is closed and waits for its reconnect. -/
structure System.Waiting (system : System Z) : Prop extends system.Leaving where
  closed : system.uplink.isOpen = false

theorem leaving_closable : Closable (Z := Z) System.Leaving System.Leaving Death.Ordinary where
  frame before after same rest leaving :=
    ⟨timed_durable.frame before after same rest leaving.toTimed,
      (congrArg Connection.reconnectScheduled same).trans leaving.scheduled⟩
  add _ _ _ _ leaving added := ⟨leaving.addOther added, leaving.scheduled⟩
  cancel _ _ _ leaving member other cancelled :=
    ⟨leaving.cancelOther member other cancelled, leaving.scheduled⟩
  jumps _ leaving := leaving
  deaths _ ordinary := ordinary
  schedule _ _ _ _ leaving free added := ⟨leaving.toTimed.scheduled free added, rfl⟩
  hangUp _ _ leaving silenced := ⟨leaving.hungUp silenced, leaving.scheduled⟩

/-- A reconnect is scheduled before the connection is closed. -/
theorem reconnect_leaving (depth : Nat) :
    Meets System.Timed (uplinkReconnect (Z := Z) depth) (fun _ => System.Leaving)
      (Leaves System.Leaving Death.Ordinary) := by
  cases depth with
  | zero => exact meets_throw fun _ _ => trivial
  | succ depth =>
    apply meets_get
    intro system timed
    refine Meets.bind (meets_when ?_ ?_) fun _ =>
      leaving_closable.disconnect (leaving_closable.reconnect depth)
    · intro free
      simp only [Bool.not_eq_true'] at free
      apply (scheduleReconnect_meets system 0).weaken (fun _ stands => stands)
      · rintro _ _ ⟨id, timers, added, rfl⟩
        exact ⟨timed.scheduled free added, rfl⟩
      · rintro _ _ rfl
        trivial
    · rintro waits _ rfl
      exact ⟨timed, by simpa using waits⟩

theorem reconnectFromEvent_leaving :
    Meets System.Timed (reconnectFromEvent (Z := Z)) (fun _ => System.Leaving)
      (Leaves System.Leaving Death.Ordinary) := by
  apply meets_get
  intro system timed
  exact (reconnect_leaving system.world.depth).start timed

/-- A disconnect that returns has closed the connection. -/
theorem disconnect_closes (reconnect : LoopM Z Unit) (resetReconnect : Bool) :
    Meets (fun _ => True) (uplinkDisconnect reconnect resetReconnect)
      (fun _ system => system.uplink.isOpen = false) (Leaves (fun _ => True) fun _ => True) := by
  apply meets_get
  intro system _
  apply Meets.bind (meets_anything _)
  intro _
  apply meets_get
  intro system _
  apply meets_when
  · intro _
    apply Meets.bind (meets_anything _)
    intro _
    apply meets_pointwise
    intro system _
    apply (hangUp_meets system).weaken (fun _ stands => stands)
    · rintro _ _ ⟨timers, -, rfl⟩
      rfl
    · rintro _ _ rfl
      trivial
  · rintro closed _ rfl
    exact closed

theorem reconnectFromEvent_closes :
    Meets (fun _ => True) (reconnectFromEvent (Z := Z))
      (fun _ system => system.uplink.isOpen = false) (Leaves (fun _ => True) fun _ => True) := by
  apply meets_get
  intro system _
  cases system.world.depth with
  | zero => exact meets_throw fun _ _ => trivial
  | succ depth =>
    apply meets_get
    intro system _
    exact Meets.bind (meets_anything _) fun _ => disconnect_closes _ _

/-- Where nothing catches a jump the connection waits whenever the reconnect returns. -/
theorem reconnectFromEvent_waiting :
    Meets System.Timed (reconnectFromEvent (Z := Z)) (fun _ => System.Waiting)
      (Leaves (fun _ => True) Death.Ordinary) := by
  apply (reconnectFromEvent_leaving.both reconnectFromEvent_closes).weaken
    (fun _ timed => ⟨timed, trivial⟩)
  · exact fun _ _ holds => ⟨holds.1, holds.2⟩
  · intro exit system left
    cases exit with
    | jump => trivial
    | died death => exact left.1

/-- In a calm world the connection waits also where a callback fails. -/
theorem Severs.waiting {program : LoopM Z Unit} {before : System Z → Prop}
    (severs : Severs program)
    (leaves : Meets before program (fun _ => System.Leaving)
      (Leaves System.Leaving Death.Ordinary)) :
    Meets (fun system => before system ∧ system.world.Calm) program
      (fun _ system => system.Waiting ∧ system.world.Calm)
      (Leaves (fun system => system.Waiting ∧ system.world.Calm) Death.Ordinary) := by
  apply (leaves.both severs).weaken (fun _ holds => holds)
  · exact fun _ _ holds => ⟨⟨holds.1, holds.2.2⟩, holds.2.1⟩
  · intro exit system left
    cases exit with
    | jump => exact ⟨⟨left.1, left.2.2⟩, left.2.1⟩
    | died death => exact left.1

end Leaving

/-- The connection is open or waits, unless the uplink is still without a target. -/
structure System.Settled (system : System Z) : Prop extends system.Timed where
  balance : system.uplink.reconnectScheduled = !system.uplink.isOpen ∨
    system.uplink.remoteName = none ∧ system.uplink.isOpen = false ∧
      system.uplink.reconnectScheduled = false

/-- The connection is closed and nothing is scheduled. -/
structure System.Loose (system : System Z) : Prop extends system.Timed where
  closed : system.uplink.isOpen = false
  free : system.uplink.reconnectScheduled = false

namespace System

variable {system after : System Z}

theorem Waiting.settled (waiting : system.Waiting) : system.Settled :=
  ⟨waiting.toTimed, .inl (by rw [waiting.scheduled, waiting.closed]; rfl)⟩

theorem Settled.free (settled : system.Settled) (opened : system.uplink.isOpen = true) :
    system.uplink.reconnectScheduled = false := by
  have balance := settled.balance
  simp only [opened] at balance
  simpa using balance

theorem Settled.retime (settled : system.Settled) (same : after.timing = system.timing) :
    after.Settled where
  toTimed := settled.toTimed.retime same
  balance := by
    have sameOpen : after.uplink.isOpen = system.uplink.isOpen := congrArg Timing.isOpen same
    have sameWaiting : after.uplink.reconnectScheduled = system.uplink.reconnectScheduled :=
      congrArg Timing.reconnectScheduled same
    have sameName : after.uplink.remoteName = system.uplink.remoteName :=
      congrArg Timing.remoteName same
    rw [sameOpen, sameWaiting, sameName]
    exact settled.balance

theorem Settled.withTimers {timers : Timers Callback} (settled : system.Settled)
    (timed : { system with timers := timers }.Timed) : { system with timers := timers }.Settled :=
  ⟨timed, settled.balance⟩

end System

/-- The condition depends on the disconnected callbacks that still may run. -/
def Lasting (condition : World → Prop) : Prop :=
  ∀ before after : World, after.disconnects <:+ before.disconnects →
    condition before → condition after

theorem calm_lasting : Lasting World.Calm := fun _ _ rest calm => calm.suffix rest

theorem mild_lasting : Lasting World.Mild := fun _ _ rest mild => mild.suffix rest

/-- The recovery from a failed plugin needs no condition. -/
def World.Any (_ : World) : Prop := True

theorem any_lasting : Lasting World.Any := fun _ _ _ _ => trivial

/-- The uplink is settled in a world that meets the condition. -/
def System.SettledIn (condition : World → Prop) (system : System Z) : Prop :=
  system.Settled ∧ condition system.world

theorem settled_timely {condition : World → Prop} (lasting : Lasting condition) :
    Timely (Z := Z) (System.SettledIn condition) (System.SettledIn condition) Death.Ordinary where
  frame _ _ same rest holds :=
    ⟨holds.1.retime (congrArg Connection.timing same), lasting _ _ rest holds.2⟩
  add _ _ _ _ holds added := ⟨holds.1.withTimers (holds.1.addOther added), holds.2⟩
  cancel _ _ _ holds member other cancelled :=
    ⟨holds.1.withTimers (holds.1.cancelOther member other cancelled), holds.2⟩
  jumps _ holds := holds
  deaths _ ordinary := ordinary
  retime _ _ same world holds :=
    ⟨holds.1.retime same, lasting _ _ (world ▸ List.suffix_rfl) holds.2⟩

section Calm

/-- A calm world keeps the uplink settled wherever it loses the connection. -/
theorem reconnectFromEvent_settled :
    Keeps (System.SettledIn World.Calm) (System.SettledIn World.Calm) Death.Ordinary
      (reconnectFromEvent (Z := Z)) := by
  apply (reconnectFromEvent_severs.waiting reconnectFromEvent_leaving).weaken
    (fun _ holds => ⟨holds.1.toTimed, holds.2⟩)
  · exact fun _ _ holds => ⟨holds.1.settled, holds.2⟩
  · intro exit system left
    cases exit with
    | jump => exact ⟨left.1.settled, left.2⟩
    | died death => exact left

/-- The assertion holds because an open connection does not wait. -/
theorem closedByRemote_settled :
    Meets (fun system => System.SettledIn World.Calm system ∧ system.uplink.isOpen = true)
      (closedByRemote (Z := Z)) (fun _ => System.SettledIn World.Calm)
      (Leaves (System.SettledIn World.Calm) Death.Ordinary) := by
  apply meets_get
  rintro system ⟨⟨settled, calm⟩, opened⟩
  have free := settled.free opened
  rw [if_neg (by simp [free])]
  have schedules : Meets (fun current => current = system)
      (scheduleReconnect (system.uplink.reconnectTimeout / 1000))
      (fun _ next => next.Leaving ∧ next.world.Calm)
      (Leaves (System.SettledIn World.Calm) Death.Ordinary) := by
    apply (scheduleReconnect_meets system _).weaken (fun _ stands => stands)
    · rintro _ _ ⟨id, timers, added, rfl⟩
      exact ⟨⟨settled.toTimed.scheduled free added, rfl⟩, calm⟩
    · rintro _ _ rfl
      trivial
  apply Meets.bind schedules
  intro _
  have severs := (reconnectFromEvent_severs (Z := Z)).disconnect false
  have leaving := leaving_closable.disconnect (leaving_closable (Z := Z)).reconnectFromEvent
  refine Meets.bind (severs.waiting leaving |>.weaken (fun _ holds => holds)
    (fun _ _ holds => holds) ?_) fun _ =>
      meets_pure fun _ holds => ⟨holds.1.settled, holds.2⟩
  intro exit system left
  cases exit with
  | jump => exact ⟨left.1.settled, left.2⟩
  | died death => exact left

end Calm

section Mild

variable {condition : World → Prop} {jumps : System Z → Prop}

/-- A closed connection without a reconnect gets one. -/
theorem connectFail_loose :
    Meets (fun system => System.Loose system ∧ condition system.world) (connectFail (Z := Z))
      (fun _ => System.SettledIn condition) (Leaves jumps Death.Ordinary) := by
  apply meets_pointwise
  rintro system ⟨loose, world⟩
  apply (connectFail_meets loose.free).weaken (fun _ stands => stands)
  · rintro _ _ ⟨delay, id, timers, added, rfl⟩
    have timed : system.refused.Timed :=
      loose.toTimed.retime (congrArg Connection.timing system.refused_connection)
    have free : system.refused.uplink.reconnectScheduled = false :=
      (congrArg Connection.reconnectScheduled system.refused_connection).trans loose.free
    have closed : system.refused.uplink.isOpen = false :=
      (congrArg Connection.isOpen system.refused_connection).trans loose.closed
    have waiting : (system.refused.scheduled id timers).Waiting :=
      ⟨⟨timed.scheduled free added, rfl⟩, closed⟩
    exact ⟨waiting.settled, world⟩
  · rintro _ _ rfl
    trivial

theorem loose_stable (lasting : Lasting condition) :
    Stable (Z := Z) (fun system => system.Loose ∧ condition system.world) (fun _ => True)
      Death.Ordinary where
  frame before after same rest holds :=
    ⟨⟨timed_durable.frame before after same rest holds.1.toTimed,
      (congrArg Connection.isOpen same).trans holds.1.closed,
      (congrArg Connection.reconnectScheduled same).trans holds.1.free⟩,
      lasting _ _ rest holds.2⟩
  add _ _ _ _ holds added := ⟨⟨holds.1.addOther added, holds.1.closed, holds.1.free⟩, holds.2⟩
  cancel _ _ _ holds member other cancelled :=
    ⟨⟨holds.1.cancelOther member other cancelled, holds.1.closed, holds.1.free⟩, holds.2⟩
  jumps _ _ := trivial
  deaths _ ordinary := ordinary

/-- The connection is open and no reconnect is scheduled. -/
structure System.Talking (system : System Z) : Prop extends system.Timed where
  opened : system.uplink.isOpen = true
  free : system.uplink.reconnectScheduled = false

theorem talking_stable :
    Stable (Z := Z) (fun system => system.Talking ∧ system.world.Mild)
      (System.SettledIn World.Mild) Death.Ordinary where
  frame before after same rest holds :=
    ⟨⟨timed_durable.frame before after same rest holds.1.toTimed,
      (congrArg Connection.isOpen same).trans holds.1.opened,
      (congrArg Connection.reconnectScheduled same).trans holds.1.free⟩, holds.2.suffix rest⟩
  add _ _ _ _ holds added := ⟨⟨holds.1.addOther added, holds.1.opened, holds.1.free⟩, holds.2⟩
  cancel _ _ _ holds member other cancelled :=
    ⟨⟨holds.1.cancelOther member other cancelled, holds.1.opened, holds.1.free⟩, holds.2⟩
  jumps _ holds :=
    ⟨⟨holds.1.toTimed, .inl (by rw [holds.1.free, holds.1.opened]; rfl)⟩, holds.2⟩
  deaths _ ordinary := ordinary

/-- The callbacks of a mild world fail before the reconnect or let the connection close. -/
theorem closeIfOpen_loose {reconnect : LoopM Z Unit} :
    Meets (fun system : System Z => system.Timed ∧ system.uplink.reconnectScheduled = false ∧
        system.world.Mild)
      (get >>= fun system : System Z => Program.when system.uplink.isOpen
        (loopUplinkDisconnected reconnect >>= fun _ => closeConnection >>= fun _ => cancelPing))
      (fun _ system => system.Loose ∧ system.world.Mild)
      (Leaves (System.SettledIn World.Mild) Death.Ordinary) := by
  apply meets_get
  rintro system ⟨timed, free, mild⟩
  apply meets_when
  · intro opened
    apply Meets.bind (talking_stable.disconnected_mild.start ⟨⟨timed, opened, free⟩, mild⟩)
    intro _
    apply meets_pointwise
    rintro system ⟨talking, mild⟩
    apply (hangUp_meets system).weaken (fun _ stands => stands)
    · rintro _ _ ⟨timers, silenced, rfl⟩
      exact ⟨⟨talking.hungUp silenced, rfl, talking.free⟩, mild⟩
    · rintro _ _ rfl
      trivial
  · rintro closed _ rfl
    exact ⟨⟨timed, closed, free⟩, mild⟩

theorem disconnectAndReset_loose {reconnect : LoopM Z Unit} :
    Meets (System.SettledIn World.Mild) (uplinkDisconnect reconnect true)
      (fun _ system => system.Loose ∧ system.world.Mild)
      (Leaves (System.SettledIn World.Mild) Death.Ordinary) := by
  apply meets_get
  rintro system ⟨settled, mild⟩
  refine Meets.bind (meets_when ?_ ?_) fun _ => closeIfOpen_loose
  · intro due
    simp only [Bool.and_true] at due
    apply (cancelReconnect_meets system).weaken (fun _ stands => stands)
    · rintro _ _ ⟨timers, cancelled, rfl⟩
      exact ⟨settled.unscheduled due cancelled, rfl, mild⟩
    · rintro _ _ rfl
      trivial
  · rintro free _ rfl
    exact ⟨settled.toTimed, by simpa using free, mild⟩

theorem handleRejection_settled :
    Keeps (System.SettledIn World.Mild) (System.SettledIn World.Mild) Death.Ordinary
      (handleRejection (Z := Z)) := by
  apply Meets.bind disconnectAndReset_loose
  intro _
  refine Meets.bind (meets_modify fun system holds => ?_) fun _ => connectFail_loose
  exact (loose_stable mild_lasting).frame system _ rfl List.suffix_rfl holds

theorem errReadStray_settled :
    Keeps (System.SettledIn World.Mild) (System.SettledIn World.Mild) Death.Ordinary
      (errReadStray (Z := Z)) :=
  Meets.bind disconnectAndReset_loose fun _ => connectFail_loose

end Mild

section Connecting

variable {jumps : System Z → Prop}

theorem openConnection_loose (inflater : Inflater Z) :
    Meets System.Loose (openConnection inflater) (fun _ => System.Settled)
      (Leaves jumps Death.Ordinary) := by
  apply meets_pointwise
  intro system loose
  have timed : (system.connected inflater).Timed := ⟨loose.distinct, loose.waiting, loose.ping⟩
  apply (openConnection_meets inflater system).weaken (fun _ stands => stands)
  · rintro _ _ ⟨id, timers, added, rfl⟩
    exact ⟨timed.armed added, .inl loose.free⟩
  · rintro _ _ rfl
    trivial

/-- A closed connection without a reconnect connects or waits again. -/
theorem uplinkConnect_loose (inflater : Inflater Z) :
    Meets System.Loose (uplinkConnect inflater) (fun _ => System.Settled)
      (Leaves jumps Death.Ordinary) := by
  have fails : Meets (fun system : System Z => system.Loose ∧ system.world.Any) connectFail
      (fun _ => System.Settled) (Leaves jumps Death.Ordinary) :=
    connectFail_loose.weaken (fun _ holds => holds) (fun _ _ holds => holds.1) (fun _ _ left => left)
  have connects := (loose_stable any_lasting).uplinkConnect inflater
    (fun _ holds => .inl holds.1.closed) fails
    ((openConnection_loose inflater).weaken (fun _ holds => holds.1.1) (fun _ _ holds => holds)
      (fun _ _ left => left))
  exact connects.weaken (fun _ loose => ⟨loose, trivial⟩) (fun _ _ holds => holds)
    (fun _ _ left => left)

end Connecting

end Ucollect.Core
