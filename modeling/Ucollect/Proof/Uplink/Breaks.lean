import Ucollect.Proof.Uplink.Closing

namespace Ucollect.Core
open Library List

variable {Z : Type}

/-- A callback stops its course by failing or by losing the connection. -/
inductive Break where
  | fails
  | loses
  deriving DecidableEq, Repr

/-- The first action of a script that breaks the connection. -/
def firstBreak : List PluginAction → Option Break
  | [] => none
  | .fail :: _ => some .fails
  | .send _ .lost :: _ => some .loses
  | _ :: rest => firstBreak rest

/-- No disconnected callback fails before it loses the connection. -/
def World.Calm (world : World) : Prop :=
  ∀ script ∈ world.disconnects, firstBreak script ≠ some .fails

/-- No disconnected callback loses the connection before it fails. -/
def World.Mild (world : World) : Prop :=
  ∀ script ∈ world.disconnects, firstBreak script ≠ some .loses

instance (world : World) : Decidable world.Calm :=
  inferInstanceAs (Decidable (∀ script ∈ world.disconnects, _))

instance (world : World) : Decidable world.Mild :=
  inferInstanceAs (Decidable (∀ script ∈ world.disconnects, _))

theorem World.Calm.suffix {before after : World} (calm : before.Calm)
    (rest : after.disconnects <:+ before.disconnects) : after.Calm :=
  fun script member => calm script (rest.subset member)

theorem World.Mild.suffix {before after : World} (mild : before.Mild)
    (rest : after.disconnects <:+ before.disconnects) : after.Mild :=
  fun script member => mild script (rest.subset member)

/-- The callback that runs next is one of the world or does nothing. -/
theorem World.next_disconnect {world : World} {cause : Option Break} (some : cause ≠ none)
    (none : ∀ script ∈ world.disconnects, firstBreak script ≠ cause) :
    firstBreak (world.disconnects.headD []) ≠ cause := by
  cases scripts : world.disconnects with
  | nil => exact some.symm
  | cons script rest => exact none script (by rw [scripts]; exact mem_cons_self)

section Calm

/-- The connection is closed and no later callback fails too early. -/
def System.Severed (system : System Z) : Prop :=
  system.world.Calm ∧ system.uplink.isOpen = false

/-- The program closes the connection also where a callback fails in it. -/
def Severs (program : LoopM Z Unit) : Prop :=
  Meets (fun system => system.world.Calm) program (fun _ => System.Severed)
    (Leaves System.Severed fun _ => True)

theorem severed_stable : Stable (Z := Z) System.Severed System.Severed fun _ => True where
  frame _ _ same rest holds :=
    ⟨holds.1.suffix rest, (congrArg Connection.isOpen same).trans holds.2⟩
  add _ _ _ _ holds _ := holds
  cancel _ _ _ holds _ _ _ := holds
  jumps _ holds := holds
  deaths _ _ := trivial

variable {reconnect : LoopM Z Unit}

theorem Severs.keeps (severs : Severs reconnect) :
    Keeps System.Severed System.Severed (fun _ => True) reconnect :=
  severs.weaken (fun _ holds => holds.1) (fun _ _ holds => holds) (fun _ _ left => left)

/-- The callback of an active plugin either goes on or has closed the connection. -/
def System.Engaged (owner : Nat) (system : System Z) : Prop :=
  system.world.Calm ∧
    (system.plugins[owner]?.any (·.active) = true ∨ system.uplink.isOpen = false)

/-- Being engaged does not depend on what sending and timeouts change. -/
theorem System.Engaged.frame {owner : Nat} {before after : System Z}
    (holds : before.Engaged owner) (world : after.world = before.world)
    (plugins : after.plugins = before.plugins) (opened : after.uplink = before.uplink) :
    after.Engaged owner := by
  rw [Engaged, world, plugins, opened]
  exact holds

theorem loopTimeoutAdd_engaged (owner delay : Nat) :
    Keeps (System.Engaged (Z := Z) owner) System.Severed (fun _ => True)
      (loopTimeoutAdd delay .other) := by
  apply meets_pointwise
  intro system holds
  apply (loopTimeoutAdd_meets system delay .other).weaken (fun _ stands => stands)
  · rintro _ _ ⟨timers, -, rfl⟩
    exact holds.frame rfl rfl rfl
  · rintro _ _ rfl
    trivial

theorem loopTimeoutCancel_engaged (owner id : Nat) :
    Keeps (System.Engaged (Z := Z) owner) System.Severed (fun _ => True)
      (loopTimeoutCancel id) := by
  apply meets_pointwise
  intro system holds
  apply (loopTimeoutCancel_meets system id).weaken (fun _ stands => stands)
  · rintro _ _ ⟨timers, -, rfl⟩
    exact holds.frame rfl rfl rfl
  · rintro _ _ rfl
    trivial

theorem send_delivered_engaged (owner : Nat) (data : Bytes) :
    Keeps (System.Engaged (Z := Z) owner) System.Severed (fun _ => True)
      (uplinkPluginSendMessage reconnect owner data .delivered) := by
  apply Keeps.get
  intro system
  split
  · exact .pure ()
  split
  · refine .bind (.get fun system => ?_) fun _ => .pure ()
    cases system.uplink.isOpen with
    | false => exact .pure false
    | true => exact fun system holds => holds.frame rfl rfl rfl
  · exact .pure ()

section

variable (severs : Severs reconnect)
include severs

theorem Severs.sendMessage (type : UInt8) (data : Bytes) {delivery : Delivery}
    (broken : delivery ≠ .delivered) :
    Meets (fun system => system.world.Calm) (uplinkSendMessage reconnect type data delivery)
      (fun _ => System.Severed) (Leaves System.Severed fun _ => True) := by
  apply meets_get
  intro system calm
  split
  · cases delivery with
    | delivered => exact absurd rfl broken
    | lost =>
      refine Meets.bind ?_ fun _ => Keeps.pure false
      exact severs.start calm
    | fatal => exact meets_throw fun _ _ => trivial
  case isFalse closed =>
    rintro _ rfl
    exact ⟨calm, Bool.eq_false_of_not_eq_true closed⟩

/-- A send that is not delivered leaves the callback without a connection. -/
theorem Severs.send (owner : Nat) (data : Bytes) {delivery : Delivery}
    (broken : delivery ≠ .delivered) :
    Meets (System.Engaged owner) (uplinkPluginSendMessage reconnect owner data delivery)
      (fun _ => System.Severed) (Leaves System.Severed fun _ => True) := by
  apply meets_get
  rintro system ⟨calm, engaged⟩
  split
  case h_1 absent =>
    rintro _ rfl
    exact ⟨calm, by simpa [absent] using engaged⟩
  case h_2 plugin found =>
    split
    · refine Meets.bind ?_ fun _ => Keeps.pure ()
      exact (severs.sendMessage _ _ broken).start calm
    case isFalse inactive =>
      rintro _ rfl
      exact ⟨calm, by simpa [found, inactive] using engaged⟩

theorem Severs.runScript (owner : Nat) {script : List PluginAction}
    (first : firstBreak script ≠ some .fails) :
    Meets (System.Engaged owner) (runScript reconnect owner script)
      (fun _ system => system.world.Calm) (Leaves System.Severed fun _ => True) := by
  induction script with
  | nil => exact meets_pure fun _ holds => holds.1
  | cons action rest ih =>
    have later : Keeps System.Severed System.Severed (fun _ => True)
        (Core.runScript reconnect owner rest) := severed_stable.runScript severs.keeps owner rest
    have done := later.weaken (fun _ holds => holds) (fun _ system holds => holds.1)
      (fun _ _ left => left)
    cases action with
    | fail => exact absurd rfl first
    | addTimeout delay =>
      apply Meets.bind (Keeps.bind (loopTimeoutAdd_engaged owner delay) fun _ => .pure ())
      exact fun _ => ih first
    | cancelTimeout id =>
      apply Meets.bind (Keeps.get fun _ => .when fun _ => loopTimeoutCancel_engaged owner id)
      exact fun _ => ih first
    | send data delivery =>
      cases delivery with
      | delivered => exact Meets.bind (send_delivered_engaged owner data) fun _ => ih first
      | lost => exact Meets.bind (severs.send owner data (by decide)) fun _ => done
      | fatal => exact Meets.bind (severs.send owner data (by decide)) fun _ => done

theorem Severs.disconnectPlugin (index : Nat) :
    Keeps (fun system => system.world.Calm) System.Severed (fun _ => True)
      (disconnectPlugin reconnect index) := by
  apply meets_get
  intro system calm
  refine Meets.bind (meets_when ?_ ?_) fun _ => meets_modify fun _ calm => calm
  · intro active
    have script : Meets (fun current => current = system) (takeDisconnect (Z := Z))
        (fun script next => firstBreak script ≠ some .fails ∧ next.Engaged index)
        (Leaves System.Severed fun _ => True) := by
      rintro _ rfl
      exact ⟨World.next_disconnect (by decide) calm, calm.suffix (tail_suffix _), .inl active⟩
    apply Meets.bind script
    intro script system ⟨first, engaged⟩
    exact severs.runScript index first system engaged
  · rintro _ _ rfl
    exact calm

/-- A disconnect severs the connection. -/
theorem Severs.disconnect (resetReconnect : Bool) :
    Severs (uplinkDisconnect reconnect resetReconnect) := by
  apply meets_get
  intro system calm
  suffices rest : Meets (fun system => system.world.Calm)
      (get >>= fun system : System Z => Program.when system.uplink.isOpen
        (loopUplinkDisconnected reconnect >>= fun _ => closeConnection >>= fun _ => cancelPing))
      (fun _ => System.Severed) (Leaves System.Severed fun _ => True) by
    refine Meets.bind (meets_when ?_ ?_) fun _ => rest
    · intro _
      apply (cancelReconnect_meets system).weaken (fun _ stands => stands)
      · rintro _ _ ⟨timers, -, rfl⟩
        exact calm
      · rintro _ _ rfl
        trivial
    · rintro _ _ rfl
      exact calm
  apply meets_get
  intro system calm
  apply meets_when
  · intro _
    have callbacks : Keeps (fun system => system.world.Calm) System.Severed (fun _ => True)
        (loopUplinkDisconnected reconnect) :=
      .get fun _ => .each fun index _ => severs.disconnectPlugin index
    apply Meets.bind (callbacks.start calm)
    intro _
    apply meets_pointwise
    intro system calm
    apply (hangUp_meets system).weaken (fun _ stands => stands)
    · rintro _ _ ⟨timers, -, rfl⟩
      exact ⟨calm, rfl⟩
    · rintro _ _ rfl
      trivial
  · rintro closed _ rfl
    exact ⟨calm, closed⟩

end

/-- So does a reconnect, however deep it is nested. -/
theorem uplinkReconnect_severs (depth : Nat) : Severs (uplinkReconnect (Z := Z) depth) := by
  induction depth with
  | zero => exact meets_throw fun _ _ => trivial
  | succ depth ih =>
    apply meets_get
    intro system calm
    refine Meets.bind (meets_when ?_ ?_) fun _ => ih.disconnect false
    · intro _
      apply (scheduleReconnect_meets system 0).weaken (fun _ stands => stands)
      · rintro _ _ ⟨id, timers, -, rfl⟩
        exact calm
      · rintro _ _ rfl
        trivial
    · rintro _ _ rfl
      exact calm

theorem reconnectFromEvent_severs : Severs (reconnectFromEvent (Z := Z)) := by
  apply meets_get
  intro system calm
  exact (uplinkReconnect_severs system.world.depth).start calm

end Calm

section Mild

variable {invariant jumps : System Z → Prop} {accepted : Death → Prop} {reconnect : LoopM Z Unit}

/-- A callback that fails before it loses the connection never reconnects. -/
theorem Stable.runScript_mild (stable : Stable invariant jumps accepted) (owner : Nat)
    {script : List PluginAction} (first : firstBreak script ≠ some .loses) :
    Keeps invariant jumps accepted (Core.runScript reconnect owner script) := by
  induction script with
  | nil => exact .pure ()
  | cons action rest ih =>
    have acts : (∀ data, action ≠ .send data .lost) →
        Keeps invariant jumps accepted (Core.pluginAction reconnect owner action) :=
      fun kept => stable.pluginAction owner fun data lost => absurd lost (kept data)
    cases action with
    | fail => exact meets_throw stable.jumps
    | addTimeout delay => exact .bind (acts nofun) fun _ => ih first
    | cancelTimeout id => exact .bind (acts nofun) fun _ => ih first
    | send data delivery =>
      cases delivery with
      | delivered => exact .bind (acts (by simp)) fun _ => ih first
      | lost => exact absurd rfl first
      | fatal => exact .bind (acts (by simp)) fun _ => ih first

theorem Stable.disconnected_mild
    (stable : Stable (fun system => invariant system ∧ system.world.Mild) jumps accepted) :
    Keeps (fun system => invariant system ∧ system.world.Mild) jumps accepted
      (Core.loopUplinkDisconnected reconnect) := by
  refine .get fun _ => .each fun index _ => .get fun _ =>
    .bind (.when fun _ => ?_) fun _ => stable.setActive index false
  have takes : Meets (fun system : System Z => invariant system ∧ system.world.Mild)
      Core.takeDisconnect (fun script next => firstBreak script ≠ some .loses ∧
        invariant next ∧ next.world.Mild) (Leaves jumps accepted) :=
    fun system holds => ⟨World.next_disconnect (by decide) holds.2,
      stable.frame system _ rfl (tail_suffix _) holds⟩
  apply Meets.bind takes
  intro script system holds
  exact stable.runScript_mild index holds.1 system holds.2

end Mild

end Ucollect.Core
