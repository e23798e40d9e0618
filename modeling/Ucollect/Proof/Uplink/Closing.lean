import Ucollect.Proof.Uplink.Ordinary

namespace Ucollect.Core
open Library

variable {Z : Type}

/-- The reconnect timeout is pending with its identifier. -/
def System.scheduled (system : System Z) (id : Nat) (timers : Timers Callback) : System Z :=
  { system with
    timers := timers
    uplink := { system.uplink with reconnectId := id, reconnectScheduled := true } }

def System.unscheduled (system : System Z) (timers : Timers Callback) : System Z :=
  { system with
    timers := timers
    uplink := { system.uplink with reconnectScheduled := false } }

/-- The state with the next ping scheduled. -/
def System.armed (system : System Z) (id : Nat) (timers : Timers Callback) : System Z :=
  { system with
    timers := timers
    uplink := { system.uplink with pingTimeout := id, pingScheduled := true } }

/-- The connection is closed without a ping. -/
def System.hungUp (system : System Z) (timers : Timers Callback) : System Z :=
  { system with
    timers := timers
    uplink := { system.uplink with isOpen := false, pingScheduled := false }.bufferReset
    socket := ⟨[], false⟩ }

def System.configured (system : System Z) (target : Target) : System Z :=
  { system with uplink := { system.uplink with
      remoteName := some target.remoteName
      service := some target.service
      login := target.login
      password := target.password
      cert := target.cert } }

/-- The timers lose the ping that is scheduled. -/
def System.Silenced (system : System Z) (timers : Timers Callback) : Prop :=
  if system.uplink.pingScheduled then system.timers.cancel system.uplink.pingTimeout = some timers
  else timers = system.timers

theorem scheduleReconnect_meets (system : System Z) (delay : Nat) :
    Meets (fun current => current = system) (scheduleReconnect delay)
      (fun _ next => ∃ id timers,
        system.timers.add .wide system.now delay .reconnectNow = some (id, timers) ∧
          next = system.scheduled id timers)
      (fun exit _ => exit = .died .hang) := by
  apply Meets.bind (loopTimeoutAdd_meets system delay .reconnectNow)
  intro id
  apply meets_modify
  rintro _ ⟨timers, added, rfl⟩
  exact ⟨id, timers, added, rfl⟩

theorem schedulePing_meets (system : System Z) :
    Meets (fun current => current = system) (schedulePing (Z := Z))
      (fun _ next => ∃ id timers,
        system.timers.add .wide system.now pingTimeoutTime .sendPing = some (id, timers) ∧
          next = system.armed id timers)
      (fun exit _ => exit = .died .hang) := by
  apply Meets.bind (loopTimeoutAdd_meets system pingTimeoutTime .sendPing)
  intro id
  apply meets_modify
  rintro _ ⟨timers, added, rfl⟩
  exact ⟨id, timers, added, rfl⟩

theorem cancelReconnect_meets (system : System Z) :
    Meets (fun current => current = system) (cancelReconnect (Z := Z))
      (fun _ next => ∃ timers, system.timers.cancel system.uplink.reconnectId = some timers ∧
        next = system.unscheduled timers)
      (fun exit _ => exit = .died (.assertion .timeoutMissing)) := by
  apply meets_get
  intro current stands
  rw [stands]
  apply Meets.bind (loopTimeoutCancel_meets system system.uplink.reconnectId)
  intro _
  apply meets_modify
  rintro _ ⟨timers, cancelled, rfl⟩
  exact ⟨timers, cancelled, rfl⟩

/-- The next attempt to connect waits longer. -/
def System.refused (system : System Z) : System Z :=
  { system with uplink := system.uplink.connectFailed }

theorem System.refused_connection (system : System Z) :
    system.refused.connection = system.connection := by
  unfold refused Uplink.connectFailed
  split
  · rfl
  · split <;> rfl

/-- A failed connection schedules the next attempt. -/
theorem connectFail_meets {system : System Z}
    (free : system.uplink.reconnectScheduled = false) :
    Meets (fun current => current = system) (connectFail (Z := Z))
      (fun _ next => ∃ delay id timers,
        system.refused.timers.add .wide system.refused.now delay .reconnectNow = some (id, timers) ∧
          next = system.refused.scheduled id timers)
      (fun exit _ => exit = .died .hang) := by
  apply meets_get
  intro current stands
  rw [stands, if_neg (by simp [free])]
  have refuses : Meets (fun current => current = system) (modifyUplink Uplink.connectFailed)
      (fun _ next => next = system.refused) (fun exit _ => exit = .died .hang) := by
    rintro _ rfl
    rfl
  apply Meets.bind refuses
  intro _
  apply meets_get
  intro current stands
  rw [stands]
  apply (scheduleReconnect_meets system.refused _).weaken (fun _ stands => stands)
  · rintro _ _ ⟨id, timers, added, rfl⟩
    exact ⟨_, id, timers, added, rfl⟩
  · exact fun _ _ same => same

theorem hangUp_meets (system : System Z) :
    Meets (fun current => current = system) (closeConnection >>= fun _ => cancelPing (Z := Z))
      (fun _ next => ∃ timers, system.Silenced timers ∧ next = system.hungUp timers)
      (fun exit _ => exit = .died (.assertion .timeoutMissing)) := by
  let closed : System Z := { system with
    uplink := { system.uplink with isOpen := false }.bufferReset
    socket := ⟨[], false⟩ }
  have closes : Meets (fun current => current = system) (closeConnection (Z := Z))
      (fun _ next => next = closed) (fun exit _ => exit = .died (.assertion .timeoutMissing)) := by
    rintro _ rfl
    rfl
  apply Meets.bind closes
  intro _
  apply meets_get
  intro current stands
  rw [stands]
  cases ping : system.uplink.pingScheduled with
  | false =>
    rintro _ rfl
    have same : closed.uplink.pingScheduled = false := ping
    rw [same]
    exact ⟨system.timers, by simp [System.Silenced, ping], rfl⟩
  | true =>
    have same : closed.uplink.pingScheduled = true := ping
    rw [same]
    apply Meets.bind (loopTimeoutCancel_meets closed closed.uplink.pingTimeout)
    intro _
    apply meets_modify
    rintro _ ⟨timers, cancelled, rfl⟩
    have silenced : system.Silenced timers := by
      rw [System.Silenced, if_pos ping]
      exact cancelled
    exact ⟨timers, silenced, rfl⟩

/-- The connection is open, and what the last one received is only partly forgotten. -/
def System.connected (system : System Z) (inflater : Inflater Z) : System Z :=
  { system with
    uplink := { system.uplink with
      isOpen := true
      authStatus := .notStarted
      reconnectTimeout := if system.uplink.seenData then 0 else system.uplink.reconnectTimeout
      seenData := false
      pingsUnanswered := 0
      inflateState := inflater.reset system.uplink.inflateState }
    socket := ⟨[], false⟩
    history := ⟨[], [], [], []⟩ }

/-- An opened connection schedules its ping. -/
theorem openConnection_meets (inflater : Inflater Z) (system : System Z) :
    Meets (fun current => current = system) (openConnection inflater)
      (fun _ next => ∃ id timers,
        system.timers.add .wide system.now pingTimeoutTime .sendPing = some (id, timers) ∧
          next = (system.connected inflater).armed id timers)
      (fun exit _ => exit = .died .hang) := by
  intro current stands
  rw [stands]
  exact schedulePing_meets (system.connected inflater) (system.connected inflater) rfl

/-- A connect fails like any other failed attempt, or it opens the connection. -/
theorem Stable.uplinkConnect {before after jumps left : System Z → Prop} {accepted : Death → Prop}
    (stable : Stable before left accepted) (inflater : Inflater Z)
    (guarded : ∀ system, before system → system.uplink.isOpen = false ∨
      accepted (.assertion .connectWhileOpen))
    (fails : Meets before connectFail (fun _ => after) (Leaves jumps accepted))
    (opens : Meets (fun system => before system ∧ system.uplink.isOpen = false)
      (openConnection inflater) (fun _ => after) (Leaves jumps accepted)) :
    Meets before (uplinkConnect inflater) (fun _ => after) (Leaves jumps accepted) := by
  apply meets_get
  intro system holds
  split
  case isTrue opened =>
    intro _ _
    exact (guarded system holds).resolve_left (by simp [opened])
  case isFalse closed =>
    split
    · exact fails.start holds
    split
    · exact fun _ _ => stable.deaths .die trivial
    have counts : Meets (fun current => current = system)
        (Core.modifyUplink (Z := Z) fun uplink => { uplink with
          loginFailureCount := uplink.loginFailureCount + 1, lastConnect := system.now })
        (fun _ next => before next ∧ next.uplink.isOpen = false) (Leaves jumps accepted) := by
      apply meets_modify
      intro current stands
      subst stands
      exact ⟨stable.frame current _ rfl List.suffix_rfl holds,
        Bool.eq_false_of_not_eq_true closed⟩
    apply Meets.bind counts
    intro _
    split
    · exact opens
    · exact fails.weaken (fun _ holds => holds.1) (fun _ _ holds => holds) (fun _ _ left => left)

/-- The invariant survives a scheduled reconnect and a closed connection. -/
structure Closable (invariant jumps : System Z → Prop) (accepted : Death → Prop) : Prop
    extends Stable invariant jumps accepted where
  schedule : ∀ (system : System Z) (delay id : Nat) (timers : Timers Callback), invariant system →
    system.uplink.reconnectScheduled = false →
    system.timers.add .wide system.now delay .reconnectNow = some (id, timers) →
    invariant (system.scheduled id timers)
  hangUp : ∀ (system : System Z) (timers : Timers Callback), invariant system →
    system.Silenced timers → invariant (system.hungUp timers)

/-- The invariant survives also a cancelled reconnect. -/
structure Durable (invariant jumps : System Z → Prop) (accepted : Death → Prop) : Prop
    extends Closable invariant jumps accepted where
  unschedule : ∀ (system : System Z) (timers : Timers Callback), invariant system →
    system.uplink.reconnectScheduled = true →
    system.timers.cancel system.uplink.reconnectId = some timers →
    invariant (system.unscheduled timers)

variable {invariant jumps : System Z → Prop} {accepted : Death → Prop}

namespace Closable

variable (closable : Closable invariant jumps accepted)
include closable

theorem scheduleReconnect (delay : Nat) {system : System Z} (holds : invariant system)
    (free : system.uplink.reconnectScheduled = false) :
    Meets (fun current => current = system) (scheduleReconnect delay) (fun _ => invariant)
      (Leaves jumps accepted) := by
  apply (scheduleReconnect_meets system delay).weaken (fun _ stands => stands)
  · rintro _ _ ⟨id, timers, added, rfl⟩
    exact closable.schedule system delay id timers holds free added
  · rintro _ _ rfl
    exact closable.deaths .hang trivial

theorem closeAndSilence :
    Keeps invariant jumps accepted (closeConnection >>= fun _ => cancelPing (Z := Z)) := by
  apply meets_pointwise
  intro system holds
  apply (hangUp_meets system).weaken (fun _ stands => stands)
  · rintro _ _ ⟨timers, silenced, rfl⟩
    exact closable.hangUp system timers holds silenced
  · rintro _ _ rfl
    exact closable.deaths (.assertion .timeoutMissing) rfl

/-- A disconnect runs the callbacks of the plugins before it closes the connection. -/
theorem closeIfOpen {reconnect : LoopM Z Unit} (reconnects : Keeps invariant jumps accepted reconnect) :
    Keeps invariant jumps accepted (get >>= fun system : System Z =>
      Program.when system.uplink.isOpen (loopUplinkDisconnected reconnect >>= fun _ =>
        closeConnection >>= fun _ => cancelPing)) :=
  .get fun _ => .when fun _ =>
    .bind (closable.loopUplinkDisconnected reconnects) fun _ => closable.closeAndSilence

/-- Disconnecting keeps what the reconnect keeps. -/
theorem disconnect {reconnect : LoopM Z Unit} (reconnects : Keeps invariant jumps accepted reconnect) :
    Keeps invariant jumps accepted (uplinkDisconnect reconnect false) := by
  apply Keeps.get
  intro system
  rw [Bool.and_false]
  exact .bind (.when nofun) fun _ => closable.closeIfOpen reconnects

/-- The stack bounds the nesting of reconnects. -/
theorem reconnect (depth : Nat) :
    Keeps invariant jumps accepted (uplinkReconnect (Z := Z) depth) := by
  induction depth with
  | zero => exact closable.die trivial
  | succ depth ih =>
    apply meets_get
    intro system holds
    apply Meets.bind
    · apply meets_when
      · intro free
        simp only [Bool.not_eq_true'] at free
        exact closable.scheduleReconnect 0 holds free
      · rintro _ _ rfl
        exact holds
    · exact fun _ => closable.disconnect ih

theorem reconnectFromEvent : Keeps invariant jumps accepted (reconnectFromEvent (Z := Z)) :=
  .get fun system => closable.reconnect system.world.depth

theorem connectFail {other : System Z → Prop}
    (asserts : accepted (.assertion .connectFailWhileScheduled)) :
    Keeps invariant other accepted (connectFail (Z := Z)) := by
  apply meets_pointwise
  intro system holds
  cases waits : system.uplink.reconnectScheduled with
  | true =>
    rintro _ rfl
    simpa [Core.connectFail, eval_bind, waits, Leaves] using asserts
  | false =>
    apply (connectFail_meets waits).weaken (fun _ stands => stands)
    · rintro _ _ ⟨delay, id, timers, added, rfl⟩
      have kept := closable.frame system system.refused system.refused_connection
        List.suffix_rfl holds
      have free : system.refused.uplink.reconnectScheduled = false :=
        (congrArg Connection.reconnectScheduled system.refused_connection).trans waits
      exact closable.schedule system.refused delay id timers kept free added
    · rintro _ _ rfl
      exact closable.deaths .hang trivial

theorem closedByRemote (asserts : accepted (.assertion .closedWhileScheduled)) :
    Keeps invariant jumps accepted (closedByRemote (Z := Z)) := by
  apply meets_get
  intro system holds
  split
  · exact fun _ _ => asserts
  case isFalse free =>
    apply Meets.bind (closable.scheduleReconnect _ holds (Bool.eq_false_of_not_eq_true free))
    intro _
    exact .bind (closable.disconnect closable.reconnectFromEvent) fun _ => Keeps.pure _

/-- A new target keeps what does not depend on its name. -/
theorem configureTarget (target : Option Target)
    (renames : ∀ (system : System Z) (target : Target), invariant system →
      invariant (system.configured target)) :
    Keeps invariant jumps accepted (configureTarget (Z := Z) target) := by
  cases target with
  | none => exact .pure ()
  | some target =>
    apply Keeps.get
    intro system
    split
    · exact closable.die trivial
    · exact .bind (meets_modify fun system holds => renames system target holds) fun _ =>
        .when fun _ => closable.reconnectFromEvent

end Closable

namespace Durable

variable (durable : Durable invariant jumps accepted)
include durable

theorem cancelReconnect {system : System Z} (holds : invariant system)
    (waits : system.uplink.reconnectScheduled = true) :
    Meets (fun current => current = system) (cancelReconnect (Z := Z)) (fun _ => invariant)
      (Leaves jumps accepted) := by
  apply (cancelReconnect_meets system).weaken (fun _ stands => stands)
  · rintro _ _ ⟨timers, cancelled, rfl⟩
    exact durable.unschedule system timers holds waits cancelled
  · rintro _ _ rfl
    exact durable.deaths (.assertion .timeoutMissing) rfl

theorem disconnectAndReset :
    Keeps invariant jumps accepted (uplinkDisconnect (Z := Z) reconnectFromEvent true) := by
  apply meets_get
  intro system holds
  refine Meets.bind (meets_when ?_ ?_) fun _ => durable.closeIfOpen durable.reconnectFromEvent
  · intro due
    simp only [Bool.and_true] at due
    exact durable.cancelReconnect holds due
  · rintro _ _ rfl
    exact holds

variable (asserts : accepted (.assertion .connectFailWhileScheduled))
include asserts

theorem handleRejection : Keeps invariant jumps accepted (handleRejection (Z := Z)) :=
  .bind durable.disconnectAndReset fun _ =>
    .bind (durable.modifyUplink fun _ => rfl) fun _ => durable.connectFail asserts

theorem errReadStray : Keeps invariant jumps accepted (errReadStray (Z := Z)) :=
  .bind durable.disconnectAndReset fun _ => durable.connectFail asserts

end Durable

end Ucollect.Core
