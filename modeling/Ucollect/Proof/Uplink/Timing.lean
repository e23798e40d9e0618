import Ucollect.Proof.Uplink.Receiver
import Ucollect.Proof.Uplink.Runs

namespace Ucollect.Core
open Library

variable {Z : Type}

/-- These are the parts of the system that the timeouts of the uplink depend on. -/
structure Timing where
  timers : Timers Callback
  remoteName : Option Bytes
  pingTimeout : Nat
  pingScheduled : Bool
  reconnectScheduled : Bool
  reconnectId : Nat
  isOpen : Bool

/-- The part of a connection that its timeouts depend on. -/
def Connection.timing (connection : Connection Z) : Timing where
  timers := connection.timers
  remoteName := connection.remoteName
  pingTimeout := connection.pingTimeout
  pingScheduled := connection.pingScheduled
  reconnectScheduled := connection.reconnectScheduled
  reconnectId := connection.reconnectId
  isOpen := connection.isOpen

def System.timing (system : System Z) : Timing := system.connection.timing

/-- The reading of the connection does not change the invariant. -/
structure Timely (invariant jumps : System Z → Prop) (accepted : Death → Prop) : Prop
    extends Stable invariant jumps accepted where
  retime : ∀ before after : System Z, after.timing = before.timing →
    after.world.disconnects = before.world.disconnects → invariant before → invariant after

namespace Timely

variable {invariant jumps : System Z → Prop} {accepted : Death → Prop}
  (timely : Timely invariant jumps accepted)
include timely

/-- A change that leaves the timing alone keeps the invariant. -/
theorem retimed {other : System Z → Prop} {update : System Z → System Z}
    (same : ∀ system, (update system).timing = system.timing)
    (world : ∀ system, (update system).world = system.world) :
    Meets invariant (modify update : LoopM Z PUnit) (fun _ => invariant) (Leaves other accepted) :=
  meets_modify fun system holds =>
    timely.retime system _ (same system) (congrArg World.disconnects (world system)) holds

/-- Logging a turn keeps the invariant. -/
theorem logTurn (turn : Turn) : Keeps invariant jumps accepted (logTurn (Z := Z) turn) :=
  timely.retimed (fun _ => rfl) (fun _ => rfl)

theorem handling : Handling invariant invariant jumps accepted where
  outside := timely.toSteady
  inside := timely.toStable
  clears system holds := timely.retime system _ rfl rfl holds

variable {system : System Z}

theorem dispatching (holds : invariant system) : invariant system.dispatching := by
  unfold System.dispatching
  cases system.uplink.buffer.getD [] with
  | nil => exact timely.retime system _ rfl rfl holds
  | cons command params => exact timely.retime system _ rfl rfl holds

/-- A handled message keeps what its reconnects keep. -/
theorem handleBuffer (holds : invariant system)
    (reconnects : Reconnects system.uplink.reaction invariant invariant jumps jumps accepted) :
    Meets (fun current => current = system) (handleBuffer (Z := Z)) (fun _ => invariant)
      (Leaves jumps accepted) := by
  cases sized : system.uplink.hasSize with
  | false =>
    intro current stands
    subst stands
    rw [eval_handleBuffer_unsized sized]
    exact timely.retime current current.sized rfl rfl holds
  | true =>
    have handles := timely.handling.handleBuffer sized (timely.dispatching holds) reconnects
    simp only [ite_self] at handles
    apply handles.weaken (fun _ stands => stands)
    · rintro _ _ ⟨last, kept, rfl⟩
      exact timely.retime last _ rfl rfl (kept.elim id id)
    · exact fun _ _ left => left

/-- One readiness event keeps it, for every number of turns. -/
theorem uplinkHandle (limit : Nat) {good : System Z → Prop} (holds : invariant system)
    (reconnects : Reconnects system.uplink.reaction invariant invariant jumps jumps accepted)
    (goes : ∀ system, invariant system →
      good { system with phase := if system.uplink.isOpen then nextTurn limit else .idle }) :
    Meets (fun current => current = system) (uplinkHandle (Z := Z) limit) (fun _ => good)
      (Leaves jumps accepted) := by
  apply Meets.bind (timely.handleBuffer holds reconnects)
  intro _
  apply Meets.bind (timely.logTurn .handled)
  intro _
  apply meets_get
  intro system holds
  rintro _ rfl
  exact goes _ holds

end Timely

/-- Every program meets the empty promise. -/
theorem meets_anything {A : Type} {before : System Z → Prop} (program : LoopM Z A) :
    Meets before program (fun _ _ => True) (Leaves (fun _ => True) fun _ => True) := by
  intro system _
  cases program.eval system with
  | mk result final =>
    cases result with
    | ok value => trivial
    | error exit => cases exit <;> trivial

/-- The loop of `uplink_read` ends with the connection. -/
theorem closedByRemote_ends :
    Meets (fun _ : System Z => True) closedByRemote (fun status _ => status = .endLoop)
      (Leaves (fun _ => True) fun _ => True) := by
  apply meets_get
  intro system _
  split
  · exact fun _ _ => trivial
  · exact Meets.bind (meets_anything _) fun _ => Meets.bind (meets_anything _) fun _ =>
      meets_pure fun _ _ => rfl

section Receiving

variable {before left after jumps : System Z → Prop} {accepted : Death → Prop}
  (timely : Timely before left accepted)
include timely

theorem Timely.inflateOnce (inflater : Inflater Z) :
    Meets before (inflateOnce inflater) (fun _ => before) (Leaves jumps accepted) := by
  apply Keeps.get
  intro system
  dsimp only
  apply Meets.bind
  · exact timely.retimed (fun _ => rfl) (fun _ => rfl)
  intro _
  split
  · exact meets_pure fun _ holds => holds
  · apply Meets.bind
    · exact timely.retimed (fun _ => rfl) (fun _ => rfl)
    · exact fun _ => meets_pure fun _ holds => holds

/-- The reading goes on, or the connection may be gone. -/
def Received (before after : System Z → Prop) : RddStatus → System Z → Prop
  | .endLoop => after
  | .again => before
  | .data _ => before

variable (ends : ∀ system, before system → after system)
  (reconnects : Meets before (reconnectFromEvent (Z := Z)) (fun _ => after)
    (Leaves jumps accepted))
include ends reconnects

theorem Timely.inflateAgain (inflater : Inflater Z) :
    Meets before (inflateAgain inflater) (Received before after) (Leaves jumps accepted) := by
  apply Meets.bind (timely.inflateOnce inflater)
  intro output
  match output with
  | none => exact Meets.bind reconnects fun _ => meets_pure fun _ holds => holds
  | some [] => exact meets_pure ends
  | some (byte :: more) => exact meets_pure fun _ holds => holds

theorem Timely.logAndInflate (inflater : Inflater Z) (turn : Turn) :
    Meets before (Core.logTurn turn >>= fun _ => Core.inflateAgain inflater) (Received before after)
      (Leaves jumps accepted) := by
  apply Meets.bind
  · exact timely.retimed (fun _ => rfl) (fun _ => rfl)
  · exact fun _ => timely.inflateAgain ends reconnects inflater

omit timely ends reconnects in
/-- A close by the remote end counts as received. -/
theorem closedByRemote_received
    (closes : Meets before (closedByRemote (Z := Z)) (fun _ => after) (Leaves jumps accepted)) :
    Meets before (closedByRemote (Z := Z)) (Received before after) (Leaves jumps accepted) := by
  apply (closes.both closedByRemote_ends).weaken (fun _ holds => ⟨holds, trivial⟩)
  · rintro _ _ ⟨holds, rfl⟩
    exact holds
  · exact fun _ _ left => left.1

variable (closes : Meets before (closedByRemote (Z := Z)) (fun _ => after)
  (Leaves jumps accepted))
include closes

theorem Timely.receiveInput (inflater : Inflater Z) :
    Meets before (receiveInput inflater) (Received before after) (Leaves jumps accepted) := by
  apply meets_get
  intro system holds
  cases system.world.recv with
  | interrupted =>
    refine Meets.start ?_ holds
    refine Meets.bind (timely.retimed (fun _ => rfl) (fun _ => rfl)) fun _ => ?_
    exact meets_pure fun _ holds => holds
  | fatal => exact meets_throw fun _ _ => timely.deaths .die trivial
  | reset =>
    refine Meets.start ?_ holds
    refine Meets.bind (timely.retimed (fun _ => rfl) (fun _ => rfl)) fun _ => ?_
    exact closedByRemote_received closes
  | ready amount =>
    dsimp only
    split
    · refine Meets.start ?_ holds
      refine Meets.bind (timely.retimed (fun _ => rfl) (fun _ => rfl)) fun _ => ?_
      split
      · exact closedByRemote_received closes
      · exact meets_pure ends
    · refine Meets.start ?_ holds
      refine Meets.bind (timely.retimed (fun _ => rfl) (fun _ => rfl)) fun _ => ?_
      exact timely.logAndInflate ends reconnects inflater _

theorem Timely.readDecompressedData (inflater : Inflater Z) :
    Meets before (readDecompressedData inflater) (Received before after)
      (Leaves jumps accepted) := by
  apply Meets.bind (timely.inflateOnce inflater)
  intro output
  match output with
  | none =>
    refine Meets.bind (timely.retimed (fun _ => rfl) (fun _ => rfl)) fun _ => ?_
    exact Meets.bind reconnects fun _ => meets_pure fun _ holds => holds
  | some (byte :: more) =>
    refine Meets.bind (timely.retimed (fun _ => rfl) (fun _ => rfl)) fun _ => ?_
    exact meets_pure fun _ holds => holds
  | some [] =>
    apply meets_get
    intro system holds
    split
    · exact (timely.receiveInput ends reconnects closes inflater).start holds
    · exact (timely.logAndInflate ends reconnects inflater _).start holds

/-- A turn of the reading ends the loop where the connection may be gone. -/
theorem Timely.uplinkReceive (inflater : Inflater Z) (limit : Nat) {good : System Z → Prop}
    (stops : ∀ system, after system → good { system with phase := .idle })
    (goes : ∀ system phase, before system → good { system with phase := phase }) :
    Meets before (uplinkReceive inflater limit) (fun _ => good) (Leaves jumps accepted) := by
  have prepares : Meets before (prepareBuffer (Z := Z)) (fun _ => before)
      (Leaves jumps accepted) := by
    apply timely.retimed
    · intro system
      cases buffer : system.uplink.buffer with
      | none => simp only [buffer]; rfl
      | some bytes => simp only [buffer]
    · exact fun _ => rfl
  apply Meets.bind prepares
  intro _
  apply Meets.bind (timely.readDecompressedData ends reconnects closes inflater)
  intro status
  cases status with
  | endLoop => exact meets_modify stops
  | again => exact meets_modify fun system holds => goes system _ holds
  | data output =>
    refine Meets.bind (timely.retimed (fun _ => rfl) (fun _ => rfl)) fun _ => ?_
    apply meets_get
    rintro system holds _ rfl
    exact goes _ _ holds

end Receiving

end Ucollect.Core
