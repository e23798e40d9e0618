import Ucollect.Construction.Core.UplinkLoop

namespace Ucollect.Core
open Library List

variable {Z : Type}

/-- These are the parts of the system that sending and plugin callbacks leave alone. -/
structure Connection (Z : Type) where
  timers : Timers Callback
  remoteName : Option Bytes
  buffer : Option Bytes
  bufferSize : Nat
  sizeRest : Nat
  hasSize : Bool
  pingTimeout : Nat
  pingScheduled : Bool
  reconnectScheduled : Bool
  reconnectId : Nat
  isOpen : Bool
  inflateState : Z
  availIn : Bytes
  socket : Socket
  phase : ReadPhase
  history : History

/-- The part of the state that the connection owns. -/
def System.connection (system : System Z) : Connection Z where
  timers := system.timers
  remoteName := system.uplink.remoteName
  buffer := system.uplink.buffer
  bufferSize := system.uplink.bufferSize
  sizeRest := system.uplink.sizeRest
  hasSize := system.uplink.hasSize
  pingTimeout := system.uplink.pingTimeout
  pingScheduled := system.uplink.pingScheduled
  reconnectScheduled := system.uplink.reconnectScheduled
  reconnectId := system.uplink.reconnectId
  isOpen := system.uplink.isOpen
  inflateState := system.uplink.inflateState
  availIn := system.uplink.availIn
  socket := system.socket
  phase := system.phase
  history := system.history

/-- A jump leaves in a known state, and the program dies only in an accepted way. -/
def Leaves (jumps : System Z → Prop) (accepted : Death → Prop) : Exit → System Z → Prop
  | .jump, system => jumps system
  | .died death, _ => accepted death

/-- The program keeps the invariant if it returns. -/
def Keeps {A : Type} (invariant jumps : System Z → Prop) (accepted : Death → Prop)
    (program : LoopM Z A) : Prop :=
  Meets invariant program (fun _ => invariant) (Leaves jumps accepted)

/-- The assertions about the connection are not among these deaths. -/
def Death.Ordinary : Death → Prop
  | .assertion failed => failed = .timeoutMissing
  | _ => True

/-- The invariant does not depend on what sending and plugin callbacks change. -/
structure Steady (invariant : System Z → Prop) (accepted : Death → Prop) : Prop where
  frame : ∀ before after : System Z, after.connection = before.connection →
    after.world.disconnects <:+ before.world.disconnects → invariant before → invariant after
  add : ∀ (system : System Z) (delay id : Nat) (timers : Timers Callback), invariant system →
    system.timers.add .wide system.now delay .other = some (id, timers) →
    invariant { system with timers := timers }
  cancel : ∀ (system : System Z) (timeout : Timeout Callback) (timers : Timers Callback),
    invariant system → timeout ∈ system.timers.timeouts → timeout.callback = .other →
    system.timers.cancel timeout.id = some timers → invariant { system with timers := timers }
  deaths : ∀ death : Death, death.Ordinary → accepted death

/-- A failed plugin may jump out of the invariant. -/
structure Stable (invariant jumps : System Z → Prop) (accepted : Death → Prop) : Prop
    extends Steady invariant accepted where
  jumps : ∀ system : System Z, invariant system → jumps system

@[simp] theorem eval_modifyUplink (update : Uplink Z → Uplink Z) (system : System Z) :
    (modifyUplink update).eval system =
      (.ok (), { system with uplink := update system.uplink }) := rfl

@[simp] theorem eval_modifyHistory (update : History → History) (system : System Z) :
    (modifyHistory update).eval system =
      (.ok (), { system with history := update system.history }) := rfl

@[simp] theorem eval_setPhase (phase : ReadPhase) (system : System Z) :
    (setPhase phase).eval system = (.ok (), { system with phase := phase }) := rfl

/-- A new timeout changes only the timers. -/
theorem loopTimeoutAdd_meets (system : System Z) (delay : Nat) (callback : Callback) :
    Meets (fun current => current = system) (loopTimeoutAdd delay callback)
      (fun id next => ∃ timers, system.timers.add .wide system.now delay callback = some (id, timers) ∧
        next = { system with timers := timers })
      (fun exit _ => exit = .died .hang) := by
  apply meets_get
  intro current stands
  rw [stands]
  cases added : system.timers.add .wide system.now delay callback with
  | none => exact meets_throw fun _ _ => rfl
  | some result => exact fun _ _ => ⟨result.2, rfl, rfl⟩

/-- A cancelled timeout was pending. -/
theorem loopTimeoutCancel_meets (system : System Z) (id : Nat) :
    Meets (fun current => current = system) (loopTimeoutCancel id)
      (fun _ next => ∃ timers, system.timers.cancel id = some timers ∧
        next = { system with timers := timers })
      (fun exit _ => exit = .died (.assertion .timeoutMissing)) := by
  apply meets_get
  intro current stands
  rw [stands]
  cases cancelled : system.timers.cancel id with
  | none => exact meets_throw fun _ _ => rfl
  | some timers => exact fun _ _ => ⟨timers, rfl, rfl⟩

variable {invariant jumps : System Z → Prop} {accepted : Death → Prop} {A B : Type}

/-- Two steps that keep the invariant keep it in a row. -/
theorem Keeps.bind {program : LoopM Z A} {next : A → LoopM Z B}
    (first : Keeps invariant jumps accepted program)
    (rest : ∀ value, Keeps invariant jumps accepted (next value)) :
    Keeps invariant jumps accepted (program >>= next) :=
  Meets.bind first rest

theorem Keeps.get {next : System Z → LoopM Z B}
    (rest : ∀ system, Keeps invariant jumps accepted (next system)) :
    Keeps invariant jumps accepted (get >>= next) := by
  intro system holds
  exact rest system system holds

theorem Keeps.pure (value : A) :
    Keeps invariant jumps accepted (Pure.pure value : LoopM Z A) := fun _ holds => holds

/-- A loop keeps what its body keeps. -/
theorem Keeps.each {I : Type} {items : List I} {body : I → LoopM Z Unit}
    (each : ∀ item ∈ items, Keeps invariant jumps accepted (body item)) :
    Keeps invariant jumps accepted (Program.each items body) := meets_each each

/-- A conditional step has to keep it only where it runs. -/
theorem Keeps.when {condition : Bool} {program : LoopM Z Unit}
    (runs : condition = true → Keeps invariant jumps accepted program) :
    Keeps invariant jumps accepted (Program.when condition program) :=
  meets_when runs fun _ _ holds => holds

/-- A jump that nothing catches is a death. -/
theorem Keeps.unprotected {program : LoopM Z Unit} {other : System Z → Prop}
    (keeps : Keeps invariant other accepted program) (signal : accepted .signal) :
    Keeps invariant jumps accepted (unprotected program) := by
  apply Meets.handle keeps
  · intro exit caught system _
    exact signal
  · intro exit system passed left
    cases exit with
    | jump => simp at passed
    | died death => exact left

namespace Steady
open List

variable (stable : Steady invariant accepted)
include stable

/-- An ordinary death is accepted. -/
theorem die {death : Death} (ordinary : death.Ordinary) :
    Keeps invariant jumps accepted (throw (.died death) : LoopM Z A) :=
  fun _ _ => stable.deaths death ordinary

theorem modifyUplink {update : Uplink Z → Uplink Z}
    (same : ∀ system : System Z,
      { system with uplink := update system.uplink }.connection = system.connection) :
    Keeps invariant jumps accepted (modifyUplink update) :=
  fun system holds => stable.frame system _ (same system) suffix_rfl holds

theorem setActive (index : Nat) (active : Bool) :
    Keeps invariant jumps accepted (setActive (Z := Z) index active) :=
  fun system holds => stable.frame system _ rfl suffix_rfl holds

theorem takeSend : Keeps invariant jumps accepted (takeSend (Z := Z)) :=
  fun system holds => stable.frame system _ rfl suffix_rfl holds

theorem takeCallback : Keeps invariant jumps accepted (takeCallback (Z := Z)) :=
  fun system holds => stable.frame system _ rfl suffix_rfl holds

theorem takeDisconnect : Keeps invariant jumps accepted (takeDisconnect (Z := Z)) :=
  fun system holds => stable.frame system _ rfl (tail_suffix _) holds

/-- A new timeout of another owner keeps the invariant. -/
theorem addTimeout (delay : Nat) :
    Keeps invariant jumps accepted (loopTimeoutAdd (Z := Z) delay .other) := by
  apply meets_pointwise
  intro system holds
  apply (loopTimeoutAdd_meets system delay .other).weaken (fun _ stands => stands)
  · rintro id _ ⟨timers, added, rfl⟩
    exact stable.add system delay id timers holds added
  · rintro _ _ rfl
    exact stable.deaths .hang trivial

/-- So does a cancelled one. -/
theorem cancelTimeout (id : Nat) {system : System Z} {timeout : Timeout Callback}
    (holds : invariant system) (pending : timeout ∈ system.timers.timeouts)
    (same : timeout.id = id) (other : timeout.callback = .other) :
    Meets (fun current => current = system) (loopTimeoutCancel id) (fun _ => invariant)
      (Leaves jumps accepted) := by
  subst same
  apply (loopTimeoutCancel_meets system timeout.id).weaken (fun _ stands => stands)
  · rintro _ _ ⟨timers, cancelled, rfl⟩
    exact stable.cancel system timeout timers holds pending other cancelled
  · rintro _ _ rfl
    exact stable.deaths (.assertion .timeoutMissing) rfl

section Sending

variable {reconnect : LoopM Z Unit}

/-- Sending keeps what the reconnect keeps. -/
theorem sendMessage (type : UInt8) (data : Bytes) {delivery : Delivery}
    (reconnects : delivery = .lost → Keeps invariant jumps accepted reconnect) :
    Keeps invariant jumps accepted (uplinkSendMessage reconnect type data delivery) := by
  apply Keeps.get
  intro system
  cases system.uplink.isOpen with
  | false => exact .pure false
  | true =>
    cases delivery with
    | delivered => exact fun system holds => stable.frame system _ rfl suffix_rfl holds
    | lost => exact .bind (reconnects rfl) fun _ => .pure false
    | fatal => exact stable.die trivial

theorem pluginSendMessage (owner : Nat) (data : Bytes) {delivery : Delivery}
    (reconnects : delivery = .lost → Keeps invariant jumps accepted reconnect) :
    Keeps invariant jumps accepted (uplinkPluginSendMessage reconnect owner data delivery) := by
  apply Keeps.get
  intro system
  cases system.plugins[owner]? with
  | none => exact .pure ()
  | some plugin =>
    cases active : plugin.active with
    | false => simpa [active] using Keeps.pure ()
    | true =>
      simp only [active, if_true]
      exact .bind (stable.sendMessage _ _ reconnects) fun _ => .pure ()

variable (reconnects : Keeps invariant jumps accepted reconnect)
include reconnects

theorem sendOwnMessage (type : UInt8) (data : Bytes) :
    Keeps invariant jumps accepted (sendOwnMessage reconnect type data) :=
  .bind stable.takeSend fun _ =>
    .bind (stable.sendMessage type data fun _ => reconnects) fun _ => .pure ()

end Sending

variable (reconnects : Keeps invariant jumps accepted (reconnectFromEvent (Z := Z)))
include reconnects

theorem sendPluginVersions : Keeps invariant jumps accepted (sendPluginVersions (Z := Z)) :=
  .get fun _ => stable.sendOwnMessage reconnects _ _

theorem handleChallenge : Keeps invariant jumps accepted (handleChallenge (Z := Z)) := by
  apply Keeps.get
  intro system
  apply Keeps.bind (stable.sendOwnMessage reconnects _ _)
  intro _
  apply Keeps.get
  intro system
  split
  · exact stable.die trivial
  cases system.world.chip with
  | none => exact stable.die trivial
  | some answer =>
    apply Keeps.bind (stable.sendOwnMessage reconnects _ _)
    intro _
    apply Keeps.bind (stable.modifyUplink fun _ => rfl)
    intro _
    exact .bind (stable.sendOwnMessage reconnects _ _) fun _ =>
      stable.sendPluginVersions reconnects

end Steady

namespace Stable
open List

variable (stable : Stable invariant jumps accepted)
include stable

section Scripts

variable {reconnect : LoopM Z Unit}

theorem pluginAction (owner : Nat) {action : PluginAction}
    (reconnects : ∀ data, action = .send data .lost →
      Keeps invariant jumps accepted reconnect) :
    Keeps invariant jumps accepted (pluginAction reconnect owner action) := by
  cases action with
  | send data delivery =>
    exact stable.pluginSendMessage owner data fun lost => reconnects data (by rw [lost])
  | addTimeout delay => exact .bind (stable.addTimeout delay) fun _ => .pure ()
  | cancelTimeout id =>
    apply meets_get
    intro system holds
    apply meets_when
    · intro found
      obtain ⟨timeout, pending, same⟩ := List.any_eq_true.mp found
      simp only [Bool.and_eq_true, beq_iff_eq] at same
      exact stable.cancelTimeout id holds pending same.1 same.2
    · rintro _ current rfl
      exact holds
  | fail => exact fun system holds => stable.jumps system holds

variable (reconnects : Keeps invariant jumps accepted reconnect)
include reconnects

theorem runScript (owner : Nat) (script : List PluginAction) :
    Keeps invariant jumps accepted (runScript reconnect owner script) :=
  .each fun _ _ => stable.pluginAction owner fun _ _ => reconnects

theorem runCallback (owner : Nat) :
    Keeps invariant jumps accepted (runCallback reconnect owner) :=
  .bind stable.takeCallback fun script => stable.runScript reconnects owner script

/-- Telling a plugin keeps what its script keeps. -/
theorem disconnectPlugin (index : Nat) :
    Keeps invariant jumps accepted (disconnectPlugin reconnect index) := by
  apply Keeps.get
  intro system
  apply Keeps.bind
  · exact .when fun _ => .bind stable.takeDisconnect fun script =>
      stable.runScript reconnects index script
  · exact fun _ => stable.setActive index false

/-- The callbacks of all plugins keep an invariant that reconnecting keeps. -/
theorem loopUplinkDisconnected :
    Keeps invariant jumps accepted (loopUplinkDisconnected reconnect) :=
  .get fun _ => .each fun index _ => stable.disconnectPlugin reconnects index

end Scripts

variable (reconnects : Keeps invariant jumps accepted (reconnectFromEvent (Z := Z)))
include reconnects

theorem pluginSendData (name data : Bytes) :
    Keeps invariant jumps accepted (loopPluginSendData (Z := Z) name data) := by
  apply Keeps.get
  intro system
  cases system.plugins.findIdx? fun plugin => plugin.name == name && plugin.active with
  | none => exact .pure false
  | some index =>
    apply Keeps.bind
    · exact fun system holds => stable.frame system _ rfl suffix_rfl holds
    · exact fun _ => .bind (stable.runCallback reconnects index) fun _ => .pure true

theorem activatePlugin (activation : Activation) :
    Keeps invariant jumps accepted (activatePlugin (Z := Z) activation) := by
  apply Keeps.get
  intro system
  split
  · exact .bind (stable.sendOwnMessage reconnects _ _) fun _ => .pure false
  · split
    · exact .pure false
    · exact .bind (stable.setActive _ _) fun _ =>
        .bind (stable.runCallback reconnects _) fun _ => .pure true

/-- A list of activations keeps the invariant. -/
theorem activatePlugins (activations : List Activation) (changed : Bool) :
    Keeps invariant jumps accepted (activatePlugins (Z := Z) activations changed) := by
  induction activations generalizing changed with
  | nil => exact .pure changed
  | cons activation rest ih =>
    exact .bind (stable.activatePlugin reconnects activation) fun now => ih (changed || now)

theorem loopPluginActivation (activations : List Activation) :
    Keeps invariant jumps accepted (loopPluginActivation (Z := Z) activations) :=
  .bind (stable.activatePlugins reconnects activations false) fun _ =>
    .when fun _ => stable.sendPluginVersions reconnects

/-- A plugin that fails at its end is removed like the others. -/
theorem pluginDestroy (index : Nat) (resumes : ∀ system, jumps system → invariant system) :
    Keeps invariant jumps accepted (pluginDestroy (Z := Z) index) := by
  apply Meets.handle (stable.runCallback reconnects index)
  · intro exit caught system left
    cases exit with
    | jump => exact resumes system left
    | died death => simp at caught
  · intro exit system passed left
    cases exit with
    | jump => simp at passed
    | died death => exact left

/-- A commit keeps what the configuration keeps. -/
theorem loopConfigCommit (commit : Commit)
    (configures : Keeps invariant jumps accepted (configureTarget (Z := Z) commit.target))
    (resumes : commit.finished = [] ∨ ∀ system, jumps system → invariant system) :
    Keeps invariant jumps accepted (loopConfigCommit (Z := Z) commit) := by
  have callbacks : ∀ owners : List Nat, Keeps invariant jumps accepted
      (Program.each owners (Core.runCallback (Z := Z) reconnectFromEvent)) :=
    fun owners => .each fun owner _ => stable.runCallback reconnects owner
  have signal := stable.deaths .signal trivial
  apply Keeps.bind (.unprotected (callbacks commit.checked) signal)
  intro _
  apply Keeps.bind
  · apply Keeps.each
    intro index member
    cases resumes with
    | inl none => simp [none] at member
    | inr resumes => exact stable.pluginDestroy reconnects index resumes
  intro _
  refine .unprotected (.bind configures fun _ => ?_) signal
  apply Keeps.bind
  · exact fun system holds => stable.frame system _ rfl suffix_rfl holds
  intro _
  exact .bind (callbacks commit.accepted) fun _ => .get fun _ => .when fun _ =>
    stable.sendPluginVersions reconnects

end Stable

/-- The recovery starts behind an interrupted handler. -/
def System.recovered (system : System Z) (world : World) : System Z :=
  { system with
    phase := .idle
    world := world
    history := { system.history with turns := match system.phase with
      | .handling _ => system.history.turns ++ [.interrupted]
      | _ => system.history.turns } }

theorem System.recovered_idle {system : System Z} (idle : system.phase = .idle) (world : World) :
    system.recovered world = system.withWorld world := by
  rcases system with ⟨now, timers, plugins, uplink, socket, phase⟩
  subst idle
  rfl

/-- The program recovers from a jump if the recovery starts in the invariant. -/
theorem Stable.recover {before : System Z → Prop} (stable : Stable invariant jumps accepted)
    (reconnects : Keeps invariant jumps accepted (reconnectFromEvent (Z := Z)))
    (recovery : Recovery)
    (starts : ∀ system, before system → invariant (system.recovered recovery.world)) :
    Meets before (recover recovery) (fun _ => invariant) (Leaves jumps accepted) := by
  intro system holds
  have commits := stable.loopConfigCommit reconnects
    { recovery.commit with finished := [], target := none } (.pure ()) (.inl rfl)
    (system.recovered recovery.world) (starts system holds)
  rcases system with ⟨now, timers, plugins, uplink, socket, phase⟩
  cases phase with
  | idle => exact commits
  | receiving limit => exact commits
  | handling limit => exact commits

end Ucollect.Core
