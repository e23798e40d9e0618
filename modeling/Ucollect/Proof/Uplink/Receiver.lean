import Ucollect.Proof.Uplink.Ordinary

namespace Ucollect.Core
open Library

variable {Z : Type}

/-- A handler does one of these things with a complete message. -/
inductive Reaction where
  | ignore
  | route
  | pong
  | rejection
  | activation
  | challenge
  deriving DecidableEq, Repr

def AuthStatus.reaction (status : AuthStatus) (command : UInt8) : Reaction :=
  if status = .authenticated ∨ status = .sent then
    if command = letter 'R' then .route
    else if command = letter 'P' then .pong
    else if command = letter 'F' then .rejection
    else if command = letter 'A' then .activation
    else .ignore
  else if command = letter 'C' ∧ status = .notStarted then .challenge
  else .ignore

/-- The callbacks of these reactions run after the reset of the buffer. -/
def Reaction.Clears (reaction : Reaction) : Prop := reaction = .route ∨ reaction = .activation

instance (reaction : Reaction) : Decidable reaction.Clears :=
  inferInstanceAs (Decidable (_ ∨ _))

/-- The handler of the complete buffer reacts this way. -/
def Uplink.reaction (uplink : Uplink Z) : Reaction :=
  if uplink.hasSize then
    match uplink.buffer with
    | some (command :: _) => uplink.authStatus.reaction command
    | _ => .ignore
  else .ignore

def System.cleared (system : System Z) : System Z :=
  { system with uplink := system.uplink.bufferReset }

/-- The handler has taken the command from the buffer. -/
def System.dispatching (system : System Z) : System Z :=
  let contents := system.uplink.buffer.getD []
  let history := { system.history with dispatched := system.history.dispatched ++ [contents] }
  match contents with
  | [] => { system with history := history }
  | _ :: params => { system with
      uplink := { system.uplink with
        buffer := some params, bufferSize := system.uplink.bufferSize - 1 }
      history := history }

/-- The length word makes room for the message. -/
def System.sized (system : System Z) : System Z :=
  let length := bigEndian (system.uplink.buffer.getD [])
  { system with uplink := { system.uplink with
      bufferSize := length, sizeRest := length, buffer := some [], hasSize := true } }

variable {system : System Z}

theorem eval_handleBuffer_unsized (unsized : system.uplink.hasSize = false) :
    (handleBuffer (Z := Z)).eval system = (.ok (), system.sized) := by
  simp only [handleBuffer, eval_bind, eval_get, unsized, Bool.false_eq_true, if_false]
  rfl

theorem eval_handleBuffer_empty (sized : system.uplink.hasSize = true)
    (contents : system.uplink.buffer.getD [] = []) :
    (handleBuffer (Z := Z)).eval system = (.ok (), system.dispatching.cleared) := by
  simp only [handleBuffer, System.dispatching, eval_bind, eval_get, sized, if_true, contents]
  rfl

theorem eval_handleBuffer_message {command : UInt8} {params : Bytes}
    (sized : system.uplink.hasSize = true)
    (contents : system.uplink.buffer.getD [] = command :: params) :
    (handleBuffer (Z := Z)).eval system =
      (handleMessage command params >>= fun _ => bufferReset).eval system.dispatching := by
  simp only [handleBuffer, System.dispatching, eval_bind, eval_get, contents]
  rw [if_pos sized]
  simp only [eval_bind, eval_modifyHistory, eval_modifyUplink]

theorem System.dispatching_authStatus (system : System Z) :
    system.dispatching.uplink.authStatus = system.uplink.authStatus := by
  unfold dispatching
  cases system.uplink.buffer.getD [] with
  | nil => rfl
  | cons command params => rfl

/-- The outer invariant holds up to the reset of the buffer and the inner one behind it. -/
structure Handling (outer inner innerJumps : System Z → Prop) (accepted : Death → Prop) : Prop
    where
  outside : Steady outer accepted
  inside : Stable inner innerJumps accepted
  clears : ∀ system, outer system → inner system.cleared

/-- A reaction needs a way to lose the connection inside of it. -/
structure Reconnects (reaction : Reaction) (outer inner outerJumps innerJumps : System Z → Prop)
    (accepted : Death → Prop) : Prop where
  routes : reaction.Clears → Keeps inner innerJumps accepted (reconnectFromEvent (Z := Z))
  answers : reaction = .pong ∨ reaction = .challenge →
    Keeps outer outerJumps accepted (reconnectFromEvent (Z := Z))
  rejects : reaction = .rejection → Keeps outer outerJumps accepted (handleRejection (Z := Z))

variable {outer inner outerJumps innerJumps : System Z → Prop} {accepted : Death → Prop}

/-- A reaction without a reset keeps the outer invariant. -/
theorem Keeps.outside {program : LoopM Z Unit} {reaction : Reaction}
    (keeps : Keeps outer outerJumps accepted program) (stays : ¬ reaction.Clears) :
    Meets outer program (fun _ system => outer system ∨ inner system)
      (Leaves (fun system => if reaction.Clears then innerJumps system else outerJumps system)
        accepted) := by
  simp only [stays, if_false]
  exact keeps.weaken (fun _ holds => holds) (fun _ _ holds => .inl holds) (fun _ _ left => left)

namespace Handling

variable (handling : Handling outer inner innerJumps accepted)
include handling

theorem bufferReset : Meets outer (bufferReset (Z := Z)) (fun _ => inner)
    (Leaves innerJumps accepted) :=
  meets_modify fun system holds => handling.clears system holds

theorem handleRoute (params : Bytes)
    (reconnects : Keeps inner innerJumps accepted (reconnectFromEvent (Z := Z))) :
    Meets outer (handleRoute (Z := Z) params) (fun _ => inner) (Leaves innerJumps accepted) := by
  have counts : Meets outer
      (modifyUplink (Z := Z) fun uplink => { uplink with loginFailureCount := 0 }) (fun _ => outer)
      (Leaves innerJumps accepted) :=
    meets_modify fun system holds => handling.outside.frame system _ rfl List.suffix_rfl holds
  apply Meets.bind counts
  intro _
  cases uplinkParseString params with
  | none => exact meets_throw fun _ _ => handling.inside.deaths .die trivial
  | some result =>
    apply Meets.bind handling.bufferReset
    intro _
    apply Keeps.bind (handling.inside.pluginSendData reconnects _ _)
    intro found
    exact .get fun _ => .when fun _ => handling.inside.sendOwnMessage reconnects _ _

theorem handleActivation (params : Bytes)
    (reconnects : Keeps inner innerJumps accepted (reconnectFromEvent (Z := Z))) :
    Meets outer (handleActivation (Z := Z) params) (fun _ system => outer system ∨ inner system)
      (Leaves innerJumps accepted) := by
  unfold Core.handleActivation
  split
  · exact meets_throw fun _ _ => handling.inside.deaths .sanity trivial
  dsimp only
  split
  · exact meets_pure fun _ holds => .inl holds
  split
  · exact meets_throw fun _ _ => handling.inside.deaths .die trivial
  apply Meets.bind handling.bufferReset
  intro _
  exact (handling.inside.loopPluginActivation reconnects _).weaken (fun _ holds => holds)
    (fun _ _ holds => .inr holds) (fun _ _ left => left)

theorem handleCommand {status : AuthStatus} {command : UInt8} {reaction : Reaction} (params : Bytes)
    (accepts : status = .authenticated ∨ status = .sent)
    (reacts : status.reaction command = reaction)
    (reconnects : Reconnects reaction outer inner outerJumps innerJumps accepted) :
    Meets outer (handleCommand (Z := Z) command params)
      (fun _ system => outer system ∨ inner system)
      (Leaves (fun system => if reaction.Clears then innerJumps system else outerJumps system)
        accepted) := by
  rw [AuthStatus.reaction, if_pos accepts] at reacts
  unfold Core.handleCommand
  by_cases route : command = letter 'R'
  · rw [if_pos route] at reacts ⊢
    have clears : reaction.Clears := .inl reacts.symm
    simp only [clears, if_true]
    exact (handling.handleRoute params (reconnects.routes clears)).weaken
      (fun _ holds => holds) (fun _ _ holds => .inr holds) (fun _ _ left => left)
  rw [if_neg route] at reacts ⊢
  by_cases ping : command = letter 'P'
  · rw [if_pos ping] at reacts ⊢
    subst reacts
    exact Keeps.outside
      (handling.outside.sendOwnMessage (reconnects.answers (.inl rfl)) _ _) (by decide)
  rw [if_neg ping] at reacts ⊢
  by_cases pong : command = letter 'p'
  · rw [if_pos pong]
    subst pong
    subst reacts
    exact Keeps.outside (handling.outside.modifyUplink fun _ => rfl) (by decide)
  rw [if_neg pong]
  by_cases rejection : command = letter 'F'
  · rw [if_pos rejection] at reacts ⊢
    subst reacts
    exact Keeps.outside (reconnects.rejects rfl) (by decide)
  rw [if_neg rejection] at reacts ⊢
  by_cases activation : command = letter 'A'
  · rw [if_pos activation] at reacts ⊢
    have clears : reaction.Clears := .inr reacts.symm
    simp only [clears, if_true]
    exact handling.handleActivation params (reconnects.routes clears)
  rw [if_neg activation] at reacts ⊢
  subst reacts
  exact Keeps.outside (.pure ()) (by decide)

/-- A handled message keeps the outer invariant or resets the buffer. -/
theorem handleMessage {status : AuthStatus} {command : UInt8} {reaction : Reaction} (params : Bytes)
    (reacts : status.reaction command = reaction)
    (reconnects : Reconnects reaction outer inner outerJumps innerJumps accepted) :
    Meets (fun system => outer system ∧ system.uplink.authStatus = status)
      (handleMessage (Z := Z) command params) (fun _ system => outer system ∨ inner system)
      (Leaves (fun system => if reaction.Clears then innerJumps system else outerJumps system)
        accepted) := by
  apply meets_get
  rintro system ⟨holds, rfl⟩
  split
  case isTrue accepts =>
    have handles := handling.handleCommand params accepts reacts reconnects
    apply Meets.bind (handles.weaken (by rintro _ rfl; exact holds) (fun _ _ kept => kept)
      (fun _ _ left => left))
    intro _
    apply meets_modify
    rintro current (kept | kept)
    · exact .inl (handling.outside.frame current _ rfl List.suffix_rfl kept)
    · exact .inr (handling.inside.frame current _ rfl List.suffix_rfl kept)
  case isFalse refused =>
    rw [AuthStatus.reaction, if_neg refused] at reacts
    apply meets_when
    · intro challenged
      simp only [Bool.and_eq_true, beq_iff_eq] at challenged
      rw [if_pos challenged] at reacts
      subst reacts
      have answers := handling.outside.handleChallenge (reconnects.answers (.inr rfl))
      exact (Keeps.outside answers (by decide)).weaken (by rintro _ rfl; exact holds)
        (fun _ _ kept => kept) (fun _ _ left => left)
    · rintro _ _ rfl
      exact .inl holds

/-- A complete message ends with an empty buffer. -/
theorem handleBuffer {system : System Z} (sized : system.uplink.hasSize = true)
    (starts : outer system.dispatching)
    (reconnects : Reconnects system.uplink.reaction outer inner outerJumps innerJumps accepted) :
    Meets (fun current => current = system) (handleBuffer (Z := Z))
      (fun _ next => ∃ last, (outer last ∨ inner last) ∧ next = last.cleared)
      (Leaves (fun last => if system.uplink.reaction.Clears then innerJumps last
        else outerJumps last) accepted) := by
  intro current stands
  subst stands
  cases contents : current.uplink.buffer.getD [] with
  | nil =>
    rw [eval_handleBuffer_empty sized contents]
    exact ⟨_, .inl starts, rfl⟩
  | cons command params =>
    have stored : current.uplink.buffer = some (command :: params) := by
      cases buffer : current.uplink.buffer with
      | none => simp [buffer] at contents
      | some bytes => simpa [buffer] using contents
    have reacts : current.uplink.authStatus.reaction command = current.uplink.reaction := by
      simp [Uplink.reaction, sized, stored]
    rw [eval_handleBuffer_message sized contents]
    refine Meets.bind (handling.handleMessage params reacts reconnects) (fun _ => ?_)
      current.dispatching ⟨starts, current.dispatching_authStatus⟩
    exact meets_modify fun last holds => ⟨last, holds, rfl⟩

end Handling

end Ucollect.Core

namespace Ucollect.Core
open Library

variable {Z : Type}

/-- The receiver turns the input of a connection into messages. -/
structure Receiver (Z : Type) where
  buffer : Option Bytes
  bufferSize : Nat
  sizeRest : Nat
  hasSize : Bool
  inflateState : Z
  availIn : Bytes
  decoded : Bytes
  dispatched : List Bytes

namespace Receiver

def fresh (inflateState : Z) (availIn : Bytes) : Receiver Z where
  buffer := none
  bufferSize := 0
  sizeRest := 0
  hasSize := false
  inflateState := inflateState
  availIn := availIn
  decoded := []
  dispatched := []

variable (receiver : Receiver Z)

def contents : Bytes := receiver.buffer.getD []

def prepare : Receiver Z :=
  match receiver.buffer with
  | none => { receiver with bufferSize := lengthSize, sizeRest := lengthSize, buffer := some [] }
  | some _ => receiver

def inflated (inflater : Inflater Z) : Inflated Z :=
  inflater.inflate receiver.inflateState receiver.availIn receiver.sizeRest

/-- The output of a corrupted stream is not used. -/
def output (inflater : Inflater Z) : Bytes :=
  if (receiver.inflated inflater).corrupted then [] else (receiver.inflated inflater).output

def drain (inflater : Inflater Z) : Receiver Z :=
  { receiver with
    inflateState := (receiver.inflated inflater).state
    availIn := (receiver.inflated inflater).rest
    decoded := receiver.decoded ++ receiver.output inflater }

def store (output : Bytes) : Receiver Z :=
  { receiver with
    buffer := receiver.buffer.map (· ++ output)
    sizeRest := receiver.sizeRest - output.length }

/-- A call of `inflate` moves its output behind the data in the buffer. -/
def pull (inflater : Inflater Z) : Receiver Z :=
  (receiver.drain inflater).store (receiver.output inflater)

/-- The second call needs new input or input that the first one left. -/
def fill (inflater : Inflater Z) (chunk : Option Bytes) : Receiver Z :=
  let pulled := receiver.pull inflater
  if (receiver.inflated inflater).corrupted ∨ receiver.output inflater ≠ [] then pulled
  else if pulled.availIn = [] then
    match chunk with
    | none => pulled
    | some bytes => { pulled with availIn := bytes }.pull inflater
  else pulled.pull inflater

/-- This is what a turn of the loop does to the receiver. -/
def receive (inflater : Inflater Z) (chunk : Option Bytes) : Receiver Z :=
  receiver.prepare.fill inflater chunk

theorem store_nil : receiver.store [] = receiver := by
  unfold store
  cases receiver with
  | mk buffer => cases buffer <;> simp

theorem pull_idle {inflater : Inflater Z} (idle : receiver.output inflater = []) :
    receiver.pull inflater = receiver.drain inflater := by
  rw [pull, idle, store_nil]

def cleared : Receiver Z :=
  { receiver with bufferSize := 0, sizeRest := 0, buffer := none, hasSize := false }

def dispatch : Receiver Z :=
  { receiver with dispatched := receiver.dispatched ++ [receiver.contents] }

/-- A complete length word makes room, and a complete message is done with. -/
def handle : Receiver Z :=
  if receiver.hasSize then receiver.dispatch.cleared
  else { receiver with
    bufferSize := bigEndian receiver.contents
    sizeRest := bigEndian receiver.contents
    buffer := some []
    hasSize := true }

/-- The handler has taken the command from the buffer. -/
def dispatching : Receiver Z :=
  match receiver.contents with
  | [] => receiver.dispatch
  | _ :: params => { receiver.dispatch with
      buffer := some params, bufferSize := receiver.bufferSize - 1 }

/-- The handler of some messages is interrupted before the reset of the buffer. -/
def interrupt : Receiver Z :=
  match receiver.contents with
  | [] => receiver.dispatching
  | command :: _ =>
    if command = letter 'R' ∨ command = letter 'A' then receiver.dispatch.cleared
    else receiver.dispatching

end Receiver

def Connection.receiver (connection : Connection Z) : Receiver Z where
  buffer := connection.buffer
  bufferSize := connection.bufferSize
  sizeRest := connection.sizeRest
  hasSize := connection.hasSize
  inflateState := connection.inflateState
  availIn := connection.availIn
  decoded := connection.history.decoded
  dispatched := connection.history.dispatched

def System.receiver (system : System Z) : Receiver Z := system.connection.receiver

end Ucollect.Core
