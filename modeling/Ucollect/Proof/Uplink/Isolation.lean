import Ucollect.Proof.Uplink.Framing

namespace Ucollect.Core
open Library

variable {Z : Type} {inflater : Inflater Z}

/-- This is the receiver that the input of a connection determines. -/
structure Replay (Z : Type) where
  receiver : Receiver Z
  ready : Bool

namespace Replay

variable (replay : Replay Z)

/-- The handler of a complete buffer returns. -/
def settled : Receiver Z := if replay.ready then replay.receiver.handle else replay.receiver

/-- The handlers follow from the input, and only a failed callback comes from outside. -/
def turn (inflater : Inflater Z) (replay : Replay Z) : Turn → Replay Z
  | .received chunk =>
    let next := replay.settled.receive inflater chunk
    ⟨next, decide (next.decoded ≠ replay.settled.decoded ∧ next.sizeRest = 0)⟩
  | .handled => replay
  | .interrupted => ⟨replay.receiver.interrupt, false⟩

def turns (inflater : Inflater Z) (start : Z) (turns : List Turn) : Replay Z :=
  turns.foldl (turn inflater) ⟨.fresh start [], false⟩

theorem turns_snoc (start : Z) (before : List Turn) (last : Turn) :
    turns inflater start (before ++ [last]) =
      (turns inflater start before).turn inflater last := by
  rw [turns, List.foldl_append]
  rfl

end Replay

/-- The turns of the handlers are no input. -/
def inputs (turns : List Turn) : List Turn := turns.filter (· != .handled)

theorem Replay.turns_inputs (start : Z) (turns : List Turn) :
    Replay.turns inflater start (inputs turns) = Replay.turns inflater start turns := by
  induction turns using List.reverseRecOn with
  | nil => rfl
  | append_singleton before last ih =>
    rw [turns_snoc, inputs, List.filter_append, ← inputs]
    cases last with
    | received chunk => exact (turns_snoc start _ _).trans (by rw [ih])
    | handled => exact (congrArg _ (List.append_nil _)).trans ih
    | interrupted => exact (turns_snoc start _ _).trans (by rw [ih])

/-- The receiver of the connection is the one that its input determines. -/
structure Reception.Replays (inflater : Inflater Z) (start : Z) (reception : Reception Z) : Prop
    where
  settles : reception.phase.Between →
    reception.receiver = (Replay.turns inflater start reception.turns).settled
  completes : ¬ reception.phase.Between →
    reception.receiver = (Replay.turns inflater start reception.turns).receiver ∧
      (Replay.turns inflater start reception.turns).ready = true

/-- No input is left where a connection replaces another one. -/
def System.Drained (system : System Z) : Event → Prop
  | .timeout _ _ _ =>
    system.uplink.isOpen = false →
      system.timers.timeouts.head?.map (·.callback) = some .reconnectNow →
        system.uplink.availIn = []
  | _ => True

instance (system : System Z) (event : Event) : Decidable (system.Drained event) :=
  match event with
  | .timeout _ _ _ => inferInstanceAs (Decidable (_ → _ → _))
  | .arrive _ | .remoteClose | .loopGetNow _ | .uplinkRead | .receive _ _ | .handle _ _
  | .plugin _ _ _ | .strayRead _ _ | .reconfigure _ _ => .isTrue trivial

section Moving

variable {start : Z} {system : System Z} {next : Reception Z}

theorem nextTurn_between (limit : Nat) : (nextTurn limit).Between := by
  unfold nextTurn
  split <;> trivial

/-- Output that completes the buffer is the only way to its handler. -/
theorem Receives.between_iff {limit : Nat} {chunk : Option Bytes} {before : Reception Z}
    (receives : Receives inflater limit before next chunk) :
    next.phase.Between ↔ ¬ ((before.receiver.receive inflater chunk).decoded ≠
      before.receiver.decoded ∧ (before.receiver.receive inflater chunk).sizeRest = 0) := by
  by_cases silent : (before.receiver.receive inflater chunk).decoded = before.receiver.decoded
  · refine iff_of_true ?_ fun loud => loud.1 silent
    obtain idle | again := receives.stops silent
    · rw [idle]
      trivial
    · rw [again]
      exact nextTurn_between limit
  · rw [receives.goes silent]
    split
    case isTrue full => exact iff_of_false id fun waits => waits ⟨silent, full⟩
    case isFalse room => exact iff_of_true (nextTurn_between limit) fun full => room full.2

theorem receives_replays {limit : Nat} {chunk : Option Bytes} {before : Reception Z}
    (replays : before.receiver = (Replay.turns inflater start before.turns).settled)
    (receives : Receives inflater limit before next chunk) :
    next.Replays inflater start := by
  have between := receives.between_iff
  obtain ⟨phase, moved⟩ := receives.moves
  have turns : next.turns = before.turns ++ [.received chunk] := by rw [moved]; rfl
  have same : next.receiver = before.receiver.receive inflater chunk := by rw [moved]; rfl
  constructor
  · intro waits
    have room := between.mp waits
    rw [turns, Replay.turns_snoc, same]
    rw [replays] at room ⊢
    rw [Replay.turn, decide_eq_false room]
    rfl
  · intro handling
    have full := not_not.mp fun room => handling (between.mpr room)
    rw [turns, Replay.turns_snoc, same]
    rw [replays] at full ⊢
    exact ⟨rfl, decide_eq_true full⟩

theorem moves_replays {event : Event} (resets : ∀ state, inflater.reset state = start)
    (holds : system.uplink.isOpen = true → system.reception.Replays inflater start)
    (drained : system.Drained event) (moves : Moves inflater system event next) :
    next.Replays inflater start := by
  cases moves with
  | stays _ opened idle => exact holds opened
  | arrives bytes opened => exact ⟨(holds opened).settles, (holds opened).completes⟩
  | closes opened => exact ⟨(holds opened).settles, (holds opened).completes⟩
  | reads opened idle =>
    have between : system.phase.Between := by rw [idle]; trivial
    exact ⟨fun _ => (holds opened).settles between, fun handling => absurd trivial handling⟩
  | connects owner world recovery inflateState closed fires =>
    rw [drained closed fires, resets]
    exact ⟨fun _ => rfl, fun handling => absurd trivial handling⟩
  | receives world recovery limit chunk next opened phase receives _ =>
    have between : system.phase.Between := by rw [phase]; trivial
    exact receives_replays ((holds opened).settles between) receives
  | handles world recovery limit opened phase =>
    have handling : ¬ system.phase.Between := by rw [phase]; exact id
    obtain ⟨same, ready⟩ := (holds opened).completes handling
    refine ⟨fun _ => ?_, fun handling => absurd (nextTurn_between limit) handling⟩
    rw [Reception.handled, Replay.turns_snoc, Replay.turn, Replay.settled, if_pos ready, ← same]
    rfl
  | interrupts world recovery limit opened phase interrupts =>
    have handling : ¬ system.phase.Between := by rw [phase]; exact id
    obtain ⟨same, -⟩ := (holds opened).completes handling
    refine ⟨fun _ => ?_, fun handling => absurd trivial handling⟩
    rw [Reception.interrupted, Replay.turns_snoc, Replay.turn, ← same]
    rfl

end Moving

/-- In drained runs the receiver of an open connection follows from its own input. -/
theorem run_replays (forgets : inflater.Forgets) {inflateState : Z} {now : Nat}
    {events : List Event}
    (fits : (System.created inflateState now).RunFits inflater System.Drained events)
    {system : System Z}
    (reached : (System.created inflateState now).run inflater events = .ok system)
    (opened : system.uplink.isOpen = true) (between : system.phase.Between) (start : Z) :
    system.receiver =
      (Replay.turns inflater (inflater.reset start) (inputs system.history.turns)).settled := by
  have kept := run_received (fun system event next holds drained moves =>
    moves_replays (forgets · start) holds drained moves) fits
  rw [reached] at kept
  rw [Replay.turns_inputs]
  exact (kept.within.receives opened).settles between

/-- Connections with the same input decode and dispatch the same, whatever came before them. -/
theorem run_isolates_connections (forgets : inflater.Forgets) (state₁ state₂ : Z)
    (now₁ now₂ : Nat) (events₁ events₂ : List Event)
    (fits₁ : (System.created state₁ now₁).RunFits inflater System.Drained events₁)
    (fits₂ : (System.created state₂ now₂).RunFits inflater System.Drained events₂)
    (system₁ system₂ : System Z)
    (reached₁ : (System.created state₁ now₁).run inflater events₁ = .ok system₁)
    (reached₂ : (System.created state₂ now₂).run inflater events₂ = .ok system₂)
    (opened₁ : system₁.uplink.isOpen = true) (opened₂ : system₂.uplink.isOpen = true)
    (between₁ : system₁.phase.Between) (between₂ : system₂.phase.Between)
    (same : inputs system₁.history.turns = inputs system₂.history.turns) :
    system₁.history.decoded = system₂.history.decoded ∧
      system₁.history.dispatched = system₂.history.dispatched := by
  have first := run_replays forgets fits₁ reached₁ opened₁ between₁ state₁
  have second := run_replays forgets fits₂ reached₂ opened₂ between₂ state₁
  rw [same] at first
  have equal : system₁.receiver = system₂.receiver := first.trans second.symm
  exact ⟨congrArg Receiver.decoded equal, congrArg Receiver.dispatched equal⟩

/-- A connection that gets no valid stream is replaced by another one. -/
def replaced (early late : Bytes) : List Event :=
  connecting [] ++ [.arrive early, .uplinkRead, receiving 100, .loopGetNow 10000,
    .timeout 0 .calm .none, .arrive late, .uplinkRead, receiving 100]

theorem run_isolates_connections_replaced :
    ∃ system₁ system₂,
      (System.created (.start none) 0).run storedInflater
        (replaced [255, 255] (storedStream [0, 0])) = .ok system₁ ∧
      (System.created (.start none) 0).run storedInflater
        (replaced [255, 254] (storedStream [0, 0])) = .ok system₂ ∧
      system₁.history.decoded = [0, 0] ∧ system₂.history.decoded = [0, 0] := by
  have decodes : ∀ early ∈ [[255, 255], [255, 254]],
      reaches ((System.created (.start none) 0).run storedInflater
        (replaced early (storedStream [0, 0]))) (fun system => system.uplink.isOpen &&
          decide system.phase.Between && system.history.decoded == [0, 0] &&
          inputs system.history.turns == [.received (some (storedStream [0, 0]))]) = true := by
    decide +kernel
  obtain ⟨system₁, reached₁, ended₁⟩ := exists_of_reaches (decodes [255, 255] (by decide))
  obtain ⟨system₂, reached₂, ended₂⟩ := exists_of_reaches (decodes [255, 254] (by decide))
  simp only [Bool.and_eq_true, decide_eq_true_eq, beq_iff_eq] at ended₁ ended₂
  obtain ⟨⟨⟨opened₁, between₁⟩, decoded₁⟩, inputs₁⟩ := ended₁
  obtain ⟨⟨⟨opened₂, between₂⟩, -⟩, inputs₂⟩ := ended₂
  have same := run_isolates_connections storedInflater_derives.forgets (.start none) (.start none)
    0 0 (replaced [255, 255] (storedStream [0, 0])) (replaced [255, 254] (storedStream [0, 0]))
    (by decide +kernel) (by decide +kernel) system₁ system₂ reached₁ reached₂ opened₁ opened₂
    between₁ between₂ (inputs₁.trans inputs₂.symm)
  exact ⟨system₁, system₂, reached₁, reached₂, decoded₁, same.1 ▸ decoded₁⟩

/-- This is the start of a stream, and behind another start it is a different one. -/
def ambiguous : Bytes := [0x78, 0x01, 0x00, 0xfe, 0xff, 0x01, 0x00, 7]

/-- The input that the first connection leaves is decoded on the second one. -/
theorem left_input_crosses_connections :
    ∃ system₁ system₂,
      (System.created (.start none) 0).run storedInflater
        (replaced [255, 255, 0x78, 0x01] ambiguous) = .ok system₁ ∧
      (System.created (.start none) 0).run storedInflater
        (replaced [255, 255] ambiguous) = .ok system₂ ∧
      system₁.uplink.isOpen = true ∧ system₂.uplink.isOpen = true ∧
      system₁.phase.Between ∧ system₂.phase.Between ∧
      inputs system₁.history.turns = inputs system₂.history.turns ∧
      system₁.history.decoded ≠ system₂.history.decoded := by
  have first : reaches ((System.created (.start none) 0).run storedInflater
      (replaced [255, 255, 0x78, 0x01] ambiguous)) (fun system => system.uplink.isOpen &&
        decide system.phase.Between && system.history.decoded == [1] &&
        inputs system.history.turns == [.received (some ambiguous)]) = true := by decide +kernel
  have second : reaches ((System.created (.start none) 0).run storedInflater
      (replaced [255, 255] ambiguous)) (fun system => system.uplink.isOpen &&
        decide system.phase.Between && system.history.decoded == [7] &&
        inputs system.history.turns == [.received (some ambiguous)]) = true := by decide +kernel
  obtain ⟨system₁, reached₁, ended₁⟩ := exists_of_reaches first
  obtain ⟨system₂, reached₂, ended₂⟩ := exists_of_reaches second
  simp only [Bool.and_eq_true, decide_eq_true_eq, beq_iff_eq] at ended₁ ended₂
  obtain ⟨⟨⟨opened₁, between₁⟩, decoded₁⟩, inputs₁⟩ := ended₁
  obtain ⟨⟨⟨opened₂, between₂⟩, decoded₂⟩, inputs₂⟩ := ended₂
  refine ⟨system₁, system₂, reached₁, reached₂, opened₁, opened₂, between₁, between₂,
    inputs₁.trans inputs₂.symm, ?_⟩
  rw [decoded₁, decoded₂]
  decide

end Ucollect.Core
