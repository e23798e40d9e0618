import Ucollect.Proof.Uplink.Assembly

namespace Ucollect.Core
open Library List Option

variable {Z : Type} {inflater : Inflater Z}

/-- The invariant holds of the reception of every open connection. -/
structure System.Received (receives : Reception Z → Prop) (system : System Z) : Prop where
  active : system.Active
  within : system.Within receives

theorem created_received (receives : Reception Z → Prop) (inflateState : Z) (now : Nat) :
    (System.created inflateState now).Received receives :=
  ⟨.inl rfl, fun _ => ⟨rfl, rfl, rfl, rfl⟩, nofun⟩

variable {events : List Event}

/-- An invariant that every move keeps holds in every run. -/
theorem run_received {receives : Reception Z → Prop} {fits : System Z → Event → Prop}
    (moves : ∀ system event next, (system.uplink.isOpen = true → receives system.reception) →
      fits system event → Moves inflater system event next → receives next) {inflateState : Z}
    {now : Nat} (fit : (System.created inflateState now).RunFits inflater fits events) :
    Outcome (System.Received receives) (fun _ => True)
      ((System.created inflateState now).run inflater events) := by
  apply run_outcome _ (created_received receives inflateState now) fit
  intro system event holds fitting
  have moved := (step_active inflater system event holds.active).both
    (step_moves holds.within.tidy holds.active event)
  exact moved.weaken fun next after => ⟨after.1, after.2.tidy, fun opened =>
    moves system event _ holds.within.receives fitting (after.2.receives opened)⟩

/-- A message can be completed, unless the receiver may be wedged. -/
def Assembly.Rests (wedges : Prop) (assembly : Assembly) : Prop :=
  0 < assembly.room ∨ wedges ∧ assembly.Wedged

/-- The handler runs exactly for the complete messages. -/
def Assembly.Suits (wedges : Prop) (assembly : Assembly) : ReadPhase → Prop
  | .handling _ => assembly.Complete
  | _ => assembly.Rests wedges

def Reception.Assembled (wedges : Prop) (reception : Reception Z) : Prop :=
  ∃ assembly, reception.receiver.Framed assembly ∧ assembly.Suits wedges reception.phase

/-- The length is not zero, and no handler with a message in the buffer is interrupted. -/
def System.Orderly (system : System Z) : Event → Prop
  | .handle world _ =>
    if system.uplink.hasSize then
      system.uplink.reaction = .ignore ∨ system.uplink.reaction.Clears ∨ world.Calm
    else bigEndian (system.uplink.buffer.getD []) ≠ 0
  | _ => True

instance (system : System Z) (event : Event) : Decidable (system.Orderly event) :=
  match event with
  | .handle _ _ => inferInstanceAs (Decidable (ite _ _ _))
  | .arrive _ | .remoteClose | .loopGetNow _ | .uplinkRead | .receive _ _ | .timeout _ _ _
  | .plugin _ _ _ | .strayRead _ _ | .reconfigure _ _ => .isTrue trivial

section Moving

variable {wedges : Prop} {system : System Z} {next : Reception Z}

variable {assembly : Assembly}

theorem nextTurn_suits {limit : Nat} :
    assembly.Suits wedges (nextTurn limit) ↔ assembly.Rests wedges := by
  unfold nextTurn
  split <;> rfl

theorem Assembly.Rests.append_nil (rests : assembly.Rests wedges) :
    (assembly.append []).Rests wedges := by
  obtain room | ⟨may, wedged⟩ := rests
  · left
    rw [room_prepared]
    exact room
  · right
    cases assembly with
    | idle => exact wedged.elim
    | word bytes => exact wedged.elim
    | body size bytes => exact ⟨may, wedged⟩
    | stuck => exact ⟨may, wedged⟩

/-- A turn goes on with the message and runs its handler when it is complete. -/
theorem receives_framed (bounded : inflater.Bounded) {limit : Nat} {chunk : Option Bytes}
    {before : Reception Z} (framed : before.receiver.Framed assembly)
    (rests : assembly.Rests wedges) (receives : Receives inflater limit before next chunk) :
    ∃ output, next.receiver.Framed (assembly.append output) ∧ output.length ≤ assembly.room ∧
      next.receiver.decoded = before.receiver.decoded ++ output ∧
      (assembly.append output).Suits wedges next.phase := by
  obtain ⟨output, appended, fits, decoded, room⟩ :=
    Receiver.receive_framed bounded framed chunk
  obtain ⟨phase, moved⟩ := receives.moves
  have same : next.receiver = before.receiver.receive inflater chunk := by rw [moved]; rfl
  refine ⟨output, same ▸ appended, fits, same ▸ decoded, ?_⟩
  by_cases silent : output = []
  · subst silent
    obtain stops | stops := receives.stops (by rw [decoded, append_nil])
    · rw [stops]
      exact rests.append_nil
    · rw [stops, nextTurn_suits]
      exact rests.append_nil
  · have loud : (before.receiver.receive inflater chunk).decoded ≠ before.receiver.decoded := by
      rw [decoded]
      simpa using silent
    have positive : 0 < output.length := length_pos_of_ne_nil silent
    rw [receives.goes loud, room]
    split
    case isTrue full =>
      refine ⟨full, ?_⟩
      rintro stuck
      cases assembly with
      | stuck =>
        simp only [Assembly.room] at fits
        omega
      | _ => cases stuck
    case isFalse missing =>
      rw [nextTurn_suits]
      exact .inl (Nat.pos_of_ne_zero missing)

/-- A handled word makes room unless it is zero, and a handled message is dispatched. -/
theorem handles_assembled {receiver : Receiver Z} (framed : receiver.Framed assembly)
    (complete : assembly.Complete)
    (orderly : wedges ∨ (receiver.hasSize = false → bigEndian receiver.contents ≠ 0)) :
    assembly.next.Rests wedges := by
  cases assembly with
  | word bytes =>
    obtain ⟨buffer, sized, -⟩ := framed.assembles
    have contents : receiver.contents = bytes := by
      rw [Receiver.contents, buffer, getD_some]
    by_cases zero : bigEndian bytes = 0
    · have may := orderly.resolve_right fun nonzero => nonzero sized (by rw [contents, zero])
      exact .inr ⟨may, zero⟩
    · exact .inl (Nat.pos_of_ne_zero zero)
  | idle => exact .inl (by decide)
  | body size bytes => exact .inl (Nat.succ_pos 3)
  | stuck => exact absurd rfl complete.2

theorem System.hasSize_of_reaction (reacts : system.uplink.reaction ≠ .ignore) :
    system.uplink.hasSize = true := by
  unfold Uplink.reaction at reacts
  split at reacts
  case isTrue sized => exact sized
  case isFalse => exact absurd rfl reacts

theorem interrupts_assembled {world : World} (framed : system.receiver.Framed assembly)
    (complete : assembly.Complete) (interrupts : (system.withWorld world).Interrupts)
    (orderly : wedges ∨ system.uplink.reaction = .ignore ∨ system.uplink.reaction.Clears ∨
      world.Calm) :
    (system.reception.interrupted system.receiver.interrupt).Assembled wedges := by
  have reacts : system.uplink.reaction ≠ .ignore := interrupts.1
  obtain ⟨size, bytes, rfl⟩ := framed.sized complete (System.hasSize_of_reaction reacts)
  have full : size - bytes.length = 0 := complete.1
  rw [System.interrupt_eq reacts]
  split
  case isTrue => exact ⟨.idle, framed.cleared full, .inl (by decide)⟩
  case isFalse stays =>
    refine ⟨.stuck, framed.dispatching full, .inr ⟨?_, trivial⟩⟩
    obtain may | ignored | clears | calm := orderly
    · exact may
    · exact absurd ignored reacts
    · exact absurd clears stays
    · exact absurd calm (interrupts.2.resolve_left stays)

theorem moves_assembled {event : Event} (bounded : inflater.Bounded)
    (holds : system.uplink.isOpen = true → system.reception.Assembled wedges)
    (orderly : wedges ∨ system.Orderly event) (moves : Moves inflater system event next) :
    next.Assembled wedges := by
  cases moves with
  | stays _ opened idle => exact holds opened
  | arrives bytes opened => exact holds opened
  | closes opened => exact holds opened
  | reads opened idle =>
    obtain ⟨assembly, framed, suits⟩ := holds opened
    have phase : system.reception.phase = .idle := idle
    rw [phase] at suits
    exact ⟨assembly, framed, suits⟩
  | connects owner world recovery inflateState closed fires =>
    exact ⟨.idle, ⟨⟨rfl, rfl⟩, rfl, nofun⟩, .inl (by decide)⟩
  | receives world recovery limit chunk next opened phase receives _ =>
    obtain ⟨assembly, framed, suits⟩ := holds opened
    have current : system.reception.phase = .receiving (limit + 1) := phase
    rw [current] at suits
    obtain ⟨output, appended, -, -, suits⟩ := receives_framed bounded framed suits receives
    exact ⟨_, appended, suits⟩
  | handles world recovery limit opened phase =>
    obtain ⟨assembly, framed, suits⟩ := holds opened
    have current : system.reception.phase = .handling limit := phase
    rw [current] at suits
    refine ⟨assembly.next, framed.handle suits, nextTurn_suits.mpr ?_⟩
    apply handles_assembled framed suits
    refine orderly.imp_right fun orderly unsized => ?_
    have closed : system.uplink.hasSize = false := unsized
    simp only [System.Orderly, closed, Bool.false_eq_true, if_false] at orderly
    exact orderly
  | interrupts world recovery limit opened phase interrupts =>
    obtain ⟨assembly, framed, suits⟩ := holds opened
    have current : system.reception.phase = .handling limit := phase
    rw [current] at suits
    apply interrupts_assembled framed suits interrupts
    refine orderly.imp_right fun orderly => ?_
    have sized : system.uplink.hasSize = true := System.hasSize_of_reaction interrupts.1
    simpa only [System.Orderly, sized, if_true] using orderly

end Moving

section Dispatching

variable {receiver : Receiver Z} {assembly : Assembly}

/-- The stream starts with the dispatched messages. -/
theorem Receiver.Framed.messages (framed : receiver.Framed assembly) :
    networkHeader.messages receiver.decoded =
      receiver.dispatched ++ networkHeader.messages assembly.held := by
  rw [framed.stream, networkHeader.messages_frames framed.small]

/-- A message that can still be completed is not complete. -/
theorem Receiver.Framed.messages_held (framed : receiver.Framed assembly)
    (room : 0 < assembly.room) : networkHeader.messages assembly.held = [] := by
  cases assembly with
  | idle => rfl
  | word bytes => exact networkHeader.messages_short (Nat.lt_of_sub_pos room)
  | body size bytes =>
    exact networkHeader.messages_partial framed.assembles.2.2.2.1 (Nat.lt_of_sub_pos room)
  | stuck => exact absurd room (Nat.lt_irrefl 0)

/-- A wedged receiver holds nothing but an empty message. -/
theorem Receiver.Framed.messages_wedged (framed : receiver.Framed assembly)
    (wedged : assembly.Wedged) :
    networkHeader.messages assembly.held = [] ∨ networkHeader.messages assembly.held = [[]] := by
  cases assembly with
  | idle => exact wedged.elim
  | word bytes => exact wedged.elim
  | body size bytes =>
    have zero : size = 0 := wedged
    have missing := framed.assembles.2.2.1
    have none : bytes = [] := eq_nil_of_length_eq_zero (by omega)
    subst zero none
    exact .inr rfl
  | stuck => exact .inl rfl

variable {sent : List Bytes}

theorem Receiver.Framed.dispatched_prefix (framed : receiver.Framed assembly)
    (small : ∀ message ∈ sent, message.length < networkHeader.limit)
    (decodes : receiver.decoded <+: networkHeader.frames sent) :
    networkHeader.messages receiver.decoded <+: sent ∧ receiver.dispatched <+: sent := by
  obtain ⟨rest, stream⟩ := decodes
  have complete : networkHeader.messages (networkHeader.frames sent) = sent := by
    have all := networkHeader.messages_frames small []
    rwa [append_nil, show networkHeader.messages [] = [] from rfl, append_nil] at all
  have found := networkHeader.messages_prefix receiver.decoded rest
  rw [stream, complete] at found
  refine ⟨found, List.IsPrefix.trans ?_ found⟩
  rw [framed.messages]
  exact prefix_append _ _

/-- Between two turns no complete message waits, because no empty one was sent. -/
theorem Receiver.Framed.dispatched_eq (framed : receiver.Framed assembly)
    (rests : assembly.Rests True) (nonempty : ∀ message ∈ sent, message ≠ [])
    (found : networkHeader.messages receiver.decoded <+: sent) :
    networkHeader.messages receiver.decoded = receiver.dispatched := by
  have none : networkHeader.messages assembly.held = [] := by
    obtain room | ⟨-, wedged⟩ := rests
    · exact framed.messages_held room
    · obtain none | empty := framed.messages_wedged wedged
      · exact none
      · rw [framed.messages, empty] at found
        exact absurd rfl (nonempty [] (found.subset (by simp)))
  rw [framed.messages, none, append_nil]

end Dispatching

/-- The loop of `uplink_read` is not between the completion of a buffer and its handler. -/
def ReadPhase.Between : ReadPhase → Prop
  | .handling _ => False
  | _ => True

instance (phase : ReadPhase) : Decidable phase.Between :=
  match phase with
  | .idle => .isTrue trivial
  | .receiving _ => .isTrue trivial
  | .handling _ => .isFalse id

theorem Assembly.Suits.between {assembly : Assembly} {wedges : Prop} {phase : ReadPhase}
    (suits : assembly.Suits wedges phase) (between : phase.Between) :
    assembly.Rests wedges := by
  cases phase with
  | idle => exact suits
  | receiving limit => exact suits
  | handling limit => exact between.elim

/-- Every run keeps the stream together, and a fitting one does not wedge. -/
theorem run_assembled {wedges : Prop} (bounded : inflater.Bounded) {inflateState : Z} {now : Nat}
    (fit : (System.created inflateState now).RunFits inflater
      (fun system event => wedges ∨ system.Orderly event) events) :
    Outcome (System.Received (Reception.Assembled wedges)) (fun _ => True)
      ((System.created inflateState now).run inflater events) :=
  run_received (fun _ _ _ holds orderly moves => moves_assembled bounded holds orderly moves) fit

/-- In every run the dispatched messages are the sent ones as far as they are decoded. -/
theorem run_dispatches_sent (bounded : inflater.Bounded) (inflateState : Z) (now : Nat)
    (events : List Event) (sent : List Bytes) (nonempty : ∀ message ∈ sent, message ≠ [])
    (small : ∀ message ∈ sent, message.length < 2 ^ 32) (system : System Z)
    (reached : (System.created inflateState now).run inflater events = .ok system)
    (opened : system.uplink.isOpen = true)
    (decodes : system.history.decoded <+: networkHeader.frames sent) :
    system.history.dispatched <+: sent ∧ (system.phase.Between →
      (∀ first, first <+: sent → networkHeader.frames first <+: system.history.decoded →
        first <+: system.history.dispatched) ∧
      (system.history.decoded = networkHeader.frames sent → system.history.dispatched = sent)) := by
  have kept := run_assembled bounded (runFits_always (fun _ _ => .inl trivial)
    (System.created inflateState now) events)
  rw [reached] at kept
  obtain ⟨assembly, framed, suits⟩ := kept.within.receives opened
  obtain ⟨found, sequence⟩ := framed.dispatched_prefix small decodes
  refine ⟨sequence, fun between => ?_⟩
  have dispatched := framed.dispatched_eq (suits.between between) nonempty found
  have complete : ∀ first, first <+: sent →
      networkHeader.frames first <+: system.history.decoded →
      first <+: system.history.dispatched := by
    rintro first part ⟨rest, stream⟩
    have small' : ∀ message ∈ first, message.length < networkHeader.limit :=
      fun message member => small message (part.subset member)
    have messages := networkHeader.messages_frames small' rest
    rw [stream] at messages
    rw [show system.history.dispatched = _ from dispatched.symm, show
      networkHeader.messages system.reception.receiver.decoded = _ from messages]
    exact prefix_append _ _
  refine ⟨complete, fun all => ?_⟩
  exact IsPrefix.eq_of_length_le sequence
    (complete sent prefix_rfl (all ▸ prefix_rfl)).length_le

/-- Two messages arrive in pieces that cut the length words. -/
def twoMessages : List Event :=
  connecting [] ++ [.arrive (storedStream (networkHeader.frames [[7], [8, 9]])), .uplinkRead,
    receiving 9, receiving 4, .handle .calm .none, receiving 100, .handle .calm .none,
    receiving 100, receiving 100, .handle .calm .none, receiving 100, .handle .calm .none]

theorem run_dispatches_sent_pieces :
    ∃ system, (System.created (.start none) 0).run storedInflater twoMessages = .ok system ∧
      system.phase.Between ∧ system.history.dispatched = [[7], [8, 9]] := by
  have decodes : reaches ((System.created (.start none) 0).run storedInflater twoMessages)
      (fun system => system.uplink.isOpen && decide system.phase.Between &&
        system.history.decoded == networkHeader.frames [[7], [8, 9]]) = true := by decide +kernel
  obtain ⟨system, reached, decoded⟩ := exists_of_reaches decodes
  simp only [Bool.and_eq_true, decide_eq_true_eq, beq_iff_eq] at decoded
  obtain ⟨⟨opened, between⟩, decoded⟩ := decoded
  have dispatched := run_dispatches_sent storedInflater_derives.bounded (.start none) 0 twoMessages
    [[7], [8, 9]] (by decide) (by decide) system reached opened (decoded ▸ prefix_rfl)
  exact ⟨system, reached, between, (dispatched.2 between).2 decoded⟩

/-- In every run of orderly events a buffer between two turns has room. -/
theorem run_never_wedges (bounded : inflater.Bounded) (inflateState : Z) (now : Nat)
    (events : List Event)
    (fits : (System.created inflateState now).RunFits inflater System.Orderly events)
    (system : System Z)
    (reached : (System.created inflateState now).run inflater events = .ok system)
    (opened : system.uplink.isOpen = true) (between : system.phase.Between)
    (stores : system.uplink.buffer ≠ none) : 0 < system.uplink.sizeRest := by
  have kept := run_assembled bounded
    (fits.weaken fun _ _ orderly => (.inr orderly : False ∨ _))
  rw [reached] at kept
  obtain ⟨assembly, framed, suits⟩ := kept.within.receives opened
  have room := framed.assembles.sizeRest_eq (isSome_iff_ne_none.mpr stores)
  rw [show system.uplink.sizeRest = _ from room]
  exact (suits.between between).resolve_right fun wedged => wedged.1

theorem run_never_wedges_pieces :
    ∃ system, (System.created (.start none) 0).run storedInflater (twoMessages.take 8) =
      .ok system ∧ system.uplink.buffer = some [] ∧ 0 < system.uplink.sizeRest := by
  have stores : reaches ((System.created (.start none) 0).run storedInflater (twoMessages.take 8))
      (fun system => system.uplink.isOpen && decide system.phase.Between &&
        system.uplink.buffer == some []) = true := by decide +kernel
  obtain ⟨system, reached, stored⟩ := exists_of_reaches stores
  simp only [Bool.and_eq_true, decide_eq_true_eq, beq_iff_eq] at stored
  obtain ⟨⟨opened, between⟩, stored⟩ := stored
  exact ⟨system, reached, stored, run_never_wedges storedInflater_derives.bounded (.start none) 0
    (twoMessages.take 8) (by decide +kernel) system reached opened between (by simp [stored])⟩

/-- The server announces a message of no bytes. -/
def emptyMessage : List Event :=
  connecting [] ++ [.arrive (storedStream (word32 0)), .uplinkRead, receiving 100,
    .handle .calm .none]

/-- A plugin fails while the answer to a challenge loses the connection. -/
def failedAnswer : List Event :=
  connecting [⟨[1], 1, [], [], true⟩] ++
    [.arrive (storedStream (networkHeader.frames [[letter 'C']])), .uplinkRead, receiving 100,
      .handle .calm .none, receiving 100,
      .handle { World.calm with depth := 5, sends := [.lost], disconnects := [[.fail]] } .none]

/-- The events lead to an open connection with a buffer that has no room between two turns. -/
def LeavesNoRoom (events : List Event) : Prop :=
  ∃ system, (System.created (.start none) 0).run storedInflater events = .ok system ∧
    system.uplink.isOpen = true ∧ system.phase.Between ∧ system.uplink.buffer ≠ none ∧
    ¬ 0 < system.uplink.sizeRest

theorem leavesNoRoom_of_reaches
    (wedges : reaches ((System.created (.start none) 0).run storedInflater events)
      (fun system => system.uplink.isOpen && decide system.phase.Between &&
        system.uplink.buffer.isSome && system.uplink.sizeRest == 0) = true) :
    LeavesNoRoom events := by
  obtain ⟨system, reached, wedged⟩ := exists_of_reaches wedges
  simp only [Bool.and_eq_true, decide_eq_true_eq, beq_iff_eq, isSome_iff_ne_none] at wedged
  obtain ⟨⟨⟨opened, between⟩, stores⟩, full⟩ := wedged
  exact ⟨system, reached, opened, between, stores, by omega⟩

theorem lost_room_wedges : LeavesNoRoom emptyMessage ∧ LeavesNoRoom failedAnswer :=
  ⟨leavesNoRoom_of_reaches (by decide +kernel), leavesNoRoom_of_reaches (by decide +kernel)⟩

end Ucollect.Core
