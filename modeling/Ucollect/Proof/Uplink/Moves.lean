import Ucollect.Proof.Uplink.Taking

namespace Ucollect.Core
open Library

variable {Z : Type}

section Escaping

variable {calm : Prop} {receives : Reception Z → Prop}

/-- The world stays calm if it was calm before the event. -/
def System.Guarded (calm : Prop) (receives : Reception Z → Prop) (system : System Z) : Prop :=
  system.Within receives ∧ (calm → system.world.Calm)

/-- A callback that fails in a calm world has closed the connection before. -/
def System.Escaped (calm : Prop) (receives : Reception Z → Prop) (system : System Z) : Prop :=
  system.Within receives ∧ (calm → system.uplink.isOpen = false)

theorem guarded_durable :
    Durable (Z := Z) (System.Guarded calm receives) (System.Guarded calm receives)
      fun _ => True := by
  have within := (within_untimed receives).durable
  exact
    { frame := fun before after same rest holds =>
        ⟨within.frame before after same rest holds.1, fun known => (holds.2 known).suffix rest⟩
      add := fun system delay id timers holds added =>
        ⟨within.add system delay id timers holds.1 added, holds.2⟩
      cancel := fun system timeout timers holds member other cancelled =>
        ⟨within.cancel system timeout timers holds.1 member other cancelled, holds.2⟩
      jumps := fun _ holds => holds
      deaths := fun _ _ => trivial
      schedule := fun system delay id timers holds free added =>
        ⟨within.schedule system delay id timers holds.1 free added, holds.2⟩
      hangUp := fun system timers holds silenced =>
        ⟨within.hangUp system timers holds.1 silenced, holds.2⟩
      unschedule := fun system timers holds waits cancelled =>
        ⟨within.unschedule system timers holds.1 waits cancelled, holds.2⟩ }

/-- A program that closes the connection escapes only behind the end of it. -/
theorem Severs.escapes {program : LoopM Z Unit} (severs : Severs program)
    (keeps : Keeps (System.Guarded calm receives) (System.Guarded calm receives) (fun _ => True)
      program) :
    Keeps (System.Guarded calm receives) (System.Escaped calm receives) (fun _ => True)
      program := by
  by_cases known : calm
  · apply (keeps.both severs).weaken (fun _ holds => ⟨holds, holds.2 known⟩)
    · exact fun _ _ holds => holds.1
    · intro exit system left
      cases exit with
      | jump => exact ⟨left.1.1, fun _ => left.2.2⟩
      | died death => trivial
  · apply keeps.weaken (fun _ holds => holds) (fun _ _ holds => holds)
    intro exit system left
    cases exit with
    | jump => exact ⟨left.1, fun calm => absurd calm known⟩
    | died death => trivial

theorem reconnectFromEvent_escapes :
    Keeps (System.Guarded calm receives) (System.Escaped calm receives) (fun _ => True)
      (reconnectFromEvent (Z := Z)) :=
  reconnectFromEvent_severs.escapes guarded_durable.reconnectFromEvent

theorem handleRejection_escapes :
    Keeps (System.Guarded calm receives) (System.Escaped calm receives) (fun _ => True)
      (handleRejection (Z := Z)) := by
  have severs := (reconnectFromEvent_severs (Z := Z)).disconnect true
  exact .bind (severs.escapes guarded_durable.disconnectAndReset) fun _ =>
    .bind (guarded_durable.modifyUplink fun _ => rfl) fun _ =>
      guarded_durable.connectFail trivial

end Escaping

section Handling

variable {system : System Z} {limit : Nat}

theorem System.dispatching_reception :
    system.dispatching.reception = system.reception.withReceiver system.receiver.dispatching := by
  unfold System.dispatching Receiver.dispatching
  cases contents : system.uplink.buffer.getD [] with
  | nil =>
    have same : system.receiver.contents = [] := contents
    simp only [Receiver.dispatch, same]
    rfl
  | cons command params =>
    have same : system.receiver.contents = command :: params := contents
    simp only [Receiver.dispatch, same]
    rfl

theorem Receiver.dispatching_cleared (receiver : Receiver Z) :
    receiver.dispatching.cleared = receiver.dispatch.cleared := by
  unfold dispatching
  split <;> rfl

theorem System.sized_reception :
    system.uplink.hasSize = false →
      system.sized.reception = system.reception.withReceiver system.receiver.handle := by
  intro unsized
  have same : system.receiver.hasSize = false := unsized
  simp only [Receiver.handle, same]
  rfl

/-- The reception behind a turn that handles the buffer. -/
def Reception.handled (reception : Reception Z) (limit : Nat) (receiver : Receiver Z) :
    Reception Z :=
  { reception with
    receiver := receiver
    phase := nextTurn limit
    turns := reception.turns ++ [.handled] }

/-- The reception behind a handler that a failed plugin interrupts. -/
def Reception.interrupted (reception : Reception Z) (receiver : Receiver Z) : Reception Z :=
  { reception with
    receiver := receiver
    phase := .idle
    turns := reception.turns ++ [.interrupted] }

variable {reception : Reception Z} {receiver : Receiver Z}

/-- The rest of the turn logs it and looks at the connection. -/
theorem uplinkHandle_ends {leaves : Exit → System Z → Prop} :
    Meets (System.Within fun after => after = reception.withReceiver receiver)
      (logTurn .handled >>= fun _ => get >>= fun system =>
        setPhase (if system.uplink.isOpen then nextTurn limit else .idle))
      (fun _ => System.Within fun after => after = reception.handled limit receiver) leaves := by
  intro current within
  refine ⟨fun closed => within.tidy closed, fun opened => ?_⟩
  have same := within.receives opened
  have turn : (if current.uplink.isOpen then nextTurn limit else .idle) = nextTurn limit :=
    if_pos opened
  show { current.reception with
    phase := if current.uplink.isOpen then nextTurn limit else .idle
    turns := current.reception.turns ++ [.handled] } = reception.handled limit receiver
  rw [turn, same]
  rfl

/-- A callback inside the handler fails and the connection survives it. -/
def System.Interrupts (system : System Z) : Prop :=
  system.uplink.reaction ≠ .ignore ∧ (system.uplink.reaction.Clears ∨ ¬ system.world.Calm)

theorem AuthStatus.reaction_clears {status : AuthStatus} {command : UInt8}
    (reacts : status.reaction command ≠ .ignore) :
    (status.reaction command).Clears ↔ command = letter 'R' ∨ command = letter 'A' := by
  unfold Reaction.Clears
  unfold reaction at reacts ⊢
  by_cases accepts : status = .authenticated ∨ status = .sent
  · by_cases route : command = letter 'R'
    · simp [accepts, route]
    by_cases activation : command = letter 'A'
    · subst activation
      simp only [accepts, if_true]
      decide
    · simp only [accepts, route, activation, if_true, if_false] at reacts ⊢
      split_ifs <;> simp
  · rw [if_neg accepts] at reacts ⊢
    split at reacts
    case isTrue challenged =>
      rw [challenged.1]
      simp only [challenged.2, and_self, if_true]
      decide
    case isFalse => exact absurd rfl reacts

/-- The reaction tells whether the buffer was reset before the callback. -/
theorem System.interrupt_eq (reacts : system.uplink.reaction ≠ .ignore) :
    system.receiver.interrupt = if system.uplink.reaction.Clears then
      system.receiver.dispatch.cleared else system.receiver.dispatching := by
  unfold Uplink.reaction at reacts ⊢
  split at reacts
  case isFalse => exact absurd rfl reacts
  case isTrue sized =>
    split at reacts
    case h_2 => exact absurd rfl reacts
    case h_1 command params stored =>
      have contents : system.receiver.contents = command :: params := by
        show system.uplink.buffer.getD [] = _
        rw [stored, Option.getD_some]
      simp only [Receiver.interrupt, contents, sized, if_true, AuthStatus.reaction_clears reacts]

theorem System.cleared_within
    (within : system.Within fun after => after = reception.withReceiver receiver) :
    system.cleared.Within fun after => after = reception.withReceiver receiver.cleared := by
  refine ⟨fun _ => ⟨rfl, rfl, rfl, rfl⟩, fun opened => ?_⟩
  show system.reception.withReceiver system.reception.receiver.cleared = _
  rw [within.receives opened]
  rfl

/-- The dispatched message stays in the buffer until the reset. -/
theorem System.handling (system : System Z) :
    Handling
      (System.Guarded system.world.Calm fun after =>
        after = system.reception.withReceiver system.receiver.dispatching)
      (System.Within fun after =>
        after = system.reception.withReceiver system.receiver.dispatch.cleared)
      (System.Within fun after =>
        after = system.reception.withReceiver system.receiver.dispatch.cleared)
      fun _ => True where
  outside := guarded_durable.toSteady
  inside := (within_untimed _).durable.toStable
  clears last holds := by
    rw [← Receiver.dispatching_cleared]
    exact System.cleared_within holds.1

theorem System.reconnects (system : System Z) :
    Reconnects system.uplink.reaction
      (System.Guarded system.world.Calm fun after =>
        after = system.reception.withReceiver system.receiver.dispatching)
      (System.Within fun after =>
        after = system.reception.withReceiver system.receiver.dispatch.cleared)
      (fun last => system.uplink.reaction ≠ .ignore ∧ last.Escaped system.world.Calm fun after =>
        after = system.reception.withReceiver system.receiver.dispatching)
      (System.Within fun after =>
        after = system.reception.withReceiver system.receiver.dispatch.cleared)
      fun _ => True where
  routes _ := (within_untimed _).durable.reconnectFromEvent
  answers reacts := by
    apply reconnectFromEvent_escapes.weaken (fun _ holds => holds) (fun _ _ holds => holds)
    rintro (_ | _) last left
    · refine ⟨fun ignored => ?_, left⟩
      rw [ignored] at reacts
      exact absurd reacts (by decide)
    · trivial
  rejects reacts := by
    apply handleRejection_escapes.weaken (fun _ holds => holds) (fun _ _ holds => holds)
    rintro (_ | _) last left
    · exact ⟨by simp [reacts], left⟩
    · trivial

/-- The buffer of an open connection is handled, or a callback interrupts its handler. -/
theorem handleBuffer_within (opened : system.uplink.isOpen = true) :
    Meets (fun current => current = system) (handleBuffer (Z := Z))
      (fun _ => System.Within fun after =>
        after = system.reception.withReceiver system.receiver.handle)
      (Leaves (System.Within fun after => system.Interrupts ∧
        after = system.reception.withReceiver system.receiver.interrupt) fun _ => True) := by
  cases sized : system.uplink.hasSize with
  | false =>
    rintro _ rfl
    rw [eval_handleBuffer_unsized sized]
    exact System.within_of_open opened (System.sized_reception sized)
  | true =>
    have handled : system.receiver.handle = system.receiver.dispatch.cleared := if_pos sized
    have starts : system.dispatching.Guarded system.world.Calm fun after =>
        after = system.reception.withReceiver system.receiver.dispatching := by
      refine ⟨System.within_of_open ?_ System.dispatching_reception, ?_⟩
      · rw [System.dispatching_reception]
        exact opened
      · unfold System.dispatching
        cases system.uplink.buffer.getD [] with
        | nil => exact id
        | cons command params => exact id
    apply (system.handling.handleBuffer sized starts system.reconnects).weaken
      (fun _ stands => stands)
    · rintro _ _ ⟨last, kept | kept, rfl⟩
      · rw [handled, ← Receiver.dispatching_cleared]
        exact System.cleared_within kept.1
      · rw [handled]
        have cleared := System.cleared_within kept
        exact cleared
    · rintro (_ | _) last left
      · dsimp only [Leaves] at left ⊢
        split at left
        case isTrue clears =>
          have reacts : system.uplink.reaction ≠ .ignore := by
            rintro ignored
            rw [ignored] at clears
            exact absurd clears (by decide)
          refine ⟨left.tidy, fun opened => ⟨⟨reacts, .inl clears⟩, ?_⟩⟩
          rw [left.receives opened, System.interrupt_eq reacts, if_pos clears]
        case isFalse stays =>
          obtain ⟨reacts, within, severed⟩ := left
          refine ⟨within.tidy, fun opened => ⟨⟨reacts, .inr fun calm => ?_⟩, ?_⟩⟩
          · exact absurd (opened.symm.trans (severed calm)) (by decide)
          · rw [within.receives opened, System.interrupt_eq reacts, if_neg stays]
      · trivial

theorem uplinkHandle_meets (limit : Nat) (opened : system.uplink.isOpen = true) :
    Meets (fun current => current = system) (uplinkHandle (Z := Z) limit)
      (fun _ => System.Within fun after =>
        after = system.reception.handled limit system.receiver.handle)
      (Leaves (System.Within fun after => system.Interrupts ∧
        after = system.reception.withReceiver system.receiver.interrupt) fun _ => True) :=
  Meets.bind (handleBuffer_within opened) fun _ => uplinkHandle_ends

end Handling

section Moving

/-- A new connection starts with an empty buffer and the input that the last one left. -/
def Reception.connected (inflateState : Z) (availIn : Bytes) : Reception Z where
  receiver := .fresh inflateState availIn
  isOpen := true
  socket := ⟨[], false⟩
  phase := .idle
  turns := []
  received := []

/-- An event that ends with an open connection moves its reception in one of these ways. -/
inductive Moves (inflater : Inflater Z) (system : System Z) : Event → Reception Z → Prop
  | stays (event : Event) (opened : system.uplink.isOpen = true) (idle : system.phase = .idle) :
      Moves inflater system event system.reception
  | arrives (bytes : Bytes) (opened : system.uplink.isOpen = true) :
      Moves inflater system (.arrive bytes) { system.reception with
        socket := { system.socket with unread := system.socket.unread ++ bytes } }
  | closes (opened : system.uplink.isOpen = true) :
      Moves inflater system .remoteClose { system.reception with
        socket := { system.socket with closed := true } }
  | reads (opened : system.uplink.isOpen = true) (idle : system.phase = .idle) :
      Moves inflater system .uplinkRead (system.reception.withPhase (.receiving readLimit))
  | connects (owner : Nat) (world : World) (recovery : Recovery) (inflateState : Z)
      (closed : system.uplink.isOpen = false)
      (fires : (system.timers.timeouts.head?.map (·.callback)) = some .reconnectNow) :
      Moves inflater system (.timeout owner world recovery)
        (.connected (inflater.reset inflateState) system.uplink.availIn)
  | receives (world : World) (recovery : Recovery) (limit : Nat) (chunk : Option Bytes)
      (next : Reception Z) (opened : system.uplink.isOpen = true)
      (phase : system.phase = .receiving (limit + 1))
      (receives : Receives inflater limit system.reception next chunk)
      (takes : system.socket.Takes world next.socket) :
      Moves inflater system (.receive world recovery) next
  | handles (world : World) (recovery : Recovery) (limit : Nat)
      (opened : system.uplink.isOpen = true) (phase : system.phase = .handling limit) :
      Moves inflater system (.handle world recovery)
        (system.reception.handled limit system.receiver.handle)
  | interrupts (world : World) (recovery : Recovery) (limit : Nat)
      (opened : system.uplink.isOpen = true) (phase : system.phase = .handling limit)
      (interrupts : (system.withWorld world).Interrupts) :
      Moves inflater system (.handle world recovery)
        (system.reception.interrupted system.receiver.interrupt)

variable {inflater : Inflater Z} {system : System Z}

/-- The recovery after a failed callback leaves the reception alone. -/
theorem recover_within {before : System Z → Prop} {receives : Reception Z → Prop}
    (recovery : Recovery)
    (starts : ∀ system, before system → (system.recovered recovery.world).Within receives) :
    Meets before (recover recovery) (fun _ => System.Within receives)
      (Leaves (System.Within receives) fun _ => True) :=
  (within_untimed receives).durable.toStable.recover
    (within_untimed receives).durable.reconnectFromEvent recovery starts

variable {limit : Nat}

theorem System.recovered_handling (phase : system.phase = .handling limit) (world : World) :
    (system.recovered world).reception =
      system.reception.interrupted system.reception.receiver := by
  rcases system with ⟨now, timers, plugins, uplink, socket, current⟩
  subst phase
  rfl

theorem System.recovered_receiving (phase : system.phase = .receiving limit) (world : World) :
    (system.recovered world).reception = system.reception.withPhase .idle := by
  rcases system with ⟨now, timers, plugins, uplink, socket, current⟩
  subst phase
  rfl

theorem handle_moves (opened : system.uplink.isOpen = true) (world : World) (recovery : Recovery)
    (phase : system.phase = .handling limit) :
    Outcome (System.Within (Moves inflater system (.handle world recovery))) (fun _ => True)
      (finishEvent (loopProtect recovery (uplinkHandle limit)) (system.withWorld world)) := by
  have start : (system.withWorld world).uplink.isOpen = true := opened
  refine outcome_protected ((uplinkHandle_meets limit start).weaken (fun _ stands => stands)
    (fun _ final within => ?_) (fun _ _ left => left))
    (recover_within recovery fun last within => ?_) trivial
  · refine ⟨within.tidy, fun final => ?_⟩
    rw [within.receives final]
    exact .handles world recovery limit opened phase
  · refine ⟨within.tidy, fun final => ?_⟩
    obtain ⟨interrupts, same⟩ := within.receives final
    have samePhase : last.phase = .handling limit := (congrArg Reception.phase same).trans phase
    have moved : (last.recovered recovery.world).reception =
        system.reception.interrupted system.receiver.interrupt := by
      rw [System.recovered_handling samePhase, same]
      rfl
    rw [moved]
    exact .interrupts world recovery limit opened phase interrupts

theorem receive_moves (opened : system.uplink.isOpen = true) (world : World) (recovery : Recovery)
    (phase : system.phase = .receiving (limit + 1)) :
    Outcome (System.Within (Moves inflater system (.receive world recovery))) (fun _ => True)
      (finishEvent (loopProtect recovery (uplinkReceive inflater limit))
        (system.withWorld world)) := by
  have start : (system.withWorld world).reception = system.reception := rfl
  have receives : Outcome (System.Within fun after => ∃ chunk,
      Receives inflater limit system.reception after chunk) (fun _ => True)
      (finishEvent (loopProtect recovery (uplinkReceive inflater limit))
        (system.withWorld world)) := by
    refine outcome_protected ((uplinkReceive_meets limit opened).start start)
      (recover_within recovery fun last within => ⟨within.tidy, fun final => ?_⟩) trivial
    have quiet := within.receives final
    have samePhase : last.phase = .receiving (limit + 1) := by
      obtain ⟨chunk, -, same, -⟩ := quiet
      exact (congrArg Reception.phase same).trans phase
    rw [System.recovered_receiving samePhase]
    exact Receives.of_quiet quiet (.inl rfl)
  apply (receives.both (receive_took world recovery limit)).weaken
  rintro next ⟨within, took⟩
  refine ⟨within.tidy, fun final => ?_⟩
  obtain ⟨chunk, receives⟩ := within.receives final
  exact .receives world recovery limit chunk _ opened phase receives (took final)

/-- A reconnect over an open connection fails its assertion. -/
theorem reconnectNow_dies {good : System Z → Prop} {jumps : System Z → Prop} :
    Meets (fun system => system.uplink.isOpen = true) (reconnectNow inflater) (fun _ => good)
      (Leaves jumps fun _ => True) := by
  apply Meets.bind (meets_modify fun system opened => ?_)
  · intro _
    apply meets_get
    intro system opened
    rw [if_pos opened]
    exact meets_throw fun _ _ => trivial
  · exact opened

theorem System.connected_reception (tidy : system.receiver.Empty) :
    (system.connected inflater).reception = { Reception.connected
      (inflater.reset system.uplink.inflateState) system.uplink.availIn with
        phase := system.phase } := by
  obtain ⟨buffer, bufferSize, sizeRest, hasSize⟩ := tidy
  show Reception.mk ⟨system.receiver.buffer, system.receiver.bufferSize,
    system.receiver.sizeRest, system.receiver.hasSize, _, _, _, _⟩ _ _ _ _ _ = _
  rw [buffer, bufferSize, sizeRest, hasSize]
  rfl

/-- The reconnect timeout keeps the input that is left until the connection opens. -/
theorem connect_moves {owner : Nat} {world : World} {recovery : Recovery}
    (tidy : system.uplink.isOpen = false → system.receiver.Empty) (idle : system.phase = .idle)
    {first : Timeout Callback} {rest : List (Timeout Callback)}
    (pending : system.timers.timeouts = first :: rest) (fires : first.callback = .reconnectNow) :
    Outcome (System.Within (Moves inflater system (.timeout owner world recovery))) (fun _ => True)
      (finishEvent (loopProtect recovery (reconnectNow inflater))
        { system with timers := { system.timers with timeouts := rest }, world := world }) := by
  cases opened : system.uplink.isOpen with
  | true =>
    exact outcome_protected (reconnectNow_dies.start opened)
      (recover_within recovery fun _ holds => holds) trivial
  | false =>
    have head : system.timers.timeouts.head?.map (·.callback) = some .reconnectNow := by
      rw [pending, ← fires]
      rfl
    have untimed : Untimed fun current : System Z =>
        current.uplink.availIn = system.uplink.availIn ∧
          current.Within (Moves inflater system (.timeout owner world recovery)) := by
      have within := within_untimed (Moves inflater system (.timeout owner world recovery))
      refine ⟨fun before after same holds => ?_, fun current timers holds => ?_⟩
      · have sameIn : after.uplink.availIn = before.uplink.availIn :=
          congrArg (fun reception : Reception Z => reception.receiver.availIn) same
        exact ⟨sameIn.trans holds.1, within.keep before after same holds.2⟩
      · exact ⟨holds.1, within.hangUp current timers holds.2⟩
    refine Outcome.weaken (untimed.connectOutcome ?_ ?_) fun _ holds => holds.2
    · refine ⟨⟨rfl, tidy, fun contrary => ?_⟩, idle⟩
      exact absurd (opened.symm.trans contrary) (by decide)
    · rintro current ⟨⟨sameIn, within⟩, idle⟩ closed
      refine ⟨⟨sameIn, System.within_of_open rfl ?_⟩, idle⟩
      rw [System.connected_reception (within.tidy closed), sameIn, idle]
      exact .connects owner world recovery _ opened head

/-- Every event moves the reception in one of the ways that the relation lists. -/
theorem step_moves (tidy : system.uplink.isOpen = false → system.receiver.Empty)
    (active : system.Active) (event : Event) :
    Outcome (System.Within (Moves inflater system event)) (fun _ => True)
      (system.step inflater event) := by
  have untimed := within_untimed (Moves inflater system event)
  have idles : IdleCases inflater (System.Within (Moves inflater system event)) (fun _ => True)
      system event := by
    apply untimed.idleCases event
    · exact fun idle => ⟨tidy, fun opened => .stays event opened idle⟩
    · rintro owner world recovery first rest rfl idle pending fires
      exact connect_moves tidy idle pending fires
  apply StepCases.outcome
  refine ⟨idles, ?arrive, ?remoteClose, ?uplinkRead, ?receive, ?handle⟩
  case arrive =>
    rintro bytes rfl opened
    exact ⟨tidy, fun _ => .arrives bytes opened⟩
  case remoteClose =>
    rintro rfl opened
    exact ⟨tidy, fun _ => .closes opened⟩
  case uplinkRead =>
    rintro rfl idle
    refine ⟨tidy, fun opened => ?_⟩
    have moved : { system with
        phase := if system.uplink.isOpen then .receiving readLimit else .idle }.reception =
        system.reception.withPhase (.receiving readLimit) := by
      have current : system.uplink.isOpen = true := opened
      simp only [current, if_true]
      rfl
    rw [moved]
    exact .reads opened idle
  case receive =>
    rintro world recovery limit rfl phase
    exact receive_moves (active.resolve_left (by simp [phase])) world recovery phase
  case handle =>
    rintro world recovery limit rfl phase
    exact handle_moves (active.resolve_left (by simp [phase])) world recovery phase

end Moving

end Ucollect.Core
