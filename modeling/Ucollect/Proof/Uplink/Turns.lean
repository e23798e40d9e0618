import Ucollect.Proof.Uplink.Breaks
import Ucollect.Proof.Uplink.Reception

namespace Ucollect.Core
open Library List Option

variable {Z : Type}

/-- A closed connection has an empty buffer. -/
def Receiver.Empty (receiver : Receiver Z) : Prop :=
  receiver.buffer = none ∧ receiver.bufferSize = 0 ∧ receiver.sizeRest = 0 ∧
    receiver.hasSize = false

/-- An open connection receives as described, and a closed one has an empty buffer. -/
structure System.Within (receives : Reception Z → Prop) (system : System Z) : Prop where
  tidy : system.uplink.isOpen = false → system.receiver.Empty
  receives : system.uplink.isOpen = true → receives system.reception

theorem within_untimed (receives : Reception Z → Prop) : Untimed (System.Within receives) where
  keep before after same holds := by
    have sameOpen : after.uplink.isOpen = before.uplink.isOpen := congrArg Reception.isOpen same
    have sameReceiver : after.receiver = before.receiver := congrArg Reception.receiver same
    constructor
    · rw [sameOpen, sameReceiver]
      exact holds.tidy
    · rw [sameOpen, same]
      exact holds.receives
  hangUp system timers _ := ⟨fun _ => ⟨rfl, rfl, rfl, rfl⟩, nofun⟩

namespace Reception
open List Option

variable (reception : Reception Z)

/-- The turn takes a chunk from the socket and changes the receiver. -/
def fetch (chunk : Option Bytes) (receiver : Receiver Z) : Reception Z :=
  { reception with
    receiver := receiver
    socket := { reception.socket with
      unread := reception.socket.unread.drop (chunk.getD []).length }
    turns := reception.turns ++ [.received chunk]
    received := reception.received ++ chunk.getD [] }

def withReceiver (receiver : Receiver Z) : Reception Z := { reception with receiver := receiver }

def withPhase (phase : ReadPhase) : Reception Z := { reception with phase := phase }

end Reception

section Receiving

variable {inflater : Inflater Z} {reception : Reception Z}

variable {leaves : Exit → System Z → Prop}

theorem inflateOnce_meets :
    Meets (fun system => system.reception = reception) (inflateOnce inflater)
      (fun output system =>
        output = (if (reception.receiver.inflated inflater).corrupted then none
          else some (reception.receiver.output inflater)) ∧
        system.reception = reception.withReceiver (reception.receiver.drain inflater))
      leaves := by
  apply meets_get
  intro system same
  subst same
  dsimp only
  split
  case isTrue corrupted =>
    have lost : system.reception.receiver.output inflater = [] := if_pos corrupted
    rintro _ rfl
    refine ⟨(if_pos corrupted).symm, ?_⟩
    simp only [Receiver.drain, lost, append_nil]
    rfl
  case isFalse intact =>
    have kept : system.reception.receiver.output inflater =
        (system.reception.receiver.inflated inflater).output := if_neg intact
    rintro _ rfl
    refine ⟨(congrArg some kept.symm).trans (if_neg intact).symm, ?_⟩
    simp only [Receiver.drain, kept]
    rfl

/-- A call of `inflate` without output may end the connection. -/
def Pulled (inflater : Inflater Z) (before after : Reception Z) : Prop :=
  after = before.withReceiver (before.receiver.pull inflater) ∧ before.receiver.output inflater = []

theorem System.within_of_open {receives : Reception Z → Prop} {system : System Z}
    (opened : system.reception.isOpen = true) (holds : receives system.reception) :
    system.Within receives :=
  ⟨fun closed => absurd (opened.symm.trans closed) (by decide), fun _ => holds⟩

theorem inflateAgain_meets (reception : Reception Z) (opened : reception.isOpen = true) :
    Meets (fun system => system.reception = reception) (inflateAgain inflater)
      (fun status system => match status with
        | .data output =>
          system.reception = reception.withReceiver (reception.receiver.drain inflater) ∧
            output = reception.receiver.output inflater ∧ output ≠ []
        | .endLoop => system.Within (Pulled inflater reception)
        | .again => False)
      (Leaves (System.Within (Pulled inflater reception)) fun _ => True) := by
  apply Meets.bind inflateOnce_meets
  intro output
  apply meets_pointwise
  rintro system ⟨same, drained⟩
  have stillOpen : system.reception.isOpen = true := by
    rw [drained]
    exact opened
  match output with
  | none =>
    have lost : reception.receiver.output inflater = [] := by
      apply if_pos
      by_contra intact
      simp [intact] at same
    have pulled : system.Within (Pulled inflater reception) := by
      apply System.within_of_open stillOpen
      exact ⟨by rw [drained, Receiver.pull_idle _ lost], lost⟩
    have keeps := (within_untimed (Pulled inflater reception)).durable.reconnectFromEvent
    exact Meets.bind (keeps.start pulled) fun _ => meets_pure fun _ holds => holds
  | some [] =>
    have lost : reception.receiver.output inflater = [] := by
      split at same
      · cases same
      · exact (Option.some.inj same).symm
    rintro _ rfl
    apply System.within_of_open stillOpen
    exact ⟨by rw [drained, Receiver.pull_idle _ lost], lost⟩
  | some (byte :: more) =>
    rintro _ rfl
    refine ⟨drained, ?_, cons_ne_nil _ _⟩
    split at same
    · cases same
    · exact Option.some.inj same

/-- The first call of the turn got nothing. -/
structure Receiver.Dry (receiver : Receiver Z) (inflater : Inflater Z) : Prop where
  intact : (receiver.inflated inflater).corrupted = false
  idle : receiver.output inflater = []

/-- The turn takes a chunk only where there is nothing left to decode. -/
structure Offers (inflater : Inflater Z) (reception : Reception Z) (chunk : Option Bytes) : Prop
    where
  taken : chunk.getD [] <+: reception.socket.unread
  needed : chunk ≠ none → reception.receiver.Dry inflater

theorem offers_none : Offers inflater reception none := ⟨List.nil_prefix, fun some => absurd rfl some⟩

/-- The turn takes a chunk and gets no output from it. -/
def Quiet (inflater : Inflater Z) (before after : Reception Z) : Prop :=
  ∃ chunk, Offers inflater before chunk ∧
    after = before.fetch chunk (before.receiver.fill inflater chunk) ∧
    (before.receiver.fill inflater chunk).decoded = before.receiver.decoded

/-- The turn takes a chunk and has output to store. -/
def Filled (inflater : Inflater Z) (before after : Reception Z) (output : Bytes) : Prop :=
  ∃ chunk drained, Offers inflater before chunk ∧ after = before.fetch chunk drained ∧
    drained.store output = before.receiver.fill inflater chunk ∧
    drained.decoded = before.receiver.decoded ++ output ∧ output ≠ []

def Fills (inflater : Inflater Z) (before : Reception Z) : RddStatus → System Z → Prop
  | .data output, system => Filled inflater before system.reception output
  | .endLoop, system => system.Within (Quiet inflater before)
  | .again, system => system.uplink.isOpen = true ∧ Quiet inflater before system.reception

theorem Reception.fetch_none (receiver : Receiver Z) :
    reception.fetch none receiver = { reception.withReceiver receiver with
      turns := reception.turns ++ [.received none] } := by
  simp [fetch, withReceiver]

theorem Receiver.drain_decoded (receiver : Receiver Z) (inflater : Inflater Z) :
    (receiver.drain inflater).decoded = receiver.decoded ++ receiver.output inflater := rfl

theorem Receiver.pull_decoded (receiver : Receiver Z) (inflater : Inflater Z) :
    (receiver.pull inflater).decoded = receiver.decoded ++ receiver.output inflater := rfl

variable {chunk : Option Bytes} {next : Receiver Z}

/-- The second call of a turn fills the buffer or leaves the turn without output. -/
theorem inflateAgain_fills (opened : reception.isOpen = true)
    (offers : Offers inflater reception chunk)
    (fills : reception.receiver.fill inflater chunk = next.pull inflater)
    (decoded : next.decoded = reception.receiver.decoded) :
    Meets (fun system => system.reception = reception.fetch chunk next) (inflateAgain inflater)
      (Fills inflater reception)
      (Leaves (System.Within (Quiet inflater reception)) fun _ => True) := by
  have quiet : ∀ system : System Z,
      system.Within (Pulled inflater (reception.fetch chunk next)) →
      system.Within (Quiet inflater reception) := by
    intro system within
    refine ⟨within.tidy, fun opened => ?_⟩
    obtain ⟨same, idle⟩ := within.receives opened
    refine ⟨chunk, offers, ?_, ?_⟩
    · rw [same, fills]
      rfl
    · have silent : next.output inflater = [] := idle
      rw [fills, Receiver.pull_decoded, silent, append_nil, decoded]
  apply (inflateAgain_meets (reception.fetch chunk next) opened).weaken (fun _ same => same)
  · intro status system holds
    cases status with
    | endLoop => exact quiet system holds
    | again => exact holds.elim
    | data output =>
      obtain ⟨same, rfl, nonempty⟩ := holds
      refine ⟨chunk, next.drain inflater, offers, same, ?_, ?_, nonempty⟩
      · exact fills.symm
      · rw [Receiver.drain_decoded, decoded]
        rfl
  · intro exit system left
    cases exit with
    | jump => exact quiet system left
    | died death => trivial

theorem Receiver.Dry.fill {receiver : Receiver Z} (dry : receiver.Dry inflater) :
    receiver.fill inflater chunk =
      if (receiver.pull inflater).availIn = [] then
        match chunk with
        | none => receiver.pull inflater
        | some bytes => { receiver.pull inflater with availIn := bytes }.pull inflater
      else (receiver.pull inflater).pull inflater := by
  unfold Receiver.fill
  exact if_neg (by simp [dry.intact, dry.idle])

theorem Receiver.Dry.decoded {receiver : Receiver Z} (dry : receiver.Dry inflater) :
    (receiver.pull inflater).decoded = receiver.decoded := by
  rw [Receiver.pull_decoded, dry.idle, append_nil]

theorem logTurn_meets (reception : Reception Z) (turn : Turn) :
    Meets (fun system => system.reception = reception) (logTurn (Z := Z) turn)
      (fun _ system => system.reception =
        { reception with turns := reception.turns ++ [turn] }) leaves := by
  rintro system rfl
  rfl

theorem logTurn_fetches :
    Meets (fun system => system.reception = reception.withReceiver next)
      (logTurn (Z := Z) (.received none))
      (fun _ system => system.reception = reception.fetch none next) leaves := by
  rw [Reception.fetch_none]
  exact logTurn_meets _ _

/-- A turn without input ends the loop, and the connection may be gone. -/
theorem quiet_none (opened : reception.isOpen = true) (dry : reception.receiver.Dry inflater)
    (empty : (reception.receiver.pull inflater).availIn = []) {system : System Z}
    (same : system.reception = reception.fetch none (reception.receiver.pull inflater)) :
    system.uplink.isOpen = true ∧ Quiet inflater reception system.reception := by
  have fills : reception.receiver.fill inflater none = reception.receiver.pull inflater := by
    rw [dry.fill, if_pos empty]
  refine ⟨?_, none, offers_none, ?_, ?_⟩
  · exact (congrArg Reception.isOpen same).trans opened
  · rw [same, fills]
  · rw [fills, dry.decoded]

/-- The kernel gives a part of what it holds. -/
theorem Socket.available_prefix (socket : Socket) (amount : Nat) :
    socket.available amount <+: socket.unread := take_prefix _ _

theorem takeInput_meets (bytes : Bytes) :
    Meets (fun system => system.reception = reception) (takeInput (Z := Z) bytes)
      (fun _ system => system.reception = { reception with
        receiver := { reception.receiver with availIn := bytes }
        socket := { reception.socket with unread := reception.socket.unread.drop bytes.length }
        received := reception.received ++ bytes }) leaves := by
  rintro system rfl
  rfl

theorem receiveInput_fills (opened : reception.isOpen = true)
    (dry : reception.receiver.Dry inflater)
    (empty : (reception.receiver.pull inflater).availIn = []) :
    Meets (fun system => system.reception =
        reception.withReceiver (reception.receiver.pull inflater))
      (receiveInput inflater) (Fills inflater reception)
      (Leaves (System.Within (Quiet inflater reception)) fun _ => True) := by
  have untimed := within_untimed (Quiet inflater reception)
  -- The remote may close the connection after a turn without input.
  have closes : Meets (fun system => system.reception =
        reception.fetch none (reception.receiver.pull inflater)) (closedByRemote (Z := Z))
      (Fills inflater reception)
      (Leaves (System.Within (Quiet inflater reception)) fun _ => True) := by
    apply ((untimed.durable.closedByRemote trivial).both closedByRemote_ends).weaken
    · intro system same
      have quiet := quiet_none opened dry empty same
      exact ⟨System.within_of_open quiet.1 quiet.2, trivial⟩
    · rintro _ _ ⟨within, rfl⟩
      exact within
    · exact fun _ _ left => left.1
  apply meets_get
  intro system same
  cases system.world.recv with
  | interrupted =>
    refine Meets.bind (logTurn_fetches.start same) fun _ => meets_pure fun _ fetched => ?_
    exact quiet_none opened dry empty fetched
  | fatal => exact meets_throw fun _ _ => trivial
  | reset => exact Meets.bind (logTurn_fetches.start same) fun _ => closes
  | ready amount =>
    dsimp only
    split
    · refine Meets.bind (logTurn_fetches.start same) fun _ => ?_
      split
      · exact closes
      · refine meets_pure fun _ fetched => ?_
        have quiet := quiet_none opened dry empty fetched
        exact System.within_of_open quiet.1 quiet.2
    case h_2 byte more available =>
      have taken : (some (byte :: more)).getD [] <+: reception.socket.unread := by
        have sameSocket : system.socket = reception.socket := congrArg Reception.socket same
        rw [getD_some, ← available, ← sameSocket]
        exact system.socket.available_prefix amount
      refine Meets.bind ((takeInput_meets (byte :: more)).start same) fun _ => ?_
      refine Meets.bind (logTurn_meets _ _) fun _ => ?_
      have fills : reception.receiver.fill inflater (some (byte :: more)) =
          ({ reception.receiver.pull inflater with
            availIn := byte :: more } : Receiver Z).pull inflater := by
        rw [dry.fill, if_pos empty]
      exact inflateAgain_fills opened ⟨taken, fun _ => dry⟩ fills dry.decoded

theorem readDecompressedData_fills (opened : reception.isOpen = true) :
    Meets (fun system => system.reception = reception) (readDecompressedData inflater)
      (Fills inflater reception)
      (Leaves (System.Within (Quiet inflater reception)) fun _ => True) := by
  apply Meets.bind inflateOnce_meets
  intro output
  apply meets_pointwise
  rintro system ⟨same, drained⟩
  match output with
  | none =>
    have corrupted : (reception.receiver.inflated inflater).corrupted = true := by
      by_contra intact
      simp [intact] at same
    have lost : reception.receiver.output inflater = [] := if_pos corrupted
    have fills : reception.receiver.fill inflater none = reception.receiver.pull inflater :=
      if_pos (.inl corrupted)
    rw [← Receiver.pull_idle _ lost] at drained
    refine Meets.bind (logTurn_fetches.start drained) fun _ => ?_
    have keeps := (within_untimed (Quiet inflater reception)).durable.reconnectFromEvent
    refine Meets.bind (keeps.weaken (fun system fetched => ?_) (fun _ _ holds => holds)
      (fun _ _ left => left)) fun _ => meets_pure fun _ holds => holds
    apply System.within_of_open ((congrArg Reception.isOpen fetched).trans opened)
    refine ⟨none, offers_none, by rw [fetched, fills], ?_⟩
    rw [fills, Receiver.pull_decoded, lost, append_nil]
  | some (byte :: more) =>
    have output : reception.receiver.output inflater = byte :: more := by
      split at same
      · cases same
      · exact (Option.some.inj same).symm
    have fills : reception.receiver.fill inflater none = reception.receiver.pull inflater :=
      if_pos (.inr (by simp [output]))
    refine Meets.bind (logTurn_fetches.start drained) fun _ => meets_pure fun _ fetched => ?_
    refine ⟨none, _, offers_none, fetched, ?_, ?_, cons_ne_nil _ _⟩
    · rw [fills, Receiver.pull, output]
    · rw [Receiver.drain_decoded, output]
  | some [] =>
    have dry : reception.receiver.Dry inflater := by
      split at same
      · cases same
      case isFalse intact =>
        exact ⟨Bool.eq_false_of_not_eq_true intact, (Option.some.inj same).symm⟩
    rw [← Receiver.pull_idle _ dry.idle] at drained
    have sameIn : system.uplink.availIn = (reception.receiver.pull inflater).availIn :=
      congrArg (fun reception : Reception Z => reception.receiver.availIn) drained
    apply meets_get
    intro current stands
    rw [stands]
    split
    case isTrue empty => exact (receiveInput_fills opened dry (sameIn ▸ empty)).start drained
    case isFalse more =>
      refine Meets.bind (logTurn_fetches.start drained) fun _ => ?_
      have fills : reception.receiver.fill inflater none =
          (reception.receiver.pull inflater).pull inflater := by
        rw [dry.fill, if_neg (sameIn ▸ more)]
      exact inflateAgain_fills opened offers_none fills dry.decoded

/-- A turn of the loop of `uplink_read` receives a chunk and goes on as its output tells. -/
structure Receives (inflater : Inflater Z) (limit : Nat) (before after : Reception Z)
    (chunk : Option Bytes) : Prop where
  offers : Offers inflater (before.withReceiver before.receiver.prepare) chunk
  moves : ∃ phase, after =
    (before.fetch chunk (before.receiver.receive inflater chunk)).withPhase phase
  goes : (before.receiver.receive inflater chunk).decoded ≠ before.receiver.decoded →
    after.phase = if (before.receiver.receive inflater chunk).sizeRest = 0 then .handling limit
      else nextTurn limit
  stops : (before.receiver.receive inflater chunk).decoded = before.receiver.decoded →
    after.phase = .idle ∨ after.phase = nextTurn limit

theorem Receiver.prepare_decoded (receiver : Receiver Z) :
    receiver.prepare.decoded = receiver.decoded := by
  unfold prepare
  split <;> rfl

theorem prepareBuffer_meets :
    Meets (fun system => system.reception = reception) (prepareBuffer (Z := Z))
      (fun _ system => system.reception =
        reception.withReceiver reception.receiver.prepare) leaves := by
  rintro system rfl
  rw [prepareBuffer, eval_modifyUplink]
  cases buffer : system.uplink.buffer with
  | none =>
    have empty : system.reception.receiver.buffer = none := buffer
    simp only [Receiver.prepare, empty]
    rfl
  | some bytes =>
    have stored : system.reception.receiver.buffer = some bytes := buffer
    simp only [Receiver.prepare, stored]
    rfl

theorem Receives.of_quiet {limit : Nat} {phase : ReadPhase} {after : Reception Z}
    (quiet : Quiet inflater (reception.withReceiver reception.receiver.prepare) after)
    (phases : phase = .idle ∨ phase = nextTurn limit) :
    ∃ chunk, Receives inflater limit reception (after.withPhase phase) chunk := by
  obtain ⟨chunk, offers, rfl, silent⟩ := quiet
  refine ⟨chunk, offers, ⟨phase, rfl⟩, fun loud => ?_, fun _ => phases⟩
  exact absurd (silent.trans reception.receiver.prepare_decoded) loud

theorem store_meets (limit : Nat) (output : Bytes) :
    Meets (fun system => system.reception = reception)
      (modifyUplink (fun uplink => { uplink with
          seenData := true
          buffer := uplink.buffer.map (· ++ output)
          sizeRest := uplink.sizeRest - output.length }) >>= fun _ =>
        get >>= fun system : System Z =>
          setPhase (if system.uplink.sizeRest = 0 then .handling limit else nextTurn limit))
      (fun _ system => system.reception =
        (reception.withReceiver (reception.receiver.store output)).withPhase
          (if (reception.receiver.store output).sizeRest = 0 then .handling limit
            else nextTurn limit)) leaves := by
  rintro system rfl
  rfl

/-- Output that completes the buffer leads to its handler. -/
theorem Receives.of_filled {limit : Nat} {after : Reception Z} {output : Bytes}
    (filled : Filled inflater (reception.withReceiver reception.receiver.prepare) after output) :
    ∃ chunk, Receives inflater limit reception
      ((after.withReceiver (after.receiver.store output)).withPhase
        (if (after.receiver.store output).sizeRest = 0 then .handling limit
          else nextTurn limit)) chunk := by
  obtain ⟨chunk, drained, offers, rfl, stored, decoded, nonempty⟩ := filled
  have received : drained.store output = reception.receiver.receive inflater chunk := stored
  have loud : (reception.receiver.receive inflater chunk).decoded ≠ reception.receiver.decoded := by
    rw [← received, ← reception.receiver.prepare_decoded]
    intro same
    have grown : reception.receiver.prepare.decoded ++ output = reception.receiver.prepare.decoded :=
      decoded.symm.trans same
    exact nonempty (by simpa using grown)
  refine ⟨chunk, offers, ⟨_, congrArg (fun receiver => Reception.withPhase
    (reception.fetch chunk receiver) _) received⟩, fun _ => ?_, fun silent => absurd silent loud⟩
  rw [← received]
  rfl

theorem uplinkReceive_meets (limit : Nat) (opened : reception.isOpen = true) :
    Meets (fun system => system.reception = reception) (uplinkReceive inflater limit)
      (fun _ => System.Within fun after => ∃ chunk, Receives inflater limit reception after chunk)
      (Leaves (System.Within
        (Quiet inflater (reception.withReceiver reception.receiver.prepare))) fun _ => True) := by
  apply Meets.bind prepareBuffer_meets
  intro _
  have prepared : (reception.withReceiver reception.receiver.prepare).isOpen = true := opened
  apply Meets.bind (readDecompressedData_fills prepared)
  intro status
  cases status with
  | endLoop =>
    apply meets_modify
    intro system within
    exact ⟨within.tidy, fun opened => Receives.of_quiet (within.receives opened) (.inl rfl)⟩
  | again =>
    apply meets_modify
    rintro system ⟨opened, quiet⟩
    exact System.within_of_open opened (Receives.of_quiet quiet (.inr rfl))
  | data output =>
    apply meets_pointwise
    intro system filled
    have stays : system.reception.isOpen = true := by
      obtain ⟨chunk, drained, -, same, -⟩ := filled
      rw [same]
      exact opened
    apply (store_meets limit output).weaken (by rintro _ rfl; rfl)
    · intro _ final moved
      apply System.within_of_open
      · rw [moved]
        exact stays
      · rw [moved]
        exact Receives.of_filled filled
    · exact fun _ _ left => left

end Receiving

end Ucollect.Core
