import Ucollect.Proof.Uplink.Framing

namespace Ucollect.Core
open Library List Option

variable {Z : Type} {inflater : Inflater Z} {derivable : Z → Bytes → Bytes}

section Deriving

/-- These bytes can be decoded without more input. -/
def Receiver.derived (derivable : Z → Bytes → Bytes) (receiver : Receiver Z) : Bytes :=
  derivable receiver.inflateState receiver.availIn

variable {receiver : Receiver Z}

/-- A call fills the buffer, or nothing is left to decode. -/
theorem Receiver.pull_derives (derives : inflater.Derives derivable)
    (room : 0 < receiver.sizeRest) :
    ((receiver.pull inflater).derived derivable = [] ∧
        (receiver.output inflater).length < receiver.sizeRest) ∨
      ((receiver.output inflater).length = receiver.sizeRest ∧
        receiver.output inflater ++ (receiver.pull inflater).derived derivable =
          receiver.derived derivable) := by
  cases corrupted : (receiver.inflated inflater).corrupted with
  | true =>
    have lost : receiver.output inflater = [] := if_pos corrupted
    rw [lost]
    exact .inl ⟨derives.fails _ _ _ corrupted, room⟩
  | false =>
    have kept : receiver.output inflater = (receiver.inflated inflater).output :=
      if_neg (by simp [corrupted])
    have fits : (receiver.output inflater).length ≤ receiver.sizeRest := by
      rw [kept]
      exact derives.bounded _ _ _
    rcases fits.lt_or_eq with short | full
    · exact .inl ⟨derives.exhausts _ _ _ corrupted (kept ▸ short), short⟩
    · refine .inr ⟨full, ?_⟩
      have continues := derives.continues receiver.inflateState receiver.availIn
        receiver.sizeRest [] corrupted
      rw [append_nil, append_nil] at continues
      rw [kept]
      exact continues.symm

/-- A call without output leaves the input to the next one. -/
theorem Receiver.Dry.derives (derives : inflater.Derives derivable) (dry : receiver.Dry inflater)
    (more : Bytes) :
    derivable receiver.inflateState (receiver.availIn ++ more) =
      derivable (receiver.pull inflater).inflateState ((receiver.pull inflater).availIn ++ more) := by
  have none : (receiver.inflated inflater).output = [] := by
    have idle := dry.idle
    rwa [Receiver.output, if_neg (by simp [dry.intact])] at idle
  have continues := derives.continues receiver.inflateState receiver.availIn receiver.sizeRest
    more dry.intact
  rw [show (inflater.inflate _ _ _).output = [] from none, nil_append] at continues
  exact continues

theorem Receiver.Dry.exhausted (derives : inflater.Derives derivable) (dry : receiver.Dry inflater)
    (room : 0 < receiver.sizeRest) :
    receiver.derived derivable = [] ∧ (receiver.pull inflater).derived derivable = [] := by
  have after : (receiver.pull inflater).derived derivable = [] := by
    obtain ⟨done, -⟩ | ⟨full, -⟩ := Receiver.pull_derives derives room
    · exact done
    · rw [dry.idle] at full
      simp at full
      omega
  refine ⟨?_, after⟩
  have same := dry.derives derives []
  rw [append_nil, append_nil] at same
  exact same.trans after

/-- A turn fills the buffer with what is left or with what it takes, or leaves nothing. -/
theorem Receiver.fill_derives (derives : inflater.Derives derivable) (room : 0 < receiver.sizeRest)
    (chunk : Option Bytes) :
    ∃ output, (receiver.fill inflater chunk).decoded = receiver.decoded ++ output ∧
      (((receiver.fill inflater chunk).derived derivable = [] ∧
          output.length < receiver.sizeRest) ∨
        (output.length = receiver.sizeRest ∧
          (output ++ (receiver.fill inflater chunk).derived derivable =
              receiver.derived derivable ∨
            output ++ (receiver.fill inflater chunk).derived derivable =
              derivable receiver.inflateState (receiver.availIn ++ chunk.getD [])))) := by
  by_cases dry : receiver.Dry inflater
  · obtain ⟨-, exhausted⟩ := dry.exhausted derives room
    have sameRest : (receiver.pull inflater).sizeRest = receiver.sizeRest := by
      rw [Receiver.pull_idle _ dry.idle]
      rfl
    rw [dry.fill]
    split
    case isTrue empty =>
      cases chunk with
      | none => exact ⟨[], by rw [dry.decoded, append_nil], .inl ⟨exhausted, room⟩⟩
      | some bytes =>
        let next : Receiver Z := { receiver.pull inflater with availIn := bytes }
        have given : next.derived derivable =
            derivable receiver.inflateState (receiver.availIn ++ bytes) := by
          rw [dry.derives derives bytes, empty]
          rfl
        refine ⟨next.output inflater, ?_, ?_⟩
        · rw [← dry.decoded]
          rfl
        · have nextRoom : 0 < next.sizeRest := sameRest ▸ room
          have pulls := Receiver.pull_derives derives nextRoom
          rw [given, show next.sizeRest = receiver.sizeRest from sameRest] at pulls
          exact pulls.imp_right fun full => ⟨full.1, .inr full.2⟩
    case isFalse more =>
      refine ⟨(receiver.pull inflater).output inflater, ?_, ?_⟩
      · rw [← dry.decoded]
        rfl
      · have pulls := Receiver.pull_derives derives (sameRest ▸ room)
        rw [exhausted, sameRest] at pulls
        refine .inl (pulls.resolve_right fun full => ?_)
        have none := (append_eq_nil_iff.mp full.2).1
        have length := full.1
        rw [none] at length
        simp at length
        omega
  · have fills : receiver.fill inflater chunk = receiver.pull inflater := by
      refine if_pos ?_
      by_contra idle
      rw [not_or, not_not] at idle
      exact dry ⟨Bool.eq_false_of_not_eq_true idle.1, idle.2⟩
    rw [fills]
    exact ⟨_, rfl, (Receiver.pull_derives derives room).imp_right
      fun full => ⟨full.1, .inl full.2⟩⟩

/-- The first turn of a message makes room for its length word. -/
theorem Receiver.receive_derives (derives : inflater.Derives derivable) {assembly : Assembly}
    (framed : receiver.Framed assembly) (room : 0 < assembly.room) {chunk : Option Bytes}
    {output : Bytes}
    (decoded : (receiver.receive inflater chunk).decoded = receiver.decoded ++ output) :
    ((receiver.receive inflater chunk).derived derivable = [] ∧ output.length < assembly.room) ∨
      (output.length = assembly.room ∧
        (output ++ (receiver.receive inflater chunk).derived derivable =
            receiver.derived derivable ∨
          output ++ (receiver.receive inflater chunk).derived derivable =
            derivable receiver.inflateState (receiver.availIn ++ chunk.getD []))) := by
  have sameRoom : receiver.prepare.sizeRest = assembly.room := by
    rw [← assembly.room_prepared]
    exact framed.prepare.assembles.sizeRest_eq receiver.prepare_isSome
  have sameInput : receiver.prepare.inflateState = receiver.inflateState ∧
      receiver.prepare.availIn = receiver.availIn := by
    unfold Receiver.prepare
    split <;> exact ⟨rfl, rfl⟩
  obtain ⟨other, grown, fills⟩ := Receiver.fill_derives derives (sameRoom ▸ room) chunk
  have same : other = output := by
    rw [receiver.prepare_decoded] at grown
    exact append_cancel_left (grown.symm.trans decoded)
  subst same
  rw [Receiver.derived, Receiver.derived, sameRoom, sameInput.1, sameInput.2] at fills
  exact fills

end Deriving

section Counting

/-- A message takes a turn for its length word and one for its body. -/
def turnsFor (sized : Bool) (stream : Bytes) : Nat :=
  2 * (networkHeader.messages stream).length - sized.toNat

/-- These bytes of the stream are in the buffer. -/
def Receiver.held (receiver : Receiver Z) : Bytes :=
  (if receiver.hasSize then word32 receiver.bufferSize else []) ++ receiver.contents

namespace Assembly
open List Option

variable {assembly : Assembly} {receiver : Receiver Z}

def turns (assembly : Assembly) (derived : Bytes) : Nat :=
  turnsFor assembly.sized (assembly.held ++ derived)

theorem turns_append {output : Bytes} (fits : output.length ≤ assembly.room) (rest : Bytes) :
    (assembly.append output).turns rest = assembly.turns (output ++ rest) := by
  have same : (assembly.append output).sized = assembly.sized := by
    cases assembly <;> rfl
  rw [turns, turns, same, assembly.held_append fits, append_assoc]

/-- No turn is needed where no message can be completed. -/
theorem turns_incomplete (framed : receiver.Framed assembly) (room : 0 < assembly.room) :
    assembly.turns [] = 0 := by
  rw [turns, append_nil, turnsFor, framed.messages_held room]
  exact Nat.zero_sub _

/-- The handler of a complete buffer is one turn. -/
theorem turns_next (framed : receiver.Framed assembly) (complete : assembly.Complete)
    (derived : Bytes) : assembly.next.turns derived = assembly.turns derived - 1 := by
  obtain ⟨full, moving⟩ := complete
  cases assembly with
  | idle => cases full
  | word bytes =>
    have length : bytes.length = 4 := by
      have missing := framed.assembles.2.2
      change bytes.length + _ = 4 at missing
      change 4 - _ = 0 at full
      omega
    simp only [turns, turnsFor, next, sized, held, append_nil, word32_bigEndian length,
      Bool.toNat_true, Bool.toNat_false, Nat.sub_zero]
  | body size bytes =>
    have length : bytes.length = size := by
      have missing := framed.assembles.2.2.1
      change size - _ = 0 at full
      omega
    have first : networkHeader.messages (word32 size ++ bytes ++ derived) =
        bytes :: networkHeader.messages derived := by
      rw [← length]
      exact networkHeader.messages_frame (length ▸ framed.assembles.2.2.2.1) derived
    simp only [turns, turnsFor, next, sized, held, first, nil_append, length_cons, Bool.toNat_true,
      Bool.toNat_false]
    omega
  | stuck => exact absurd rfl moving

/-- The buffer holds what the assembly holds. -/
theorem held_eq (framed : receiver.Framed assembly) (room : 0 < assembly.room) :
    receiver.held = assembly.held ∧ receiver.hasSize = assembly.sized := by
  have assembles := framed.assembles
  cases assembly with
  | idle => simp [Receiver.held, Receiver.contents, assembles.1, assembles.2, held, sized]
  | word bytes => simp [Receiver.held, Receiver.contents, assembles.1, assembles.2.1, held, sized]
  | body size bytes =>
    simp [Receiver.held, Receiver.contents, assembles.1, assembles.2.1, assembles.2.2.2.2, held,
      sized]
  | stuck => exact absurd room (Nat.lt_irrefl 0)

end Assembly

end Counting

section Waiting

/-- So many turns are left in the loop. -/
def ReadPhase.limit : ReadPhase → Nat
  | .idle => 0
  | .receiving limit => limit
  | .handling limit => limit + 1

/-- The last call of `uplink_read` returned. -/
def returned (turns : List Turn) : Bool :=
  match turns.getLast? with
  | some (.received _) => true
  | some .handled => true
  | _ => false

/-- An interrupted call of `uplink_read` leaves its work to the next one. -/
def Reception.allowance (reception : Reception Z) : Nat :=
  if reception.phase = .idle ∧ returned reception.turns = false then readLimit
  else reception.phase.limit

/-- The turns that are left suffice for the messages that wait behind the socket. -/
structure Reception.Punctual (derivable : Z → Bytes → Bytes) (reception : Reception Z) : Prop
    where
  limited : reception.phase.limit ≤ readLimit
  enough : ∃ assembly, reception.receiver.Framed assembly ∧
    assembly.Suits False reception.phase ∧ (reception.socket.unread ≠ [] ∨
      assembly.turns (reception.receiver.derived derivable) ≤ reception.allowance)

/-- The turns that are left suffice for what the turn takes if it takes everything. -/
def System.Prompt (inflater : Inflater Z) (derivable : Z → Bytes → Bytes) (system : System Z) :
    Event → Prop
  | .receive world _ =>
    system.receiver.derived derivable = [] →
      world.available system.socket = system.socket.unread →
        turnsFor system.uplink.hasSize (system.receiver.held ++ derivable
          system.uplink.inflateState (system.uplink.availIn ++ system.socket.unread)) ≤
            system.phase.limit
  | .handle world recovery => system.Orderly (.handle world recovery)
  | .timeout _ _ _ =>
    system.uplink.isOpen = false →
      system.timers.timeouts.head?.map (·.callback) = some .reconnectNow →
        turnsFor false (derivable (inflater.reset system.uplink.inflateState)
          system.uplink.availIn) ≤ readLimit
  | _ => True

instance (system : System Z) (event : Event) :
    Decidable (system.Prompt inflater derivable event) :=
  match event with
  | .receive _ _ => inferInstanceAs (Decidable (_ → _ → _))
  | .handle world recovery => inferInstanceAs (Decidable (system.Orderly (.handle world recovery)))
  | .timeout _ _ _ => inferInstanceAs (Decidable (_ → _ → _))
  | .arrive _ | .remoteClose | .loopGetNow _ | .uplinkRead | .plugin _ _ _ | .strayRead _ _
  | .reconfigure _ _ => .isTrue trivial

theorem World.available_prefix (world : World) (socket : Socket) :
    world.available socket <+: socket.unread := by
  unfold available
  split
  · exact socket.available_prefix _
  · exact nil_prefix

variable {system : System Z} {next : Reception Z}

theorem limit_nextTurn (limit : Nat) : (nextTurn limit).limit = limit := by
  unfold nextTurn
  split
  case isTrue zero => exact zero.symm
  case isFalse => rfl

theorem returned_snoc (turns : List Turn) (last : Turn) :
    returned (turns ++ [last]) = (last != .interrupted) := by
  unfold returned
  rw [List.getLast?_concat]
  cases last <;> rfl

/-- A returned call has only the turns that its loop has left. -/
theorem Reception.allowance_of_returned {reception : Reception Z}
    (ended : returned reception.turns = true) : reception.allowance = reception.phase.limit :=
  if_neg (by simp [ended])

theorem Reception.allowance_le {reception : Reception Z}
    (limited : reception.phase.limit ≤ readLimit) : reception.allowance ≤ readLimit := by
  unfold allowance
  split
  · exact le_rfl
  · exact limited

variable {limit : Nat} {chunk : Option Bytes} {world : World}

/-- A turn that empties the socket takes all that the kernel gives. -/
theorem Receives.takes_all (receives : Receives inflater limit system.reception next chunk)
    (takes : system.socket.Takes world next.socket) (empty : next.socket.unread = []) :
    chunk.getD [] = system.socket.unread ∧
      world.available system.socket = system.socket.unread := by
  obtain ⟨phase, moved⟩ := receives.moves
  have left : next.socket.unread = system.socket.unread.drop (chunk.getD []).length := by
    rw [moved]
    rfl
  have taken : chunk.getD [] <+: system.socket.unread := receives.offers.taken
  refine ⟨taken.eq_of_length_le (drop_eq_nil_iff.mp (left.symm.trans empty)), ?_⟩
  apply (world.available_prefix _).eq_of_length_le
  obtain same | drops := takes
  · rw [same.symm.trans empty]
    exact Nat.zero_le _
  · exact drop_eq_nil_iff.mp (drops.symm.trans empty)

variable {before : Reception Z}

theorem Receives.limit_le (receives : Receives inflater limit before next chunk) :
    next.phase.limit ≤ limit + 1 := by
  by_cases silent : (before.receiver.receive inflater chunk).decoded = before.receiver.decoded
  · obtain idle | again := receives.stops silent
    · rw [idle]
      exact Nat.zero_le _
    · rw [again, limit_nextTurn]
      exact Nat.le_succ _
  · rw [receives.goes silent]
    split
    · exact le_rfl
    · rw [limit_nextTurn]
      exact Nat.le_succ _

variable {assembly : Assembly}

/-- A complete buffer leads to its handler. -/
theorem Receives.handling (receives : Receives inflater limit before next chunk)
    (loud : (before.receiver.receive inflater chunk).decoded ≠ before.receiver.decoded)
    (suits : assembly.Suits False next.phase) (full : assembly.room = 0) :
    next.phase.limit = limit + 1 := by
  rw [receives.goes loud] at suits ⊢
  split
  case isTrue => rfl
  case isFalse missing =>
    rw [if_neg missing, nextTurn_suits] at suits
    exact absurd full (suits.resolve_right fun wedged => wedged.1).ne'

/-- A turn takes input only where nothing is left to decode. -/
theorem Receives.derived_nil (derives : inflater.Derives derivable) {bytes : Bytes}
    (framed : before.receiver.Framed assembly) (room : 0 < assembly.room)
    (receives : Receives inflater limit before next (some bytes)) :
    before.receiver.derived derivable = [] := by
  have dry := receives.offers.needed (some_ne_none bytes)
  have sameRoom : before.receiver.prepare.sizeRest = assembly.room := by
    rw [← assembly.room_prepared]
    exact framed.prepare.assembles.sizeRest_eq before.receiver.prepare_isSome
  have none := (dry.exhausted derives (sameRoom ▸ room)).1
  rw [← none, Receiver.derived, Receiver.derived]
  show _ = derivable before.receiver.prepare.inflateState before.receiver.prepare.availIn
  unfold Receiver.prepare
  split <;> rfl

/-- A turn either leaves nothing to decode or completes a part of a message. -/
theorem receives_punctual (derives : inflater.Derives derivable) {recovery : Recovery}
    (phase : system.phase = .receiving (limit + 1)) (holds : system.reception.Punctual derivable)
    (prompt : system.Prompt inflater derivable (.receive world recovery))
    (receives : Receives inflater limit system.reception next chunk)
    (takes : system.socket.Takes world next.socket) : next.Punctual derivable := by
  obtain ⟨limited, assembly, framed, suits, enough⟩ := holds
  have current : system.reception.phase = .receiving (limit + 1) := phase
  rw [current] at suits limited
  have room : 0 < assembly.room := suits.resolve_right fun wedged => wedged.1
  obtain ⟨output, appended, fits, decoded, nextSuits⟩ :=
    receives_framed derives.bounded framed suits receives
  obtain ⟨_, moved⟩ := receives.moves
  have same : next.receiver = system.reception.receiver.receive inflater chunk := by
    rw [moved]
    rfl
  have ended : returned next.turns = true := by
    rw [moved]
    exact returned_snoc _ _
  refine ⟨receives.limit_le.trans limited, assembly.append output, appended, nextSuits, ?_⟩
  rw [Reception.allowance_of_returned ended, assembly.turns_append fits]
  rw [same] at decoded ⊢
  obtain ⟨none, short⟩ | ⟨full, streams⟩ := Receiver.receive_derives derives framed room decoded
  · have missing : 0 < (assembly.append output).room := by
      rw [assembly.room_append]
      omega
    have needless := Assembly.turns_incomplete appended missing
    rw [assembly.turns_append fits] at needless
    rw [none, needless]
    exact .inr (Nat.zero_le _)
  have some : output ≠ [] := by
    rintro rfl
    exact absurd full room.ne
  have loud : (system.reception.receiver.receive inflater chunk).decoded ≠
      system.reception.receiver.decoded := by
    rw [decoded]
    simpa using some
  have filled : (assembly.append output).room = 0 := by
    rw [assembly.room_append]
    omega
  rw [receives.handling loud nextSuits filled]
  cases chunk with
  | none =>
    -- Nothing was taken, so the messages that wait are the same as before.
    have stream : output ++ (system.reception.receiver.receive inflater none).derived derivable =
        system.reception.receiver.derived derivable := by
      obtain same | same := streams
      · exact same
      · rwa [getD_none, append_nil] at same
    have socket : next.socket.unread = system.reception.socket.unread := by
      rw [moved]
      rfl
    have allowance : system.reception.allowance = limit + 1 := by
      rw [Reception.allowance, current]
      rfl
    rw [stream, socket, ← allowance]
    exact enough
  | some bytes =>
    have dry := receives.derived_nil derives framed room
    have stream := streams.resolve_left fun same => some
      (append_eq_nil_iff.mp (same.trans dry)).1
    refine or_iff_not_imp_left.mpr fun empty => ?_
    obtain ⟨taken, available⟩ := receives.takes_all takes (not_not.mp empty)
    have needed := prompt dry available
    obtain ⟨sameHeld, sameSize⟩ := Assembly.held_eq framed room
    rw [phase] at needed
    rw [stream, taken, Assembly.turns, ← sameHeld, ← sameSize]
    exact needed

theorem handles_punctual (framed : system.receiver.Framed assembly) (complete : assembly.Complete)
    (limited : limit + 1 ≤ readLimit)
    (orderly : system.uplink.hasSize = false → bigEndian system.receiver.contents ≠ 0)
    (enough : system.socket.unread ≠ [] ∨
      assembly.turns (system.receiver.derived derivable) ≤ limit + 1) :
    (system.reception.handled limit system.receiver.handle).Punctual derivable := by
  have ended : returned (system.reception.handled limit system.receiver.handle).turns = true :=
    returned_snoc _ _
  have limits : (system.reception.handled limit system.receiver.handle).phase.limit = limit :=
    limit_nextTurn limit
  have rests : assembly.next.Rests False := handles_assembled framed complete (.inr orderly)
  refine ⟨by omega, assembly.next, framed.handle complete, nextTurn_suits.mpr rests, ?_⟩
  rw [Reception.allowance_of_returned ended, limits]
  have derived : (system.reception.handled limit system.receiver.handle).receiver.derived
      derivable = system.receiver.derived derivable := by
    show system.receiver.handle.derived derivable = _
    unfold Receiver.handle
    split <;> rfl
  rw [derived, Assembly.turns_next framed complete]
  exact enough.imp_right fun enough => by omega

theorem interrupts_punctual (framed : system.receiver.Framed assembly)
    (complete : assembly.Complete) (limited : limit + 1 ≤ readLimit)
    (interrupts : (system.withWorld world).Interrupts)
    (orderly : system.uplink.reaction = .ignore ∨ system.uplink.reaction.Clears ∨ world.Calm)
    (enough : system.socket.unread ≠ [] ∨
      assembly.turns (system.receiver.derived derivable) ≤ limit + 1) :
    (system.reception.interrupted system.receiver.interrupt).Punctual derivable := by
  have reacts : system.uplink.reaction ≠ .ignore := interrupts.1
  have clears : system.uplink.reaction.Clears := by
    obtain ignored | clears | calm := orderly
    · exact absurd ignored reacts
    · exact clears
    · exact interrupts.2.resolve_right fun wild => wild calm
  obtain ⟨size, bytes, rfl⟩ := framed.sized complete (System.hasSize_of_reaction reacts)
  rw [System.interrupt_eq reacts, if_pos clears]
  refine ⟨Nat.zero_le _, .idle, framed.cleared complete.1, .inl (by decide), ?_⟩
  have allowance : (system.reception.interrupted system.receiver.dispatch.cleared).allowance =
      readLimit := if_pos ⟨rfl, returned_snoc _ _⟩
  have next := Assembly.turns_next framed complete (system.receiver.derived derivable)
  rw [allowance]
  refine enough.imp_right fun enough => ?_
  show Assembly.turns .idle (system.receiver.derived derivable) ≤ readLimit
  rw [show Assembly.idle = (Assembly.body size bytes).next from rfl, next]
  omega

theorem moves_punctual {event : Event} (derives : inflater.Derives derivable)
    (holds : system.uplink.isOpen = true → system.reception.Punctual derivable)
    (prompt : system.Prompt inflater derivable event) (moves : Moves inflater system event next) :
    next.Punctual derivable := by
  cases moves with
  | stays _ opened idle => exact holds opened
  | arrives bytes opened =>
    obtain ⟨limited, assembly, framed, suits, enough⟩ := holds opened
    refine ⟨limited, assembly, framed, suits, enough.imp_left fun some none => some ?_⟩
    exact (append_eq_nil_iff.mp none).1
  | closes opened =>
    obtain ⟨limited, assembly, framed, suits, enough⟩ := holds opened
    exact ⟨limited, assembly, framed, suits, enough⟩
  | reads opened idle =>
    obtain ⟨limited, assembly, framed, suits, enough⟩ := holds opened
    have phase : system.reception.phase = .idle := idle
    have allowed := Reception.allowance_le limited
    rw [phase] at suits
    exact ⟨le_rfl, assembly, framed, suits, enough.imp_right fun enough => enough.trans allowed⟩
  | connects owner world recovery inflateState closed fires =>
    refine ⟨Nat.zero_le _, .idle, ⟨⟨rfl, rfl⟩, rfl, nofun⟩, .inl (by decide), .inr ?_⟩
    have needed := prompt closed fires
    rw [derives.forgets _ inflateState] at needed
    exact needed
  | receives world recovery limit chunk next opened phase receives takes =>
    exact receives_punctual derives phase (holds opened) prompt receives takes
  | handles world recovery limit opened phase =>
    obtain ⟨limited, assembly, framed, suits, enough⟩ := holds opened
    have current : system.reception.phase = .handling limit := phase
    rw [Reception.allowance, current] at enough
    rw [current] at suits limited
    apply handles_punctual framed suits limited _ enough
    intro unsized
    have orderly : system.Orderly (.handle world recovery) := prompt
    simp only [System.Orderly, unsized, Bool.false_eq_true, if_false] at orderly
    exact orderly
  | interrupts world recovery limit opened phase interrupts =>
    obtain ⟨limited, assembly, framed, suits, enough⟩ := holds opened
    have current : system.reception.phase = .handling limit := phase
    rw [Reception.allowance, current] at enough
    rw [current] at suits limited
    apply interrupts_punctual framed suits limited interrupts _ enough
    have sized : system.uplink.hasSize = true := System.hasSize_of_reaction interrupts.1
    have orderly : system.Orderly (.handle world recovery) := prompt
    simpa only [System.Orderly, sized, if_true] using orderly

end Waiting

/-- A prompt run never returns from `uplink_read` with a complete message behind the socket. -/
theorem run_leaves_no_message (derives : inflater.Derives derivable) (inflateState : Z)
    (now : Nat) (events : List Event)
    (fits : (System.created inflateState now).RunFits inflater (System.Prompt inflater derivable)
      events) (system : System Z)
    (reached : (System.created inflateState now).run inflater events = .ok system)
    (opened : system.uplink.isOpen = true) (idle : system.phase = .idle)
    (ended : returned system.history.turns = true) :
    system.socket.unread ≠ [] ∨
      networkHeader.messages (system.history.decoded ++
        derivable system.uplink.inflateState system.uplink.availIn) =
          system.history.dispatched := by
  have kept := run_received (fun _ _ _ holds prompt moves =>
    moves_punctual derives holds prompt moves) fits
  rw [reached] at kept
  obtain ⟨-, assembly, framed, suits, enough⟩ := kept.within.receives opened
  have phase : system.reception.phase = .idle := idle
  rw [Reception.allowance_of_returned ended, phase] at enough
  rw [phase] at suits
  refine enough.imp_right fun enough => ?_
  have none : networkHeader.messages (assembly.held ++
      derivable system.uplink.inflateState system.uplink.availIn) = [] := by
    have sized : assembly.sized.toNat ≤ 1 := Bool.toNat_le _
    apply eq_nil_of_length_eq_zero
    change 2 * (networkHeader.messages (assembly.held ++ derivable system.uplink.inflateState
      system.uplink.availIn)).length - _ ≤ 0 at enough
    omega
  have stream : system.history.decoded =
      networkHeader.frames system.history.dispatched ++ assembly.held := framed.stream
  have all := networkHeader.messages_frames framed.small (assembly.held ++
    derivable system.uplink.inflateState system.uplink.availIn)
  rw [none, append_nil, ← append_assoc] at all
  rw [stream]
  exact all

theorem run_leaves_no_message_pieces :
    ∃ system, (System.created (.start none) 0).run storedInflater
        (twoMessages ++ [receiving 100]) = .ok system ∧ system.phase = .idle ∧
      networkHeader.messages (system.history.decoded ++
        Stored.derivable system.uplink.inflateState system.uplink.availIn) =
          system.history.dispatched := by
  have returns : reaches ((System.created (.start none) 0).run storedInflater
      (twoMessages ++ [receiving 100])) (fun system => system.uplink.isOpen &&
        decide (system.phase = .idle) && returned system.history.turns &&
        system.socket.unread == []) = true := by decide +kernel
  obtain ⟨system, reached, ends⟩ := exists_of_reaches returns
  simp only [Bool.and_eq_true, decide_eq_true_eq, beq_iff_eq] at ends
  obtain ⟨⟨⟨opened, idle⟩, ended⟩, empty⟩ := ends
  have nothing := run_leaves_no_message storedInflater_derives (.start none) 0
    (twoMessages ++ [receiving 100]) (by decide +kernel) system reached opened idle ended
  exact ⟨system, reached, idle, nothing.resolve_left fun some => some empty⟩

/-- More messages arrive at once than a call of `uplink_read` has turns for. -/
def manyMessages : List Event :=
  connecting [] ++ [.arrive (storedStream (networkHeader.frames (List.replicate 26 [7]))),
    .uplinkRead] ++ (List.replicate 50 [receiving 1024, .handle .calm .none]).flatten

theorem many_messages_leave_one :
    ∃ system, (System.created (.start none) 0).run storedInflater manyMessages = .ok system ∧
      system.uplink.isOpen = true ∧ system.phase = .idle ∧
      returned system.history.turns = true ∧ system.socket.unread = [] ∧
      networkHeader.messages (system.history.decoded ++
        Stored.derivable system.uplink.inflateState system.uplink.availIn) ≠
          system.history.dispatched := by
  have returns : reaches ((System.created (.start none) 0).run storedInflater manyMessages)
      (fun system => system.uplink.isOpen && decide (system.phase = .idle) &&
        returned system.history.turns && system.socket.unread == [] &&
        (networkHeader.messages (system.history.decoded ++ Stored.derivable
          system.uplink.inflateState system.uplink.availIn)).length == 26 &&
        system.history.dispatched.length == 25) = true := by decide +kernel
  obtain ⟨system, reached, ends⟩ := exists_of_reaches returns
  simp only [Bool.and_eq_true, decide_eq_true_eq, beq_iff_eq] at ends
  obtain ⟨⟨⟨⟨⟨opened, idle⟩, ended⟩, empty⟩, messages⟩, dispatched⟩ := ends
  refine ⟨system, reached, opened, idle, ended, empty, fun same => ?_⟩
  rw [same, dispatched] at messages
  exact absurd messages (by decide)

end Ucollect.Core
