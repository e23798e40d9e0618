import Ucollect.Proof.Uplink.Turns

namespace Ucollect.Core
open Library

variable {Z : Type}

/-- These bytes are what a call of `recv` returns. -/
def World.available (world : World) (socket : Socket) : Bytes :=
  match world.recv with
  | .ready amount => socket.available amount
  | _ => []

/-- The turn takes nothing from the kernel or what a call of `recv` returns. -/
def Socket.Takes (before : Socket) (world : World) (after : Socket) : Prop :=
  after.unread = before.unread ∨
    after.unread = before.unread.drop (world.available before).length

/-- An open connection took its input from the kernel. -/
def System.Took (socket : Socket) (world : World) (system : System Z) : Prop :=
  system.uplink.isOpen = true → socket.Takes world system.socket

/-- No input was taken yet. -/
def System.Waits (socket : Socket) (world : World) (system : System Z) : Prop :=
  system.socket = socket ∧ system.world.recv = world.recv

section Taking

variable {inflater : Inflater Z} {socket : Socket} {world : World}

theorem took_untimed : Untimed (System.Took (Z := Z) socket world) where
  keep before after same took opened := by
    have sameOpen : after.uplink.isOpen = before.uplink.isOpen := congrArg Reception.isOpen same
    have sameSocket : after.socket = before.socket := congrArg Reception.socket same
    rw [sameSocket]
    exact took (sameOpen ▸ opened)
  hangUp _ _ _ := nofun

theorem System.Waits.took {system : System Z} (waits : system.Waits socket world) :
    system.Took socket world := fun _ => .inl (congrArg Socket.unread waits.1)

/-- The changes of the uplink outside of a disconnect keep the connection open. -/
theorem modifyUplink_took {update : Uplink Z → Uplink Z}
    (same : ∀ uplink, (update uplink).isOpen = uplink.isOpen) :
    Keeps (System.Took socket world) (System.Took socket world) (fun _ => True)
      (modifyUplink update) :=
  meets_modify fun system took opened => took ((same system.uplink).symm.trans opened)

theorem modifyHistory_took (update : History → History) :
    Keeps (System.Took socket world) (System.Took socket world) (fun _ => True)
      (modifyHistory (Z := Z) update) :=
  meets_modify fun _ took => took

theorem setPhase_took (phase : ReadPhase) :
    Keeps (System.Took socket world) (System.Took socket world) (fun _ => True)
      (setPhase (Z := Z) phase) :=
  meets_modify fun _ took => took

theorem modifyUplink_waits (update : Uplink Z → Uplink Z) {leaves : Exit → System Z → Prop} :
    Meets (System.Waits socket world) (modifyUplink update) (fun _ => System.Waits socket world)
      leaves :=
  meets_modify fun _ waits => waits

theorem inflateOnce_took :
    Keeps (System.Took socket world) (System.Took socket world) (fun _ => True)
      (inflateOnce inflater) := by
  apply Keeps.get
  intro system
  refine Keeps.bind (modifyUplink_took fun _ => rfl) fun _ => ?_
  split
  · exact .pure none
  · exact .bind (modifyHistory_took _) fun _ => .pure _

theorem inflateOnce_waits {leaves : Exit → System Z → Prop} :
    Meets (System.Waits socket world) (inflateOnce inflater) (fun _ => System.Waits socket world)
      leaves := by
  apply meets_get
  intro system waits
  refine Meets.bind ((modifyUplink_waits _).start waits) fun _ => ?_
  split
  · exact meets_pure fun _ waits => waits
  · exact fun _ waits => waits

theorem inflateAgain_took :
    Keeps (System.Took socket world) (System.Took socket world) (fun _ => True)
      (inflateAgain inflater) := by
  apply Keeps.bind inflateOnce_took
  intro output
  match output with
  | none => exact .bind took_untimed.durable.reconnectFromEvent fun _ => .pure RddStatus.endLoop
  | some [] => exact .pure RddStatus.endLoop
  | some (byte :: more) => exact .pure (RddStatus.data (byte :: more))

theorem logTurn_took (turn : Turn) :
    Keeps (System.Took socket world) (System.Took socket world) (fun _ => True)
      (logTurn (Z := Z) turn) := modifyHistory_took _

theorem receiveInput_took :
    Meets (System.Waits socket world) (receiveInput inflater)
      (fun _ => System.Took socket world) (Leaves (System.Took socket world) fun _ => True) := by
  have closes : Keeps (System.Took (Z := Z) socket world) (System.Took socket world)
      (fun _ => True) closedByRemote := took_untimed.durable.closedByRemote trivial
  apply meets_get
  intro system waits
  have took := waits.took
  cases recv : system.world.recv with
  | interrupted => exact (Keeps.bind (logTurn_took _) fun _ => .pure RddStatus.again).start took
  | fatal => exact meets_throw fun _ _ => trivial
  | reset => exact (Keeps.bind (logTurn_took _) fun _ => closes).start took
  | ready amount =>
    dsimp only
    split
    · refine (Keeps.bind (logTurn_took _) fun _ => ?_).start took
      split
      · exact closes
      · exact .pure RddStatus.endLoop
    case h_2 byte more available =>
      have takes : Meets (fun current => current = system) (takeInput (Z := Z) (byte :: more))
          (fun _ => System.Took socket world)
          (Leaves (System.Took socket world) fun _ => True) := by
        apply meets_modify
        rintro _ rfl _
        right
        have returned : world.available socket = byte :: more := by
          rw [World.available, ← waits.2, recv, ← waits.1]
          exact available
        rw [returned, ← waits.1]
      exact Meets.bind takes fun _ => .bind (logTurn_took _) fun _ => inflateAgain_took

theorem readDecompressedData_took :
    Meets (System.Waits socket world) (readDecompressedData inflater)
      (fun _ => System.Took socket world) (Leaves (System.Took socket world) fun _ => True) := by
  apply Meets.bind inflateOnce_waits
  intro output
  apply meets_pointwise
  intro system waits
  match output with
  | none =>
    exact (Keeps.bind (logTurn_took _) fun _ => .bind took_untimed.durable.reconnectFromEvent
      fun _ => .pure RddStatus.endLoop).start waits.took
  | some (byte :: more) => exact (Keeps.bind (logTurn_took _) fun _ => .pure _).start waits.took
  | some [] =>
    apply meets_get
    intro current stands
    rw [stands]
    split
    · exact receiveInput_took.start waits
    · exact (Keeps.bind (logTurn_took _) fun _ => inflateAgain_took).start waits.took

/-- A turn takes its input from the kernel, also where a callback fails in it. -/
theorem uplinkReceive_took (limit : Nat) :
    Meets (System.Waits socket world) (uplinkReceive inflater limit)
      (fun _ => System.Took socket world) (Leaves (System.Took socket world) fun _ => True) := by
  apply Meets.bind (modifyUplink_waits _)
  intro _
  apply Meets.bind readDecompressedData_took
  intro status
  cases status with
  | endLoop => exact setPhase_took .idle
  | again => exact setPhase_took _
  | data output =>
    exact Keeps.bind (modifyUplink_took fun _ => rfl) fun _ =>
      Keeps.get fun _ => setPhase_took _

theorem receive_took {system : System Z} (world : World) (recovery : Recovery) (limit : Nat) :
    Outcome (System.Took system.socket world) (fun _ => True)
      (finishEvent (loopProtect recovery (uplinkReceive inflater limit))
        (system.withWorld world)) := by
  have waits : (system.withWorld world).Waits system.socket world := ⟨rfl, rfl⟩
  have untimed : Untimed (System.Took (Z := Z) system.socket world) := took_untimed
  exact outcome_protected ((uplinkReceive_took limit).start waits)
    (untimed.durable.toStable.recover untimed.durable.reconnectFromEvent recovery
      fun _ took => took) trivial

end Taking

end Ucollect.Core

namespace Ucollect.Core
open Library

variable {Z : Type}

/-- A call of `inflate` never writes more than it has room for. -/
def Inflater.Bounded (inflater : Inflater Z) : Prop :=
  ∀ state input room, (inflater.inflate state input room).output.length ≤ room

/-- A reset forgets the history of the stream. -/
def Inflater.Forgets (inflater : Inflater Z) : Prop :=
  ∀ first second, inflater.reset first = inflater.reset second

/-- The derivable bytes of a stream come out in order, and all of them where there is room. -/
structure Inflater.Derives (inflater : Inflater Z) (derivable : Z → Bytes → Bytes) : Prop where
  bounded : inflater.Bounded
  forgets : inflater.Forgets
  continues : ∀ state input room more,
    (inflater.inflate state input room).corrupted = false →
    derivable state (input ++ more) = (inflater.inflate state input room).output ++
      derivable (inflater.inflate state input room).state
        ((inflater.inflate state input room).rest ++ more)
  exhausts : ∀ state input room, (inflater.inflate state input room).corrupted = false →
    (inflater.inflate state input room).output.length < room →
    derivable (inflater.inflate state input room).state
      (inflater.inflate state input room).rest = []
  fails : ∀ state input room, (inflater.inflate state input room).corrupted = true →
    derivable (inflater.inflate state input room).state
      (inflater.inflate state input room).rest = []

/-- This is how far a stream of stored blocks is decoded. -/
inductive Stored where
  | start (seen : Option UInt8)
  | block
  | sizes (seen : Bytes)
  | data (left : Nat)
  | bad
  deriving DecidableEq, Repr

namespace Stored

/-- The two bytes name the method, the window and a check without a dictionary. -/
def validStart (first second : UInt8) : Bool :=
  first.toNat % 16 == 8 && first.toNat / 16 ≤ 7 && (first.toNat * 256 + second.toNat) % 31 == 0 &&
    second.toNat / 32 % 2 == 0

/-- A block of no data is followed by the next one. -/
def openBlock (length : Nat) : Stored := if length = 0 then block else data length

/-- The length is followed by its complement. -/
def checkSizes (sizes : Bytes) : Stored :=
  match sizes with
  | [low, high, lowCheck, highCheck] =>
    let length := low.toNat + 256 * high.toNat
    if length + (lowCheck.toNat + 256 * highCheck.toNat) = 65535 then openBlock length else bad
  | few => if few.length < 4 then Stored.sizes few else bad

/-- This is the next state behind a byte that is no data. -/
def next (state : Stored) (byte : UInt8) : Stored :=
  match state with
  | start none => start (some byte)
  | start (some first) => if validStart first byte then block else bad
  | block => if byte.toNat % 8 = 0 then sizes [] else bad
  | sizes seen => checkSizes (seen ++ [byte])
  | data left => data left
  | bad => bad

/-- Data needs room, and everything else is read without it. -/
def inflate (state : Stored) (input : Bytes) (room : Nat) : Inflated Stored :=
  match input with
  | [] => ⟨state, [], [], state == bad⟩
  | byte :: rest =>
    match state with
    | bad => ⟨bad, byte :: rest, [], true⟩
    | data left =>
      if room = 0 then ⟨data left, byte :: rest, [], false⟩
      else
        let more := inflate (openBlock (left - 1)) rest (room - 1)
        { more with output := byte :: more.output }
    | other => inflate (other.next byte) rest room

def derivable (state : Stored) (input : Bytes) : Bytes :=
  match input with
  | [] => []
  | byte :: rest =>
    match state with
    | bad => []
    | data left => byte :: derivable (openBlock (left - 1)) rest
    | other => derivable (other.next byte) rest

theorem inflate_bounded (state : Stored) (input : Bytes) (room : Nat) :
    (inflate state input room).output.length ≤ room := by
  fun_induction inflate state input room with
  | case1 => exact Nat.zero_le _
  | case2 => exact Nat.zero_le _
  | case3 => exact Nat.zero_le _
  | case4 room byte rest left some more ih =>
    have length : more.output.length ≤ room - 1 := ih
    rw [List.length_cons]
    omega
  | case5 => assumption

/-- What comes out first is derivable first. -/
theorem inflate_continues (state : Stored) (input : Bytes) (room : Nat) (more : Bytes)
    (intact : (inflate state input room).corrupted = false) :
    derivable state (input ++ more) = (inflate state input room).output ++
      derivable (inflate state input room).state ((inflate state input room).rest ++ more) := by
  fun_induction inflate state input room with
  | case1 => rfl
  | case2 => cases intact
  | case3 => rfl
  | case4 room byte rest left some more' ih =>
    rw [List.cons_append, derivable, ih intact]
    rfl
  | case5 room byte rest other notBad notData ih =>
    rw [← ih intact]
    cases other with
    | bad => exact absurd rfl notBad
    | data left => exact absurd rfl (notData left)
    | start seen => rfl
    | block => rfl
    | sizes seen => rfl

/-- A call with room left has read all of the input. -/
theorem inflate_exhausts (state : Stored) (input : Bytes) (room : Nat)
    (intact : (inflate state input room).corrupted = false)
    (short : (inflate state input room).output.length < room) :
    (inflate state input room).rest = [] := by
  fun_induction inflate state input room with
  | case1 => rfl
  | case2 => cases intact
  | case3 => exact absurd short (Nat.lt_irrefl 0)
  | case4 room byte rest left some more ih =>
    have length : more.output.length + 1 < room := short
    exact ih intact (show more.output.length < room - 1 by omega)
  | case5 room byte rest other notBad notData ih => exact ih intact short

theorem inflate_fails (state : Stored) (input : Bytes) (room : Nat)
    (corrupted : (inflate state input room).corrupted = true) :
    (inflate state input room).state = bad := by
  fun_induction inflate state input room with
  | case1 => simpa using corrupted
  | case2 => rfl
  | case3 => cases corrupted
  | case4 room byte rest left some more ih => exact ih corrupted
  | case5 room byte rest other notBad notData ih => exact ih corrupted

end Stored

/-- This decoder behaves like zlib on streams without compressed blocks. -/
def storedInflater : Inflater Stored where
  reset _ := .start none
  inflate := Stored.inflate

/-- This is a stream of one block. -/
def storedStream (data : Bytes) : Bytes :=
  let low := data.length.toUInt8
  let high := (data.length / 256).toUInt8
  [0x78, 0x01, 0x00, low, high, 255 - low, 255 - high] ++ data

theorem storedInflater_derives : storedInflater.Derives Stored.derivable where
  bounded := Stored.inflate_bounded
  forgets _ _ := rfl
  continues := Stored.inflate_continues
  exhausts state input room intact short := by
    have done : (storedInflater.inflate state input room).rest = [] :=
      Stored.inflate_exhausts state input room intact short
    rw [done]
    rfl
  fails state input room corrupted := by
    have bad : (storedInflater.inflate state input room).state = .bad :=
      Stored.inflate_fails state input room corrupted
    rw [bad]
    cases (storedInflater.inflate state input room).rest with
    | nil => rfl
    | cons byte rest => rfl

end Ucollect.Core
